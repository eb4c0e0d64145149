/-!
# What can be wrong with a JSON text

A text is refused for the first thing that is wrong with it, reading from the left. `Fault` lists
what can be wrong with the spelling; the constructors of `Unfinished` say what the text was in the
middle of when it ended.
-/

namespace Bracketdown.Json

/-- What was being read when a text ended. -/
inductive Unfinished where
  | value | object | list | string
  deriving Repr, DecidableEq

/-- What is wrong with the spelling of a text. -/
inductive Fault where
  | ended (what : Unfinished)
  | expectedValue
  | expectedWord
  | expectedColon
  | expectedCommaOrBrace
  | expectedCommaOrBracket
  | keyNotString
  | trailingComma
  | trailingCharacters
  | badNumber
  | numberTooLarge
  | badEscape
  | controlInString
  /-- A trailing surrogate without a leading one, or a leading one before something else. -/
  | loneSurrogate
  /-- A leading surrogate that no further escape follows. -/
  | surrogateCutShort
  /-- Bytes in a string that spell no character. -/
  | notUnicode
  | tooDeep
  deriving Repr, DecidableEq

/-- The wording for a text that ended early. -/
def Unfinished.message : Unfinished → String
  | .value => "EOF while parsing a value"
  | .object => "EOF while parsing an object"
  | .list => "EOF while parsing a list"
  | .string => "EOF while parsing a string"

/-- The wording of a fault. -/
def Fault.message : Fault → String
  | .ended what => what.message
  | .expectedValue => "expected value"
  | .expectedWord => "expected ident"
  | .expectedColon => "expected `:`"
  | .expectedCommaOrBrace => "expected `,` or `\x7d`"
  | .expectedCommaOrBracket => "expected `,` or `]`"
  | .keyNotString => "key must be a string"
  | .trailingComma => "trailing comma"
  | .trailingCharacters => "trailing characters"
  | .badNumber => "invalid number"
  | .numberTooLarge => "number out of range"
  | .badEscape => "invalid escape"
  | .controlInString => "control character (\\u0000-\\u001F) found while parsing a string"
  | .loneSurrogate => "lone leading surrogate in hex escape"
  | .surrogateCutShort => "unexpected end of hex escape"
  | .notUnicode => "invalid unicode code point"
  | .tooDeep => "recursion limit exceeded"

end Bracketdown.Json
