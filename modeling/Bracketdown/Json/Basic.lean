/-!
# JSON values and their two written forms

`Json` is the value that is written; objects keep the order of their members. `compact` writes
without any blank, and `pretty` gives each member and element a line of its own, indented by two
blanks a level. Both use the same spelling of strings (`quoted`): only the quote, the backslash and
the control characters below a blank are escaped, the latter by a short form where there is one.

The writers work on lists of characters, so that what is written can be taken apart again one
character at a time.
-/

namespace Bracketdown

/-- A JSON value with natural numbers. -/
inductive Json where
  | null
  | bool (b : Bool)
  | number (n : Nat)
  | string (s : String)
  | array (elements : List Json)
  | object (members : List (String × Json))
  deriving Inhabited, Repr

namespace Json

/-- A hexadecimal digit in lower case. -/
def hexDigit (n : Nat) : Char :=
  if n < 10 then Char.ofNat ('0'.toNat + n) else Char.ofNat ('a'.toNat + (n - 10))

/-- The spelling of one character inside a string. -/
def escaped (c : Char) : List Char :=
  if c = '"' then ['\\', '"']
  else if c = '\\' then ['\\', '\\']
  else if c = '\x08' then ['\\', 'b']
  else if c = '\t' then ['\\', 't']
  else if c = '\n' then ['\\', 'n']
  else if c = '\x0c' then ['\\', 'f']
  else if c = '\r' then ['\\', 'r']
  else if c.toNat < 0x20 then
    ['\\', 'u', '0', '0', hexDigit (c.toNat / 16), hexDigit (c.toNat % 16)]
  else [c]

/-- The spelling of the characters of a string. -/
def escapedAll (cs : List Char) : List Char := cs.flatMap escaped

/-- The spelling of a string, between quotes. -/
def quoted (s : String) : List Char := '"' :: (escapedAll s.toList ++ ['"'])

/-- The decimal spelling of a natural number. -/
def digits (n : Nat) : List Char := (toString n).toList

/-- The spelling of a truth value. -/
def word (b : Bool) : List Char := if b then ['t', 'r', 'u', 'e'] else ['f', 'a', 'l', 's', 'e']

mutual

/-- The written form without blanks. -/
def compact : Json → List Char
  | .null => ['n', 'u', 'l', 'l']
  | .bool b => word b
  | .number n => digits n
  | .string s => quoted s
  | .array [] => ['[', ']']
  | .array (v :: vs) => '[' :: (compact v ++ compactElements vs ++ [']'])
  | .object [] => ['\x7b', '\x7d']
  | .object (m :: ms) => '\x7b' :: (compactMember m ++ compactMembers ms ++ ['\x7d'])

/-- The elements after the first, each behind a comma. -/
def compactElements : List Json → List Char
  | [] => []
  | v :: vs => ',' :: (compact v ++ compactElements vs)

/-- One member of an object. -/
def compactMember : String × Json → List Char
  | (key, v) => quoted key ++ ':' :: compact v

/-- The members after the first, each behind a comma. -/
def compactMembers : List (String × Json) → List Char
  | [] => []
  | m :: ms => ',' :: (compactMember m ++ compactMembers ms)

end

/-- A line break with the indentation of a level. -/
def newline (level : Nat) : List Char := '\n' :: List.replicate (2 * level) ' '

mutual

/-- The written form with one element or member a line, for a value at the given level. -/
def pretty (level : Nat) : Json → List Char
  | .null => ['n', 'u', 'l', 'l']
  | .bool b => word b
  | .number n => digits n
  | .string s => quoted s
  | .array [] => ['[', ']']
  | .array (v :: vs) =>
    '[' :: (newline (level + 1) ++ pretty (level + 1) v ++ prettyElements (level + 1) vs
      ++ newline level ++ [']'])
  | .object [] => ['\x7b', '\x7d']
  | .object (m :: ms) =>
    '\x7b' :: (newline (level + 1) ++ prettyMember (level + 1) m ++ prettyMembers (level + 1) ms
      ++ newline level ++ ['\x7d'])

/-- The elements after the first, each on a line of its own. -/
def prettyElements (level : Nat) : List Json → List Char
  | [] => []
  | v :: vs => ',' :: (newline level ++ pretty level v ++ prettyElements level vs)

/-- One member of an object, with a blank after the colon. -/
def prettyMember (level : Nat) : String × Json → List Char
  | (key, v) => quoted key ++ ':' :: ' ' :: pretty level v

/-- The members after the first, each on a line of its own. -/
def prettyMembers (level : Nat) : List (String × Json) → List Char
  | [] => []
  | m :: ms => ',' :: (newline level ++ prettyMember level m ++ prettyMembers level ms)

end

end Json

end Bracketdown
