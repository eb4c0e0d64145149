import Bracketdown.Markdown.EntityTable
import Bracketdown.Text.Parts

/-!
# Character references

A character reference stands for one or two characters: by name (`&amp;`), by number (`&#38;`) or by
hexadecimal number (`&#x26;`). `reference?` reads one behind its `&`. A name has to be one that HTML
knows; a number may have seven digits, or six hexadecimal ones, and one that is no character stands
for the replacement character.
-/

namespace Bracketdown.Markdown.Entity

/-- The number that a run of digits writes. -/
def number (base : Nat) (digit : Char → Nat) (digits : List Char) : Nat :=
  digits.foldl (fun n d => base * n + digit d) 0

/-- The value of a decimal digit. -/
def decimalDigit (c : Char) : Nat := c.toNat - 48

/-- The value of a hexadecimal digit. -/
def hexDigit (c : Char) : Nat :=
  if c.isDigit then c.toNat - 48 else c.toLower.toNat - 87

/-- Whether a character is a hexadecimal digit. -/
def isHexDigit (c : Char) : Bool :=
  c.isDigit || ('a' ≤ c && c ≤ 'f') || ('A' ≤ c && c ≤ 'F')

/-- One entry of the table: a name and what it stands for. -/
def entry? (text : List Char) : Option (List Char × List Char) :=
  match Text.parts (· = ' ') text with
  | [name, codes] =>
    let codes := (Text.parts (· = '+') codes).map (number 10 decimalDigit)
    some (name, codes.map Char.ofNat)
  | _ => none

/-- The names with what they stand for. -/
def named : List (List Char × List Char) :=
  EntityTable.lines.flatMap fun line => (Text.parts (· = ';') line.toList).filterMap entry?

/-- What a name stands for. -/
def ofName? (name : List Char) : Option (List Char) := (named.find? (·.1 = name)).map (·.2)

/-- The character with a number; the replacement character, if there is none or it is the null
character. -/
def ofNumber (n : Nat) : Char :=
  if n ≠ 0 ∧ n.isValidChar then Char.ofNat n else '\ufffd'

/-- Reads a number of at most `limit` digits and the semicolon behind it. -/
def ofDigits? (limit base : Nat) (isDigit : Char → Bool) (digit : Char → Nat) (s : List Char) :
    Option (List Char × List Char) :=
  let digits := (s.take limit).takeWhile isDigit
  match digits, s.drop digits.length with
  | _ :: _, ';' :: rest => some ([ofNumber (number base digit digits)], rest)
  | _, _ => none

/-- Reads the rest of a character reference behind its `&`: what it stands for, and the text behind
it. -/
def reference? : List Char → Option (List Char × List Char)
  | '#' :: 'x' :: s => ofDigits? 6 16 isHexDigit hexDigit s
  | '#' :: 'X' :: s => ofDigits? 6 16 isHexDigit hexDigit s
  | '#' :: s => ofDigits? 7 10 Char.isDigit decimalDigit s
  | s =>
    match s.dropWhile Char.isAlphanum with
    | ';' :: rest => (ofName? (s.takeWhile Char.isAlphanum)).map (·, rest)
    | _ => none

end Bracketdown.Markdown.Entity
