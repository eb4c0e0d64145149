import Bracketdown.Markdown.Emphasis
import Bracketdown.Markdown.Html
import Bracketdown.Markdown.Label
import Bracketdown.Text.Parts
import Bracketdown.Text.Punctuation

/-!
# Spans of text

The pieces of running text that are read in one go: code between backticks, addresses between angle
brackets, and runs of the signs that emphasise. The readers start behind the character that tells
the piece.
-/

namespace Bracketdown.Markdown

open Text (isBlank isPunctuation)

/-! ## Code -/

namespace CodeSpan

/-- The text up to the next run of exactly `length` backticks, and the text behind the run. `before`
is the run just before the text. -/
def untilRun? (length : Nat) : Nat → List Char → Option (List Char × List Char)
  | run, [] => if run = length then some ([], []) else none
  | run, c :: s =>
    if c = '\x60' then untilRun? length (run + 1) s
    else if run = length then some ([], c :: s)
    else
      (untilRun? length 0 s).map fun (text, rest) =>
        (List.replicate run '\x60' ++ c :: text, rest)

/-- The text between the backticks of a span: line ends count as blanks, and one blank goes from
each end if both ends have one, unless all is blank. -/
def content (s : List Char) : List Char :=
  let s := s.map fun c => if Label.isLineEnd c then ' ' else c
  if s.head? = some ' ' ∧ s.getLast? = some ' ' ∧ s.any (· ≠ ' ') then s.tail.dropLast else s

/-- Reads a span of code behind its opening run of `length` backticks: its text as it is written,
and the text behind it. -/
def read? (length : Nat) (s : List Char) : Option (List Char × List Char) := untilRun? length 0 s

end CodeSpan

/-! ## Addresses between angle brackets -/

namespace Autolink

/-- Whether a character may stand in a scheme. -/
def isSchemeChar (c : Char) : Bool := c.isAlphanum || c = '.' || c = '-' || c = '+'

/-- Reads an address that starts with a scheme of 2 to 32 characters: the address, and the text
behind its closing bracket. -/
def uri? (s : List Char) : Option (List Char × List Char) :=
  let scheme := s.takeWhile isSchemeChar
  let rest := s.drop scheme.length
  let path := rest.takeWhile fun c => ' ' < c && c ≠ '<' && c ≠ '>'
  match s, rest, rest.drop path.length with
  | c :: _, ':' :: _, '>' :: behind =>
    if c.isAlpha ∧ 2 ≤ scheme.length ∧ scheme.length ≤ 32 then some (scheme ++ path, behind)
    else none
  | _, _, _ => none

/-- Whether a character may stand in the local part of an email address. -/
def isLocalChar (c : Char) : Bool :=
  c.isAlphanum || ".!#$%&'*+/=?^_\x60\x7b|\x7d~-".toList.contains c

/-- Whether a text may stand between the dots of an email address. -/
def isDomainPart (s : List Char) : Bool :=
  s.all (fun c => c.isAlphanum || c = '-') && !s.isEmpty && s.length ≤ 63
    && s.head? ≠ some '-' && s.getLast? ≠ some '-'

/-- Reads an email address: the address, and the text behind its closing bracket. -/
def email? (s : List Char) : Option (List Char × List Char) :=
  let name := s.takeWhile isLocalChar
  match name, s.drop name.length with
  | _ :: _, '@' :: rest =>
    let domain := rest.takeWhile fun c => c.isAlphanum || c = '-' || c = '.'
    match rest.drop domain.length with
    | '>' :: behind =>
      if (Text.parts (· = '.') domain).all isDomainPart then some (name ++ '@' :: domain, behind)
      else none
    | _ => none
  | _, _ => none

/-- Reads an address behind its opening bracket: the address, and the text behind its closing
bracket. -/
def read? (s : List Char) : Option (List Char × List Char) := uri? s <|> email? s

end Autolink

/-! ## Runs of signs -/

namespace Run

/-- Whether a run takes part inside a word, unless punctuation stands there. -/
def worksInside (sign : Char) (length : Nat) : Bool := sign = '*' || (sign = '~' && 1 < length)

/-- Whether a run can open emphasis, by the characters around it. -/
def canOpen (sign : Char) (length : Nat) (before : Char) : Option Char → Bool
  | none => false
  | some after =>
    !isBlank after
      && ((worksInside sign length && !isPunctuation after) || (sign = '~' && 1 < length)
        || (sign = '~' && before = '~' && !isPunctuation after)
        || isBlank before || isPunctuation before)

/-- Whether a run can close emphasis, by the characters around it. -/
def canClose (sign : Char) (length : Nat) (before : Char) (after : Option Char) : Bool :=
  !isBlank before
    && match after with
      | none => true
      | some after =>
        (worksInside sign length && !isPunctuation before) || (sign = '~' && before = '~')
          || isBlank after || isPunctuation after

/-- The run that a sign starts, with the text behind it. Longer runs of tildes mean nothing. -/
def read (sign before : Char) (s : List Char) : Run :=
  let length := 1 + (s.takeWhile (· = sign)).length
  let after := (s.dropWhile (· = sign)).head?
  let counts := sign ≠ '~' || length ≤ 2
  ⟨sign, length, counts && canOpen sign length before after,
    counts && canClose sign length before after⟩

end Run

end Bracketdown.Markdown
