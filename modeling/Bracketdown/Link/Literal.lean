import Bracketdown.Text.Alphanumeric
import Bracketdown.Text.Blank
import Bracketdown.Text.Parts

/-!
# Link literals in plain text

A link literal is an address that links without any markup. There are two sorts.

* An URL starts with `http://`, `https://` or `www.` at a boundary: at the start of the text, or
  behind a blank or one of the characters `*`, `_`, `~` and `(`. It runs up to the next blank or
  `<`, less a tail of punctuation (`trimTail`), and its host must be a valid domain.
* An email address has a local part in front of an `@` and a domain behind it, both as long as they
  can be; the local part does not reach into the literal before.

`split` cuts a text into literals and the plain text around them. What it gives, read in order, is
the text that was put in.
-/

namespace Bracketdown.Link

open Text (isAlphanumeric isBlank)

/-- A part of a text. -/
inductive Segment where
  | plain (text : List Char)
  /-- A literal: the address it leads to, and the text it was found as. -/
  | literal (url : List Char) (text : List Char)
  deriving Repr, DecidableEq

/-- Whether a literal may start behind a character, or at the start of the text. -/
def isBoundary : Option Char → Bool
  | none => true
  | some c => isBlank c || c = '*' || c = '_' || c = '~' || c = '('

/-- Whether a text starts with the given lower-case letters and signs, in upper or lower case. -/
def startsWithFold : List Char → List Char → Bool
  | [], _ => true
  | _ :: _, [] => false
  | c :: cs, d :: ds => d.toLower = c && startsWithFold cs ds

/-- The parts of a text between the dots. -/
def segments (s : List Char) : List (List Char) := Text.parts (· = '.') s

/-- The characters of a domain's segments. -/
def isDomainChar (c : Char) : Bool := isAlphanumeric c || c = '-' || c = '_'

/-- A domain has at least two segments, none of them empty; no underscore may stand in the last
two. -/
def isDomain (s : List Char) : Bool :=
  let parts := segments s
  2 ≤ parts.length
    && parts.all (fun part => !part.isEmpty && part.all isDomainChar)
    && (parts.reverse.take 2).all fun part => !part.contains '_'

/-- The punctuation that may end a sentence but not an URL. -/
def isTailPunctuation (c : Char) : Bool :=
  c = '?' || c = '!' || c = '.' || c = ',' || c = ':' || c = '*' || c = '_' || c = '~'

/-- What is left of a text, both written backwards, when a name and the ampersand in front of it are
taken off its end; none if it does not end so. -/
def dropReference? (reversed : List Char) : Option (List Char) :=
  match reversed.takeWhile Char.isAlphanum, reversed.dropWhile Char.isAlphanum with
  | _ :: _, '&' :: rest => some rest
  | _, _ => none

theorem length_lt_of_dropReference? {s rest : List Char} (h : dropReference? s = some rest) :
    rest.length < s.length := by
  have split : s.takeWhile Char.isAlphanum ++ s.dropWhile Char.isAlphanum = s :=
    List.takeWhile_append_dropWhile
  unfold dropReference? at h
  split at h
  · rename_i h₁ h₂
    rw [h₁, h₂] at split
    simp only [Option.some.injEq] at h
    rw [← split, ← h]
    simp only [List.length_append, List.length_cons]
    omega
  · cases h

/-- A text written backwards without the tail that is no part of an URL: punctuation, closing
parentheses that nothing in the text opens, and references such as `&amp;`. -/
def trimReversed : List Char → List Char
  | [] => []
  | c :: rest =>
    if isTailPunctuation c then trimReversed rest
    else if c = ')' ∧ rest.count '(' < rest.count ')' + 1 then trimReversed rest
    else if c = ';' then
      match _h : dropReference? rest with
      | some rest' => trimReversed rest'
      | none => c :: rest
    else c :: rest
termination_by s => s.length
decreasing_by
  · simp
  · simp
  · have := length_lt_of_dropReference? ‹dropReference? _ = some _›
    simp only [List.length_cons]
    omega

/-- A text without the tail that is no part of an URL. -/
def trimTail (s : List Char) : List Char := (trimReversed s.reverse).reverse

/-- Whether a character ends the host of an URL. -/
def endsHost (c : Char) : Bool := c = '/' || c = '?' || c = '#' || c = ':'

/-- The domain that a text starts with and the path behind it, if the domain is valid. -/
def address? (s : List Char) : Option (List Char) :=
  let candidate := trimTail (s.takeWhile fun c => !(isBlank c || c = '<'))
  if isDomain (candidate.takeWhile fun c => !endsHost c) then some candidate else none

/-- The schemes that start an URL. -/
def schemes : List (List Char) := ["http://".toList, "https://".toList]

/-- The start of an URL without a scheme. -/
def bareStart : List Char := "www.".toList

/-- The URL that a text starts with: its address and the text of the literal. -/
def url? (s : List Char) : Option (List Char × List Char) :=
  match schemes.find? fun scheme => startsWithFold scheme s with
  | some scheme => do
    let found ← address? (s.drop scheme.length)
    let text := s.take scheme.length ++ found
    return (text, text)
  | none =>
    if startsWithFold bareStart s then do
      let found ← address? s
      return ("http://".toList ++ found, found)
    else none

/-- The characters of an email address's local part. -/
def isLocalChar (c : Char) : Bool :=
  c.isAlphanum || c = '.' || c = '+' || c = '-' || c = '_'

/-- The characters of an email address's domain. -/
def isEmailDomainChar (c : Char) : Bool := c.isAlphanum || c = '.' || c = '-' || c = '_'

/-- The email domain that a text starts with: as long as it can be without dots at its end. It has a
dot, no empty segment, and neither a hyphen nor an underscore at its end. -/
def emailDomain? (s : List Char) : Option (List Char) :=
  let domain := ((s.takeWhile isEmailDomainChar).reverse.dropWhile (· = '.')).reverse
  let endsBadly := domain.getLast?.any fun c => c = '-' || c = '_'
  if !domain.contains '.' || endsBadly || (segments domain).any List.isEmpty then none
  else some domain

/-- A text as a segment, unless it is empty. -/
def plain (text : List Char) : List Segment := if text.isEmpty then [] else [.plain text]

/-- The segments of the rest of a text. `before` is the character before it, and `pending` the plain
text since the last literal, written backwards. -/
def splitFrom (before : Option Char) (pending : List Char) : List Char → List Segment
  | [] => plain pending.reverse
  | c :: rest =>
    match if isBoundary before then url? (c :: rest) else none with
    | some (url, text) =>
      plain pending.reverse
        ++ .literal url text :: splitFrom text.getLast? [] (rest.drop (text.length - 1))
    | none =>
      match if c = '@' then emailDomain? rest else none with
      | some domain =>
        match pending.takeWhile isLocalChar with
        | [] => splitFrom (some c) (c :: pending) rest
        | name =>
          let text := name.reverse ++ '@' :: domain
          plain (pending.drop name.length).reverse
            ++ .literal ("mailto:".toList ++ text) text
              :: splitFrom text.getLast? [] (rest.drop domain.length)
      | none => splitFrom (some c) (c :: pending) rest
termination_by s => s.length
decreasing_by all_goals simp +arith

/-- The segments of a text. A text without any literal is one segment, even when it is empty. -/
def split (s : List Char) : List Segment :=
  match splitFrom none [] s with
  | [] => [.plain s]
  | found => found

end Bracketdown.Link
