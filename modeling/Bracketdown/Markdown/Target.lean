import Bracketdown.Markdown.Escape
import Bracketdown.Markdown.Label

/-!
# The targets of links

A link says where it leads either behind its text, between parentheses (`inline?`), or by a label
that a definition elsewhere explains (`Definition.read?`). In both places stands an address, bare or
between `<` and `>`, and perhaps a title in quotes or parentheses. Titles are read past: they say
nothing about where a link leads.
-/

namespace Bracketdown.Markdown

open Text (isAsciiPunctuation isLineBlank)

namespace Target

/-- Reads an address between brackets behind the opening one: the address, and the text behind the
closing bracket. -/
def pointed? : List Char → Option (List Char × List Char)
  | [] => none
  | '>' :: rest => some ([], rest)
  | '\\' :: c :: s =>
    if isAsciiPunctuation c then (pointed? s).map fun (url, rest) => ('\\' :: c :: url, rest)
    else (pointed? (c :: s)).map fun (url, rest) => ('\\' :: url, rest)
  | c :: s =>
    if c = '<' ∨ Label.isLineEnd c then none
    else (pointed? s).map fun (url, rest) => (c :: url, rest)

/-- Reads an address without brackets, up to a blank, a control character or the parenthesis that
closes one before it. `open_` parentheses are open inside the address, of at most `most`. -/
def bare? (most : Nat) : Nat → List Char → Option (List Char × List Char)
  | 0, [] => some ([], [])
  | _ + 1, [] => none
  | depth, '\\' :: c :: s =>
    if isAsciiPunctuation c then
      (bare? most depth s).map fun (url, rest) => ('\\' :: c :: url, rest)
    else (bare? most depth (c :: s)).map fun (url, rest) => ('\\' :: url, rest)
  | depth, '(' :: s =>
    if depth < most then (bare? most (depth + 1) s).map fun (url, rest) => ('(' :: url, rest)
    else none
  | 0, ')' :: s => some ([], ')' :: s)
  | depth + 1, ')' :: s => (bare? most depth s).map fun (url, rest) => (')' :: url, rest)
  | depth, c :: s =>
    if c ≤ ' ' then if depth = 0 then some ([], c :: s) else none
    else (bare? most depth s).map fun (url, rest) => (c :: url, rest)

/-- Reads an address: the address with its escapes resolved, and the text behind it. A bare one may
be empty. -/
def address? (most : Nat) : List Char → Option (List Char × List Char)
  | '<' :: s => (pointed? s).map fun (url, rest) => (unescape url, rest)
  | s => (bare? most 0 s).map fun (url, rest) => (unescape url, rest)

/-- The text behind the character that closes a title. A title in parentheses holds none that is not
escaped. -/
def behindTitle? (close : Char) : List Char → Option (List Char)
  | [] => none
  | '\\' :: c :: s =>
    if isAsciiPunctuation c then behindTitle? close s else behindTitle? close (c :: s)
  | c :: s =>
    if c = close then some s
    else if c = '(' ∧ close = ')' then none
    else behindTitle? close s

/-- The text behind the title that a text starts with. -/
def title? : List Char → Option (List Char)
  | '"' :: s => behindTitle? '"' s
  | '\'' :: s => behindTitle? '\'' s
  | '(' :: s => behindTitle? ')' s
  | _ => none

/-- The text behind blanks and at most one line end among them. -/
def skipBlanks (s : List Char) : List Char :=
  match s.dropWhile isLineBlank with
  | c :: rest => if Label.isLineEnd c then rest.dropWhile isLineBlank else c :: rest
  | [] => []

/-- How many parentheses may be open inside the address of a link. -/
def maxOpen : Nat := 33

/-- Reads the rest of a target in parentheses, behind the opening one: the address, and the text
behind the closing parenthesis. -/
def inline? (s : List Char) : Option (List Char × List Char) := do
  let (url, rest) ← address? maxOpen (skipBlanks s)
  let rest := skipBlanks rest
  let rest := match title? rest with
    | some rest => skipBlanks rest
    | none => rest
  match rest with
  | ')' :: rest => some (url, rest)
  | _ => none

end Target

/-- What a label stands for. -/
structure Definition where
  key : List Char
  url : List Char
  deriving Repr, DecidableEq

namespace Definition

/-- How many parentheses may be open inside the address of a definition. -/
def maxOpen : Nat := 2

/-- The text behind blanks with at most one line end among them, and whether there was one; none
where the paragraph ends. -/
def skipBlanks? (s : List Char) : Option (List Char × Bool) :=
  match s.dropWhile isLineBlank with
  | [] => none
  | c :: rest =>
    if Label.isLineEnd c then
      match rest.dropWhile isLineBlank with
      | [] => none
      | c :: rest => if Label.isLineEnd c then none else some (c :: rest, true)
    else some (c :: rest, false)

/-- Whether nothing but blanks is left of a line. -/
def endsLine (s : List Char) : Bool :=
  match s.dropWhile isLineBlank with
  | [] => true
  | c :: _ => Label.isLineEnd c

/-- The text behind the title of a definition, from behind its address on, if it has one. Without a
title the address has to end its line; what looks like a title but is none may follow on the next
line. -/
def behindTitle? (s : List Char) : Option (List Char) :=
  match skipBlanks? s with
  | none => some s
  | some (rest, lineEnded) =>
    if rest.length = s.length then none
    else
      match Target.title? rest with
      | some behind =>
        if endsLine behind then some behind else if lineEnded then some s else none
      | none => if lineEnded then some s else none

/-- Reads the definition that the text of a paragraph starts with: the definition, and the text
behind it, which is the rest of its last line and the lines behind. -/
def read? : List Char → Option (Definition × List Char)
  | '[' :: s => do
    let (label, rest) ← Label.read? true s
    let rest ← match rest with
      | ':' :: rest => some rest
      | _ => none
    let (rest, _) ← skipBlanks? rest
    let (url, behind) ← Target.address? maxOpen rest
    if behind.length = rest.length then none
    else return (⟨Label.key label, url⟩, ← behindTitle? behind)
  | _ => none

end Definition

/-- What the labels of a document stand for, in the order they were defined in. -/
abbrev Definitions := List Definition

/-- The address that a label stands for: of several definitions the first counts. -/
def Definitions.url? (definitions : Definitions) (label : List Char) : Option (List Char) :=
  (definitions.find? (·.key = Label.key label)).map (·.url)

end Bracketdown.Markdown
