import Bracketdown.Markdown.Label
import Bracketdown.Markdown.Line
import Bracketdown.Markdown.Mark

/-!
# What blocks stand in

Quotes, lists, their items and footnotes hold blocks. A line belongs to a container if it starts
with what the container asks of its lines: a sign in front of a quote, blanks in front of the
content of an item or footnote. `enterAll` walks a line through the open containers, the outermost
first, and says whether it belongs to all of them.

A container is opened by a mark of its own: the sign of a quote, the marker of a list item, the
label of a footnote.
-/

namespace Bracketdown.Markdown

/-- Something open that holds blocks. -/
inductive Container where
  | quote
  /-- A list: the sign of its markers, the number of its first item, and whether there is no blank
  line in it, apart from those deeper inside. -/
  | list (sign : Char) (start : Option UInt64) (isTight : Bool)
  /-- An item of a list, whose content is indented by as many columns. -/
  | item (indent : Nat)
  | footnote (label : List Char)
  deriving Repr, DecidableEq

namespace Container

/-- The columns in front of the content of a footnote. -/
def footnoteIndent : Nat := 4

/-- The place behind so many columns of blanks; a line that ends before is not asked for more. -/
def enterIndent (indent : Nat) (place : Cursor) : Option Cursor :=
  let (taken, behind) := place.take indent
  if taken = indent ∨ behind.rest.isEmpty then some behind else none

/-- The place behind the sign of a quote, with up to three columns in front of it and one behind. -/
def enterQuote (place : Cursor) : Option Cursor :=
  ((place.take 3).2.skip? '>').map fun behind => (behind.take 1).2

/-- The place where the content of a container starts in a line, if the line belongs to it. -/
def enter (place : Cursor) : Container → Option Cursor
  | .quote => enterQuote place
  | .list _ _ _ => some place
  | .item indent => enterIndent indent place
  | .footnote _ => enterIndent footnoteIndent place

end Container

/-- Walks a line through containers, the outermost first, as far as it belongs to them: how many are
left, and the place that was reached. -/
def enterMost (place : Cursor) : List Container → Nat × Cursor
  | [] => (0, place)
  | container :: inner =>
    match container.enter place with
    | some behind => enterMost behind inner
    | none => (inner.length + 1, place)

/-- The place where the content of containers starts in a line, if it belongs to all of them. -/
def enterAll (containers : List Container) (line : Line) : Option Cursor :=
  match enterMost line.start containers with
  | (0, place) => some place
  | _ => none

/-- The marker of a list item. -/
structure Marker where
  sign : Char
  /-- The number of an item in an ordered list. -/
  number : Option Nat
  /-- The characters it is written with. -/
  width : Nat
  deriving Repr, DecidableEq

namespace Marker

/-- The signs of items that are not numbered. -/
def bullets : List Char := ['-', '+', '*']

/-- The marker that a text starts with, whatever follows. -/
def ofText? : List Char → Option Marker
  | [] => none
  | c :: s =>
    if bullets.contains c then some ⟨c, none, 1⟩
    else
      let digits := ((c :: s).take 9).takeWhile Char.isDigit
      match digits, (c :: s).drop digits.length with
      | _ :: _, sign :: _ =>
        if sign = '.' ∨ sign = ')' then
          some ⟨sign, some (digits.foldl (fun n d => 10 * n + (d.toNat - 48)) 0), digits.length + 1⟩
        else none
      | _, _ => none

/-- The place behind the marker and the blank that has to follow it. -/
def behind? (marker : Marker) (place : Cursor) : Option Cursor :=
  let behind : Cursor := ⟨place.rest.drop marker.width, place.column + marker.width, place.pad⟩
  match behind.take? 1 with
  | some behind => some behind
  | none => if behind.rest.isEmpty then some behind else none

/-- Reads a marker with `outer` columns in front of it: the marker, the indentation of the item's
content, and the place where the content starts. -/
def read? (outer : Nat) (place : Cursor) : Option (Marker × Nat × Cursor) := do
  let marker ← ofText? place.rest
  guard !(marker.number.isNone && isRule place.rest)
  let behind ← marker.behind? place
  let indent := outer + marker.width + 1
  if behind.isBlank then return (marker, indent, behind)
  let (taken, content) := behind.take 4
  if taken < 4 then return (marker, indent + taken, content)
  return (marker, indent, behind)

/-- Whether a text starts with a marker and the blank behind it. -/
def startsItem? (s : List Char) : Option (Marker × List Char) := do
  let marker ← ofText? s
  let behind ← marker.behind? ⟨s, 0, 0⟩
  return (marker, behind.rest)

end Marker

/-- Reads the box of a task item: whether it is ticked, and the place behind it. A blank has to
follow. -/
def readTask? (place : Cursor) : Option (Bool × Cursor) :=
  let box := (place.take 3).2
  match box.rest with
  | '[' :: c :: ']' :: d :: rest =>
    if Text.isLineBlank d then
      let behind : Cursor := ⟨d :: rest, box.column + 3, box.pad⟩
      if Text.isLineBlank c then some (false, behind)
      else if c = 'x' ∨ c = 'X' then some (true, behind)
      else none
    else none
  | _ => none

/-- Reads the label in front of a footnote's text: the label, and the text behind the colon. -/
def readFootnoteLabel? : List Char → Option (List Char × List Char)
  | '[' :: s =>
    match Label.footnote? s with
    | some (label, ':' :: rest) => some (label, rest)
    | _ => none
  | _ => none

end Bracketdown.Markdown
