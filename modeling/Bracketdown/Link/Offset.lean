import Bracketdown.Link.Autolink

/-!
# The scan by byte offsets

A text is stored as UTF-8, and a part of it is known by two byte offsets. This module says what a
scan for literals does in these terms. It goes through a text with two cursors, `idx` where it looks
for a literal and `last` where the last one ended, adds and takes off lengths in bytes, and cuts out
what it needs.

Two things can go wrong that cannot go wrong with lists of characters, and both are a `Slip`: a
slice whose bounds are out of order, outside the text or inside a character, and a loop without an
end. A loop has as many rounds as the text it goes through has bytes, and one more; when they do not
suffice, that is taken for endless.
-/

namespace Bracketdown.Link.Offset

open Text (isBlank)

/-! ## Slices and loops -/

/-- What goes wrong in a scan by byte offsets. -/
inductive Slip where
  /-- There is no part of the text between these bounds. -/
  | slice (text : String) (start stop : Nat)
  /-- A loop is not over when its rounds are. -/
  | endless
  deriving Repr, DecidableEq

/-- Whether a byte offset is an end of a text or lies between two of its characters. -/
def IsBorder (text : String) (offset : Nat) : Prop := (String.Pos.Raw.mk offset).IsValid text

instance (text : String) (offset : Nat) : Decidable (IsBorder text offset) :=
  inferInstanceAs (Decidable ((String.Pos.Raw.mk offset).IsValid text))

/-- The part of a text between two byte offsets. -/
def slice (text : String) (start stop : Nat) : Except Slip String :=
  if start ≤ stop ∧ IsBorder text start ∧ IsBorder text stop then
    .ok (String.Pos.Raw.extract text ⟨start⟩ ⟨stop⟩)
  else .error (.slice text start stop)

/-- The part of a text from a byte offset on. -/
def sliceFrom (text : String) (start : Nat) : Except Slip String :=
  slice text start text.utf8ByteSize

/-- What comes of one round of a loop: the state for the next one, or the result. -/
inductive Round (σ α : Type) where
  | again (state : σ)
  | over (result : α)
  deriving Repr, DecidableEq

/-- The result of a loop that starts in a state and may take so many rounds. -/
def loop {σ α : Type} (round : σ → Except Slip (Round σ α)) : Nat → σ → Except Slip α
  | 0, _ => .error .endless
  | rounds + 1, state => do
    match ← round state with
    | .again next => loop round rounds next
    | .over result => return result

/-! ## Searching a text -/

/-- Characters with their byte offsets, the first of which is given. -/
def indexedFrom (offset : Nat) : List Char → List (Nat × Char)
  | [] => []
  | c :: cs => (offset, c) :: indexedFrom (offset + c.utf8Size) cs

/-- The characters of a text with their byte offsets. -/
def indexed (text : String) : List (Nat × Char) := indexedFrom 0 text.toList

/-- The byte offset of the first character that a test finds. -/
def find? (text : String) (p : Char → Bool) : Option Nat :=
  ((indexed text).find? fun entry => p entry.2).map (·.1)

/-- The byte offset of the last character that a test finds. -/
def findLast? (text : String) (p : Char → Bool) : Option Nat :=
  ((indexed text).reverse.find? fun entry => p entry.2).map (·.1)

/-- The byte offset of the first of the characters that end a text and that a test finds one after
the other. -/
def findTail? (text : String) (p : Char → Bool) : Option Nat :=
  ((indexed text).reverse.takeWhile fun entry => p entry.2).getLast?.map (·.1)

/-- Whether a text starts with some letters and signs, in upper or lower case. Where their length in
bytes is not a border of the text, it does not. -/
def startsWith (text : String) (start : List Char) : Bool :=
  match slice text 0 (String.ofList start).utf8ByteSize with
  | .ok head => head.toList.map Char.toLower = start.map Char.toLower
  | .error _ => false

/-- Whether a literal may start at a byte offset. -/
def atBoundary (text : String) (idx : Nat) : Except Slip Bool := do
  let before ← slice text 0 idx
  return isBoundary before.toList.getLast?

/-! ## URLs -/

/-- The byte offset of the reference that a text ends with. -/
def referenceStart (text : String) : Except Slip (Option Nat) :=
  if text.toList.getLast? = some ';' then do
    let body := String.ofList text.toList.dropLast
    match findLast? body (· = '&') with
    | none => return none
    | some amp =>
      let name ← sliceFrom body (amp + 1)
      return if !name.isEmpty && name.toList.all Char.isAlphanum then some amp else none
  else return none

/-- One round of trimming an URL that ends at a byte offset. -/
def trimRound (url : String) (stop : Nat) : Except Slip (Round Nat Nat) := do
  let candidate ← slice url 0 stop
  match candidate.toList.getLast? with
  | none => return .over stop
  | some c =>
    if isTailPunctuation c then return .again (stop - 1)
    else if c = ')' ∧ candidate.toList.count '(' < candidate.toList.count ')' then
      return .again (stop - 1)
    else if c = ';' then
      match ← referenceStart candidate with
      | some amp => return .again amp
      | none => return .over stop
    else return .over stop

/-- The length of an URL without the tail that is no part of it. -/
def trimmedLength (url : String) : Except Slip Nat :=
  loop (trimRound url) (url.utf8ByteSize + 1) url.utf8ByteSize

/-- The length of the domain and the path that a text starts with, if the domain is valid. -/
def addressLength (text : String) : Except Slip (Option Nat) := do
  let raw := (find? text fun c => isBlank c || c = '<').getD text.utf8ByteSize
  let length ← trimmedLength (← slice text 0 raw)
  let candidate ← slice text 0 length
  let host ← slice candidate 0 ((find? candidate endsHost).getD length)
  return if isDomain host.toList then some length else none

/-! ## Literals -/

/-- A literal by the byte offsets of its ends, and the address it leads to. -/
structure Literal where
  start : Nat
  stop : Nat
  url : String
  deriving Repr, DecidableEq

/-- The URL behind a scheme at a byte offset, where `rest` starts. -/
def schemeAt (text : String) (idx : Nat) (rest : String) (scheme : List Char) :
    Except Slip (Option Literal) := do
  let skipped := (String.ofList scheme).utf8ByteSize
  match ← addressLength (← sliceFrom rest skipped) with
  | none => return none
  | some length =>
    let stop := idx + skipped + length
    return some ⟨idx, stop, ← slice text idx stop⟩

/-- The URL without a scheme at a byte offset, where `rest` starts. -/
def bareAt (text : String) (idx : Nat) (rest : String) : Except Slip (Option Literal) := do
  match ← addressLength rest with
  | none => return none
  | some length =>
    let stop := idx + length
    return some ⟨idx, stop, "http://" ++ (← slice text idx stop)⟩

/-- One round of taking dots off the end of what a text starts with. -/
def dotRound (text : String) (stop : Nat) : Except Slip (Round Nat Nat) := do
  let candidate ← slice text 0 stop
  return if candidate.toList.getLast? = some '.' then .again (stop - 1) else .over stop

/-- Whether a text is the domain of an email address. -/
def isEmailDomain (s : List Char) : Bool :=
  !(!s.contains '.' || s.getLast?.any (fun c => c = '-' || c = '_')
    || (segments s).any List.isEmpty)

/-- The email address around the `@` at a byte offset. Its local part does not reach back beyond
`last`. -/
def emailAt (text : String) (idx last : Nat) : Except Slip (Option Literal) := do
  match findTail? (← slice text last idx) isLocalChar with
  | none => return none
  | some offset =>
    let start := last + offset
    let after ← sliceFrom text (idx + 1)
    let reach := (find? after fun c => !isEmailDomainChar c).getD after.utf8ByteSize
    let length ← loop (dotRound after) (after.utf8ByteSize + 1) reach
    let domain ← slice after 0 length
    if isEmailDomain domain.toList then
      let stop := idx + 1 + length
      return some ⟨start, stop, "mailto:" ++ (← slice text start stop)⟩
    else return none

/-- The literal at a byte offset, or around it if there is an `@`. -/
def literalAt (text : String) (idx last : Nat) : Except Slip (Option Literal) := do
  let rest ← sliceFrom text idx
  let boundary ← atBoundary text idx
  match if boundary then schemes.find? (startsWith rest) else none with
  | some scheme => schemeAt text idx rest scheme
  | none =>
    if boundary && startsWith rest bareStart then bareAt text idx rest
    else if rest.toList.head? = some '@' then emailAt text idx last
    else return none

/-! ## The scan -/

/-- How far a scan is: where it looks for a literal, where the last one ended, and the nodes up to
there. -/
structure Cursor where
  idx : Nat
  last : Nat
  nodes : List Node

/-- A scan at its start. -/
def Cursor.start : Cursor := ⟨0, 0, []⟩

/-- The plain text between two byte offsets, if there is any. -/
def textBetween (text : String) (start stop : Nat) : Except Slip (List Node) :=
  if start < stop then return [.text (← slice text start stop)] else return []

/-- One round of a scan. -/
def scanRound (text : String) (cursor : Cursor) : Except Slip (Round Cursor (List Node)) := do
  if cursor.idx < text.utf8ByteSize then
    match ← literalAt text cursor.idx cursor.last with
    | some literal =>
      let between ← textBetween text cursor.last literal.start
      let name ← slice text literal.start literal.stop
      let link := Node.link literal.url [.text name]
      return .again ⟨literal.stop, literal.stop, cursor.nodes ++ (between ++ [link])⟩
    | none =>
      let rest ← sliceFrom text cursor.idx
      let width := (rest.toList.head?.map Char.utf8Size).getD 1
      return .again { cursor with idx := cursor.idx + width }
  else if cursor.last = 0 then return .over [.text text]
  else return .over (cursor.nodes ++ (← textBetween text cursor.last text.utf8ByteSize))

/-- The nodes of a text with its literals linked. -/
def splitText (text : String) : Except Slip (List Node) :=
  loop (scanRound text) (text.utf8ByteSize + 1) .start

end Bracketdown.Link.Offset
