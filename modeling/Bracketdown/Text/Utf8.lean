/-!
# Reading bytes as UTF-8

`Utf8.pieces` cuts a sequence of bytes into characters and damage. A piece of damage is as long as
the longest start of a character found there (at least one byte), and reading goes on behind it; the
last piece may be the start of a character that the input cuts short.

`Utf8.decode` accepts exactly the sequences without damage. Its fault names the first damage: the
number of bytes before it, and its length unless it is the cut at the end.
-/

namespace Bracketdown

namespace Utf8

/-- A piece of a byte sequence. -/
inductive Piece where
  | char (c : Char)
  | damaged (length : Nat)
  | cut (length : Nat)
  deriving Repr, DecidableEq

/-- A character that has begun: the bytes read, the bytes still owed, the bounds of the next one and
the bits so far. -/
structure Pending where
  read : Nat
  owed : Nat
  low : UInt8
  high : UInt8
  bits : Nat

/-- What a byte means where a character may begin. -/
inductive Lead where
  | char (c : Char)
  | begins (pending : Pending)
  | damaged

/-- The role of a first byte. The bounds on the second byte rule out spellings that are longer than
needed, surrogates, and numbers past the last code point. -/
def lead (b : UInt8) : Lead :=
  let n := b.toNat
  if n < 0x80 then .char (Char.ofNat n)
  else if n < 0xc2 then .damaged
  else if n < 0xe0 then .begins ⟨1, 1, 0x80, 0xbf, n - 0xc0⟩
  else if n = 0xe0 then .begins ⟨1, 2, 0xa0, 0xbf, 0⟩
  else if n = 0xed then .begins ⟨1, 2, 0x80, 0x9f, 13⟩
  else if n < 0xf0 then .begins ⟨1, 2, 0x80, 0xbf, n - 0xe0⟩
  else if n = 0xf0 then .begins ⟨1, 3, 0x90, 0xbf, 0⟩
  else if n < 0xf4 then .begins ⟨1, 3, 0x80, 0xbf, n - 0xf0⟩
  else if n = 0xf4 then .begins ⟨1, 3, 0x80, 0x8f, 4⟩
  else .damaged

/-- The pieces from a byte on where a character may begin; `next` reads on from the given state. -/
def begin (b : UInt8) (next : Option Pending → List Piece) : List Piece :=
  match lead b with
  | .char c => .char c :: next none
  | .begins pending => next (some pending)
  | .damaged => .damaged 1 :: next none

/-- The pieces of a byte sequence, perhaps inside a character. -/
def piecesFrom : Option Pending → List UInt8 → List Piece
  | none, [] => []
  | some p, [] => [.cut p.read]
  | none, b :: bs => begin b fun state => piecesFrom state bs
  | some p, b :: bs =>
    if p.low ≤ b ∧ b ≤ p.high then
      let bits := p.bits * 64 + (b.toNat - 0x80)
      if p.owed ≤ 1 then .char (Char.ofNat bits) :: piecesFrom none bs
      else piecesFrom (some ⟨p.read + 1, p.owed - 1, 0x80, 0xbf, bits⟩) bs
    -- The byte does not go on with the character, but may begin one itself.
    else .damaged p.read :: begin b fun state => piecesFrom state bs

/-- The pieces of a byte sequence. -/
def pieces (bytes : List UInt8) : List Piece := piecesFrom none bytes

/-- The first damage of a byte sequence. -/
structure Fault where
  /-- The number of bytes before the damage. -/
  index : Nat
  /-- The number of damaged bytes; none where the input ends inside a character. -/
  length : Option Nat
  deriving Repr, DecidableEq

/-- The wording of a fault. -/
def Fault.message (fault : Fault) : String :=
  match fault.length with
  | some n =>
    "invalid utf-8 sequence of " ++ toString n ++ " bytes from index " ++ toString fault.index
  | none => "incomplete utf-8 byte sequence from index " ++ toString fault.index

/-- The characters of a list of pieces, the first of which has `index` bytes before it. -/
def charsFrom (index : Nat) (read : List Char) : List Piece → Except Fault (List Char)
  | [] => .ok read.reverse
  | .char c :: rest => charsFrom (index + c.utf8Size) (c :: read) rest
  | .damaged n :: _ => .error ⟨index, some n⟩
  | .cut _ :: _ => .error ⟨index, none⟩

/-- The characters that a byte sequence spells. -/
def decode (bytes : List UInt8) : Except Fault (List Char) := charsFrom 0 [] (pieces bytes)

/-- The characters of a byte sequence, with `none` for every byte that is part of no character. -/
def glyphs (bytes : List UInt8) : List (Option Char) :=
  (pieces bytes).flatMap fun
    | .char c => [some c]
    | .damaged n => List.replicate n none
    | .cut n => List.replicate n none

end Utf8

end Bracketdown
