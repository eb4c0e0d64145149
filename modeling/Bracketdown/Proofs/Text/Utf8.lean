import Bracketdown.CommandLine.Command
import Bracketdown.Text.Utf8

/-!
# Encoded text is read back

What the program prints is the UTF-8 encoding of a text, and what it reads may be what it printed.
`pieces_bytesOf` says that reading those bytes gives the characters of the text and no damage. The
bytes of one character are settled by how many there are. The bounds that the reader puts on the
second byte are where the arithmetic is: they are met because a character is not spelled longer than
needed, is no surrogate, and is not past the last code point.
-/

namespace Bracketdown.Utf8

/-! ## Byte arrays -/

theorem toList_loop (bytes : ByteArray) (i : Nat) (before : List UInt8) :
    ByteArray.toList.loop bytes i before = before.reverse ++ bytes.data.toList.drop i := by
  fun_induction ByteArray.toList.loop bytes i before with
  | case1 i before h ih =>
    have hi : i < bytes.data.toList.length := by
      rw [Array.length_toList]
      exact h
    have hget : bytes.get! i = bytes.data.toList[i] := by
      rw [ByteArray.get!, Array.getElem_toList]
      exact getElem!_pos bytes.data i h
    rw [ih, List.drop_eq_getElem_cons hi, List.reverse_cons, List.append_assoc,
      List.singleton_append, hget]
  | case2 i before h =>
    have hi : bytes.data.toList.length ≤ i := by
      rw [Array.length_toList]
      exact Nat.le_of_not_lt h
    rw [List.drop_eq_nil_of_le hi, List.append_nil]

/-- The bytes of a text are those of its characters. -/
theorem bytesOf_eq (text : String) :
    CommandLine.bytesOf text = text.toList.flatMap String.utf8EncodeChar := by
  unfold CommandLine.bytesOf ByteArray.toList
  rw [toList_loop, String.toUTF8_eq_toByteArray, ← String.utf8Encode_toList, List.utf8Encode,
    List.toList_data_toByteArray]
  rfl

/-! ## One byte -/

theorem toNat_ofNat {n : Nat} (h : n < 256) : (UInt8.ofNat n).toNat = n := by
  rw [UInt8.toNat_ofNat']
  exact Nat.mod_eq_of_lt h

theorem ofNat_within {low high : UInt8} {n : Nat} (hlow : low.toNat ≤ n) (hhigh : n ≤ high.toNat) :
    (UInt8.ofNat n).toNat = n ∧ low ≤ UInt8.ofNat n ∧ UInt8.ofNat n ≤ high := by
  have hn := toNat_ofNat (Nat.lt_of_le_of_lt hhigh high.toNat_lt)
  rw [UInt8.le_iff_toNat_le, UInt8.le_iff_toNat_le, hn]
  exact ⟨rfl, hlow, hhigh⟩

/-- A byte inside its bounds that is not the last one owed. -/
theorem piecesFrom_continue {p : Pending} {n : Nat} (hlow : p.low.toNat ≤ n)
    (hhigh : n ≤ p.high.toNat) (howed : 1 < p.owed) (bytes : List UInt8) :
    piecesFrom (some p) (UInt8.ofNat n :: bytes)
      = piecesFrom (some ⟨p.read + 1, p.owed - 1, 0x80, 0xbf, p.bits * 64 + (n - 0x80)⟩) bytes := by
  obtain ⟨hn, hwithin⟩ := ofNat_within hlow hhigh
  rw [piecesFrom, if_pos hwithin, hn]
  dsimp only
  rw [if_neg (Nat.not_le_of_lt howed)]

/-- The last byte of a character. -/
theorem piecesFrom_finish {p : Pending} {n : Nat} (hlow : p.low.toNat ≤ n)
    (hhigh : n ≤ p.high.toNat) (howed : p.owed ≤ 1) (bytes : List UInt8) :
    piecesFrom (some p) (UInt8.ofNat n :: bytes)
      = .char (Char.ofNat (p.bits * 64 + (n - 0x80))) :: piecesFrom none bytes := by
  obtain ⟨hn, hwithin⟩ := ofNat_within hlow hhigh
  rw [piecesFrom, if_pos hwithin, hn]
  dsimp only
  rw [if_pos howed]

theorem piecesFrom_begins {b : UInt8} {p : Pending} (h : lead b = .begins p)
    (bytes : List UInt8) : piecesFrom none (b :: bytes) = piecesFrom (some p) bytes := by
  rw [piecesFrom, begin, h]

/-- The first byte of two. -/
theorem lead_two {n : Nat} (hlow : 2 ≤ n) (hhigh : n < 32) :
    lead (UInt8.ofNat (n % 32 + 0xc0)) = .begins ⟨1, 1, 0x80, 0xbf, n⟩ := by
  have hn : n % 32 + 0xc0 - 0xc0 = n := by omega
  rw [lead, toNat_ofNat (by omega)]
  rw [if_neg (by omega), if_neg (by omega), if_pos (by omega), hn]

/-- The first byte of three: what the second one is bounded by. -/
theorem lead_three {n : Nat} (h : n < 16) :
    lead (UInt8.ofNat (n % 16 + 0xe0))
      = .begins ⟨1, 2, if n = 0 then 0xa0 else 0x80, if n = 13 then 0x9f else 0xbf, n⟩ := by
  have hn : n % 16 + 0xe0 - 0xe0 = n := by omega
  rw [lead, toNat_ofNat (by omega)]
  rw [if_neg (by omega), if_neg (by omega), if_neg (by omega)]
  by_cases hzero : n = 0
  · subst hzero
    rfl
  · by_cases hsurrogate : n = 13
    · subst hsurrogate
      rfl
    · rw [if_neg (by omega), if_neg (by omega), if_pos (by omega), hn, if_neg hzero,
        if_neg hsurrogate]

/-- The first byte of four: what the second one is bounded by. -/
theorem lead_four {n : Nat} (h : n < 5) :
    lead (UInt8.ofNat (n % 8 + 0xf0))
      = .begins ⟨1, 3, if n = 0 then 0x90 else 0x80, if n = 4 then 0x8f else 0xbf, n⟩ := by
  match n with
  | 0 => rfl
  | 1 => rfl
  | 2 => rfl
  | 3 => rfl
  | 4 => rfl
  | n + 5 => omega

/-! ## One character

`v` is its number. -/

theorem piecesFrom_two {v : Nat} (hlow : 0x80 ≤ v) (hhigh : v ≤ 0x7ff) (bytes : List UInt8) :
    piecesFrom none (UInt8.ofNat (v / 64 % 0x20 + 0xc0) :: UInt8.ofNat (v % 0x40 + 0x80) :: bytes)
      = .char (Char.ofNat v) :: piecesFrom none bytes := by
  have hbits : v / 64 * 64 + (v % 64 + 0x80 - 0x80) = v := by omega
  rw [piecesFrom_begins (lead_two (by omega) (by omega)),
    piecesFrom_finish (by show 0x80 ≤ _; omega) (by show _ ≤ 0xbf; omega) (Nat.le_refl 1)]
  dsimp only
  rw [hbits]

theorem piecesFrom_three {v : Nat} (hlow : 0x800 ≤ v) (hhigh : v ≤ 0xffff)
    (hsurrogate : v < 0xd800 ∨ 0xdfff < v) (bytes : List UInt8) :
    piecesFrom none (UInt8.ofNat (v / 4096 % 0x10 + 0xe0) :: UInt8.ofNat (v / 64 % 0x40 + 0x80)
        :: UInt8.ofNat (v % 0x40 + 0x80) :: bytes)
      = .char (Char.ofNat v) :: piecesFrom none bytes := by
  -- Not longer than needed, and no surrogate: the two bounds of the second byte.
  have hsecond : (if v / 4096 = 0 then 0xa0 else 0x80 : UInt8).toNat ≤ v / 64 % 0x40 + 0x80 := by
    split
    · show 0xa0 ≤ _
      omega
    · show 0x80 ≤ _
      omega
  have hsecond' : v / 64 % 0x40 + 0x80 ≤ (if v / 4096 = 13 then 0x9f else 0xbf : UInt8).toNat := by
    split
    · show _ ≤ 0x9f
      omega
    · show _ ≤ 0xbf
      omega
  have hbits : (v / 4096 * 64 + (v / 64 % 64 + 0x80 - 0x80)) * 64 + (v % 64 + 0x80 - 0x80) = v := by
    omega
  rw [piecesFrom_begins (lead_three (by omega)),
    piecesFrom_continue hsecond hsecond' (Nat.lt_succ_self 1),
    piecesFrom_finish (by show 0x80 ≤ _; omega) (by show _ ≤ 0xbf; omega) (Nat.le_refl 1)]
  dsimp only
  rw [hbits]

theorem piecesFrom_four {v : Nat} (hlow : 0x10000 ≤ v) (hhigh : v < 0x110000)
    (bytes : List UInt8) :
    piecesFrom none (UInt8.ofNat (v / 262144 % 0x08 + 0xf0)
        :: UInt8.ofNat (v / 4096 % 0x40 + 0x80) :: UInt8.ofNat (v / 64 % 0x40 + 0x80)
        :: UInt8.ofNat (v % 0x40 + 0x80) :: bytes)
      = .char (Char.ofNat v) :: piecesFrom none bytes := by
  -- Not longer than needed, and not past the last code point.
  have hsecond : (if v / 262144 = 0 then 0x90 else 0x80 : UInt8).toNat
      ≤ v / 4096 % 0x40 + 0x80 := by
    split
    · show 0x90 ≤ _
      omega
    · show 0x80 ≤ _
      omega
  have hsecond' : v / 4096 % 0x40 + 0x80
      ≤ (if v / 262144 = 4 then 0x8f else 0xbf : UInt8).toNat := by
    split
    · show _ ≤ 0x8f
      omega
    · show _ ≤ 0xbf
      omega
  have hbits : ((v / 262144 * 64 + (v / 4096 % 64 + 0x80 - 0x80)) * 64
      + (v / 64 % 64 + 0x80 - 0x80)) * 64 + (v % 64 + 0x80 - 0x80) = v := by omega
  rw [piecesFrom_begins (lead_four (by omega)),
    piecesFrom_continue hsecond hsecond' (by show 1 < 3; omega),
    piecesFrom_continue (by show 0x80 ≤ _; omega) (by show _ ≤ 0xbf; omega) (Nat.lt_succ_self 1),
    piecesFrom_finish (by show 0x80 ≤ _; omega) (by show _ ≤ 0xbf; omega) (Nat.le_refl 1)]
  dsimp only
  rw [hbits]

theorem piecesFrom_utf8EncodeChar (c : Char) (bytes : List UInt8) :
    piecesFrom none (String.utf8EncodeChar c ++ bytes) = .char c :: piecesFrom none bytes := by
  have hc : Char.ofNat c.val.toNat = c := Char.ofNat_toNat c
  have hvalid : c.val.toNat < 0xd800 ∨ 0xdfff < c.val.toNat ∧ c.val.toNat < 0x110000 := c.valid
  unfold String.utf8EncodeChar
  generalize c.val.toNat = v at hc hvalid
  subst hc
  dsimp only
  by_cases hone : v ≤ 0x7f
  · rw [if_pos hone, List.singleton_append, piecesFrom, begin, lead, toNat_ofNat (by omega),
      if_pos (by omega)]
  · rw [if_neg hone]
    by_cases htwo : v ≤ 0x7ff
    · rw [if_pos htwo]
      exact piecesFrom_two (by omega) htwo bytes
    · rw [if_neg htwo]
      by_cases hthree : v ≤ 0xffff
      · rw [if_pos hthree]
        exact piecesFrom_three (by omega) hthree (by omega) bytes
      · rw [if_neg hthree]
        exact piecesFrom_four (by omega) (by omega) bytes

/-! ## Texts -/

/-- **The bytes of a text are read as its characters.** -/
theorem pieces_bytesOf (text : String) :
    pieces (CommandLine.bytesOf text) = text.toList.map .char := by
  rw [bytesOf_eq, pieces]
  induction text.toList with
  | nil => rfl
  | cons c cs ih => rw [List.flatMap_cons, piecesFrom_utf8EncodeChar, ih, List.map_cons]

theorem glyphs_bytesOf (text : String) :
    glyphs (CommandLine.bytesOf text) = text.toList.map some := by
  rw [glyphs, pieces_bytesOf]
  induction text.toList with
  | nil => rfl
  | cons c cs ih =>
    rw [List.map_cons, List.flatMap_cons, ih, List.map_cons]
    rfl

end Bracketdown.Utf8
