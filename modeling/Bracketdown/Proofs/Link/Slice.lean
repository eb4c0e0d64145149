import Mathlib.Data.String.Basic
import Bracketdown.Link.Offset
import Bracketdown.Proofs.Link.Domain

/-!
# Byte offsets and lists of characters

A text is a list of characters, and the borders between them are the byte lengths of what stands in
front (`isBorder_iff`). So a slice whose bounds are such lengths is there, and is the list between
them (`slice_eq`). The searches of a scan go through the characters with their offsets and come to
such a length too, which is that of a `takeWhile`.

`startsWith` is the one place where a length is used that may be no border. What it compares has the
length of what it is compared with, for the case of a letter does not change its length
(`startsWith_eq`).
-/

namespace Bracketdown.Link.Offset

open String (utf8Len)

/-! ## Borders and slices -/

section Slices

variable {text : String} {a b c : List Char}

theorem utf8ByteSize_eq (h : text.toList = a) : text.utf8ByteSize = utf8Len a := by
  rw [← h, String.utf8Len_toList]

theorem utf8Len_pos (h : a ≠ []) : 0 < utf8Len a :=
  Nat.pos_of_ne_zero (mt String.utf8Len_eq_zero.mp h)

theorem isBorder_iff {offset : Nat} :
    IsBorder text offset ↔ ∃ a b, text.toList = a ++ b ∧ offset = utf8Len a := by
  unfold IsBorder
  rw [String.Pos.Raw.isValid_iff_exists_append]
  constructor
  · rintro ⟨before, behind, rfl, hoffset⟩
    refine ⟨before.toList, behind.toList, String.toList_append, ?_⟩
    rw [String.utf8Len_toList]
    exact congrArg String.Pos.Raw.byteIdx hoffset
  · rintro ⟨a, b, htext, rfl⟩
    refine ⟨String.ofList a, String.ofList b, ?_, ?_⟩
    · rw [← String.ofList_append, ← htext, String.ofList_toList]
    · rw [String.rawEndPos_ofList]

theorem isBorder (h : text.toList = a ++ b) : IsBorder text (utf8Len a) :=
  isBorder_iff.mpr ⟨a, b, h, rfl⟩

/-- **A slice between characters is the list between them.** -/
theorem slice_eq (h : text.toList = a ++ b ++ c) :
    slice text (utf8Len a) (utf8Len a + utf8Len b) = .ok (String.ofList b) := by
  have hstart : IsBorder text (utf8Len a) := isBorder (by rw [h, List.append_assoc])
  have hstop : IsBorder text (utf8Len a + utf8Len b) := by
    rw [← String.utf8Len_append]
    exact isBorder h
  unfold slice
  rw [if_pos ⟨Nat.le_add_right _ _, hstart, hstop⟩, ← String.ofList_toList (s := text), h,
    String.extract_of_valid]

theorem slice_zero (h : b <+: text.toList) :
    slice text 0 (utf8Len b) = .ok (String.ofList b) := by
  obtain ⟨c, hc⟩ := h
  have hslice : slice text (utf8Len []) (utf8Len [] + utf8Len b) = .ok (String.ofList b) :=
    slice_eq hc.symm
  rwa [String.utf8Len_nil, Nat.zero_add] at hslice

theorem sliceFrom_eq (h : text.toList = a ++ b) :
    sliceFrom text (utf8Len a) = .ok (String.ofList b) := by
  unfold sliceFrom
  rw [utf8ByteSize_eq h, String.utf8Len_append]
  apply slice_eq
  rw [h, List.append_nil]

/-- A slice that there is ends at a border. -/
theorem isBorder_of_slice {part : String} {start stop : Nat}
    (h : slice text start stop = .ok part) : IsBorder text stop := by
  unfold slice at h
  split at h
  next hborders => exact hborders.2.2
  · cases h

end Slices

/-! ## Loops -/

theorem ok_bind {ε α β : Type} (a : α) (f : α → Except ε β) : (Except.ok a >>= f) = f a := rfl

section Loops

variable {σ α : Type} {round : σ → Except Slip (Round σ α)} {state next : σ} {result : α}
  {rounds : Nat}

theorem loop_again (h : round state = .ok (.again next)) (hrounds : 0 < rounds) :
    loop round rounds state = loop round (rounds - 1) next := by
  cases rounds with
  | zero => omega
  | succ rounds =>
    rw [loop, h]
    rfl

theorem loop_over (h : round state = .ok (.over result)) (hrounds : 0 < rounds) :
    loop round rounds state = .ok result := by
  cases rounds with
  | zero => omega
  | succ rounds =>
    rw [loop, h]
    rfl

end Loops

/-! ## Searches -/

theorem indexedFrom_append (offset : Nat) (a b : List Char) :
    indexedFrom offset (a ++ b) = indexedFrom offset a ++ indexedFrom (offset + utf8Len a) b := by
  induction a generalizing offset with
  | nil => rfl
  | cons c a ih =>
    rw [List.cons_append, indexedFrom, indexedFrom, ih, List.cons_append, String.utf8Len_cons]
    congr 3
    omega

theorem snd_mem_of_mem_indexedFrom {entry : Nat × Char} {offset : Nat} {s : List Char}
    (h : entry ∈ indexedFrom offset s) : entry.2 ∈ s := by
  induction s generalizing offset with
  | nil => cases h
  | cons c s ih =>
    rw [indexedFrom] at h
    rcases List.mem_cons.mp h with rfl | h
    · exact List.mem_cons_self ..
    · exact List.mem_cons_of_mem _ (ih h)

/-- A search ahead comes as far as the characters do that it passes over. -/
theorem find?_getD (text : String) (p : Char → Bool) :
    (find? text p).getD text.utf8ByteSize = utf8Len (text.toList.takeWhile fun c => !p c) := by
  have hfrom : ∀ (s : List Char) (offset : Nat),
      (((indexedFrom offset s).find? fun entry => p entry.2).map (·.1)).getD (offset + utf8Len s)
        = offset + utf8Len (s.takeWhile fun c => !p c) := by
    intro s
    induction s with
    | nil => intro offset; rfl
    | cons c s ih =>
      intro offset
      rw [indexedFrom, List.find?_cons, List.takeWhile_cons]
      by_cases hc : p c = true
      · simp [hc]
      · rw [Bool.not_eq_true] at hc
        have hrest := ih (offset + c.utf8Size)
        simp only [hc, Bool.not_false, if_true, String.utf8Len_cons]
        rw [show offset + (utf8Len s + c.utf8Size) = offset + c.utf8Size + utf8Len s by omega,
          hrest]
        omega
  have hthis := hfrom text.toList 0
  rwa [Nat.zero_add, Nat.zero_add, String.utf8Len_toList] at hthis

section Back

variable {text : String} {p : Char → Bool} {a b : List Char}

theorem findLast?_eq {c : Char} (h : text.toList = a ++ c :: b) (hc : p c = true)
    (hb : ∀ d ∈ b, p d = false) : findLast? text p = some (utf8Len a) := by
  have hnone : (indexedFrom (0 + utf8Len a + c.utf8Size) b).reverse.find? (fun entry => p entry.2)
      = none := by
    rw [List.find?_eq_none]
    intro entry hentry
    rw [List.mem_reverse] at hentry
    simp [hb _ (snd_mem_of_mem_indexedFrom hentry)]
  unfold findLast? indexed
  rw [h, indexedFrom_append, indexedFrom, List.reverse_append, List.reverse_cons,
    List.append_assoc, List.find?_append, hnone]
  simp [hc]

theorem findLast?_eq_none (h : ∀ c ∈ text.toList, p c = false) : findLast? text p = none := by
  unfold findLast? indexed
  rw [Option.map_eq_none_iff, List.find?_eq_none]
  intro entry hentry
  rw [List.mem_reverse] at hentry
  simp [h _ (snd_mem_of_mem_indexedFrom hentry)]

/-- A search back comes as far as the characters do that it passes over. -/
theorem findTail?_eq (h : text.toList = a ++ b) (hb : ∀ c ∈ b, p c = true)
    (ha : ∀ c ∈ a.getLast?, p c = false) :
    findTail? text p = if b = [] then none else some (utf8Len a) := by
  have hpassed : ∀ entry ∈ (indexedFrom (0 + utf8Len a) b).reverse, p entry.2 = true := by
    intro entry hentry
    rw [List.mem_reverse] at hentry
    exact hb _ (snd_mem_of_mem_indexedFrom hentry)
  have hstop : (indexedFrom 0 a).reverse.takeWhile (fun entry => p entry.2) = [] := by
    rcases List.eq_nil_or_concat a with rfl | ⟨a, d, rfl⟩
    · rfl
    · rw [List.concat_eq_append, List.getLast?_concat] at ha
      rw [List.concat_eq_append, indexedFrom_append, List.reverse_append]
      exact List.takeWhile_cons_of_neg (by simp [ha d rfl])
  unfold findTail? indexed
  rw [h, indexedFrom_append, List.reverse_append, List.takeWhile_append_of_pos hpassed, hstop,
    List.append_nil, List.getLast?_reverse, Nat.zero_add]
  cases b with
  | nil => rfl
  | cons c b => rfl

end Back

/-! ## Starts of a text -/

/-- Of the letters only those of one byte have a lower-case form here, and it has one byte too. -/
theorem utf8Size_toLower (c : Char) : c.toLower.utf8Size = c.utf8Size := by
  have hone : ∀ d : Char, d.val.toNat ≤ 127 → d.utf8Size = 1 := fun d hd =>
    Char.utf8Size_eq_one_iff.mpr (UInt32.le_iff_toNat_le.mpr hd)
  unfold Char.toLower
  split
  next h =>
    have hhigh : c.val.toNat ≤ 90 := UInt32.le_iff_toNat_le.mp h.2
    have hlower : (c.val + ('a'.val - 'A'.val)).toNat = c.val.toNat + 32 := by
      rw [UInt32.toNat_add]
      exact Nat.mod_eq_of_lt (by change c.val.toNat + 32 < _; omega)
    rw [hone c (by omega), hone _ (hlower.trans_le (by omega))]
  · rfl

theorem utf8Len_map_toLower (s : List Char) : utf8Len (s.map Char.toLower) = utf8Len s := by
  induction s with
  | nil => rfl
  | cons c s ih =>
    rw [List.map_cons, String.utf8Len_cons, String.utf8Len_cons, ih, utf8Size_toLower]

/-- A text starts with lower-case letters and signs if its lower-case form does. -/
theorem startsWith_eq (text : String) {start : List Char}
    (hstart : start.map Char.toLower = start) :
    startsWith text start = startsWithFold start text.toList := by
  rw [Bool.eq_iff_iff, startsWithFold_iff]
  unfold startsWith
  rw [String.utf8ByteSize_ofList, hstart]
  constructor
  · intro h
    split at h
    next head hhead =>
      -- There is a slice, so its end is a border and it is the characters in front of it.
      obtain ⟨a, b, htext, hsize⟩ := isBorder_iff.mp (isBorder_of_slice hhead)
      have ha : a <+: text.toList := htext ▸ List.prefix_append a b
      rw [hsize, slice_zero ha, Except.ok.injEq] at hhead
      rw [decide_eq_true_eq, ← hhead, String.toList_ofList] at h
      rw [← h]
      exact ha.map _
    · cases h
  · intro h
    -- The characters that become `start` have its length, so the slice is there.
    obtain ⟨a, b, htext, ha, -⟩ := List.map_eq_append_iff.mp (List.prefix_iff_eq_append.mp h).symm
    rw [← ha, utf8Len_map_toLower, slice_zero (htext ▸ List.prefix_append a b)]
    simp

end Bracketdown.Link.Offset
