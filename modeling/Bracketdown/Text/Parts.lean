/-!
# Parts of a text

`parts` cuts a text at every character that a test finds. The marks themselves belong to no part, so
there is always one part more than there are marks.
-/

namespace Bracketdown.Text

/-- The parts of a text between the characters that a test finds. -/
def parts (isMark : Char → Bool) : List Char → List (List Char)
  | [] => [[]]
  | c :: cs =>
    if isMark c then [] :: parts isMark cs
    else match parts isMark cs with
      | part :: rest => (c :: part) :: rest
      | [] => [[c]]

theorem parts_ne_nil (isMark : Char → Bool) : ∀ s, parts isMark s ≠ []
  | [] => by simp [parts]
  | c :: cs => by
    rw [parts]
    split
    · simp
    · split <;> simp

/-- There is one part more than there are marks. -/
theorem length_parts (isMark : Char → Bool) (s : List Char) :
    (parts isMark s).length = s.countP isMark + 1 := by
  induction s with
  | nil => rfl
  | cons c cs ih =>
    rw [parts, List.countP_cons]
    split
    · simp [ih]
    · have := parts_ne_nil isMark cs
      split <;> simp_all

/-- Every character that is no mark is in a part. -/
theorem exists_mem_parts {isMark : Char → Bool} {c : Char} (hc : isMark c = false) {s : List Char}
    (h : c ∈ s) : ∃ part ∈ parts isMark s, c ∈ part := by
  induction s with
  | nil => cases h
  | cons d s ih =>
    rw [parts]
    split
    next hd =>
      rcases List.mem_cons.mp h with rfl | h
      · rw [hd] at hc
        cases hc
      · obtain ⟨part, hpart, hmem⟩ := ih h
        exact ⟨part, List.mem_cons_of_mem _ hpart, hmem⟩
    · split
      next first rest hparts =>
        rw [hparts] at ih
        rcases List.mem_cons.mp h with rfl | h
        · exact ⟨c :: first, List.mem_cons_self .., List.mem_cons_self ..⟩
        · obtain ⟨part, hpart, hmem⟩ := ih h
          rcases List.mem_cons.mp hpart with rfl | hpart
          · exact ⟨d :: part, List.mem_cons_self .., List.mem_cons_of_mem _ hmem⟩
          · exact ⟨part, List.mem_cons_of_mem _ hpart, hmem⟩
      next hparts => exact absurd hparts (parts_ne_nil isMark s)

/-- Behind a mark at the end there is an empty part. -/
theorem parts_concat_of_mark {isMark : Char → Bool} {c : Char} (hc : isMark c = true)
    (s : List Char) : parts isMark (s ++ [c]) = parts isMark s ++ [[]] := by
  induction s with
  | nil => simp [parts, hc]
  | cons d s ih =>
    rw [List.cons_append, parts, ih, parts]
    split
    · rfl
    · have hne := parts_ne_nil isMark s
      cases hparts : parts isMark s with
      | nil => exact absurd hparts hne
      | cons first rest => rfl

/-- A character at the end that is no mark ends the last part. -/
theorem parts_concat {isMark : Char → Bool} {c : Char} (hc : isMark c = false) (s : List Char) :
    ∃ before last, parts isMark (s ++ [c]) = before ++ [last ++ [c]] := by
  induction s with
  | nil => exact ⟨[], [], by simp [parts, hc]⟩
  | cons d s ih =>
    obtain ⟨before, last, hparts⟩ := ih
    rw [List.cons_append, parts, hparts]
    split
    · exact ⟨[] :: before, last, rfl⟩
    · cases before with
      | nil => exact ⟨[], d :: last, rfl⟩
      | cons first before => exact ⟨(d :: first) :: before, last, rfl⟩

/-- A text without marks is one part. -/
theorem parts_of_not_mark {isMark : Char → Bool} {s : List Char}
    (h : ∀ c ∈ s, isMark c = false) : parts isMark s = [s] := by
  induction s with
  | nil => rfl
  | cons c s ih =>
    have hrest := ih fun d hd => h d (List.mem_cons_of_mem _ hd)
    simp [parts, h c (List.mem_cons_self ..), hrest]

/-- The first part is what stands before the first mark. -/
theorem parts_append_mark {isMark : Char → Bool} {c : Char} (hc : isMark c = true) {s : List Char}
    (h : ∀ d ∈ s, isMark d = false) (rest : List Char) :
    parts isMark (s ++ c :: rest) = s :: parts isMark rest := by
  induction s with
  | nil => simp [parts, hc]
  | cons d s ih =>
    have hrest := ih fun e he => h e (List.mem_cons_of_mem _ he)
    simp [parts, h d (List.mem_cons_self ..), hrest]

end Bracketdown.Text
