import Bracketdown.Proofs.Json.Spelling
import Bracketdown.Proofs.Json.Layout

/-!
# How deeply a JSON text is nested

There are two ways to say how many objects and arrays are open at once. `mostOpen` reads a text from
the left and counts brackets, except those inside strings; it knows nothing of values. `levels` is
the height of a value. `mostOpen_spell` says that they agree on every written form, so a limit on
open brackets in a text is a limit on the height of the value that was written.
-/

namespace Bracketdown.Json

/-- Where a reader of a text stands: between tokens, inside a string, or behind a backslash in
one. -/
inductive Place where
  | between | inside | escaped
  deriving DecidableEq, Repr

/-- The most objects and arrays that are open at once from a place on, when `depth` are open
there. -/
def mostOpenFrom : Place → Nat → List Char → Nat
  | _, depth, [] => depth
  | .between, depth, c :: cs =>
    if c = '"' then mostOpenFrom .inside depth cs
    else if c = '[' ∨ c = '\x7b' then mostOpenFrom .between (depth + 1) cs
    else if c = ']' ∨ c = '\x7d' then max depth (mostOpenFrom .between (depth - 1) cs)
    else mostOpenFrom .between depth cs
  | .inside, depth, c :: cs =>
    if c = '"' then mostOpenFrom .between depth cs
    else if c = '\\' then mostOpenFrom .escaped depth cs
    else mostOpenFrom .inside depth cs
  | .escaped, depth, _ :: cs => mostOpenFrom .inside depth cs

/-- The most objects and arrays that are open at once in a text. -/
def mostOpen (text : List Char) : Nat := mostOpenFrom .between 0 text

/-- What is open at the start is open at once. -/
theorem le_mostOpenFrom : ∀ (place : Place) (depth : Nat) (cs : List Char),
    depth ≤ mostOpenFrom place depth cs
  | _, _, [] => by simp [mostOpenFrom]
  | .between, depth, c :: cs => by
    rw [mostOpenFrom]
    split
    · exact le_mostOpenFrom .inside depth cs
    · split
      · exact Nat.le_trans (Nat.le_succ depth) (le_mostOpenFrom .between (depth + 1) cs)
      · split
        · exact Nat.le_max_left _ _
        · exact le_mostOpenFrom .between depth cs
  | .inside, depth, c :: cs => by
    rw [mostOpenFrom]
    split
    · exact le_mostOpenFrom .between depth cs
    · split
      · exact le_mostOpenFrom .escaped depth cs
      · exact le_mostOpenFrom .inside depth cs
  | .escaped, depth, _ :: cs => le_mostOpenFrom .inside depth cs

/-! ## Parts of a text without brackets -/

/-- A character that is neither a quote nor a bracket. -/
def isInert (c : Char) : Bool :=
  !(c = '"' || c = '[' || c = '\x7b' || c = ']' || c = '\x7d')

/-- Characters that are neither quotes nor brackets change nothing between tokens. -/
theorem mostOpenFrom_inert {cs : List Char} (h : ∀ c ∈ cs, isInert c = true) (depth : Nat)
    (rest : List Char) :
    mostOpenFrom .between depth (cs ++ rest) = mostOpenFrom .between depth rest := by
  induction cs with
  | nil => rfl
  | cons c cs ih =>
    have hc := h c (List.mem_cons_self ..)
    simp only [isInert, Bool.not_eq_true', Bool.or_eq_false_iff, decide_eq_false_iff_not] at hc
    rw [List.cons_append, mostOpenFrom, if_neg hc.1.1.1.1, if_neg (by simp [hc]),
      if_neg (by simp [hc])]
    exact ih fun d hd => h d (List.mem_cons_of_mem _ hd)

theorem isInert_of_isGap {c : Char} (h : isGap c) : isInert c = true := by
  rcases h with rfl | rfl | rfl | rfl <;> rfl

theorem isInert_of_isDigit {c : Char} (h : c.isDigit = true) : isInert c = true := by
  have ne : ∀ d : Char, d.isDigit = false → c ≠ d := by
    rintro d hd rfl
    rw [h] at hd
    exact absurd hd (by decide)
  have hq := ne '"' (by decide)
  have hl := ne '[' (by decide)
  have hb := ne '\x7b' (by decide)
  have hr := ne ']' (by decide)
  have he := ne '\x7d' (by decide)
  simp [isInert, hq, hl, hb, hr, he]

theorem mostOpenFrom_line (layout : Layout) (level depth : Nat) (rest : List Char) :
    mostOpenFrom .between depth (layout.line level ++ rest) = mostOpenFrom .between depth rest :=
  mostOpenFrom_inert (fun c h => isInert_of_isGap (layout.line_gap level c h)) depth rest

theorem mostOpenFrom_behindColon (layout : Layout) (depth : Nat) (rest : List Char) :
    mostOpenFrom .between depth (layout.behindColon ++ rest)
      = mostOpenFrom .between depth rest :=
  mostOpenFrom_inert (fun c h => isInert_of_isGap (layout.behindColon_gap c h)) depth rest

theorem mostOpenFrom_digits (n depth : Nat) (rest : List Char) :
    mostOpenFrom .between depth (digits n ++ rest) = mostOpenFrom .between depth rest :=
  mostOpenFrom_inert (fun _ h => isInert_of_isDigit (isDigit_of_mem_digits h)) depth rest

theorem mostOpenFrom_word (b : Bool) (depth : Nat) (rest : List Char) :
    mostOpenFrom .between depth (word b ++ rest) = mostOpenFrom .between depth rest := by
  refine mostOpenFrom_inert (List.all_eq_true.mp ?_) depth rest
  cases b <;> rfl

/-! ## Strings -/

/-- The spelling of a character never leaves the string. -/
theorem mostOpenFrom_escaped (c : Char) (depth : Nat) (rest : List Char) :
    mostOpenFrom .inside depth (escaped c ++ rest) = mostOpenFrom .inside depth rest := by
  rcases escaped_cases c with ⟨letter, -, h⟩ | ⟨hlow, h⟩ | ⟨hquote, hback, -, h⟩
  · rw [h]
    rfl
  · -- The digits of the number are ordinary characters.
    have hhigh := hexDigit_ne (show c.toNat / 16 < 16 by omega)
    have hlast := hexDigit_ne (show c.toNat % 16 < 16 by omega)
    rw [h]
    show mostOpenFrom .inside depth (hexDigit _ :: hexDigit _ :: rest) = _
    rw [mostOpenFrom, if_neg hhigh.1, if_neg hhigh.2, mostOpenFrom, if_neg hlast.1, if_neg hlast.2]
  · rw [h, List.singleton_append, mostOpenFrom, if_neg hquote, if_neg hback]

theorem mostOpenFrom_escapedAll (cs : List Char) (depth : Nat) (rest : List Char) :
    mostOpenFrom .inside depth (escapedAll cs ++ rest) = mostOpenFrom .inside depth rest := by
  induction cs with
  | nil => rfl
  | cons c cs ih =>
    rw [escapedAll, List.flatMap_cons, List.append_assoc, mostOpenFrom_escaped]
    exact ih

theorem mostOpenFrom_quoted (s : String) (depth : Nat) (rest : List Char) :
    mostOpenFrom .between depth (quoted s ++ rest) = mostOpenFrom .between depth rest := by
  rw [quoted, List.cons_append, List.append_assoc, mostOpenFrom, if_pos rfl,
    mostOpenFrom_escapedAll, List.singleton_append, mostOpenFrom, if_pos rfl]

/-! ## Values -/

mutual

/-- The height of a value: how many objects and arrays lie inside one another. -/
def levels : Json → Nat
  | .array vs => levelsAll vs + 1
  | .object ms => levelsMembers ms + 1
  | .null => 0
  | .bool _ => 0
  | .number _ => 0
  | .string _ => 0

/-- The height of the highest of some values. -/
def levelsAll : List Json → Nat
  | [] => 0
  | v :: vs => max (levels v) (levelsAll vs)

/-- The height of the highest value of some members. -/
def levelsMembers : List (String × Json) → Nat
  | [] => 0
  | (_, v) :: ms => max (levels v) (levelsMembers ms)

end

theorem levelsAll_append (vs ws : List Json) :
    levelsAll (vs ++ ws) = max (levelsAll vs) (levelsAll ws) := by
  induction vs with
  | nil => rw [List.nil_append, levelsAll, Nat.zero_max]
  | cons v vs ih => rw [List.cons_append, levelsAll, levelsAll, ih, Nat.max_assoc]

theorem levelsAll_reverse (vs : List Json) : levelsAll vs.reverse = levelsAll vs := by
  induction vs with
  | nil => rfl
  | cons v vs ih =>
    rw [List.reverse_cons, levelsAll_append, ih, levelsAll, levelsAll, levelsAll, Nat.max_zero,
      Nat.max_comm]

theorem mostOpenFrom_close {c : Char} (hc : c = ']' ∨ c = '\x7d') (depth : Nat)
    (rest : List Char) :
    mostOpenFrom .between (depth + 1) (c :: rest)
      = max (depth + 1) (mostOpenFrom .between depth rest) := by
  rcases hc with rfl | rfl <;> rfl

theorem mostOpenFrom_open {c : Char} (hc : c = '[' ∨ c = '\x7b') (depth : Nat)
    (rest : List Char) :
    mostOpenFrom .between depth (c :: rest) = mostOpenFrom .between (depth + 1) rest := by
  rcases hc with rfl | rfl <;> rfl

theorem mostOpenFrom_comma (depth : Nat) (rest : List Char) :
    mostOpenFrom .between depth (',' :: rest) = mostOpenFrom .between depth rest := rfl

theorem mostOpenFrom_colon (depth : Nat) (rest : List Char) :
    mostOpenFrom .between depth (':' :: rest) = mostOpenFrom .between depth rest := rfl

mutual

/-- A written value in front of a text adds its height to what is open there. -/
theorem mostOpenFrom_spell (layout : Layout) (level depth : Nat) (rest : List Char) :
    ∀ v, mostOpenFrom .between depth (spell layout level v ++ rest)
      = max (depth + levels v) (mostOpenFrom .between depth rest)
  | .null => by
    rw [spell, mostOpenFrom_inert (List.all_eq_true.mp rfl), levels]
    exact (Nat.max_eq_right (le_mostOpenFrom ..)).symm
  | .bool b => by
    rw [spell, mostOpenFrom_word, levels]
    exact (Nat.max_eq_right (le_mostOpenFrom ..)).symm
  | .number n => by
    rw [spell, mostOpenFrom_digits, levels]
    exact (Nat.max_eq_right (le_mostOpenFrom ..)).symm
  | .string s => by
    rw [spell, mostOpenFrom_quoted, levels]
    exact (Nat.max_eq_right (le_mostOpenFrom ..)).symm
  | .array [] => by
    rw [spell, List.cons_append, mostOpenFrom_open (Or.inl rfl), List.singleton_append,
      mostOpenFrom_close (Or.inl rfl), levels, levelsAll]
  | .array (v :: vs) => by
    have hle := le_mostOpenFrom .between depth rest
    rw [spell]
    simp only [List.cons_append, List.append_assoc, List.nil_append]
    rw [mostOpenFrom_open (Or.inl rfl), mostOpenFrom_line, mostOpenFrom_spell,
      mostOpenFrom_spellElements, mostOpenFrom_line, mostOpenFrom_close (Or.inl rfl), levels,
      levelsAll]
    omega
  | .object [] => by
    rw [spell, List.cons_append, mostOpenFrom_open (Or.inr rfl), List.singleton_append,
      mostOpenFrom_close (Or.inr rfl), levels, levelsMembers]
  | .object ((key, v) :: ms) => by
    have hle := le_mostOpenFrom .between depth rest
    rw [spell]
    simp only [List.cons_append, List.append_assoc, List.nil_append]
    rw [mostOpenFrom_open (Or.inr rfl), mostOpenFrom_line, mostOpenFrom_spellMember,
      mostOpenFrom_spellMembers, mostOpenFrom_line, mostOpenFrom_close (Or.inr rfl), levels,
      levelsMembers]
    dsimp only
    omega

theorem mostOpenFrom_spellElements (layout : Layout) (level depth : Nat) (rest : List Char) :
    ∀ vs, mostOpenFrom .between depth (spellElements layout level vs ++ rest)
      = max (depth + levelsAll vs) (mostOpenFrom .between depth rest)
  | [] => by
    have hle := le_mostOpenFrom .between depth rest
    rw [spellElements, List.nil_append, levelsAll]
    omega
  | v :: vs => by
    rw [spellElements]
    simp only [List.cons_append, List.append_assoc]
    rw [mostOpenFrom_comma, mostOpenFrom_line, mostOpenFrom_spell, mostOpenFrom_spellElements,
      levelsAll]
    omega

theorem mostOpenFrom_spellMember (layout : Layout) (level depth : Nat) (rest : List Char) :
    ∀ m, mostOpenFrom .between depth (spellMember layout level m ++ rest)
      = max (depth + levels m.2) (mostOpenFrom .between depth rest)
  | (key, v) => by
    rw [spellMember]
    simp only [List.cons_append, List.append_assoc]
    rw [mostOpenFrom_quoted, mostOpenFrom_colon, mostOpenFrom_behindColon, mostOpenFrom_spell]

theorem mostOpenFrom_spellMembers (layout : Layout) (level depth : Nat) (rest : List Char) :
    ∀ ms, mostOpenFrom .between depth (spellMembers layout level ms ++ rest)
      = max (depth + levelsMembers ms) (mostOpenFrom .between depth rest)
  | [] => by
    have hle := le_mostOpenFrom .between depth rest
    rw [spellMembers, List.nil_append, levelsMembers]
    omega
  | (key, v) :: ms => by
    rw [spellMembers]
    simp only [List.cons_append, List.append_assoc]
    rw [mostOpenFrom_comma, mostOpenFrom_line, mostOpenFrom_spellMember,
      mostOpenFrom_spellMembers, levelsMembers]
    dsimp only
    omega

end

/-- **The brackets of a text are the height of its value**: a written form never has more objects
and arrays open at once than lie inside one another in the value, and reaches that number. -/
theorem mostOpen_spell (layout : Layout) (level : Nat) (v : Json) :
    mostOpen (spell layout level v) = levels v := by
  have h := mostOpenFrom_spell layout level 0 [] v
  rw [List.append_nil] at h
  rw [mostOpen, h, mostOpenFrom]
  omega

end Bracketdown.Json
