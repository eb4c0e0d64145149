import Bracketdown.Proofs.Json.Layout

/-!
# How long a written value is

A loop over a written array or object takes one step for each element or member, and each of them
fills at least one character. What stands inside brackets is shorter than the brackets with all that
they hold. So the length of a text is fuel enough for a loop over it and for everything inside it.
-/

namespace Bracketdown.Json

theorem length_le_spellElements (layout : Layout) (level : Nat) (vs : List Json) :
    vs.length ≤ (spellElements layout level vs).length := by
  induction vs with
  | nil => exact Nat.zero_le _
  | cons v vs ih =>
    rw [spellElements]
    simp only [List.length_cons, List.length_append]
    omega

theorem length_le_spellMembers (layout : Layout) (level : Nat) (ms : List (String × Json)) :
    ms.length ≤ (spellMembers layout level ms).length := by
  induction ms with
  | nil => exact Nat.zero_le _
  | cons m ms ih =>
    rw [spellMembers]
    simp only [List.length_cons, List.length_append]
    omega

theorem length_spell_le_elements (layout : Layout) (level : Nat) {v : Json} {vs : List Json}
    (h : v ∈ vs) :
    (spell layout level v).length ≤ (spellElements layout level vs).length := by
  induction vs with
  | nil => exact absurd h List.not_mem_nil
  | cons w vs ih =>
    rw [spellElements]
    simp only [List.length_cons, List.length_append]
    rcases List.mem_cons.mp h with rfl | h
    · omega
    · have := ih h
      omega

theorem length_spell_le_member (layout : Layout) (level : Nat) (m : String × Json) :
    (spell layout level m.2).length ≤ (spellMember layout level m).length := by
  rw [spellMember]
  simp only [List.length_cons, List.length_append]
  omega

theorem length_spell_le_members (layout : Layout) (level : Nat) {m : String × Json}
    {ms : List (String × Json)} (h : m ∈ ms) :
    (spell layout level m.2).length ≤ (spellMembers layout level ms).length := by
  induction ms with
  | nil => exact absurd h List.not_mem_nil
  | cons n ms ih =>
    rw [spellMembers]
    simp only [List.length_cons, List.length_append]
    rcases List.mem_cons.mp h with rfl | h
    · have := length_spell_le_member layout level m
      omega
    · have := ih h
      omega

/-- An element is shorter than its array. -/
theorem length_spell_lt_array (layout : Layout) (level : Nat) {v : Json} {vs : List Json}
    (h : v ∈ vs) :
    (spell layout (level + 1) v).length < (spell layout level (.array vs)).length := by
  cases vs with
  | nil => exact absurd h List.not_mem_nil
  | cons w vs =>
    rw [spell]
    simp only [List.length_cons, List.length_append]
    rcases List.mem_cons.mp h with rfl | h
    · omega
    · have := length_spell_le_elements layout (level + 1) h
      omega

theorem length_le_array (layout : Layout) (level : Nat) (vs : List Json) :
    vs.length ≤ (spell layout level (.array vs)).length := by
  cases vs with
  | nil => exact Nat.zero_le _
  | cons v vs =>
    have := length_le_spellElements layout (level + 1) vs
    rw [spell]
    simp only [List.length_cons, List.length_append]
    omega

/-- A value is shorter than the object it is a member of. -/
theorem length_spell_lt_object (layout : Layout) (level : Nat) {m : String × Json}
    {ms : List (String × Json)} (h : m ∈ ms) :
    (spell layout (level + 1) m.2).length < (spell layout level (.object ms)).length := by
  cases ms with
  | nil => exact absurd h List.not_mem_nil
  | cons n ms =>
    rw [spell]
    simp only [List.length_cons, List.length_append]
    rcases List.mem_cons.mp h with rfl | h
    · have := length_spell_le_member layout (level + 1) m
      omega
    · have := length_spell_le_members layout (level + 1) h
      omega

end Bracketdown.Json
