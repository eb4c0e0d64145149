import Bracketdown.Json.Basic

/-!
# One writer for both written forms

The compact and the indented form of a JSON value differ only in the blanks that stand between its
parts. A `Layout` says which blanks those are, and carries the proof that they are blanks, so
`spell` is one writer with the layout as a parameter: `spell_compact` and `spell_indented` say that
it writes exactly what the two writers of the library write. What holds of `spell` for every layout
holds of both forms, which is how the readers are compared with the writers.
-/

namespace Bracketdown.Json

/-- The blanks that may stand between the parts of a JSON text. -/
def isGap (c : Char) : Prop := c = ' ' ∨ c = '\t' ∨ c = '\n' ∨ c = '\r'

instance (c : Char) : Decidable (isGap c) :=
  inferInstanceAs (Decidable (c = ' ' ∨ c = '\t' ∨ c = '\n' ∨ c = '\r'))

/-- The blanks of a written form: those in front of an element or a closing bracket at a level, and
those behind a colon. -/
structure Layout where
  line : Nat → List Char
  behindColon : List Char
  line_gap : ∀ level, ∀ c ∈ line level, isGap c
  behindColon_gap : ∀ c ∈ behindColon, isGap c

/-- No blanks at all. -/
def Layout.compact : Layout where
  line _ := []
  behindColon := []
  line_gap := by simp
  behindColon_gap := by simp

theorem isGap_of_mem_newline {level : Nat} {c : Char} (h : c ∈ newline level) : isGap c := by
  rw [newline, List.mem_cons] at h
  rcases h with rfl | h
  · exact Or.inr (Or.inr (Or.inl rfl))
  · exact Or.inl (List.eq_of_mem_replicate h)

/-- A line for each element and member. -/
def Layout.indented : Layout where
  line := newline
  behindColon := [' ']
  line_gap _ _ h := isGap_of_mem_newline h
  behindColon_gap _ h := Or.inl (List.mem_singleton.mp h)

mutual

/-- The written form of a value at a level. -/
def spell (layout : Layout) (level : Nat) : Json → List Char
  | .null => ['n', 'u', 'l', 'l']
  | .bool b => word b
  | .number n => digits n
  | .string s => quoted s
  | .array [] => ['[', ']']
  | .array (v :: vs) =>
    '[' :: (layout.line (level + 1) ++ (spell layout (level + 1) v
      ++ (spellElements layout (level + 1) vs ++ (layout.line level ++ [']']))))
  | .object [] => ['\x7b', '\x7d']
  | .object (m :: ms) =>
    '\x7b' :: (layout.line (level + 1) ++ (spellMember layout (level + 1) m
      ++ (spellMembers layout (level + 1) ms ++ (layout.line level ++ ['\x7d']))))

/-- The elements after the first. -/
def spellElements (layout : Layout) (level : Nat) : List Json → List Char
  | [] => []
  | v :: vs =>
    ',' :: (layout.line level ++ (spell layout level v ++ spellElements layout level vs))

/-- One member of an object. -/
def spellMember (layout : Layout) (level : Nat) : String × Json → List Char
  | (key, v) => quoted key ++ ':' :: (layout.behindColon ++ spell layout level v)

/-- The members after the first. -/
def spellMembers (layout : Layout) (level : Nat) : List (String × Json) → List Char
  | [] => []
  | m :: ms =>
    ',' :: (layout.line level ++ (spellMember layout level m ++ spellMembers layout level ms))

end

mutual

/-- Without blanks, the writer writes the compact form. -/
theorem spell_compact (level : Nat) : ∀ v, spell .compact level v = compact v
  | .null => by rw [spell, compact]
  | .bool _ => by rw [spell, compact]
  | .number _ => by rw [spell, compact]
  | .string _ => by rw [spell, compact]
  | .array [] => by rw [spell, compact]
  | .array (v :: vs) => by
    rw [spell, compact, spell_compact, spellElements_compact]
    simp [Layout.compact]
  | .object [] => by rw [spell, compact]
  | .object (m :: ms) => by
    rw [spell, compact, spellMember_compact, spellMembers_compact]
    simp [Layout.compact]

theorem spellElements_compact (level : Nat) :
    ∀ vs, spellElements .compact level vs = compactElements vs
  | [] => by rw [spellElements, compactElements]
  | v :: vs => by
    rw [spellElements, compactElements, spell_compact, spellElements_compact]
    rfl

theorem spellMember_compact (level : Nat) :
    ∀ m, spellMember .compact level m = compactMember m
  | (_, v) => by
    rw [spellMember, compactMember, spell_compact]
    rfl

theorem spellMembers_compact (level : Nat) :
    ∀ ms, spellMembers .compact level ms = compactMembers ms
  | [] => by rw [spellMembers, compactMembers]
  | m :: ms => by
    rw [spellMembers, compactMembers, spellMember_compact, spellMembers_compact]
    rfl

end

mutual

/-- With a line for each part, the writer writes the indented form. -/
theorem spell_indented (level : Nat) : ∀ v, spell .indented level v = pretty level v
  | .null => by rw [spell, pretty]
  | .bool _ => by rw [spell, pretty]
  | .number _ => by rw [spell, pretty]
  | .string _ => by rw [spell, pretty]
  | .array [] => by rw [spell, pretty]
  | .array (v :: vs) => by
    rw [spell, pretty, spell_indented, spellElements_indented]
    simp [Layout.indented]
  | .object [] => by rw [spell, pretty]
  | .object (m :: ms) => by
    rw [spell, pretty, spellMember_indented, spellMembers_indented]
    simp [Layout.indented]

theorem spellElements_indented (level : Nat) :
    ∀ vs, spellElements .indented level vs = prettyElements level vs
  | [] => by rw [spellElements, prettyElements]
  | v :: vs => by
    rw [spellElements, prettyElements, spell_indented, spellElements_indented]
    simp [Layout.indented]

theorem spellMember_indented (level : Nat) :
    ∀ m, spellMember .indented level m = prettyMember level m
  | (_, v) => by
    rw [spellMember, prettyMember, spell_indented]
    rfl

theorem spellMembers_indented (level : Nat) :
    ∀ ms, spellMembers .indented level ms = prettyMembers level ms
  | [] => by rw [spellMembers, prettyMembers]
  | m :: ms => by
    rw [spellMembers, prettyMembers, spellMember_indented, spellMembers_indented]
    simp [Layout.indented]

end

end Bracketdown.Json
