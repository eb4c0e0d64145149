import Bracketdown.Json.Scan
import Bracketdown.Proofs.Json.Depth

/-!
# How deeply the wanted part of a JSON text is nested

A value under a key that nobody asked for is skipped, and the brackets in it do not count against
the text it stands in. `mostWanted` counts brackets as `mostOpen` does, from the left and without
knowing of values, but leaves out those of unwanted values. Beside the place inside or outside a
string it has to know whether a key or a value comes next, hence the stack of open brackets, and how
many brackets are open in an unwanted value, since that value ends where they are closed.

Most is said of `countAt`, the count from a place between tokens on, and what each character does to
it there.
-/

namespace Bracketdown.Json

/-- A bracket that is open. -/
inductive Bracket where
  | object | array
  deriving DecidableEq, Repr

/-- What a place of a text belongs to: the key of a member, a wanted value, or an unwanted value
with so many brackets open in it. -/
inductive Part where
  | key | value | skipped (depth : Nat)
  deriving DecidableEq, Repr

/-- What comes behind a bracket, and behind a comma inside it. -/
def Bracket.inner : Bracket → Part
  | .object => .key
  | .array => .value

/-- What a count has to know of the text in front of a place. -/
structure Cursor where
  place : Place
  part : Part
  /-- The open brackets outside unwanted values, the innermost first. -/
  opened : List Bracket
  deriving DecidableEq, Repr

/-- What a string and the value behind it belong to, from behind the opening quote on. A key that
cannot be read counts as wanted. -/
def Part.behindQuote (wanted : String → Bool) (rest : Input) : Part → Part
  | .key =>
    match readString [] rest with
    | .ok (name, _) => if wanted name then .value else .skipped 0
    | .error _ => .value
  | part => part

theorem Part.behindQuote_key {wanted : String → Bool} {name : String} {rest behind : Input}
    (h : readString [] rest = .ok (name, behind)) :
    Part.key.behindQuote wanted rest = if wanted name then .value else .skipped 0 := by
  rw [behindQuote, h]

theorem Part.behindQuote_skipped {wanted : String → Bool} {depth : Nat} {rest : Input} :
    (Part.skipped depth).behindQuote wanted rest = .skipped depth := rfl

namespace Cursor

/-- Behind an opening bracket. -/
def enter (b : Bracket) (cursor : Cursor) : Cursor :=
  match cursor.part with
  | .skipped depth => { cursor with part := .skipped (depth + 1) }
  | _ => { cursor with part := b.inner, opened := b :: cursor.opened }

/-- Behind a closing bracket. -/
def leave (cursor : Cursor) : Cursor :=
  match cursor.part with
  | .skipped (depth + 1) => { cursor with part := .skipped depth }
  | _ => { cursor with part := .value, opened := cursor.opened.tail }

/-- Behind a comma. -/
def next (cursor : Cursor) : Cursor :=
  match cursor.part with
  | .skipped (_ + 1) => cursor
  | _ => { cursor with part := cursor.opened.head?.elim .value Bracket.inner }

/-- Behind one character, which is followed by `rest`. -/
def step (wanted : String → Bool) (cursor : Cursor) (c : Option Char) (rest : Input) : Cursor :=
  match cursor.place with
  | .between =>
    if c = some '"' then
      { cursor with place := .inside, part := cursor.part.behindQuote wanted rest }
    else if c = some '[' then cursor.enter .array
    else if c = some '\x7b' then cursor.enter .object
    else if c = some ']' ∨ c = some '\x7d' then cursor.leave
    else if c = some ',' then cursor.next
    else cursor
  | .inside =>
    if c = some '"' then { cursor with place := .between }
    else if c = some '\\' then { cursor with place := .escaped }
    else cursor
  | .escaped => { cursor with place := .inside }

/-- The most objects and arrays outside unwanted values that are open at once from a place on. -/
def most (wanted : String → Bool) (cursor : Cursor) : Input → Nat
  | [] => cursor.opened.length
  | c :: rest => max cursor.opened.length ((cursor.step wanted c rest).most wanted rest)

/-- The number of all brackets that are open. -/
def depth (cursor : Cursor) : Nat :=
  match cursor.part with
  | .skipped depth => cursor.opened.length + depth
  | _ => cursor.opened.length

end Cursor

/-- The most objects and arrays that are open at once in a text, apart from what lies under unwanted
keys. -/
def mostWanted (wanted : String → Bool) (text : Input) : Nat :=
  Cursor.most wanted ⟨.between, .value, []⟩ text

/-! ## Against the count of all brackets -/

namespace Cursor

variable {wanted : String → Bool} {cursor : Cursor}

@[simp] theorem place_enter (b : Bracket) : (cursor.enter b).place = cursor.place := by
  unfold enter
  split <;> rfl

@[simp] theorem place_leave : cursor.leave.place = cursor.place := by
  unfold leave
  split <;> rfl

@[simp] theorem place_next : cursor.next.place = cursor.place := by
  unfold next
  split <;> rfl

@[simp] theorem depth_enter (b : Bracket) : (cursor.enter b).depth = cursor.depth + 1 := by
  obtain ⟨place, part, opened⟩ := cursor
  cases part <;> cases b <;> simp [enter, depth, Bracket.inner, Nat.add_assoc]

@[simp] theorem depth_leave : cursor.leave.depth = cursor.depth - 1 := by
  obtain ⟨place, part, opened⟩ := cursor
  match part with
  | .key | .value | .skipped 0 => simp [leave, depth]
  | .skipped (n + 1) => simp [leave, depth, ← Nat.add_assoc]

@[simp] theorem depth_next : cursor.next.depth = cursor.depth := by
  obtain ⟨place, part, opened⟩ := cursor
  match part, opened with
  | .skipped (n + 1), _ => rfl
  | .key, [] | .value, [] | .skipped 0, [] => rfl
  | .key, b :: _ | .value, b :: _ | .skipped 0, b :: _ => cases b <;> rfl

theorem depth_behindQuote (cursor : Cursor) (place : Place) (rest : Input) :
    depth { cursor with place := place, part := cursor.part.behindQuote wanted rest }
      = cursor.depth := by
  obtain ⟨_, part, opened⟩ := cursor
  cases part with
  | key =>
    simp only [Part.behindQuote]
    split
    · split <;> rfl
    · rfl
  | _ => rfl

theorem length_opened_le_depth (cursor : Cursor) : cursor.opened.length ≤ cursor.depth := by
  unfold depth
  split
  · exact Nat.le_add_right _ _
  · exact Nat.le_refl _

/-- One character moves the place and the number of open brackets as for the count of all
brackets. -/
theorem mostOpenFrom_step (wanted : String → Bool) (cursor : Cursor) (c : Char) (rest : Input)
    (cs : List Char) :
    mostOpenFrom cursor.place cursor.depth (c :: cs)
      = max cursor.depth (mostOpenFrom (cursor.step wanted (some c) rest).place
          (cursor.step wanted (some c) rest).depth cs) := by
  obtain ⟨place, part, opened⟩ := cursor
  have hle := fun place => le_mostOpenFrom place (depth ⟨place, part, opened⟩) cs
  cases place with
  | between =>
    simp only [step, mostOpenFrom, Option.some.injEq]
    by_cases hquote : c = '"'
    · rw [if_pos hquote, if_pos hquote,
        depth_behindQuote ⟨.between, part, opened⟩ .inside rest]
      exact (Nat.max_eq_right (hle .inside)).symm
    rw [if_neg hquote, if_neg hquote]
    by_cases hlist : c = '['
    · rw [if_pos hlist, if_pos (Or.inl hlist), place_enter, depth_enter]
      exact (Nat.max_eq_right (Nat.le_of_succ_le (le_mostOpenFrom _ _ cs))).symm
    by_cases hobject : c = '\x7b'
    · rw [if_neg hlist, if_pos hobject, if_pos (Or.inr hobject), place_enter, depth_enter]
      exact (Nat.max_eq_right (Nat.le_of_succ_le (le_mostOpenFrom _ _ cs))).symm
    rw [if_neg hlist, if_neg hobject, if_neg (not_or.mpr ⟨hlist, hobject⟩)]
    by_cases hclose : c = ']' ∨ c = '\x7d'
    · rw [if_pos hclose, if_pos hclose, place_leave, depth_leave]
    rw [if_neg hclose, if_neg hclose]
    by_cases hcomma : c = ','
    · rw [if_pos hcomma, place_next, depth_next]
      exact (Nat.max_eq_right (hle .between)).symm
    · rw [if_neg hcomma]
      exact (Nat.max_eq_right (hle .between)).symm
  | inside =>
    simp only [step, mostOpenFrom, Option.some.injEq]
    by_cases hquote : c = '"'
    · rw [if_pos hquote, if_pos hquote]
      exact (Nat.max_eq_right (hle .between)).symm
    by_cases hback : c = '\\'
    · rw [if_neg hquote, if_pos hback, if_neg hquote, if_pos hback]
      exact (Nat.max_eq_right (hle .escaped)).symm
    · rw [if_neg hquote, if_neg hback, if_neg hquote, if_neg hback]
      exact (Nat.max_eq_right (hle .inside)).symm
  | escaped => exact (Nat.max_eq_right (hle .inside)).symm

/-- Leaving out unwanted values never makes the count larger. -/
theorem most_le_mostOpenFrom (cursor : Cursor) (cs : List Char) :
    cursor.most wanted (cs.map some) ≤ mostOpenFrom cursor.place cursor.depth cs := by
  induction cs generalizing cursor with
  | nil =>
    rw [mostOpenFrom]
    exact length_opened_le_depth cursor
  | cons c cs ih =>
    rw [List.map_cons, most, mostOpenFrom_step wanted cursor c (cs.map some)]
    have hle := length_opened_le_depth cursor
    have hrest := ih (cursor.step wanted (some c) (cs.map some))
    omega

end Cursor

/-- The part of a text outside unwanted values is not nested more deeply than the text. -/
theorem mostWanted_le_mostOpen (wanted : String → Bool) (text : List Char) :
    mostWanted wanted (text.map some) ≤ mostOpen text :=
  Cursor.most_le_mostOpenFrom _ text

/-- Under an unwanted key any number of brackets may be open. -/
example : mostWanted (· == "a") ("\x7b\"b\":[[[]]],\"a\":[[]]\x7d".toList.map some) = 3 := by
  decide +kernel

/-! ## The count between tokens -/

/-- The count from a place between tokens on. -/
def countAt (wanted : String → Bool) (part : Part) (opened : List Bracket) (input : Input) : Nat :=
  Cursor.most wanted ⟨.between, part, opened⟩ input

section

variable {wanted : String → Bool} {part : Part} {opened : List Bracket} {rest : Input}

theorem Cursor.length_opened_le_most (cursor : Cursor) (input : Input) :
    cursor.opened.length ≤ cursor.most wanted input := by
  cases input with
  | nil => exact Nat.le_refl _
  | cons c rest => exact Nat.le_max_left _ _

theorem length_le_countAt (opened : List Bracket) (input : Input) :
    opened.length ≤ countAt wanted part opened input :=
  Cursor.length_opened_le_most ⟨.between, part, opened⟩ input

/-- A step that closes no counted bracket can be left out of the count. -/
theorem Cursor.most_cons_of_step {cursor behind : Cursor} {c : Option Char}
    (hstep : cursor.step wanted c rest = behind)
    (hle : cursor.opened.length ≤ behind.opened.length) :
    cursor.most wanted (c :: rest) = behind.most wanted rest := by
  rw [most, hstep]
  exact Nat.max_eq_right (Nat.le_trans hle (length_opened_le_most behind rest))

/-- Neither a quote nor a bracket nor a comma. -/
def isPlain : Option Char → Bool
  | none => true
  | some c => isInert c && c != ','

theorem countAt_plain {c : Option Char} (h : isPlain c = true) :
    countAt wanted part opened (c :: rest) = countAt wanted part opened rest := by
  have hstep : Cursor.step wanted ⟨.between, part, opened⟩ c rest = ⟨.between, part, opened⟩ := by
    cases c with
    | none => rfl
    | some c =>
      simp only [isPlain, isInert, Bool.and_eq_true, Bool.not_eq_true', Bool.or_eq_false_iff,
        decide_eq_false_iff_not, bne_iff_ne] at h
      simp [Cursor.step, h]
  exact Cursor.most_cons_of_step hstep (Nat.le_refl _)

theorem countAt_quote :
    countAt wanted part opened (some '"' :: rest)
      = Cursor.most wanted ⟨.inside, part.behindQuote wanted rest, opened⟩ rest :=
  Cursor.most_cons_of_step rfl (Nat.le_refl _)

theorem countAt_array :
    countAt wanted .value opened (some '[' :: rest)
      = countAt wanted .value (.array :: opened) rest :=
  Cursor.most_cons_of_step rfl (Nat.le_succ _)

theorem countAt_object :
    countAt wanted .value opened (some '\x7b' :: rest)
      = countAt wanted .key (.object :: opened) rest :=
  Cursor.most_cons_of_step rfl (Nat.le_succ _)

/-- The part of a text that a closing bracket or a comma ends. -/
def Part.Ends (part : Part) : Prop := ∀ depth, part ≠ .skipped (depth + 1)

theorem Part.ends_key : Part.key.Ends := fun _ h => by cases h

theorem Part.ends_value : Part.value.Ends := fun _ h => by cases h

theorem Part.ends_skipped : (Part.skipped 0).Ends := fun _ h => by cases h

theorem countAt_close (hends : part.Ends) {c : Char} (hc : c = ']' ∨ c = '\x7d') (b : Bracket) :
    countAt wanted part (b :: opened) (some c :: rest)
      = max (opened.length + 1) (countAt wanted .value opened rest) := by
  have hstep : Cursor.step wanted ⟨.between, part, b :: opened⟩ (some c) rest
      = ⟨.between, .value, opened⟩ := by
    match part with
    | .key | .value | .skipped 0 => rcases hc with rfl | rfl <;> rfl
    | .skipped (depth + 1) => exact absurd rfl (hends depth)
  rw [countAt, Cursor.most, hstep]
  rfl

theorem countAt_comma (hends : part.Ends) (b : Bracket) :
    countAt wanted part (b :: opened) (some ',' :: rest)
      = countAt wanted b.inner (b :: opened) rest := by
  have hstep : Cursor.step wanted ⟨.between, part, b :: opened⟩ (some ',') rest
      = ⟨.between, b.inner, b :: opened⟩ := by
    match part with
    | .key | .value | .skipped 0 => rfl
    | .skipped (depth + 1) => exact absurd rfl (hends depth)
  exact Cursor.most_cons_of_step hstep (Nat.le_refl _)

/-! In an unwanted value only the brackets inside it are told apart. -/

variable {depth : Nat}

theorem countAt_skipped_open {c : Char} (hc : c = '[' ∨ c = '\x7b') :
    countAt wanted (.skipped depth) opened (some c :: rest)
      = countAt wanted (.skipped (depth + 1)) opened rest := by
  rcases hc with rfl | rfl <;> exact Cursor.most_cons_of_step rfl (Nat.le_refl _)

theorem countAt_skipped_close {c : Char} (hc : c = ']' ∨ c = '\x7d') :
    countAt wanted (.skipped (depth + 1)) opened (some c :: rest)
      = countAt wanted (.skipped depth) opened rest := by
  rcases hc with rfl | rfl <;> exact Cursor.most_cons_of_step rfl (Nat.le_refl _)

theorem countAt_skipped_comma :
    countAt wanted (.skipped (depth + 1)) opened (some ',' :: rest)
      = countAt wanted (.skipped (depth + 1)) opened rest :=
  Cursor.most_cons_of_step rfl (Nat.le_refl _)

end

end Bracketdown.Json
