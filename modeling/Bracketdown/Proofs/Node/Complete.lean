import Mathlib.Data.List.MinMax
import Mathlib.Order.Nat
import Bracketdown.Proofs.Node.ReadMeaning

/-!
# Complete trees

Once a text is a tree as far as the types go (`WellTyped`: every node is an object with a kind, no
field stands twice, and every value is of the type of its field), all that can still be wrong with
it is a node that lacks a field its kind needs, or a heading of a bad depth. `needs` is the table of
these fields and `Syntax.defect?` the first defect of one node.

Nodes are made from the bottom up, hence the defect that is reported is the first one in postorder
(`failure?_meaning`). Whether a node is kept does not matter: below a leaf, and below a node of an
unknown kind, the children are read all the same. Together with `decode_spells` this says exactly
which texts are accepted and what is reported for the others.
-/

namespace Bracketdown

open Json (Syntax Quoted Spells knownFields fieldKey)
open Json.Syntax (valueIn)
open Node (Field Record Defect)

/-! ## What a kind needs -/

namespace Node

/-- The fields that a kind needs, in the order in which they are asked for. -/
def needs : String → List Field
  | "heading" => [.depth, .children]
  | "link" => [.url, .children]
  | "image" => [.url]
  | "text" | "inlineCode" | "code" => [.value]
  | "root" | "paragraph" | "list" | "listItem" | "strong" | "emphasis" | "blockquote" | "delete" =>
    [.children]
  | _ => []

/-- What is wrong with a field that a node of the kind needs: it is not given, or it is a depth out
of range. -/
def flaw? (kind : String) (given : Field → Bool) (depth : Option UInt8) : Field → Option Defect
  | .depth =>
    match depth with
    | none => some (.missing kind .depth)
    | some depth => if 1 ≤ depth ∧ depth ≤ 6 then none else some (.badDepth depth)
  | field => if given field then none else some (.missing kind field)

/-- The first defect of a node of the kind. -/
def firstFlaw? (kind : String) (given : Field → Bool) (depth : Option UInt8) : Option Defect :=
  (needs kind).findSome? (flaw? kind given depth)

end Node

/-! ## Trees of values -/

namespace Json.Syntax

/-- The value of a field of a node, which is `null` when it is not given. -/
def field : Syntax → Field → Syntax
  | .object ms => valueIn (knownFields ms)
  | _ => fun _ => .null

/-- The nodes right below a node. -/
def children (v : Syntax) : List Syntax :=
  match v.field .children with
  | .array vs => vs
  | _ => []

/-- A node is larger than a node right below it, so walks over `children` end. -/
theorem sizeOf_lt_of_mem_children {child v : Syntax} (h : child ∈ v.children) :
    sizeOf child < sizeOf v := by
  unfold children at h
  split at h
  case h_2 => cases h
  next vs hvs =>
    have hchild := List.sizeOf_lt_of_mem h
    cases v with
    | object ms =>
      have hvs : valueIn (knownFields ms) .children = .array vs := hvs
      have hgiven : (valueIn (knownFields ms) .children).isNull = false := by
        rw [hvs]
        rfl
      have hknown := Decode.mem_of_valueIn_ne_null hgiven
      rw [hvs] at hknown
      obtain ⟨key, hmem, -⟩ := Json.mem_of_mem_knownFields hknown
      have hmember := List.sizeOf_lt_of_mem hmem
      simp only [Prod.mk.sizeOf_spec, array.sizeOf_spec, object.sizeOf_spec] at hmember ⊢
      omega
    | _ => cases hvs

/-- The nodes of a tree, each behind those below it, and those in order. -/
def postorder (v : Syntax) : List Syntax :=
  (v.children.attach.flatMap fun ⟨child, _⟩ => child.postorder) ++ [v]
termination_by sizeOf v
decreasing_by exact sizeOf_lt_of_mem_children ‹_›

/-- How many objects and arrays of a tree lie inside one another: the nodes, and the arrays that
hold the nodes below them. -/
def levels (v : Syntax) : Nat :=
  if (v.field .children).isNull then 1
  else (v.children.attach.map fun ⟨child, _⟩ => child.levels).foldr max 0 + 2
termination_by sizeOf v
decreasing_by exact sizeOf_lt_of_mem_children ‹_›

theorem postorder_eq (v : Syntax) : v.postorder = v.children.flatMap postorder ++ [v] := by
  rw [postorder]
  simp

theorem levels_eq (v : Syntax) :
    v.levels
      = if (v.field .children).isNull then 1 else (v.children.map levels).foldr max 0 + 2 := by
  rw [levels]
  simp

/-- A node and the array it is in are two levels. -/
theorem levels_child {v child : Syntax} (h : child ∈ v.children) :
    child.levels + 2 ≤ v.levels := by
  have hgiven : (v.field .children).isNull = false := by
    cases hvs : v.field .children with
    | null =>
      rw [children, hvs] at h
      cases h
    | _ => rfl
  have hle : child.levels ≤ (v.children.map levels).foldr max ⊥ :=
    List.le_max_of_le (List.mem_map_of_mem h) (Nat.le_refl _)
  rw [levels_eq v, hgiven, if_neg Bool.false_ne_true]
  exact Nat.add_le_add_right hle 2

/-- The first defect of a node, whatever is below it. -/
def defect? (v : Syntax) : Option Defect :=
  let r := Decode.recordOf v.field
  Node.firstFlaw? r.kind (fun field => !(v.field field).isNull) r.depth

/-- A tree as far as types go: a node is an object whose keys are strings, it gives no field twice,
what it gives is of the type of its field, and its children are nodes as well. -/
inductive WellTyped : Syntax → Prop
  | node {ms : List (Quoted × Syntax)} (hkeys : ∀ m ∈ ms, m.1.string?.isSome)
    (hnodup : ((knownFields ms).map Prod.fst).Nodup)
    (hfits : Decode.AllFit (Syntax.object ms).field)
    (harray : (Syntax.object ms).field .children = .null
      ∨ ∃ vs, (Syntax.object ms).field .children = .array vs)
    (hchildren : ∀ child ∈ (Syntax.object ms).children, WellTyped child) : WellTyped (.object ms)

end Json.Syntax

/-! ## How an outcome fails -/

/-- The error that an outcome is. -/
def failure? {ε α : Type} : Except ε α → Option ε
  | .ok _ => none
  | .error e => some e

section

variable {ε α β : Type}

theorem failure?_eq_none {x : Except ε α} : failure? x = none ↔ ∃ a, x = .ok a := by
  cases x <;> simp [failure?]

theorem failure?_eq_some {x : Except ε α} {e : ε} : failure? x = some e ↔ x = .error e := by
  cases x <;> simp [failure?]

/-- What comes first fails first. -/
theorem failure?_bind {x : Except ε α} {f : α → Except ε β} {e? : Option ε}
    (h : ∀ a, x = .ok a → failure? (f a) = e?) : failure? (x >>= f) = (failure? x).or e? := by
  cases x with
  | ok a => exact h a rfl
  | error e => rfl

theorem failure?_map (f : α → β) (x : Except ε α) : failure? (x.map f) = failure? x := by
  cases x <;> rfl

theorem failure?_mapError {ε' : Type} (f : ε → ε') (x : Except ε α) :
    failure? (x.mapError f) = (failure? x).map f := by
  cases x <;> rfl

end

/-! ## One node -/

namespace Node

variable {r : Record}

/-- What is wrong with a field that the kind of a record needs. -/
def Record.flaw? (r : Record) (field : Field) : Option Defect :=
  Node.flaw? r.kind (fun field => (r.valueOf? field).isSome) r.depth field

/-- Only the depth of a heading is asked for more than to be there. -/
theorem failure?_need {α : Type} {field : Field} {given : Option α} (hne : field ≠ .depth)
    (hgiven : given.isSome = (r.valueOf? field).isSome) :
    failure? (r.need field given) = r.flaw? field := by
  unfold Record.flaw? flaw?
  split
  · exact absurd rfl hne
  · simp only [← hgiven]
    cases given <;> rfl

theorem failure?_needChildren : failure? r.needChildren = r.flaw? .children :=
  failure?_need (by decide) Option.isSome_map.symm

theorem failure?_needValue : failure? r.needValue = r.flaw? .value :=
  failure?_need (by decide) Option.isSome_map.symm

theorem failure?_needUrl : failure? r.needUrl = r.flaw? .url :=
  failure?_need (by decide) Option.isSome_map.symm

theorem failure?_needDepth : failure? r.needDepth = r.flaw? .depth := by
  unfold Record.needDepth Record.flaw? flaw?
  cases r.depth with
  | none => rfl
  | some depth =>
    show failure? (if 1 ≤ depth ∧ depth ≤ 6 then pure depth else throw (Defect.badDepth depth)) = _
    by_cases hrange : 1 ≤ depth ∧ depth ≤ 6
    · simp only [if_pos hrange]
      rfl
    · simp only [if_neg hrange]
      rfl

/-- Fields are asked for one after the other. -/
theorem failure?_ask {α : Type} {need : Except Defect α} {next : α → Except Defect Node}
    {field : Field} {fields : List Field} (hneed : failure? need = r.flaw? field)
    (hnext : ∀ a, failure? (next a) = fields.findSome? r.flaw?) :
    failure? (need >>= next) = (field :: fields).findSome? r.flaw? := by
  rw [failure?_bind fun a _ => hnext a, hneed, List.findSome?_cons]
  cases r.flaw? field <;> rfl

/-- **A record is refused for the first defect in what its kind needs.** -/
theorem failure?_ofRecord (r : Record) :
    failure? (ofRecord r) = (needs r.kind).findSome? r.flaw? := by
  unfold ofRecord
  split
  case h_3 hkind =>
    rw [hkind]
    exact failure?_ask failure?_needDepth fun _ => failure?_ask failure?_needChildren fun _ => rfl
  case h_7 hkind =>
    rw [hkind]
    exact failure?_ask failure?_needUrl fun _ => failure?_ask failure?_needChildren fun _ => rfl
  case h_8 hkind =>
    rw [hkind]
    exact failure?_ask failure?_needUrl fun _ => rfl
  case h_4 hkind | h_13 hkind | h_14 hkind =>
    rw [hkind]
    exact failure?_ask failure?_needValue fun _ => rfl
  case h_15 =>
    have hnone : needs r.kind = [] := by
      unfold needs
      split <;> first | rfl | contradiction
    rw [hnone]
    rfl
  all_goals
    rename_i hkind
    rw [hkind]
    exact failure?_ask failure?_needChildren fun _ => rfl

end Node

namespace Decode

/-- The record of a node gives the fields that the node gives. -/
theorem isSome_valueOf_recordOf {value : Field → Syntax} (hfits : AllFit value)
    {cs : Option (List Node)} (hcs : cs.isSome = !(value .children).isNull) (field : Field) :
    ({ recordOf value with children := cs : Record }.valueOf? field).isSome
      = !(value field).isNull := by
  have hfit := hfits field
  cases hnull : (value field).isNull with
  | true =>
    have heq := Json.Syntax.isNull_iff.mp hnull
    have hne : field ≠ .kind := by
      rintro rfl
      rw [heq] at hfit
      cases hfit
    rw [valueOf_recordOf_null hne heq]
    · rfl
    · rintro rfl
      rw [hnull] at hcs
      exact Option.not_isSome_iff_eq_none.mp (Bool.eq_false_iff.mp hcs)
  | false =>
    cases field with
    | kind => rfl
    | children =>
      rw [hnull] at hcs
      exact Option.isSome_map.trans hcs
    | _ =>
      rw [fits, hnull, Bool.false_or] at hfit
      simpa only [Record.valueOf?, recordOf, Option.isSome_map, Bool.not_false] using hfit

/-- A node whose children are read is refused for its own first defect. -/
theorem failure?_made {v : Syntax} (hfits : AllFit v.field) {cs : Option (List Node)}
    (hcs : cs.isSome = !(v.field .children).isNull) :
    failure? (made { recordOf v.field with children := cs }) = v.defect?.map some := by
  have hgiven := funext (isSome_valueOf_recordOf hfits hcs)
  rw [made, failure?_mapError, Node.failure?_ofRecord, Json.Syntax.defect?, Node.firstFlaw?]
  unfold Record.flaw?
  rw [hgiven]

theorem isSome_of_orNull {α : Type} {take : Syntax → Outcome α} {v : Syntax} {a? : Option α}
    (h : orNull take v = .ok a?) : a?.isSome = !v.isNull := by
  unfold orNull at h
  split at h
  next hnull =>
    cases h
    rw [hnull]
    rfl
  next hgiven =>
    cases htake : take v with
    | error e =>
      rw [htake] at h
      cases h
    | ok a =>
      rw [htake] at h
      cases h
      rw [Bool.eq_false_iff.mpr hgiven]
      rfl

/-- **A node is refused for its children first, and then for its own first defect.** -/
theorem failure?_nodeOf {children : Syntax → Outcome (List Node)} {v : Syntax}
    (h : v.WellTyped) :
    failure? (nodeOf children v)
      = (failure? (orNull children (v.field .children))).or (v.defect?.map some) := by
  obtain ⟨hkeys, hnodup, hfits, -, -⟩ := h
  rename_i ms
  have hnode : (Syntax.object ms).node? = some (Syntax.object ms).field := by
    rw [node_object hkeys, Json.Syntax.values?, if_pos hnodup]
    rfl
  rw [nodeOf, hnode]
  dsimp only
  rw [if_pos (allFit_iff.mpr hfits)]
  exact failure?_bind fun cs hcs => failure?_made hfits (isSome_of_orNull hcs)

/-! ## The whole tree -/

/-- Nodes are refused for the first defect below any of them. -/
theorem failure?_mapM {take : Syntax → Outcome Node} {vs : List Syntax}
    (h : ∀ v ∈ vs, failure? (take v) = (v.postorder.findSome? Json.Syntax.defect?).map some) :
    failure? (vs.mapM take)
      = ((vs.flatMap Json.Syntax.postorder).findSome? Json.Syntax.defect?).map some := by
  induction vs with
  | nil => rfl
  | cons v vs ih =>
    have hvs := ih fun w hw => h w (List.mem_cons_of_mem _ hw)
    rw [List.mapM_cons, List.flatMap_cons, List.findSome?_append, Option.map_or,
      ← h v (List.mem_cons_self ..), ← hvs]
    refine failure?_bind fun node _ => ?_
    rw [failure?_bind (fun nodes _ => (rfl : failure? (pure (node :: nodes)) = none)),
      Option.or_none]

/-- **What a tree means fails for its first defect in postorder.** -/
theorem failure?_meaning {v : Syntax} (h : v.WellTyped) {limit : Nat} (hlevels : v.levels ≤ limit) :
    failure? (meaning limit v) = (v.postorder.findSome? Json.Syntax.defect?).map some := by
  -- On the tree: two levels of the limit go with each node, its own and that of the array below it.
  induction h generalizing limit with
  | node hkeys hnodup hfits harray hchildren ih =>
    rename_i ms
    have hnode := Json.Syntax.WellTyped.node hkeys hnodup hfits harray hchildren
    generalize Syntax.object ms = v at *
    rw [Json.Syntax.postorder_eq, List.findSome?_append, Option.map_or, List.findSome?_singleton]
    rcases harray with hnull | ⟨vs, hvs⟩
    · -- Without children one level is enough, and it does not matter how they would be read.
      have hnone : v.children = [] := by rw [Json.Syntax.children, hnull]
      rw [Json.Syntax.levels_eq, hnull] at hlevels
      obtain ⟨children, hmeaning⟩ : ∃ children, meaning limit v = nodeOf children v := by
        match limit, hlevels with
        | 1, _ => exact ⟨_, rfl⟩
        | limit + 2, _ => exact ⟨_, rfl⟩
      rw [hmeaning, failure?_nodeOf hnode, hnull, hnone]
      rfl
    · have hgiven : v.children = vs := by rw [Json.Syntax.children, hvs]
      obtain ⟨below, rfl⟩ : ∃ below, limit = below + 2 := by
        rw [Json.Syntax.levels_eq, hvs] at hlevels
        exact Nat.exists_eq_add_of_le' (Nat.le_trans (Nat.le_add_left ..) hlevels)
      have hbelow : ∀ child ∈ vs, failure? (meaning below child)
          = (child.postorder.findSome? Json.Syntax.defect?).map some := by
        intro child hchild
        have hmem : child ∈ v.children := hgiven ▸ hchild
        have hchildLevels := Json.Syntax.levels_child hmem
        exact ih child hmem (by omega)
      rw [meaning, failure?_nodeOf hnode, hvs, hgiven]
      congr 1
      exact (failure?_map some _).trans (failure?_mapM hbelow)

/-- **A well-typed tree is accepted exactly when all its nodes are complete, and otherwise the first
defect in postorder is reported.** The nodes are those of the text, also where they are not kept:
the children of a leaf are thrown away after they have been read. -/
theorem decode_wellTyped {text : String} {v : Syntax} (hspells : Spells text v)
    (htyped : v.WellTyped) (hlevels : v.levels ≤ levelLimit) :
    ((∃ tree, Node.decode text = .ok tree) ↔ ∀ node ∈ v.postorder, node.defect? = none)
      ∧ ∀ e, Node.decode text = .error e
          ↔ ∃ d, v.postorder.findSome? Json.Syntax.defect? = some d ∧ e = .defect d := by
  obtain ⟨hok, herror⟩ := decode_spells hspells
  have hmeaning := failure?_meaning htyped hlevels
  rw [← List.findSome?_eq_none_iff]
  cases hfirst : v.postorder.findSome? Json.Syntax.defect? with
  | none =>
    rw [hfirst] at hmeaning
    obtain ⟨tree, htree⟩ := failure?_eq_none.mp hmeaning
    have hdecode := (hok tree).mpr htree
    refine ⟨iff_of_true ⟨tree, hdecode⟩ rfl, fun e => iff_of_false ?_ ?_⟩
    · intro h
      rw [hdecode] at h
      cases h
    · rintro ⟨d, hd, -⟩
      cases hd
  | some d =>
    rw [hfirst] at hmeaning
    have hdecode := herror d (failure?_eq_some.mp hmeaning)
    refine ⟨iff_of_false ?_ (Option.some_ne_none d), fun e => ?_⟩
    · rintro ⟨tree, htree⟩
      rw [hdecode] at htree
      cases htree
    · rw [hdecode]
      constructor
      · intro h
        cases h
        exact ⟨d, rfl, rfl⟩
      · rintro ⟨_, hd, rfl⟩
        cases hd
        rfl

/-- The text without a value is reported, though an image has no use for it and lacks a target. -/
theorem decode_wellTyped_image :
    Node.decode "\x7b\"type\":\"image\",\"children\":[\x7b\"type\":\"text\"\x7d]\x7d"
      = .error (.defect (.missing "text" .value)) := by
  let text : Syntax := .object [(fieldKey .kind, .string (.plain ['t', 'e', 'x', 't'] (by decide)))]
  let image : Syntax := .object
    [(fieldKey .kind, .string (.plain ['i', 'm', 'a', 'g', 'e'] (by decide))),
      (fieldKey .children, .array [text])]
  have htext : text.WellTyped := by
    refine .node (by decide) (by decide) ?_ (.inl rfl) ?_
    · intro field
      cases field <;> rfl
    · intro child h
      cases h
  have himage : image.WellTyped := by
    refine .node (by decide) (by decide) ?_ (.inr ⟨_, rfl⟩) ?_
    · intro field
      cases field <;> rfl
    · intro child h
      rw [List.mem_singleton.mp h]
      exact htext
  have hlevels : image.levels = 3 := by
    rw [Json.Syntax.levels_eq]
    show ([text].map Json.Syntax.levels).foldr max 0 + 2 = 3
    rw [List.map_singleton, Json.Syntax.levels_eq]
    rfl
  have hpostorder : image.postorder = [text, image] := by
    rw [Json.Syntax.postorder_eq]
    show [text].flatMap Json.Syntax.postorder ++ [image] = [text, image]
    rw [List.flatMap_singleton, Json.Syntax.postorder_eq]
    rfl
  have hspells :
      Spells "\x7b\"type\":\"image\",\"children\":[\x7b\"type\":\"text\"\x7d]\x7d" image :=
    .of_toList (by rfl)
  refine ((decode_wellTyped hspells himage ?_).2 _).mpr ⟨_, ?_, rfl⟩
  · rw [hlevels]
    decide
  · rw [hpostorder]
    rfl

end Decode

end Bracketdown
