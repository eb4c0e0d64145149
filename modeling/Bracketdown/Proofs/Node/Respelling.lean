import Mathlib.Logic.Relation
import Bracketdown.Proofs.Node.AcceptedSyntax

/-!
# Spellings of the same tree

A tree can be written in many ways. `Respelled` lists the changes that leave it as it is: the
members of a node are put into another order, a member with an unknown key or a `null` for an absent
field comes in, the object becomes the array of its fields, and any of this happens to a node
further down. `Rewritten` carries the changes over to texts, where blanks are free as well. None of
them changes what the value means (`meaning_respelled`), hence none of them, forwards or backwards
and any number of times, changes what is decoded (`decode_eq_ok_of_rewritten`). There is always
something to change: an accepted text spells a value (`exists_spells_of_decode`), so that this is
said of every text that is accepted (`exists_spells_respelled`).
-/

namespace Bracketdown

open Json (Syntax Quoted Spaced Spells knownFields fieldKey)
open Node (Field)

/-! ## The changes -/

namespace Json

/-- One change to how a node is written, at the node itself or at one below it. -/
inductive Respelled : Syntax → Syntax → Prop
  /-- The members of an object may stand in any order. -/
  | reorder {ms ms' : List (Quoted × Syntax)} (h : ms.Perm ms') :
    Respelled (.object ms) (.object ms')
  /-- A member with an unknown key may have any value. -/
  | unknown {before behind : List (Quoted × Syntax)} {key : Quoted} {name : String} (v : Syntax)
    (hname : key.string? = some name) (hunknown : Field.ofName? name = none) :
    Respelled (.object (before ++ behind)) (.object (before ++ (key, v) :: behind))
  /-- A field that an object lacks may be given as `null`, unless it is the kind. -/
  | absent {before behind : List (Quoted × Syntax)} {key : Quoted} {field : Field}
    (hkey : key.field? = some field) (hkind : field ≠ .kind)
    (habsent : ∀ m ∈ before ++ behind, m.1.field? ≠ some field) :
    Respelled (.object (before ++ behind)) (.object (before ++ (key, .null) :: behind))
  /-- An object may become an array that holds, each in its place, the values of its fields, and
  `null` for fields that it lacks. -/
  | positional {ms : List (Quoted × Syntax)} {vs : List Syntax} {nulls : List (Field × Syntax)}
    (hkeys : ∀ m ∈ ms, m.1.string?.isSome) (hlength : vs.length ≤ Field.all.length)
    (hfields : (Field.all.zip vs).Perm (knownFields ms ++ nulls))
    (hnulls : ∀ m ∈ nulls, m.2 = .null) : Respelled (.object ms) (.array vs)
  /-- A child of an object may be changed. -/
  | child {before behind : List (Quoted × Syntax)} {key : Quoted} {left right : List Syntax}
    {v v' : Syntax} (hkey : key.field? = some .children) (h : Respelled v v') :
    Respelled (.object (before ++ (key, .array (left ++ v :: right)) :: behind))
      (.object (before ++ (key, .array (left ++ v' :: right)) :: behind))
  /-- A child of an array may be changed; the children stand at the last place. -/
  | childOfArray {before left right : List Syntax} {v v' : Syntax}
    (hlast : before.length + 1 = Field.all.length) (h : Respelled v v') :
    Respelled (.array (before ++ [.array (left ++ v :: right)]))
      (.array (before ++ [.array (left ++ v' :: right)]))

/-- One change to a text: the blanks between its tokens, or how one of its nodes is written. -/
def Rewritten (text text' : String) : Prop :=
  ∃ v v', Spells text v ∧ Spells text' v' ∧ (v = v' ∨ Respelled v v')

end Json

namespace Decode

open Json (Respelled Rewritten)
open Json.Syntax (valueIn values?)

/-! ## The values of the fields -/

section

variable {fs fs' nulls : List (Field × Syntax)}

/-- The order of the fields does not matter. -/
theorem values_perm (h : fs.Perm fs') : values? fs = values? fs' := by
  have hkeys := h.map Prod.fst
  unfold values?
  by_cases hnodup : (fs.map Prod.fst).Nodup
  · rw [if_pos hnodup, if_pos (hkeys.nodup_iff.mp hnodup)]
    congr 1
    funext field
    by_cases hmem : field ∈ fs.map Prod.fst
    · obtain ⟨⟨field, v⟩, hv, rfl⟩ := List.mem_map.mp hmem
      rw [valueIn_of_mem hnodup hv,
        valueIn_of_mem (hkeys.nodup_iff.mp hnodup) (h.mem_iff.mp hv)]
    · have hmem' : field ∉ fs'.map Prod.fst := fun hm => hmem (hkeys.mem_iff.mpr hm)
      rw [valueIn_of_not_mem hmem, valueIn_of_not_mem hmem']
  · rw [if_neg hnodup, if_neg fun hnodup' => hnodup (hkeys.nodup_iff.mpr hnodup')]

/-- Fields given as `null` may be left out. -/
theorem values_nulls (hnulls : ∀ m ∈ nulls, m.2 = .null)
    (hnodup : ((fs ++ nulls).map Prod.fst).Nodup) : values? (fs ++ nulls) = values? fs := by
  have hfs : (fs.map Prod.fst).Nodup := by
    rw [List.map_append] at hnodup
    exact (List.nodup_append.mp hnodup).1
  rw [values?, if_pos hnodup, values?, if_pos hfs]
  congr 1
  funext field
  by_cases hmem : field ∈ (fs ++ nulls).map Prod.fst
  · obtain ⟨⟨field, v⟩, hv, rfl⟩ := List.mem_map.mp hmem
    rw [valueIn_of_mem hnodup hv]
    rcases List.mem_append.mp hv with hv | hv
    · exact (valueIn_of_mem hfs hv).symm
    · have hnull : v = .null := hnulls _ hv
      have hnot : field ∉ fs.map Prod.fst := by
        intro hfield
        rw [List.map_append] at hnodup
        exact (List.nodup_append.mp hnodup).2.2 field hfield field
          (List.mem_map_of_mem (f := Prod.fst) hv) rfl
      rw [hnull, valueIn_of_not_mem hnot]
  · have hnot : field ∉ fs.map Prod.fst := by
      intro hfield
      rw [List.map_append] at hmem
      exact hmem (List.mem_append_left _ hfield)
    rw [valueIn_of_not_mem hmem, valueIn_of_not_mem hnot]

end

/-! ## Changes at a node -/

section

variable {ms ms' before behind : List (Quoted × Syntax)} {key : Quoted}

/-- An object with a key that is no string is not a node. -/
theorem node_object_of_not (hkeys : ¬ ∀ m ∈ ms, m.1.string?.isSome) :
    (Syntax.object ms).node? = none := by
  have hfields : (Syntax.object ms).fields? = none :=
    if_neg fun hall => hkeys (List.all_eq_true.mp hall)
  rw [Json.Syntax.node?, hfields]
  rfl

theorem node_reorder (h : ms.Perm ms') : (Syntax.object ms).node? = (Syntax.object ms').node? := by
  by_cases hkeys : ∀ m ∈ ms, m.1.string?.isSome
  · have hkeys' : ∀ m ∈ ms', m.1.string?.isSome := fun m hm => hkeys m (h.mem_iff.mpr hm)
    rw [node_object hkeys, node_object hkeys']
    exact values_perm (h.filterMap _)
  · have hkeys' : ¬ ∀ m ∈ ms', m.1.string?.isSome := fun hall =>
      hkeys fun m hm => hall m (h.mem_iff.mp hm)
    rw [node_object_of_not hkeys, node_object_of_not hkeys']

/-- A member whose known fields may be left out may be left out itself. -/
theorem node_cons (hkey : key.string?.isSome) {v : Syntax}
    (hvalues : values? (knownFields ((key, v) :: ms)) = values? (knownFields ms)) :
    (Syntax.object ((key, v) :: ms)).node? = (Syntax.object ms).node? := by
  by_cases hkeys : ∀ m ∈ ms, m.1.string?.isSome
  · have hall : ∀ m ∈ (key, v) :: ms, m.1.string?.isSome := by
      intro m hm
      rcases List.mem_cons.mp hm with rfl | hm
      · exact hkey
      · exact hkeys m hm
    rw [node_object hkeys, node_object hall, hvalues]
  · have hall : ¬ ∀ m ∈ (key, v) :: ms, m.1.string?.isSome := fun hall =>
      hkeys fun m hm => hall m (List.mem_cons_of_mem _ hm)
    rw [node_object_of_not hkeys, node_object_of_not hall]

theorem node_unknown {name : String} (v : Syntax) (hname : key.string? = some name)
    (hunknown : Field.ofName? name = none) :
    (Syntax.object ((key, v) :: ms)).node? = (Syntax.object ms).node? := by
  refine node_cons (by rw [hname]; rfl) ?_
  have hfield : key.field? = none := by
    rw [Quoted.field?, hname]
    exact hunknown
  rw [Json.knownFields_cons_unknown hfield]

theorem node_absent {field : Field} (hkey : key.field? = some field)
    (habsent : ∀ m ∈ ms, m.1.field? ≠ some field) :
    (Syntax.object ((key, .null) :: ms)).node? = (Syntax.object ms).node? := by
  obtain ⟨name, hname, -⟩ := Option.bind_eq_some_iff.mp hkey
  refine node_cons (by rw [hname]; rfl) ?_
  rw [Json.knownFields_cons_known hkey]
  have hnot : field ∉ (knownFields ms).map Prod.fst := by
    intro hmem
    obtain ⟨⟨_, v⟩, hv, rfl⟩ := List.mem_map.mp hmem
    obtain ⟨other, hother, hfield⟩ := Json.mem_of_mem_knownFields hv
    exact habsent _ hother hfield
  -- Behind the other fields the `null` is one that may be left out.
  have hperm : ((field, Syntax.null) :: knownFields ms).Perm
      (knownFields ms ++ [(field, .null)]) := (List.perm_append_singleton _ _).symm
  rw [values_perm hperm]
  by_cases hnodup : ((knownFields ms).map Prod.fst).Nodup
  · refine values_nulls (fun m hm => by rw [List.mem_singleton.mp hm]) ?_
    rw [← (hperm.map Prod.fst).nodup_iff, List.map_cons, List.nodup_cons]
    exact ⟨hnot, hnodup⟩
  · have hnodup' : ¬ ((knownFields ms ++ [(field, Syntax.null)]).map Prod.fst).Nodup := by
      rw [← (hperm.map Prod.fst).nodup_iff, List.map_cons, List.nodup_cons]
      exact fun h => hnodup h.2
    rw [values?, values?, if_neg hnodup, if_neg hnodup']

theorem node_positional {vs : List Syntax} {nulls : List (Field × Syntax)}
    (hkeys : ∀ m ∈ ms, m.1.string?.isSome) (hlength : vs.length ≤ Field.all.length)
    (hfields : (Field.all.zip vs).Perm (knownFields ms ++ nulls))
    (hnulls : ∀ m ∈ nulls, m.2 = .null) :
    (Syntax.object ms).node? = (Syntax.array vs).node? := by
  have harray : (Syntax.array vs).fields? = some (Field.all.zip vs) := if_pos hlength
  have hnodup : ((Field.all.zip vs).map Prod.fst).Nodup := by
    have hshort : (Field.all.take (min Field.all.length vs.length)).length
        ≤ (vs.take (min Field.all.length vs.length)).length := by
      rw [List.length_take, List.length_take]
      omega
    rw [List.zip_eq_zip_take_min, List.map_fst_zip hshort]
    exact List.Nodup.sublist (List.take_sublist _ _) (by decide)
  rw [node_object hkeys, Json.Syntax.node?, harray, Option.bind_some, values_perm hfields]
  exact (values_nulls hnulls ((hfields.map Prod.fst).nodup_iff.mp hnodup)).symm

end

/-! ## Changes below a node -/

theorem nodeOf_congr {v v' : Syntax} (h : v.node? = v'.node?)
    (children : Syntax → Outcome (List Node)) : nodeOf children v = nodeOf children v' := by
  rw [nodeOf, nodeOf, h]

theorem meaning_congr {v v' : Syntax} (h : v.node? = v'.node?) (levels : Nat) :
    meaning levels v = meaning levels v' := by
  match levels with
  | 0 => rfl
  | 1 => exact nodeOf_congr h _
  | levels + 2 => exact nodeOf_congr h _

/-- Values that differ at most in the children make the same record without them. -/
theorem recordOf_congr {value value' : Field → Syntax}
    (h : ∀ field, field ≠ .children → value field = value' field) :
    recordOf value = recordOf value' := by
  simp only [recordOf, h .kind (by decide), h .value (by decide), h .depth (by decide),
    h .ordered (by decide), h .start (by decide), h .checked (by decide), h .url (by decide),
    h .alt (by decide), h .lang (by decide)]

/-- The children of a node may be replaced by others that mean the same nodes. -/
theorem nodeOf_children {children : Syntax → Outcome (List Node)} {v v' w w' : Syntax}
    {before behind : List (Field × Syntax)}
    (hv : v.fields? = some (before ++ (.children, w) :: behind))
    (hv' : v'.fields? = some (before ++ (.children, w') :: behind))
    (hw : orNull children w = orNull children w') :
    nodeOf children v = nodeOf children v' := by
  have hkeys : (before ++ (Field.children, w) :: behind).map Prod.fst
      = (before ++ (Field.children, w') :: behind).map Prod.fst := by
    simp only [List.map_append, List.map_cons]
  rw [nodeOf, nodeOf, Json.Syntax.node?, Json.Syntax.node?, hv, hv', Option.bind_some,
    Option.bind_some, values?, values?]
  by_cases hnodup : ((before ++ (Field.children, w) :: behind).map Prod.fst).Nodup
  case neg => rw [if_neg hnodup, if_neg (hkeys ▸ hnodup)]
  have hnodup' := hkeys ▸ hnodup
  rw [if_pos hnodup, if_pos hnodup']
  have hchildren : valueIn (before ++ (.children, w) :: behind) .children = w :=
    valueIn_of_mem hnodup (List.mem_append_right _ (List.mem_cons_self ..))
  have hchildren' : valueIn (before ++ (.children, w') :: behind) .children = w' :=
    valueIn_of_mem hnodup' (List.mem_append_right _ (List.mem_cons_self ..))
  -- All other fields have the same value in both lists, wherever they stand.
  have hothers : ∀ field, field ≠ .children →
      valueIn (before ++ (.children, w) :: behind) field
        = valueIn (before ++ (.children, w') :: behind) field := by
    intro field hne
    by_cases hmem : field ∈ (before ++ (Field.children, w) :: behind).map Prod.fst
    · obtain ⟨⟨field, u⟩, hu, rfl⟩ := List.mem_map.mp hmem
      have hu' : (field, u) ∈ before ++ (Field.children, w') :: behind := by
        rcases List.mem_append.mp hu with hu | hu
        · exact List.mem_append_left _ hu
        · rcases List.mem_cons.mp hu with heq | hu
          · exact absurd (Prod.mk.inj heq).1 hne
          · exact List.mem_append_right _ (List.mem_cons_of_mem _ hu)
      rw [valueIn_of_mem hnodup hu, valueIn_of_mem hnodup' hu']
    · rw [valueIn_of_not_mem hmem, valueIn_of_not_mem (hkeys ▸ hmem)]
  have hfits : (fun field => fits field (valueIn (before ++ (.children, w) :: behind) field))
      = fun field => fits field (valueIn (before ++ (.children, w') :: behind) field) := by
    funext field
    by_cases heq : field = .children
    · subst heq
      rfl
    · rw [hothers field heq]
  dsimp only
  rw [hfits, hchildren, hchildren', hw, recordOf_congr hothers]

/-- An element of an array may be replaced by another one that means the same node. -/
theorem nodesOf_element {take : Syntax → Outcome Node} {v v' : Syntax} (h : take v = take v')
    (left right : List Syntax) :
    nodesOf take (.array (left ++ v :: right)) = nodesOf take (.array (left ++ v' :: right)) := by
  rw [nodesOf, nodesOf, List.mapM_append, List.mapM_append, List.mapM_cons, List.mapM_cons, h]

/-- What a node means when one of its children is replaced by another that means the same. -/
theorem meaning_children {v v' w w' : Syntax} {left right : List Syntax}
    {before behind : List (Field × Syntax)}
    (hv : v.fields? = some (before ++ (.children, .array (left ++ w :: right)) :: behind))
    (hv' : v'.fields? = some (before ++ (.children, .array (left ++ w' :: right)) :: behind))
    (hw : ∀ levels, meaning levels w = meaning levels w') (levels : Nat) :
    meaning levels v = meaning levels v' := by
  match levels with
  | 0 => rfl
  | 1 => exact nodeOf_children hv hv' rfl
  | levels + 2 =>
    refine nodeOf_children hv hv' ?_
    show (nodesOf _ _).map some = (nodesOf _ _).map some
    rw [nodesOf_element (hw levels)]

/-- A member with children among other members: whether all keys are strings does not depend on the
children. -/
theorem meaning_child {before behind : List (Quoted × Syntax)} {key : Quoted} {w w' : Syntax}
    {left right : List Syntax} (hkey : key.field? = some .children)
    (hw : ∀ levels, meaning levels w = meaning levels w') (levels : Nat) :
    meaning levels (.object (before ++ (key, .array (left ++ w :: right)) :: behind))
      = meaning levels (.object (before ++ (key, .array (left ++ w' :: right)) :: behind)) := by
  have hknown : ∀ u, knownFields (before ++ (key, u) :: behind)
      = knownFields before ++ (.children, u) :: knownFields behind := by
    intro u
    rw [← Json.knownFields_cons_known hkey]
    exact List.filterMap_append
  have hkeys : ∀ u, (∀ m ∈ before ++ (key, u) :: behind, m.1.string?.isSome)
      ↔ (∀ m ∈ before, m.1.string?.isSome) ∧ key.string?.isSome
        ∧ ∀ m ∈ behind, m.1.string?.isSome := by
    intro u
    rw [List.forall_mem_append, List.forall_mem_cons]
  by_cases hall : (∀ m ∈ before, m.1.string?.isSome) ∧ key.string?.isSome
      ∧ ∀ m ∈ behind, m.1.string?.isSome
  · have hfields : ∀ u, (Syntax.object (before ++ (key, u) :: behind)).fields?
        = some (knownFields before ++ (.children, u) :: knownFields behind) := by
      intro u
      rw [fields_object ((hkeys u).mpr hall), hknown]
    exact meaning_children (hfields _) (hfields _) hw levels
  · refine meaning_congr ?_ levels
    rw [node_object_of_not fun h => hall ((hkeys _).mp h),
      node_object_of_not fun h => hall ((hkeys _).mp h)]

theorem meaning_childOfArray {before left right : List Syntax} {w w' : Syntax}
    (hlast : before.length + 1 = Field.all.length)
    (hw : ∀ levels, meaning levels w = meaning levels w') (levels : Nat) :
    meaning levels (.array (before ++ [.array (left ++ w :: right)]))
      = meaning levels (.array (before ++ [.array (left ++ w' :: right)])) := by
  have hfields : ∀ u, (Syntax.array (before ++ [u])).fields?
      = some ((Field.all.dropLast).zip before ++ [(.children, u)]) := by
    intro u
    have hlength : (before ++ [u]).length ≤ Field.all.length := by
      rw [List.length_append, List.length_singleton]
      exact Nat.le_of_eq hlast
    have hsplit : Field.all = Field.all.dropLast ++ [.children] := rfl
    have hbefore : Field.all.dropLast.length = before.length := by
      rw [List.length_dropLast]
      omega
    rw [Json.Syntax.fields?, if_pos hlength, hsplit, List.zip_append hbefore]
    rfl
  exact meaning_children (hfields _) (hfields _) hw levels

/-- **No change to the spelling of a node changes what it means.** -/
theorem meaning_respelled {v v' : Syntax} (h : Respelled v v') (levels : Nat) :
    meaning levels v = meaning levels v' := by
  induction h generalizing levels with
  | reorder h => exact meaning_congr (node_reorder h) levels
  | unknown v hname hunknown =>
    refine meaning_congr ?_ levels
    rw [node_reorder List.perm_middle]
    exact (node_unknown v hname hunknown).symm
  | absent hkey hkind habsent =>
    refine meaning_congr ?_ levels
    rw [node_reorder List.perm_middle]
    exact (node_absent hkey habsent).symm
  | positional hkeys hlength hfields hnulls =>
    exact meaning_congr (node_positional hkeys hlength hfields hnulls) levels
  | child hkey h ih => exact meaning_child hkey ih levels
  | childOfArray hlast h ih => exact meaning_childOfArray hlast ih levels

/-! ## Texts -/

theorem meaning_of_eqvGen {v v' : Syntax} (h : Relation.EqvGen Respelled v v') (levels : Nat) :
    meaning levels v = meaning levels v' := by
  induction h with
  | rel v v' hchange => exact meaning_respelled hchange levels
  | refl v => rfl
  | symm v v' _ ih => exact ih.symm
  | trans v mid v' _ _ ih ih' => exact ih.trans ih'

/-- **Every accepted text has a spelling that can be changed.** It spells a value, and every text
that spells what any number of changes, each of them forwards or backwards, make of the value is
read as the same tree. -/
theorem exists_spells_respelled {text : String} {tree : Node} (h : Node.decode text = .ok tree) :
    ∃ v, Spells text v ∧ ∀ v' text', Relation.EqvGen Respelled v v' → Spells text' v' →
      Node.decode text' = .ok tree := by
  obtain ⟨v, htext, hmeaning⟩ := decode_eq_ok_iff.mp h
  refine ⟨v, htext, fun v' text' hchanges htext' => decode_eq_ok_iff.mpr ⟨v', htext', ?_⟩⟩
  rw [← meaning_of_eqvGen hchanges]
  exact hmeaning

theorem decode_eq_ok_of_rewritten {text text' : String} (h : Rewritten text text') (tree : Node) :
    Node.decode text = .ok tree ↔ Node.decode text' = .ok tree := by
  obtain ⟨v, v', htext, htext', hchange⟩ := h
  rw [(decode_spells htext).1, (decode_spells htext').1]
  rcases hchange with rfl | hchange
  · exact Iff.rfl
  · rw [meaning_respelled hchange]

/-- **The spelling of a tree is irrelevant.** What is made of an accepted text by any number of
changes, each of them forwards or backwards, is accepted and read as the same tree. -/
theorem decode_eq_ok_of_eqvGen_rewritten {text text' : String} {tree : Node}
    (hdecode : Node.decode text = .ok tree) (hchanges : Relation.EqvGen Rewritten text text') :
    Node.decode text' = .ok tree := by
  have hiff : Node.decode text = .ok tree ↔ Node.decode text' = .ok tree := by
    -- An equivalence goes through a change backwards, which acceptance of one text would not.
    clear hdecode
    induction hchanges with
    | rel text text' h => exact decode_eq_ok_of_rewritten h tree
    | refl text => exact Iff.rfl
    | symm text text' h ih => exact ih.symm
    | trans text mid text' h h' ih ih' => exact ih.trans ih'
  exact hiff.mp hdecode

/-- A node that is written as an array may become an object with a member that nobody knows. -/
theorem decode_eq_ok_of_eqvGen_rewritten_break :
    Node.decode "[\"break\",null]" = .ok (.bare "break")
      ∧ Relation.EqvGen Rewritten "[\"break\",null]" "\x7b\"x\":[],\"type\":\"break\"\x7d"
      ∧ Node.decode "\x7b\"x\":[],\"type\":\"break\"\x7d" = .ok (.bare "break") := by
  have hdecode : Node.decode "[\"break\",null]" = .ok (.bare "break") := by rfl
  have hpositional : Rewritten "\x7b\"type\":\"break\"\x7d" "[\"break\",null]" := by
    refine ⟨.object [(fieldKey .kind, .string (.plain ['b', 'r', 'e', 'a', 'k'] (by decide)))],
      .array [.string (.plain ['b', 'r', 'e', 'a', 'k'] (by decide)), .null],
      .of_toList (by rfl), .of_toList (by rfl), .inr ?_⟩
    refine @Respelled.positional _ _ [(.value, .null)] ?_ (Nat.le_add_left 2 8) ?_ ?_
    · simp [fieldKey, Quoted.string?_plain]
    · rw [Json.knownFields_cons_known (Json.field?_fieldKey .kind)]
      exact .refl _
    · simp
  have hunknown : Rewritten "\x7b\"type\":\"break\"\x7d"
      "\x7b\"x\":[],\"type\":\"break\"\x7d" := by
    refine ⟨.object [(fieldKey .kind, .string (.plain ['b', 'r', 'e', 'a', 'k'] (by decide)))],
      .object [(.plain ['x'] (by decide), .array []),
        (fieldKey .kind, .string (.plain ['b', 'r', 'e', 'a', 'k'] (by decide)))],
      .of_toList (by rfl), .of_toList (by rfl), .inr ?_⟩
    exact @Respelled.unknown [] _ _ _ _ (Quoted.string?_plain _) (by decide)
  have hchanges : Relation.EqvGen Rewritten "[\"break\",null]"
      "\x7b\"x\":[],\"type\":\"break\"\x7d" :=
    .trans _ _ _ (.symm _ _ (.rel _ _ hpositional)) (.rel _ _ hunknown)
  exact ⟨hdecode, hchanges, decode_eq_ok_of_eqvGen_rewritten hdecode hchanges⟩

end Decode

end Bracketdown
