import Bracketdown.Proofs.Node.ReadBack

/-!
# Reading a written tree

`node_spell` is what the decoder does with the written form of a storable tree, in any layout and
with any input behind it: the tree comes back if the objects and arrays that may still be open are
enough for it, and else the answer is that it is nested too deep. `document_spell` is the same for a
whole text.
-/

namespace Bracketdown.Decode

open Json (Input Layout isGap spell skipBlanks Delimited levels levelsAll levelsMembers
  length_le_array length_le_spellMembers length_spell_lt_array length_spell_lt_object)
open Node (Record Field named named_cons Storable StorableHere)

/-! ## A written tree comes back -/

theorem levelsMembers_le {ms : List (String × Json)} {limit : Nat} :
    levelsMembers ms ≤ limit ↔ ∀ m ∈ ms, levels m.2 ≤ limit := by
  induction ms with
  | nil => simp [levelsMembers]
  | cons m ms ih =>
    rw [levelsMembers, Nat.max_le, ih]
    simp only [List.mem_cons, forall_eq_or_imp]

/-- Of the fields of a record only the children are brackets. -/
theorem levels_eq_zero_of_ne_children {r : Record} {field : Field} {v : Json}
    (hv : r.valueOf? field = some v) (hne : field ≠ .children) : levels v = 0 := by
  cases field with
  | children => exact absurd rfl hne
  | kind => cases hv; rfl
  | _ =>
    obtain ⟨a, -, rfl⟩ := Option.map_eq_some_iff.mp hv
    rfl

theorem children_mem_given {r : Record} {cs : List Node} (h : r.children = some cs) :
    (Field.children, Json.array (cs.map Node.toJson)) ∈ r.given := by
  refine List.mem_filterMap.mpr ⟨.children, by decide, ?_⟩
  rw [Record.valueOf?, h]
  rfl

/-- A node needs a level of its own and, if it has children, one for their array and as many as they
need. -/
theorem levels_toJson_le {node : Node} {limit : Nat} :
    levels node.toJson ≤ limit + 1
      ↔ ∀ cs, node.record.children = some cs → levelsAll (cs.map Node.toJson) + 1 ≤ limit := by
  rw [Node.toJson_eq, levels, Nat.succ_le_succ_iff, levelsMembers_le]
  constructor
  · intro h cs hcs
    exact h _ (List.mem_map_of_mem (children_mem_given hcs))
  · rintro h m hm
    obtain ⟨⟨field, v⟩, hgiven, rfl⟩ := List.mem_map.mp hm
    have hv := Node.valueOf_of_mem_given hgiven
    by_cases hfield : field = .children
    · subst hfield
      obtain ⟨cs, hcs, rfl⟩ := Option.map_eq_some_iff.mp hv
      exact h cs hcs
    · rw [levels_eq_zero_of_ne_children hv hfield]
      exact Nat.zero_le limit

theorem levels_toJson_pos (node : Node) : 0 < levels node.toJson := by
  rw [Node.toJson_eq, levels]
  exact Nat.succ_pos _

theorem spell_array_eq_cons (layout : Layout) (level : Nat) (vs : List Json) :
    ∃ tail, spell layout level (.array vs) = '[' :: tail := by
  cases vs with
  | nil => exact ⟨_, by rw [spell]⟩
  | cons v vs => exact ⟨_, by rw [spell]⟩

/-- The fields of a written record are read when its children, if there are some, are read as `deep`
says. -/
theorem readsField_of_children {children : Reader (List Node)} {r : Record} {deep : Prop}
    [Decidable deep] {layout : Layout} {level : Nat}
    (hchildren : ∀ cs, r.children = some cs → ∀ rest,
      children ((spell layout level (.array (cs.map Node.toJson))).map some ++ rest)
        = if deep then .error (.fault .tooDeep) else .ok (cs, rest)) :
    ∀ member ∈ r.given, ReadsField children r deep layout level member := by
  rintro ⟨field, v⟩ hgiven draft rest hrest
  have hv := Node.valueOf_of_mem_given hgiven
  dsimp only
  by_cases hfield : field = .children
  · subst hfield
    obtain ⟨cs, hcs, rfl⟩ := Option.map_eq_some_iff.mp hv
    have hread := hchildren cs hcs rest
    obtain ⟨tail, htail⟩ := spell_array_eq_cons layout level (cs.map Node.toJson)
    rw [htail, List.map_cons, List.cons_append] at hread ⊢
    simp only [Draft.readField,
      optional_of_ne_null children (c := '[') (by decide) (by decide), hread]
    unfold outcome
    by_cases hdeep : deep
    · rw [if_pos hdeep, if_pos ⟨List.mem_cons_self .., hdeep⟩]
      rfl
    · rw [if_neg hdeep, if_neg fun h => hdeep h.2, List.foldl_cons, List.foldl_nil, Draft.fill, hcs]
      rfl
  · rw [Draft.readField_spell hv hfield children draft layout level hrest, outcome,
      if_neg fun h => hfield (List.mem_singleton.mp h.1).symm]
    rfl

theorem members_of_quote {input rest : Input} (h : skipBlanks input = some '"' :: rest)
    (children : Reader (List Node)) (fuel : Nat) :
    members children fuel input = membersWith children fuel {} (some '"' :: rest) := by
  rw [members, h]
  rfl

theorem nodeAbove_of_brace {input rest : Input} (h : skipBlanks input = some '\x7b' :: rest)
    (children : Reader (List Node)) (fuel : Nat) :
    nodeAbove fuel (some children) input
      = members children fuel rest >>= fun (draft, rest) =>
          draft.finish >>= fun node => .ok (node, rest) := by
  rw [nodeAbove, h]
  rfl

/-- How an object is read whose children, if it has some, are read as `deep` says. -/
theorem nodeAbove_spell {fuel : Nat} {children : Reader (List Node)} {node : Node}
    (hhere : node.StorableHere) {deep : Prop} [Decidable deep] (layout : Layout) (level : Nat)
    (hfuel : (spell layout level node.toJson).length ≤ fuel)
    (hchildren : ∀ cs, node.record.children = some cs → ∀ rest,
      children ((spell layout (level + 1) (.array (cs.map Node.toJson))).map some ++ rest)
        = if deep then .error (.fault .tooDeep) else .ok (cs, rest))
    (rest : Input) :
    nodeAbove fuel (some children) ((spell layout level node.toJson).map some ++ rest)
      = if node.record.children.isSome ∧ deep then .error (.fault .tooDeep)
        else .ok (node, rest) := by
  have hreads := readsField_of_children hchildren
  have hnodup := Node.nodup_fields_given node.record
  have hmem : Field.children ∈ node.record.given.map Prod.fst ↔ node.record.children.isSome := by
    rw [Node.mem_fields_given, Record.valueOf?, Option.isSome_map]
  have hfinish := Draft.finish_filled node.record
  obtain ⟨given, hgiven⟩ := Node.given_eq_cons node.record
  rw [hgiven] at hreads hnodup hmem hfinish
  have hshort : given.length < fuel := by
    have hle := length_le_spellMembers layout (level + 1) (named given)
    rw [Node.toJson_eq, hgiven, named_cons, spell] at hfuel
    simp only [List.length_cons, List.length_append] at hfuel
    rw [named, List.length_map, ← named] at hle
    omega
  -- The kind is always there and comes first, so the loop has a first member to start with.
  have hloop := membersWith_spell level rest given .kind (.string node.record.kind) fuel {} hreads
    hnodup (fun member _ => by cases member.1 <;> rfl) hshort
  rw [Node.toJson_eq, hgiven, named_cons, spell, List.map_cons, List.cons_append, List.map_append,
    List.append_assoc,
    nodeAbove_of_brace (Json.skipBlanks_of_not_isGap (by decide) _)]
  rw [behindMember, spellMember_append] at hloop
  rw [spellMember_append]
  rw [members_of_quote ((Json.skipBlanks_gap (layout.line_gap (level + 1)) _).trans
    (Json.skipBlanks_of_not_isGap (by decide) _)), hloop, outcome]
  simp only [hmem]
  split
  · rfl
  · simp only [Except.map, bind, Except.bind, hfinish, Node.ofRecord_record hhere]
    rfl

/-- The array of a node's children is shorter than the node. -/
theorem length_spell_children_lt {node : Node} {cs : List Node} (h : node.record.children = some cs)
    (layout : Layout) (level : Nat) :
    (spell layout (level + 1) (.array (cs.map Node.toJson))).length
      < (spell layout level node.toJson).length := by
  rw [Node.toJson_eq]
  exact length_spell_lt_object layout level
    (m := (Field.children.name, .array (cs.map Node.toJson)))
    (List.mem_map_of_mem (children_mem_given h))

theorem nodes_tooDeep (layout : Layout) (level fuel : Nat) (vs : List Json) (rest : Input) :
    nodes fuel none ((spell layout level (.array vs)).map some ++ rest)
      = .error (.fault .tooDeep) := by
  obtain ⟨tail, htail⟩ := spell_array_eq_cons layout level vs
  rw [htail, List.map_cons, List.cons_append, nodes,
    Json.skipBlanks_of_not_isGap (by decide)]
  rfl

/-- What is read of a node, said with what `limited` decides. -/
theorem ite_eq_limited {limit : Nat} {tree : Node} {deep : Prop} [Decidable deep]
    (h : levels tree.toJson ≤ limit ↔ ¬ deep) (rest : Input) :
    (if deep then .error (.fault .tooDeep) else .ok (tree, rest))
      = (limited limit tree).map (·, rest) := by
  unfold limited
  by_cases hdeep : deep
  · rw [if_pos hdeep, if_neg fun hle => h.mp hle hdeep]
    rfl
  · rw [if_neg hdeep, if_pos (h.mpr hdeep)]
    rfl

/-- With no level left no node is read. -/
theorem node_spell_zero (layout : Layout) (level fuel : Nat) (tree : Node) (rest : Input) :
    node fuel 0 ((spell layout level tree.toJson).map some ++ rest)
      = (limited 0 tree).map (·, rest) := by
  obtain ⟨tail, htail⟩ := spell_toJson_eq_cons layout level tree
  rw [limited, if_neg (Nat.not_le_of_lt (levels_toJson_pos tree)), htail, List.map_cons,
    List.cons_append, node, nodeAbove, Json.skipBlanks_of_not_isGap (by decide)]
  rfl

/-- With one level left a node is read that has no children to write. -/
theorem node_spell_one (layout : Layout) {level fuel : Nat} {tree : Node}
    (hhere : tree.StorableHere) (hfuel : (spell layout level tree.toJson).length ≤ fuel)
    (rest : Input) :
    node fuel 1 ((spell layout level tree.toJson).map some ++ rest)
      = (limited 1 tree).map (·, rest) := by
  have hchildren : ∀ cs, tree.record.children = some cs → ∀ rest,
      nodes fuel none ((spell layout (level + 1) (.array (cs.map Node.toJson))).map some ++ rest)
        = if True then .error (.fault .tooDeep) else .ok (cs, rest) := by
    intro cs _ rest
    rw [nodes_tooDeep, if_pos trivial]
  rw [node, nodeAbove_spell hhere layout level hfuel hchildren]
  refine ite_eq_limited ?_ rest
  rw [levels_toJson_le]
  cases tree.record.children <;> simp

/-- The array of a node's children is read when there are `limit` levels for each of them. -/
theorem nodes_spell_children {fuel limit : Nat} (layout : Layout) (level : Nat) {tree : Node}
    {cs : List Node} (hcs : tree.record.children = some cs)
    (hfuel : (spell layout level tree.toJson).length ≤ fuel)
    (hreads : ∀ child ∈ cs, ∀ (level : Nat) (rest : Input),
      (spell layout level child.toJson).length ≤ fuel →
      node fuel limit ((spell layout level child.toJson).map some ++ rest)
        = (limited limit child).map (·, rest)) (rest : Input) :
    nodes fuel (some (node fuel limit))
        ((spell layout (level + 1) (.array (cs.map Node.toJson))).map some ++ rest)
      = if ¬ levelsAll (cs.map Node.toJson) ≤ limit then .error (.fault .tooDeep)
        else .ok (cs, rest) := by
  have harray := length_spell_children_lt hcs layout level
  have hcount : cs.length ≤ fuel := by
    have hle := length_le_array layout (level + 1) (cs.map Node.toJson)
    rw [List.length_map] at hle
    omega
  have hread : ∀ child ∈ cs, ∀ behind,
      node fuel limit ((spell layout (level + 1 + 1) child.toJson).map some ++ behind)
        = (limited limit child).map (·, behind) := by
    intro child hchild behind
    have helement := length_spell_lt_array layout (level + 1)
      (List.mem_map_of_mem (f := Node.toJson) hchild)
    exact hreads child hchild _ behind (by omega)
  rw [nodes_spell layout (level + 1) cs hcount hread, mapM_limited, ite_not]
  split <;> rfl

/-- **A written tree is read back as itself, or is nested too deep.** The levels go down by two from
a node to its children, so the induction is on the tree and the cases are those of the level
limit. -/
theorem node_spell (layout : Layout) (tree : Node) :
    tree.Storable → ∀ (fuel limit level : Nat) (rest : Input),
      (spell layout level tree.toJson).length ≤ fuel →
      node fuel limit ((spell layout level tree.toJson).map some ++ rest)
        = (limited limit tree).map (·, rest) := by
  induction tree using Node.childInduction with
  | step tree ih =>
    intro hstorable fuel limit level rest hfuel
    obtain ⟨hhere, hbelow⟩ := Node.storable_iff.mp hstorable
    match limit with
    | 0 => exact node_spell_zero layout level fuel tree rest
    | 1 => exact node_spell_one layout hhere hfuel rest
    | limit + 2 =>
      have hchildren : ∀ cs, tree.record.children = some cs → ∀ rest,
          nodes fuel (some (node fuel limit))
              ((spell layout (level + 1) (.array (cs.map Node.toJson))).map some ++ rest)
            = if ¬ levelsAll (tree.children.map Node.toJson) ≤ limit then .error (.fault .tooDeep)
              else .ok (cs, rest) := by
        intro cs hcs rest
        have hsame : tree.children = cs := by
          rw [← Node.children_record, hcs]
          rfl
        rw [hsame]
        refine nodes_spell_children layout level hcs hfuel (fun child hchild => ?_) rest
        rw [← hsame] at hchild
        exact ih child hchild (hbelow child hchild) fuel limit
      rw [node, nodeAbove_spell hhere layout level hfuel hchildren]
      refine ite_eq_limited ?_ rest
      rw [levels_toJson_le, ← Node.children_record]
      cases tree.record.children <;> simp

/-- **A whole text that a storable tree is written as is read as that tree, or is nested too
deep**, whatever blanks follow it. -/
theorem document_spell (layout : Layout) {tree : Node} (hstorable : tree.Storable)
    (tail : List Char) (htail : ∀ c ∈ tail, isGap c) :
    document ((spell layout 0 tree.toJson ++ tail).map some) = limited levelLimit tree := by
  have hread := node_spell layout tree hstorable
    (((spell layout 0 tree.toJson ++ tail).map some).length + 1) levelLimit 0 (tail.map some)
    (by simp only [List.length_map, List.length_append]; omega)
  rw [← List.map_append] at hread
  rw [document, hread]
  cases limited levelLimit tree with
  | error e => rfl
  | ok node =>
    simp only [Except.map, bind, Except.bind, Json.skipBlanks_of_all_gap htail]
    rfl

end Bracketdown.Decode
