import Bracketdown.Proofs.Json.Length
import Bracketdown.Proofs.Node.ReadFields

/-!
# Reading back members and elements

The decoder meets the written form of a storable tree, in any layout. Either there are enough levels
for it, and the tree comes back, or there are not, and the answer is that it is nested too deep.
Nothing third can happen. `limited` is what the decoder answers for one node, and the loops over
members (`membersWith_spell`) and elements (`nodes_spell`) collect such answers. Both leave the rest
of the input open, which carries the induction over trees.
-/

namespace Bracketdown.Decode

open Json (Input Layout isGap spell spellElements spellMember spellMembers quoted escapedAll
  skipBlanks Delimited levels levelsAll levelsMembers)
open Node (Record Field named)

/-! ## Members of an object -/

theorem ofName_name (field : Field) : Field.ofName? field.name = some field := by
  cases field <;> decide

/-- What a member has behind the quote that starts it: its key, a colon and its value. -/
def memberTail (layout : Layout) (level : Nat) (field : Field) (v : Json) : List Char :=
  (escapedAll field.name.toList ++ ['"']) ++ ':' :: (layout.behindColon ++ spell layout level v)

theorem spellMember_append (layout : Layout) (level : Nat) (field : Field) (v : Json)
    (behind : List Char) (rest : Input) :
    (spellMember layout level (field.name, v) ++ behind).map some ++ rest
      = some '"' :: ((memberTail layout level field v).map some ++ (behind.map some ++ rest)) := by
  rw [spellMember, quoted, memberTail]
  simp only [List.cons_append, List.append_assoc, List.map_cons, List.map_append]

/-- A member that is not there yet is read as its field. -/
theorem member_spell (children : Reader (List Node)) {draft : Draft} {field : Field}
    (hnew : draft.has field = false) (layout : Layout) (level : Nat) (v : Json) (rest : Input) :
    member children draft ((memberTail layout level field v).map some ++ rest)
      = draft.readField children field ((spell layout level v).map some ++ rest) := by
  have hcolon : colon (some ':' :: ((layout.behindColon ++ spell layout level v).map some ++ rest))
      = .ok ((layout.behindColon ++ spell layout level v).map some ++ rest) := by
    rw [colon, Json.skipBlanks_of_not_isGap (by decide)]
    rfl
  rw [memberTail, List.map_append, List.append_assoc, member, Json.readString_quoted, List.map_cons,
    List.cons_append]
  simp only [lift, bind, Except.bind, ofName_name, hnew, Bool.false_eq_true, if_false, hcolon]
  rw [List.map_append, List.append_assoc]
  exact Draft.readField_gap children draft field layout.behindColon_gap _

/-! The three ways in which the loop goes on behind a member. -/

theorem membersWith_error {children : Reader (List Node)} {draft : Draft} {input : Input}
    {e : DecodeError} (h : member children draft input = .error e) (fuel : Nat) :
    membersWith children (fuel + 1) draft (some '"' :: input) = .error e := by
  rw [membersWith, h]
  rfl

theorem membersWith_last {children : Reader (List Node)} {draft draft' : Draft}
    {input behind rest : Input} (h : member children draft input = .ok (draft', behind))
    (hclose : skipBlanks behind = some '\x7d' :: rest) (fuel : Nat) :
    membersWith children (fuel + 1) draft (some '"' :: input) = .ok (draft', rest) := by
  rw [membersWith, h]
  simp only [bind, Except.bind, hclose]
  rfl

theorem membersWith_next {children : Reader (List Node)} {draft draft' : Draft}
    {input behind rest next : Input} (h : member children draft input = .ok (draft', behind))
    (hcomma : skipBlanks behind = some ',' :: rest) (hnext : skipBlanks rest = some '"' :: next)
    (fuel : Nat) :
    membersWith children (fuel + 1) draft (some '"' :: input)
      = membersWith children fuel draft' (some '"' :: next) := by
  rw [membersWith, h]
  simp only [bind, Except.bind, hcomma, hnext]
  rfl

/-- The outcome of reading fields of a record when `deep` says that its children are nested too
deep. -/
def outcome (r : Record) (deep : Prop) [Decidable deep] (fields : List Field) (draft : Draft) :
    Except DecodeError Draft :=
  if Field.children ∈ fields ∧ deep then .error (.fault .tooDeep)
  else .ok (fields.foldl (Draft.fill r) draft)

/-- A field that is read is filled in, and the further fields decide. -/
theorem outcome_cons_ok {r : Record} {deep : Prop} [Decidable deep] {field : Field}
    {draft draft' : Draft} (h : outcome r deep [field] draft = .ok draft') (fields : List Field) :
    draft' = draft.fill r field ∧
      outcome r deep (field :: fields) draft = outcome r deep fields draft' := by
  unfold outcome at h ⊢
  split at h
  · cases h
  next hread =>
    cases h
    have hcons : (Field.children ∈ field :: fields ∧ deep) ↔ (Field.children ∈ fields ∧ deep) := by
      constructor
      · rintro ⟨hmem, hdeep⟩
        refine ⟨?_, hdeep⟩
        rcases List.mem_cons.mp hmem with rfl | hmem
        · exact absurd ⟨List.mem_cons_self .., hdeep⟩ hread
        · exact hmem
      · rintro ⟨hmem, hdeep⟩
        exact ⟨List.mem_cons_of_mem _ hmem, hdeep⟩
    exact ⟨rfl, by simp only [hcons, List.foldl_cons, List.foldl_nil]⟩

/-- A field that cannot be read is the children. -/
theorem outcome_cons_error {r : Record} {deep : Prop} [Decidable deep] {field : Field}
    {draft : Draft} {e : DecodeError} (h : outcome r deep [field] draft = .error e)
    (fields : List Field) : outcome r deep (field :: fields) draft = .error e := by
  unfold outcome at h ⊢
  split at h
  next hread =>
    cases h
    obtain rfl := List.mem_singleton.mp hread.1
    exact if_pos ⟨List.mem_cons_self .., hread.2⟩
  · cases h

/-- The decoder reads a member of a written record: whatever comes behind it, the answer is its
outcome. -/
def ReadsField (children : Reader (List Node)) (r : Record) (deep : Prop) [Decidable deep]
    (layout : Layout) (level : Nat) (member : Field × Json) : Prop :=
  ∀ (draft : Draft) (rest : Input), Delimited rest →
    draft.readField children member.1 ((spell layout level member.2).map some ++ rest)
      = (outcome r deep [member.1] draft).map (·, rest)

theorem member_outcome {children : Reader (List Node)} {r : Record} {deep : Prop} [Decidable deep]
    {layout : Layout} {level : Nat} {field : Field} {v : Json} {draft : Draft} {behind : Input}
    (hreads : ReadsField children r deep layout level (field, v)) (hnew : draft.has field = false)
    (hbehind : Delimited behind) :
    member children draft ((memberTail layout level field v).map some ++ behind)
      = (outcome r deep [field] draft).map (·, behind) := by
  rw [member_spell children hnew]
  exact hreads draft behind hbehind

/-- What stands behind a member: the members that follow it and the closing brace. -/
def behindMember (layout : Layout) (level outer : Nat) (following : List (Field × Json)) :
    List Char :=
  spellMembers layout level (named following) ++ (layout.line outer ++ ['\x7d'])

theorem skipBlanks_behindMember_nil (layout : Layout) (level outer : Nat) (rest : Input) :
    skipBlanks ((behindMember layout level outer []).map some ++ rest) = some '\x7d' :: rest := by
  rw [behindMember, named, List.map_nil, spellMembers, List.nil_append, List.map_append,
    List.append_assoc, Json.skipBlanks_gap (layout.line_gap outer)]
  exact Json.skipBlanks_of_not_isGap (by decide) rest

/-- Behind a member that is not the last one stand a comma, blanks and the next member. -/
theorem behindMember_cons (layout : Layout) (level outer : Nat) (field : Field) (v : Json)
    (following : List (Field × Json)) (rest : Input) :
    (behindMember layout level outer ((field, v) :: following)).map some ++ rest
      = some ',' :: ((layout.line level).map some
        ++ ((spellMember layout level (field.name, v)
          ++ behindMember layout level outer following).map some ++ rest)) := by
  simp only [behindMember, named, List.map_cons, spellMembers, List.cons_append, List.append_assoc,
    List.map_append]

theorem delimited_behindMember (layout : Layout) (level outer : Nat)
    (following : List (Field × Json)) (rest : Input) :
    Delimited ((behindMember layout level outer following).map some ++ rest) := by
  cases following with
  | nil =>
    rw [behindMember, named, List.map_nil, spellMembers, List.nil_append, List.map_append,
      List.append_assoc]
    exact (Json.delimited_cons (by decide) rest).gap (layout.line_gap outer)
  | cons next following =>
    rw [behindMember_cons]
    exact Json.delimited_cons (by decide) _

/-- A field that was filled in is there, and no other field came with it. -/
theorem has_fill_of_nodup {r : Record} {draft : Draft} {field : Field} {v : Json}
    {following : List (Field × Json)}
    (hnodup : (((field, v) :: following).map Prod.fst).Nodup)
    (hnew : ∀ member ∈ (field, v) :: following, draft.has member.1 = false) :
    ∀ member ∈ following, (draft.fill r field).has member.1 = false := by
  intro member hmem
  have hne : field ≠ member.1 := by
    intro heq
    have hmem' : member.1 ∈ following.map Prod.fst := List.mem_map_of_mem hmem
    exact (List.nodup_cons.mp hnodup).1 (heq ▸ hmem')
  rw [Draft.has_fill, hnew member (List.mem_cons_of_mem _ hmem), Bool.or_false]
  exact decide_eq_false hne

/-- **The loop over the members of a record.** Each field is read in turn, and the first one that
cannot be read is the answer. -/
theorem membersWith_spell {children : Reader (List Node)} {r : Record} {deep : Prop}
    [Decidable deep] {layout : Layout} {level : Nat} (outer : Nat) (rest : Input) :
    ∀ (following : List (Field × Json)) (field : Field) (v : Json) (fuel : Nat) (draft : Draft),
      (∀ member ∈ (field, v) :: following, ReadsField children r deep layout level member) →
      (((field, v) :: following).map Prod.fst).Nodup →
      (∀ member ∈ (field, v) :: following, draft.has member.1 = false) →
      following.length < fuel →
      membersWith children fuel draft ((spellMember layout level (field.name, v)
          ++ behindMember layout level outer following).map some ++ rest)
        = (outcome r deep (((field, v) :: following).map Prod.fst) draft).map (·, rest) := by
  intro following
  induction following with
  | nil =>
    intro field v fuel draft hreads _ hnew hfuel
    obtain ⟨fuel, rfl⟩ := Nat.exists_eq_succ_of_ne_zero (Nat.ne_zero_of_lt hfuel)
    have hread := member_outcome (hreads _ (List.mem_cons_self ..))
      (hnew _ (List.mem_cons_self ..)) (delimited_behindMember layout level outer [] rest)
    rw [spellMember_append]
    cases ho : outcome r deep [field] draft with
    | error e =>
      rw [ho] at hread
      rw [List.map_cons, List.map_nil, ho]
      exact membersWith_error hread fuel
    | ok draft' =>
      rw [ho] at hread
      rw [List.map_cons, List.map_nil, ho]
      exact membersWith_last hread (skipBlanks_behindMember_nil layout level outer rest) fuel
  | cons next following ih =>
    obtain ⟨field', v'⟩ := next
    intro field v fuel draft hreads hnodup hnew hfuel
    obtain ⟨fuel, rfl⟩ := Nat.exists_eq_succ_of_ne_zero (Nat.ne_zero_of_lt hfuel)
    have hread := member_outcome (hreads _ (List.mem_cons_self ..))
      (hnew _ (List.mem_cons_self ..))
      (delimited_behindMember layout level outer ((field', v') :: following) rest)
    rw [spellMember_append]
    cases ho : outcome r deep [field] draft with
    | error e =>
      rw [ho] at hread
      rw [List.map_cons, outcome_cons_error ho]
      exact membersWith_error hread fuel
    | ok draft' =>
      obtain ⟨rfl, hcons⟩ := outcome_cons_ok ho (((field', v') :: following).map Prod.fst)
      have hrest := ih field' v' fuel (draft.fill r field)
        (fun m hm => hreads m (List.mem_cons_of_mem _ hm)) (List.nodup_cons.mp hnodup).2
        (has_fill_of_nodup hnodup hnew) (Nat.lt_of_succ_lt_succ hfuel)
      rw [ho, behindMember_cons] at hread
      rw [behindMember_cons, List.map_cons, hcons, ← hrest]
      -- The loop goes on at the quote with which the next key starts.
      rw [spellMember_append] at hread ⊢
      exact membersWith_next hread (Json.skipBlanks_of_not_isGap (by decide) _)
        ((Json.skipBlanks_gap (layout.line_gap level) _).trans
          (Json.skipBlanks_of_not_isGap (by decide) _)) fuel

/-! ## Elements of an array -/

/-- Every written node is an object. -/
theorem spell_toJson_eq_cons (layout : Layout) (level : Nat) (node : Node) :
    ∃ tail, spell layout level node.toJson = '\x7b' :: tail := by
  obtain ⟨given, hgiven⟩ := Node.given_eq_cons node.record
  exact ⟨_, by rw [Node.toJson_eq, hgiven, named, List.map_cons, spell]⟩

/-- What the decoder answers for a storable node when `limit` objects and arrays may still be
open. -/
def limited (limit : Nat) (node : Node) : Except DecodeError Node :=
  if levels node.toJson ≤ limit then .ok node else .error (.fault .tooDeep)

/-- Several nodes are read when each of them can be. -/
theorem mapM_limited (limit : Nat) (cs : List Node) :
    cs.mapM (limited limit)
      = if levelsAll (cs.map Node.toJson) ≤ limit then .ok cs else .error (.fault .tooDeep) := by
  induction cs with
  | nil => rfl
  | cons c cs ih =>
    rw [List.mapM_cons, ih, limited, List.map_cons, levelsAll]
    by_cases hhead : levels c.toJson ≤ limit
    · by_cases htail : levelsAll (cs.map Node.toJson) ≤ limit
      · rw [if_pos hhead, if_pos htail, if_pos (Nat.max_le.mpr ⟨hhead, htail⟩)]
        rfl
      · rw [if_pos hhead, if_neg htail, if_neg fun h => htail (Nat.max_le.mp h).2]
        rfl
    · rw [if_neg hhead, if_neg fun h => hhead (Nat.max_le.mp h).1]
      rfl

/-- What stands behind an element: the elements that follow it and the closing bracket. -/
def behindElement (layout : Layout) (level outer : Nat) (following : List Node) : List Char :=
  spellElements layout level (following.map Node.toJson) ++ (layout.line outer ++ [']'])

theorem afterElement_nil (layout : Layout) (level outer : Nat) (rest : Input) :
    afterElement ((behindElement layout level outer []).map some ++ rest) = .ok (.closed rest) := by
  rw [behindElement, List.map_nil, spellElements, List.nil_append, afterElement, List.map_append,
    List.append_assoc, Json.skipBlanks_gap (layout.line_gap outer), List.map_cons, List.map_nil,
    List.singleton_append, Json.skipBlanks_of_not_isGap (by decide)]
  rfl

/-- Behind an element that is not the last one the next element starts. -/
theorem afterElement_cons (layout : Layout) (level outer : Nat) (node : Node)
    (following : List Node) (rest : Input) :
    afterElement ((behindElement layout level outer (node :: following)).map some ++ rest)
      = .ok (.element ((spell layout level node.toJson
          ++ behindElement layout level outer following).map some ++ rest)) := by
  have hcomma : (behindElement layout level outer (node :: following)).map some ++ rest
      = some ',' :: ((layout.line level).map some ++ ((spell layout level node.toJson
          ++ behindElement layout level outer following).map some ++ rest)) := by
    simp only [behindElement, List.map_cons, spellElements, List.cons_append, List.append_assoc,
      List.map_append]
  obtain ⟨tail, htail⟩ := spell_toJson_eq_cons layout level node
  rw [hcomma, afterElement, Json.skipBlanks_of_not_isGap (by decide)]
  simp only [Json.skipBlanks_gap (layout.line_gap level), htail, List.map_cons, List.cons_append,
    Json.skipBlanks_of_not_isGap (c := '\x7b') (by decide)]
  rfl

theorem nodesWith_error {read : Reader Node} {before : List Node} {input : Input}
    {e : DecodeError} (h : read input = .error e) (fuel : Nat) :
    nodesWith read (fuel + 1) before (.element input) = .error e := by
  rw [nodesWith, h]
  rfl

theorem nodesWith_ok {read : Reader Node} {before : List Node} {input behind : Input}
    {node : Node} {follow : Follow} (h : read input = .ok (node, behind))
    (hfollow : afterElement behind = .ok follow) (fuel : Nat) :
    nodesWith read (fuel + 1) before (.element input)
      = nodesWith read fuel (node :: before) follow := by
  rw [nodesWith, h]
  simp only [bind, Except.bind, hfollow, lift]

/-- **The loop over the nodes of an array.** Each node is read in turn, and the first one that
cannot be read is the answer. -/
theorem nodesWith_spell {read : Reader Node} {answer : Node → Except DecodeError Node}
    {layout : Layout} {level : Nat} (outer : Nat) (rest : Input) :
    ∀ (following : List Node) (c : Node) (fuel : Nat) (before : List Node),
      (∀ node ∈ c :: following, ∀ behind,
        read ((spell layout level node.toJson).map some ++ behind)
          = (answer node).map (·, behind)) →
      following.length < fuel →
      nodesWith read fuel before (.element ((spell layout level c.toJson
          ++ behindElement layout level outer following).map some ++ rest))
        = ((c :: following).mapM answer).map fun nodes => (before.reverse ++ nodes, rest) := by
  intro following
  induction following with
  | nil =>
    intro c fuel before hreads hfuel
    obtain ⟨fuel, rfl⟩ := Nat.exists_eq_succ_of_ne_zero (Nat.ne_zero_of_lt hfuel)
    have hread := hreads c (List.mem_cons_self ..)
      ((behindElement layout level outer []).map some ++ rest)
    rw [List.map_append, List.append_assoc, List.mapM_cons, List.mapM_nil]
    cases hc : answer c with
    | error e =>
      rw [hc] at hread
      exact nodesWith_error hread fuel
    | ok c' =>
      rw [hc] at hread
      rw [nodesWith_ok hread (afterElement_nil layout level outer rest), nodesWith,
        List.reverse_cons]
      rfl
  | cons next following ih =>
    intro c fuel before hreads hfuel
    obtain ⟨fuel, rfl⟩ := Nat.exists_eq_succ_of_ne_zero (Nat.ne_zero_of_lt hfuel)
    have hread := hreads c (List.mem_cons_self ..)
      ((behindElement layout level outer (next :: following)).map some ++ rest)
    rw [List.map_append, List.append_assoc, List.mapM_cons]
    cases hc : answer c with
    | error e =>
      rw [hc] at hread
      exact nodesWith_error hread fuel
    | ok c' =>
      rw [hc] at hread
      have hrest := ih next fuel (c' :: before) (fun m hm => hreads m (List.mem_cons_of_mem _ hm))
        (Nat.lt_of_succ_lt_succ hfuel)
      rw [nodesWith_ok hread (afterElement_cons layout level outer next following rest), hrest,
        List.reverse_cons]
      -- The node that was read stands behind those before it, in front of those that follow.
      cases (next :: following).mapM answer with
      | error e => rfl
      | ok nodes => simp [Except.map, bind, Except.bind, pure, Except.pure]

/-! ## Nodes -/

/-- An array of nodes is read when there is a level for it and each of its nodes can be read. -/
theorem nodes_spell {fuel : Nat} {read : Reader Node} {answer : Node → Except DecodeError Node}
    (layout : Layout) (level : Nat) (cs : List Node)
    (hfuel : cs.length ≤ fuel)
    (hreads : ∀ node ∈ cs, ∀ behind,
      read ((spell layout (level + 1) node.toJson).map some ++ behind)
        = (answer node).map (·, behind)) (rest : Input) :
    nodes fuel (some read) ((spell layout level (.array (cs.map Node.toJson))).map some ++ rest)
      = (cs.mapM answer).map (·, rest) := by
  cases cs with
  | nil =>
    rw [List.map_nil, spell, List.map_cons, List.map_cons, List.map_nil, List.cons_append,
      List.singleton_append, nodes, Json.skipBlanks_of_not_isGap (by decide)]
    simp only [afterBracket, Json.skipBlanks_of_not_isGap (c := ']') (by decide)]
    simp only [lift, bind, Except.bind, nodesWith]
    rfl
  | cons c cs =>
    rw [List.map_cons, spell, List.map_cons, List.cons_append, nodes,
      Json.skipBlanks_of_not_isGap (by decide)]
    obtain ⟨tail, htail⟩ := spell_toJson_eq_cons layout (level + 1) c
    have hloop := nodesWith_spell level rest cs c fuel [] hreads hfuel
    rw [behindElement, htail] at hloop
    rw [htail]
    simp only [afterBracket, List.map_append, List.append_assoc, List.map_cons, List.cons_append,
      Json.skipBlanks_gap (layout.line_gap (level + 1)),
      Json.skipBlanks_of_not_isGap (c := '\x7b') (by decide)] at hloop ⊢
    simp only [lift, bind, Except.bind]
    exact hloop

end Bracketdown.Decode
