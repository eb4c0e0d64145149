import Bracketdown.Proofs.Json.Syntax
import Bracketdown.Proofs.Node.ReadFields

/-!
# What a JSON value means as a tree

A value is a node in one of two forms: an object, whose members are told by their keys, or an array,
which holds the ten fields in their fixed order. `Syntax.node?` forgets which of the two it was, in
which order the members stood, and whether a field was left out or given as `null`: what is left is
one value for each field, and the node depends on nothing else (`nodeOf`).

The readers work through the fields one by one (`takeFields`). The two ways come to the same
(`agrees_nodeOf`), where a refusal without a defect stands for any other error: which one is found
first depends on the spelling, and nothing here does.
-/

namespace Bracketdown

open Json (Syntax Quoted)
open Node (Field Record)

/-! ## The fields of a value -/

namespace Json

/-- The field that a key names. -/
def Quoted.field? (key : Quoted) : Option Field := key.string?.bind Field.ofName?

/-- The key of a field, each of its characters standing for itself. -/
def fieldKey (field : Field) : Quoted :=
  .plain field.name.toList (by cases field <;> decide)

theorem field?_fieldKey (field : Field) : (fieldKey field).field? = some field := by
  rw [Quoted.field?, fieldKey, Quoted.string?_plain, String.ofList_toList]
  cases field <;> rfl

/-- The known fields among members, each with its value. -/
def knownFields (ms : List (Quoted × Syntax)) : List (Field × Syntax) :=
  ms.filterMap fun m => m.1.field?.map (·, m.2)

theorem knownFields_cons_known {key : Quoted} {field : Field} (h : key.field? = some field)
    (v : Syntax) (ms : List (Quoted × Syntax)) :
    knownFields ((key, v) :: ms) = (field, v) :: knownFields ms := by
  rw [knownFields, List.filterMap_cons, h]
  rfl

theorem knownFields_cons_unknown {key : Quoted} (h : key.field? = none) (v : Syntax)
    (ms : List (Quoted × Syntax)) : knownFields ((key, v) :: ms) = knownFields ms := by
  rw [knownFields, List.filterMap_cons, h]
  rfl

/-- A known field comes from a member with its key. -/
theorem mem_of_mem_knownFields {ms : List (Quoted × Syntax)} {field : Field} {v : Syntax}
    (h : (field, v) ∈ knownFields ms) : ∃ key, (key, v) ∈ ms ∧ key.field? = some field := by
  obtain ⟨⟨key, w⟩, hm, hfield⟩ := List.mem_filterMap.mp h
  obtain ⟨found, hfound, heq⟩ := Option.map_eq_some_iff.mp hfield
  cases heq
  exact ⟨key, hm, hfound⟩

namespace Syntax

/-- The fields that a value gives as a node, when every key is a string and no element is past the
last field. -/
def fields? : Syntax → Option (List (Field × Syntax))
  | .object ms => if ms.all fun m => m.1.string?.isSome then some (knownFields ms) else none
  | .array vs => if vs.length ≤ Field.all.length then some (Field.all.zip vs) else none
  | _ => none

/-- The value of a field, which is `null` when it is not given. -/
def valueIn (fs : List (Field × Syntax)) (field : Field) : Syntax := (fs.lookup field).getD .null

/-- The value of each field, when no field is given twice. -/
def values? (fs : List (Field × Syntax)) : Option (Field → Syntax) :=
  if (fs.map Prod.fst).Nodup then some (valueIn fs) else none

/-- A value as a node: the value of each field. -/
def node? (v : Syntax) : Option (Field → Syntax) := v.fields?.bind values?

end Syntax

end Json

/-- The defect of a node that an error tells of. -/
def DecodeError.defect? : DecodeError → Option Node.Defect
  | .defect d => some d
  | _ => none

namespace Decode

open Json (knownFields)
open Json.Syntax (valueIn values?)

section

variable {ms : List (Quoted × Syntax)}

/-- What an object gives are its known fields, as long as its keys are strings. -/
theorem fields_object (hkeys : ∀ m ∈ ms, m.1.string?.isSome) :
    (Syntax.object ms).fields? = some (knownFields ms) :=
  if_pos (List.all_eq_true.mpr hkeys)

theorem node_object (hkeys : ∀ m ∈ ms, m.1.string?.isSome) :
    (Syntax.object ms).node? = values? (knownFields ms) := by
  rw [Json.Syntax.node?, fields_object hkeys]
  rfl

end

/-- Whether a value is of the type of a field. Every field but the kind may be `null`; children are
not looked at here. -/
def fits : Field → Syntax → Bool
  | .kind, v => v.string?.isSome
  | .depth, v => v.isNull || (v.natural? 255).isSome
  | .start, v => v.isNull || (v.natural? (UInt64.size - 1)).isSome
  | .ordered, v => v.isNull || v.bool?.isSome
  | .checked, v => v.isNull || v.bool?.isSome
  | .children, _ => true
  | .value, v => v.isNull || v.string?.isSome
  | .url, v => v.isNull || v.string?.isSome
  | .alt, v => v.isNull || v.string?.isSome
  | .lang, v => v.isNull || v.string?.isSome

/-- The record that fields with the given values make, without children. -/
def recordOf (value : Field → Syntax) : Record where
  kind := (value .kind).string?.getD ""
  value := (value .value).string?
  depth := ((value .depth).natural? 255).map Nat.toUInt8
  ordered := (value .ordered).bool?
  start := ((value .start).natural? (UInt64.size - 1)).map Nat.toUInt64
  checked := (value .checked).bool?
  url := (value .url).string?
  alt := (value .alt).string?
  lang := (value .lang).string?

/-! ## The node -/

/-- What reading a value comes to. An error is a defect of a node or any other refusal. -/
abbrev Outcome (α : Type) := Except (Option Node.Defect) α

/-- What a value is read as, unless it is `null`. -/
def orNull {α : Type} (take : Syntax → Outcome α) (v : Syntax) : Outcome (Option α) :=
  if v.isNull then .ok none else (take v).map some

/-- The node that a record describes. -/
def made (r : Record) : Outcome Node := (Node.ofRecord r).mapError some

/-- The node that a value means, when its children are read as told. -/
def nodeOf (children : Syntax → Outcome (List Node)) (v : Syntax) : Outcome Node :=
  match v.node? with
  | none => .error none
  | some value =>
    if Field.all.all fun field => fits field (value field) then do
      let cs ← orNull children (value .children)
      made { recordOf value with children := cs }
    else .error none

/-- The nodes that an array means, when each of them is read as told. -/
def nodesOf (node : Syntax → Outcome Node) : Syntax → Outcome (List Node)
  | .array vs => vs.mapM node
  | _ => .error none

/-- The node that a value means, when so many objects and arrays may be open at once. -/
def meaning : Nat → Syntax → Outcome Node
  | 0 => fun _ => .error none
  | 1 => nodeOf fun _ => .error none
  | levels + 2 => nodeOf (nodesOf (meaning levels))

/-! ## Field by field -/

/-- A draft with one more field. -/
def takeField (children : Syntax → Outcome (List Node)) (draft : Draft) (field : Field)
    (v : Syntax) : Outcome Draft :=
  if field = .children then
    (orNull children v).map fun cs => { draft with children := some cs }
  else if fits field v then .ok (draft.fill (recordOf fun _ => v) field)
  else .error none

/-- A draft with further fields, none of which may be given yet. -/
def takeFields (children : Syntax → Outcome (List Node)) (draft : Draft) :
    List (Field × Syntax) → Outcome Draft
  | [] => .ok draft
  | (field, v) :: fs =>
    if draft.has field then .error none
    else do takeFields children (← takeField children draft field v) fs

/-- The node of a complete draft. -/
def finished (draft : Draft) : Outcome Node := draft.finish.mapError DecodeError.defect?

/-! ### Which value a field has -/

section

variable {fs : List (Field × Syntax)} {field : Field} {v : Syntax}

theorem valueIn_of_mem (hnodup : (fs.map Prod.fst).Nodup) (h : (field, v) ∈ fs) :
    valueIn fs field = v := by
  induction fs with
  | nil => cases h
  | cons m fs ih =>
    obtain ⟨other, w⟩ := m
    rw [List.map_cons, List.nodup_cons] at hnodup
    rcases List.mem_cons.mp h with heq | hmem
    · cases heq
      simp [valueIn]
    · have hne : field ≠ other := fun heq => hnodup.1 (List.mem_map.mpr ⟨_, hmem, heq⟩)
      have hlookup := ih hnodup.2 hmem
      rw [valueIn, List.lookup_cons, beq_false_of_ne hne]
      exact hlookup

theorem valueIn_of_not_mem (h : field ∉ fs.map Prod.fst) : valueIn fs field = .null := by
  have hlookup : fs.lookup field = none := by
    rw [List.lookup_eq_none_iff]
    intro m hm
    rw [bne_iff_ne]
    rintro rfl
    exact h (List.mem_map_of_mem hm)
  rw [valueIn, hlookup]
  rfl

/-- A field with a value is given with it. -/
theorem mem_of_valueIn_ne_null (h : (valueIn fs field).isNull = false) :
    (field, valueIn fs field) ∈ fs := by
  cases hlookup : fs.lookup field with
  | none =>
    rw [valueIn, hlookup] at h
    cases h
  | some v =>
    obtain ⟨before, behind, hfs, -⟩ := List.lookup_eq_some_iff.mp hlookup
    rw [valueIn, hlookup, Option.getD_some, hfs]
    exact List.mem_append_right _ (List.mem_cons_self ..)

end

/-! ### When all fields are read -/

section

variable {children : Syntax → Outcome (List Node)} {draft draft' : Draft} {field : Field}
  {v : Syntax} {fs : List (Field × Syntax)} {r : Record}

/-- A field that is read is filled in from a record that has what is read. -/
theorem has_takeField (h : takeField children draft field v = .ok draft') (other : Field) :
    draft'.has other = (decide (field = other) || draft.has other) := by
  unfold takeField at h
  split at h
  next heq =>
    subst heq
    cases hcs : orNull children v with
    | error e =>
      rw [hcs] at h
      cases h
    | ok cs =>
      rw [hcs] at h
      cases h
      cases other <;> rfl
  next =>
    split at h
    · cases h
      exact Draft.has_fill _ _ _ _
    · cases h

/-- What can be said of fields that were all read. -/
theorem of_takeFields (h : takeFields children draft fs = .ok draft') :
    (fs.map Prod.fst).Nodup ∧ (∀ m ∈ fs, draft.has m.1 = false)
      ∧ (∀ m ∈ fs, ∃ before behind, takeField children before m.1 m.2 = .ok behind)
      ∧ ∀ field, draft'.has field = true → draft.has field = true ∨ field ∈ fs.map Prod.fst := by
  induction fs generalizing draft with
  | nil =>
    cases h
    exact ⟨List.nodup_nil, by simp, by simp, fun field h => .inl h⟩
  | cons m fs ih =>
    obtain ⟨field, v⟩ := m
    rw [takeFields] at h
    split at h
    · cases h
    next hnew =>
      obtain ⟨next, hnext, h⟩ := bind_eq_ok.mp h
      obtain ⟨hnodup, hfresh, htaken, hhas⟩ := ih h
      have hstep := has_takeField hnext
      refine ⟨?_, ?_, ?_, ?_⟩
      · rw [List.map_cons, List.nodup_cons]
        refine ⟨fun hmem => ?_, hnodup⟩
        obtain ⟨m, hm, heq⟩ := List.mem_map.mp hmem
        have hfalse := hfresh m hm
        rw [hstep, heq, decide_eq_true rfl, Bool.true_or] at hfalse
        cases hfalse
      · intro m hm
        rcases List.mem_cons.mp hm with rfl | hm
        · exact Bool.eq_false_iff.mpr hnew
        · have hfalse := hfresh m hm
          rw [hstep, Bool.or_eq_false_iff] at hfalse
          exact hfalse.2
      · intro m hm
        rcases List.mem_cons.mp hm with rfl | hm
        · exact ⟨draft, next, hnext⟩
        · exact htaken m hm
      · intro other hother
        rw [List.map_cons, List.mem_cons]
        rcases hhas other hother with hbefore | hmem
        · rw [hstep, Bool.or_eq_true, decide_eq_true_eq] at hbefore
          rcases hbefore with rfl | hbefore
          · exact .inr (.inl rfl)
          · exact .inl hbefore
        · exact .inr (.inr hmem)

/-- A field that is filled in leaves the other fields to be given. -/
theorem new_fill (r : Record) (hfield : field ∉ fs.map Prod.fst)
    (hnew : ∀ m ∈ fs, draft.has m.1 = false) : ∀ m ∈ fs, (draft.fill r field).has m.1 = false := by
  intro m hm
  have hne : field ≠ m.1 := fun heq => hfield (heq ▸ List.mem_map_of_mem hm)
  rw [Draft.has_fill, hnew m hm, decide_eq_false hne]
  rfl

/-- Fields that are there to be filled in from one record are all filled in. -/
theorem takeFields_filled
    (hread : ∀ m ∈ fs, ∀ draft : Draft,
      takeField children draft m.1 m.2 = .ok (draft.fill r m.1))
    (hnodup : (fs.map Prod.fst).Nodup) (hnew : ∀ m ∈ fs, draft.has m.1 = false) :
    takeFields children draft fs = .ok ((fs.map Prod.fst).foldl (Draft.fill r) draft) := by
  induction fs generalizing draft with
  | nil => rfl
  | cons m fs ih =>
    obtain ⟨field, v⟩ := m
    have hfield := hnew _ (List.mem_cons_self ..)
    rw [takeFields, hfield, if_neg Bool.false_ne_true, hread _ (List.mem_cons_self ..) draft]
    rw [List.map_cons, List.nodup_cons] at hnodup
    exact ih (fun m hm => hread m (List.mem_cons_of_mem _ hm)) hnodup.2
      (new_fill r hnodup.1 fun m hm => hnew m (List.mem_cons_of_mem _ hm))

/-- When the children alone cannot be read, they decide, wherever they stand. -/
theorem takeFields_error {e : Option Node.Defect} {w : Syntax}
    (hread : ∀ m ∈ fs, m.1 ≠ .children → ∀ draft : Draft,
      takeField children draft m.1 m.2 = .ok (draft.fill r m.1))
    (hnodup : (fs.map Prod.fst).Nodup) (hnew : ∀ m ∈ fs, draft.has m.1 = false)
    (hmem : (.children, w) ∈ fs) (herror : orNull children w = .error e) :
    takeFields children draft fs = .error e := by
  induction fs generalizing draft with
  | nil => cases hmem
  | cons m fs ih =>
    obtain ⟨field, v⟩ := m
    have hfield := hnew _ (List.mem_cons_self ..)
    rw [takeFields, hfield, if_neg Bool.false_ne_true]
    rw [List.map_cons, List.nodup_cons] at hnodup
    rcases List.mem_cons.mp hmem with heq | hmem
    · cases heq
      rw [takeField, if_pos rfl, herror]
      rfl
    · have hne : field ≠ .children := fun heq =>
        hnodup.1 (List.mem_map.mpr ⟨_, hmem, heq.symm⟩)
      rw [hread _ (List.mem_cons_self ..) hne draft]
      exact ih (fun m hm => hread m (List.mem_cons_of_mem _ hm)) hnodup.2
        (new_fill r hnodup.1 fun m hm => hnew m (List.mem_cons_of_mem _ hm)) hmem

end

/-! ### The two ways agree -/

/-- The second outcome is the first one, in which a refusal without a defect stands for any
error. -/
def Agrees {α : Type} : Outcome α → Outcome α → Prop
  | .ok a, b => b = .ok a
  | .error (some d), b => b = .error (some d)
  | .error none, b => ∀ a, b ≠ .ok a

theorem Agrees.refl {α : Type} (a : Outcome α) : Agrees a a := by
  match a with
  | .ok a => exact rfl
  | .error (some d) => exact rfl
  | .error none => exact fun a h => by cases h

theorem fits_of_takeField {children : Syntax → Outcome (List Node)} {draft draft' : Draft}
    {field : Field} {v : Syntax} (h : takeField children draft field v = .ok draft') :
    fits field v = true := by
  unfold takeField at h
  split at h
  next heq =>
    subst heq
    rfl
  next =>
    split at h
    · assumption
    · cases h

/-- A field that is not given fits, unless it is the kind. -/
theorem fits_null {field : Field} (hne : field ≠ .kind) : fits field .null = true := by
  cases field with
  | kind => exact absurd rfl hne
  | _ => rfl

/-- A node all of whose fields are read has fields that fit. -/
theorem fits_of_takeFields {children : Syntax → Outcome (List Node)} {draft : Draft} {node : Node}
    {fs : List (Field × Syntax)} (h : takeFields children {} fs = .ok draft)
    (hfinished : finished draft = .ok node) (field : Field) :
    fits field (valueIn fs field) = true := by
  obtain ⟨hnodup, -, htaken, hhas⟩ := of_takeFields h
  by_cases hmem : field ∈ fs.map Prod.fst
  · obtain ⟨⟨field, v⟩, hv, rfl⟩ := List.mem_map.mp hmem
    obtain ⟨before, behind, htake⟩ := htaken _ hv
    rw [valueIn_of_mem hnodup hv]
    exact fits_of_takeField htake
  · rw [valueIn_of_not_mem hmem]
    refine fits_null ?_
    rintro rfl
    have hkind : draft.kind = none := by
      cases hkind : draft.kind with
      | none => rfl
      | some kind =>
        rcases hhas .kind (by rw [Draft.has, hkind]; rfl) with hempty | hkind
        · cases hempty
        · exact absurd hkind hmem
    rw [finished, Draft.finish, hkind] at hfinished
    cases hfinished

/-- A value that fits is filled in from the record of all values. -/
theorem takeField_of_fits (children : Syntax → Outcome (List Node)) {value : Field → Syntax}
    {field : Field} (hne : field ≠ .children) (hfits : fits field (value field) = true)
    (cs : Option (List Node)) (draft : Draft) :
    takeField children draft field (value field)
      = .ok (draft.fill { recordOf value with children := cs } field) := by
  rw [takeField, if_neg hne, if_pos hfits]
  cases field with
  | children => exact absurd rfl hne
  | _ => rfl

/-- A field that is not given has no value in the record. -/
theorem valueOf_recordOf_null {value : Field → Syntax} {field : Field} (hne : field ≠ .kind)
    (hnull : value field = .null) {cs : Option (List Node)}
    (hcs : field = .children → cs = none) :
    { recordOf value with children := cs : Record }.valueOf? field = none := by
  cases field with
  | kind => exact absurd rfl hne
  | children => rw [hcs rfl]; rfl
  | _ => simp only [Record.valueOf?, recordOf, hnull]; rfl

section

variable {children : Syntax → Outcome (List Node)} {fs : List (Field × Syntax)}

/-- The fields of a node fit their types. -/
def AllFit (value : Field → Syntax) : Prop := ∀ field, fits field (value field) = true

theorem allFit_iff {value : Field → Syntax} :
    (Field.all.all fun field => fits field (value field)) = true ↔ AllFit value := by
  rw [List.all_eq_true]
  exact ⟨fun h field => h field (by cases field <;> decide), fun h field _ => h field⟩

/-- A node whose fields fit is given a kind. -/
theorem kind_mem_of_allFit (hfits : AllFit (valueIn fs)) : .kind ∈ fs.map Prod.fst := by
  have hkind := hfits .kind
  have hgiven : (valueIn fs .kind).isNull = false := by
    cases hv : valueIn fs .kind with
    | null => rw [hv] at hkind; cases hkind
    | _ => rfl
  exact List.mem_map_of_mem (mem_of_valueIn_ne_null hgiven)

theorem takeField_of_mem (hnodup : (fs.map Prod.fst).Nodup) (hfits : AllFit (valueIn fs))
    (cs : Option (List Node)) {m : Field × Syntax} (hm : m ∈ fs) (hne : m.1 ≠ .children)
    (draft : Draft) :
    takeField children draft m.1 m.2
      = .ok (draft.fill { recordOf (valueIn fs) with children := cs } m.1) := by
  have htake := takeField_of_fits children hne (hfits m.1) cs draft
  rw [valueIn_of_mem hnodup hm] at htake
  exact htake

/-- Fields that fit are refused for their children when these are refused. -/
theorem takeFields_of_children_error (hnodup : (fs.map Prod.fst).Nodup)
    (hfits : AllFit (valueIn fs)) {e : Option Node.Defect}
    (hchildren : orNull children (valueIn fs .children) = .error e) :
    takeFields children {} fs = .error e := by
  have hgiven : (valueIn fs .children).isNull = false := by
    rw [Bool.eq_false_iff]
    intro hnull
    rw [orNull, if_pos hnull] at hchildren
    cases hchildren
  exact takeFields_error (fun m hm => takeField_of_mem hnodup hfits none hm) hnodup
    (fun m _ => by cases m.1 <;> rfl) (mem_of_valueIn_ne_null hgiven) hchildren

/-- Fields that fit, with children that are read, make the node that their record describes. -/
theorem takeFields_of_children_ok (hnodup : (fs.map Prod.fst).Nodup)
    (hfits : AllFit (valueIn fs)) {cs : Option (List Node)}
    (hchildren : orNull children (valueIn fs .children) = .ok cs) :
    takeFields children {} fs >>= finished
      = made { recordOf (valueIn fs) with children := cs } := by
  -- Every field is filled in from one and the same record.
  have hread : ∀ m ∈ fs, ∀ draft : Draft, takeField children draft m.1 m.2
      = .ok (draft.fill { recordOf (valueIn fs) with children := cs } m.1) := by
    rintro ⟨field, w⟩ hm draft
    by_cases heq : field = .children
    · subst heq
      rw [valueIn_of_mem hnodup hm] at hchildren
      rw [takeField, if_pos rfl, hchildren]
      rfl
    · exact takeField_of_mem hnodup hfits cs hm heq draft
  have habsent : ∀ field, field ∉ fs.map Prod.fst →
      { recordOf (valueIn fs) with children := cs : Record }.valueOf? field = none := by
    intro field hnot
    have hne : field ≠ .kind := by
      intro heq
      rw [heq] at hnot
      exact hnot (kind_mem_of_allFit hfits)
    refine valueOf_recordOf_null hne (valueIn_of_not_mem hnot) ?_
    rintro rfl
    rw [valueIn_of_not_mem hnot] at hchildren
    cases hchildren
    rfl
  rw [takeFields_filled hread hnodup (fun m _ => by cases m.1 <;> rfl)]
  show finished _ = _
  rw [finished, Draft.finish_foldl_fill _ (kind_mem_of_allFit hfits) habsent, made]
  cases Node.ofRecord { recordOf (valueIn fs) with children := cs } <;> rfl

/-- **Reading the fields of a node one by one comes to what their values mean.** -/
theorem agrees_nodeOf (children : Syntax → Outcome (List Node)) {v : Syntax}
    (hfields : v.fields? = some fs) :
    Agrees (nodeOf children v) (takeFields children {} fs >>= finished) := by
  unfold nodeOf Json.Syntax.node?
  rw [hfields, Option.bind_some, Json.Syntax.values?]
  by_cases hnodup : (fs.map Prod.fst).Nodup
  case neg =>
    -- The reader finds the second of the two, after whatever else may be wrong before it.
    rw [if_neg hnodup]
    intro node h
    obtain ⟨draft, htake, -⟩ := bind_eq_ok.mp h
    exact hnodup (of_takeFields htake).1
  rw [if_pos hnodup]
  dsimp only
  by_cases hall : (Field.all.all fun field => fits field (valueIn fs field)) = true
  case neg =>
    rw [if_neg hall]
    intro node h
    obtain ⟨draft, htake, hfinished⟩ := bind_eq_ok.mp h
    exact hall (allFit_iff.mpr (fits_of_takeFields htake hfinished))
  rw [if_pos hall]
  have hfits := allFit_iff.mp hall
  cases hchildren : orNull children (valueIn fs .children) with
  | error e =>
    rw [takeFields_of_children_error hnodup hfits hchildren]
    exact Agrees.refl (.error e)
  | ok cs =>
    rw [takeFields_of_children_ok hnodup hfits hchildren]
    exact Agrees.refl _

end

end Decode

end Bracketdown
