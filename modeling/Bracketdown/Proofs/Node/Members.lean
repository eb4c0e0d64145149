import Bracketdown.Node.Json
import Bracketdown.Proofs.Json.Depth

/-!
# The members of a written node

Each of the fifteen constructors of a node is written with its own choice of fields. `toJson_eq`
gathers the fifteen choices into one: a node is written as the fields that its record has, in the
order of the fields. From here on a proof about the written form need not tell the constructors
apart, only the ten fields.
-/

namespace Bracketdown.Node

open Json (levels levelsAll levelsMembers)

/-- The value a field of a record is written as, if the record has it. -/
def Record.valueOf? (r : Record) : Field → Option Json
  | .kind => some (.string r.kind)
  | .value => r.value.map .string
  | .depth => r.depth.map fun n => .number n.toNat
  | .ordered => r.ordered.map .bool
  | .start => r.start.map fun n => .number n.toNat
  | .checked => r.checked.map .bool
  | .url => r.url.map .string
  | .alt => r.alt.map .string
  | .lang => r.lang.map .string
  | .children => r.children.map fun cs => .array (cs.map toJson)

/-- The fields that a record has, in order, with their values. -/
def Record.given (r : Record) : List (Field × Json) :=
  Field.all.filterMap fun field => (r.valueOf? field).map (field, ·)

/-- Members under the names of their fields. -/
def named (given : List (Field × Json)) : List (String × Json) :=
  given.map fun (field, v) => (field.name, v)

theorem named_cons (field : Field) (v : Json) (given : List (Field × Json)) :
    named ((field, v) :: given) = (field.name, v) :: named given := rfl

theorem toJsons_eq_map (cs : List Node) : toJsons cs = cs.map toJson := by
  induction cs with
  | nil => rfl
  | cons c cs ih => rw [toJsons, ih, List.map_cons]

/-- **A node is written as the fields of its record.** -/
theorem toJson_eq (node : Node) : node.toJson = .object (named node.record.given) := by
  cases node with
  | list ordered start cs =>
    cases start <;> rw [toJson, toJsons_eq_map] <;> rfl
  | listItem checked cs =>
    cases checked <;> rw [toJson, toJsons_eq_map] <;> rfl
  | code value lang => cases lang <;> rfl
  | other kind value cs =>
    cases cs with
    | none => cases value <;> rfl
    | some cs => cases value <;> rw [toJson, toJsons_eq_map] <;> rfl
  | text value => rfl
  | image url alt => rfl
  | inlineCode value => rfl
  | _ => rw [toJson, toJsons_eq_map]; rfl

/-- The first field that is given is the kind. -/
theorem given_eq_cons (r : Record) : ∃ rest, r.given = (.kind, .string r.kind) :: rest :=
  ⟨_, rfl⟩

theorem valueOf_of_mem_given {r : Record} {field : Field} {v : Json} (h : (field, v) ∈ r.given) :
    r.valueOf? field = some v := by
  obtain ⟨f, -, hf⟩ := List.mem_filterMap.mp h
  obtain ⟨w, hw, hpair⟩ := Option.map_eq_some_iff.mp hf
  obtain ⟨rfl, rfl⟩ := Prod.mk.inj hpair
  exact hw

theorem mem_fields_given {r : Record} {field : Field} :
    field ∈ r.given.map Prod.fst ↔ (r.valueOf? field).isSome := by
  simp only [List.mem_map, Prod.exists, exists_and_right, exists_eq_right]
  constructor
  · rintro ⟨v, hv⟩
    rw [valueOf_of_mem_given hv]
    rfl
  · intro h
    obtain ⟨v, hv⟩ := Option.isSome_iff_exists.mp h
    refine ⟨v, List.mem_filterMap.mpr ⟨field, ?_, by rw [hv]; rfl⟩⟩
    cases field <;> decide

/-- No field is given twice. -/
theorem nodup_fields_given (r : Record) : (r.given.map Prod.fst).Nodup := by
  have fields : r.given.map Prod.fst
      = Field.all.filter fun field => (r.valueOf? field).isSome := by
    unfold Record.given
    induction Field.all with
    | nil => rfl
    | cons field fields ih =>
      cases hv : r.valueOf? field with
      | none => rw [List.filterMap_cons, List.filter_cons, hv]; exact ih
      | some v =>
        rw [List.filterMap_cons, List.filter_cons, hv]
        exact congrArg (List.cons field) ih
  rw [fields]
  exact List.Pairwise.filter _ (by decide : Field.all.Nodup)

end Bracketdown.Node
