import Bracketdown.Json.Scan
import Bracketdown.Node.Record
import Bracketdown.Proofs.Node.Tree

/-!
# Which trees can be stored

A tree is written as records, one for each node, and read back from them. `Storable` says of which
trees the records are told apart: no node without a constructor of its own borrows a dedicated kind,
and the depth of every heading is in range. `ofRecord_record` is one half of why that is the right
condition, `storableHere_of_ofRecord` the other: a record that is accepted always describes a node
that meets it.
-/

namespace Bracketdown.Node

/-- What a node must meet to be read back as itself, whatever is below it. -/
def StorableHere : Node → Prop
  | .other kind _ _ => Kind.isDedicated kind = false
  | .heading depth _ => 1 ≤ depth ∧ depth ≤ 6
  | _ => True

/-- A tree that is read back as itself, as far as its nodes go. -/
def Storable (tree : Node) : Prop := tree.Everywhere StorableHere

theorem storable_iff {tree : Node} :
    tree.Storable ↔ tree.StorableHere ∧ ∀ child ∈ tree.children, child.Storable := everywhere_iff

/-- The two conditions on a storable tree, each about the nodes it concerns. -/
theorem storable_iff_forall {tree : Node} :
    tree.Storable
      ↔ (∀ kind value children, Node.other kind value children ∈ tree.preorder →
          Kind.isDedicated kind = false)
        ∧ (∀ depth children, Node.heading depth children ∈ tree.preorder →
          1 ≤ depth ∧ depth ≤ 6) := by
  constructor
  · intro h
    exact ⟨fun _ _ _ hmem => h _ hmem, fun _ _ hmem => h _ hmem⟩
  · rintro ⟨hother, hheading⟩ node hnode
    cases node with
    | other kind value children => exact hother kind value children hnode
    | heading depth children => exact hheading depth children hnode
    | _ => trivial

/-! ## Records -/

/-- The record of a node keeps the node's children. -/
theorem children_record (node : Node) : node.record.children.getD [] = node.children := by
  cases node <;> rfl

theorem ne_of_not_isDedicated {kind name : String} (h : Kind.isDedicated kind = false)
    (hname : name ∈ Kind.dedicated) : kind ≠ name := by
  rintro rfl
  rw [Kind.isDedicated, List.contains_eq_mem, decide_eq_false_iff_not] at h
  exact h hname

/-- A record of a kind without a constructor takes whatever value and children there are. -/
theorem ofRecord_of_not_isDedicated {r : Record} (h : Kind.isDedicated r.kind = false) :
    ofRecord r = .ok (.other r.kind r.value r.children) := by
  have ne : ∀ name ∈ Kind.dedicated, r.kind ≠ name := fun _ hname => ne_of_not_isDedicated h hname
  unfold ofRecord
  split
  case h_15 => rfl
  all_goals exact absurd ‹_› (ne _ (by decide))

theorem needDepth_eq_ok {r : Record} {depth : UInt8} :
    r.needDepth = .ok depth ↔ r.depth = some depth ∧ 1 ≤ depth ∧ depth ≤ 6 := by
  unfold Record.needDepth
  cases hd : r.depth with
  | none => simp [Record.need, bind, Except.bind]
  | some d =>
    by_cases hrange : 1 ≤ d ∧ d ≤ 6
    · simp only [Record.need, bind, Except.bind, if_pos hrange, pure, Except.pure, Except.ok.injEq,
        Option.some.injEq]
      constructor
      · rintro rfl; exact ⟨rfl, hrange⟩
      · rintro ⟨rfl, -⟩; rfl
    · simp only [Record.need, bind, Except.bind, if_neg hrange, Option.some.injEq]
      constructor
      · intro h; cases h
      · rintro ⟨rfl, h⟩; exact absurd h hrange

/-- A node that may be stored is what its record describes. -/
theorem ofRecord_record {node : Node} (h : node.StorableHere) :
    ofRecord node.record = .ok node := by
  cases node with
  | other kind value children => exact ofRecord_of_not_isDedicated h
  | heading depth children =>
    have hdepth : (record (.heading depth children)).needDepth = .ok depth :=
      needDepth_eq_ok.mpr ⟨rfl, h⟩
    simp only [ofRecord, record] at hdepth ⊢
    rw [hdepth]
    rfl
  | _ => rfl

theorem need_eq_ok {α : Type} {r : Record} {field : Field} {given : Option α} {a : α} :
    r.need field given = .ok a ↔ given = some a := by
  cases given with
  | none => exact ⟨fun h => (by cases h), fun h => (by cases h)⟩
  | some b =>
    rw [Record.need, Except.ok.injEq, Option.some.injEq]

/-- A record that is accepted describes a node that may be stored, and what the node is written with
for children are those of the record. -/
theorem storableHere_of_ofRecord {r : Record} {node : Node} (h : ofRecord r = .ok node) :
    node.StorableHere ∧ ∀ cs, node.record.children = some cs → r.children = some cs := by
  unfold ofRecord at h
  split at h
  case h_3 =>
    obtain ⟨depth, hdepth, h⟩ := bind_eq_ok.mp h
    obtain ⟨cs, hcs, h⟩ := bind_eq_ok.mp h
    cases h
    exact ⟨(needDepth_eq_ok.mp hdepth).2, fun _ hcs' => hcs' ▸ need_eq_ok.mp hcs⟩
  case h_7 =>
    obtain ⟨url, -, h⟩ := bind_eq_ok.mp h
    obtain ⟨cs, hcs, h⟩ := bind_eq_ok.mp h
    cases h
    exact ⟨trivial, fun _ hcs' => hcs' ▸ need_eq_ok.mp hcs⟩
  case h_15 =>
    cases h
    refine ⟨?_, fun _ hcs => hcs⟩
    simp only [StorableHere, Kind.isDedicated, Kind.dedicated, List.contains_eq_mem,
      decide_eq_false_iff_not, List.mem_cons, List.not_mem_nil, or_false, not_or]
    simp_all
  case h_4 | h_8 | h_13 | h_14 =>
    obtain ⟨value, -, h⟩ := bind_eq_ok.mp h
    cases h
    exact ⟨trivial, fun _ hcs => by cases hcs⟩
  all_goals
    obtain ⟨cs, hcs, h⟩ := bind_eq_ok.mp h
    cases h
    exact ⟨trivial, fun _ hcs' => hcs' ▸ need_eq_ok.mp hcs⟩

end Bracketdown.Node
