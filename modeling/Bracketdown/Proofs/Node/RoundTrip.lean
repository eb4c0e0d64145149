import Bracketdown.Node.Json
import Bracketdown.Proofs.Node.Accepted
import Bracketdown.Proofs.Node.ReadTree

/-!
# The stored form of a tree is exact

Writing a tree and reading it back gives the tree itself for exactly the trees that are `Storable`
and not nested too deep. The two directions have little in common. That such a tree comes back is
`document_spell`, an induction over the tree. That no other tree does rests on what the decoder
never gives: every tree it accepts, from whatever text, is storable (`storable_of_document`), and a
storable tree that needs more levels than there are is refused.
-/

namespace Bracketdown.Decode

open Json (Input Layout spell mostOpen levels)
open Node (Storable StorableHere)

/-! ## What is read may be stored -/

/-- Every node that a reader of several nodes gives may be stored. -/
def GivesStorable (read : Reader (List Node)) : Prop :=
  ∀ input nodes rest, read input = .ok (nodes, rest) → ∀ node ∈ nodes, node.Storable

/-- The children in a draft, if there are some yet, may be stored. -/
def Draft.Sound (draft : Draft) : Prop :=
  ∀ nodes, draft.children = some (some nodes) → ∀ node ∈ nodes, node.Storable

theorem sound_empty : Draft.Sound {} := fun _ h => by cases h

theorem sound_of_readField {children : Reader (List Node)} (hgives : GivesStorable children)
    {draft draft' : Draft} (hdraft : draft.Sound) {field : Node.Field} {input rest : Input}
    (h : draft.readField children field input = .ok (draft', rest)) : draft'.Sound := by
  by_cases hfield : field = .children
  · subst hfield
    obtain ⟨given, hread, rfl⟩ := readField_children_eq_ok h
    intro nodes hnodes
    cases hnodes
    rcases optional_eq_ok hread with ⟨hnone, -⟩ | ⟨nodes', hsome, hread⟩
    · cases hnone
    · cases hsome
      exact hgives _ nodes rest hread
  · intro nodes hnodes
    rw [(readField_eq_ok_of_ne hfield h).1] at hnodes
    exact hdraft nodes hnodes

theorem sound_of_member {children : Reader (List Node)} (hgives : GivesStorable children)
    {draft draft' : Draft} (hdraft : draft.Sound) {input rest : Input}
    (h : member children draft input = .ok (draft', rest)) : draft'.Sound := by
  obtain ⟨_, _, _, -, -, ⟨_, -, -, hread⟩ | ⟨-, rfl, -⟩⟩ := member_eq_ok h
  · exact sound_of_readField hgives hdraft hread
  · exact hdraft

theorem sound_of_membersWith {children : Reader (List Node)} (hgives : GivesStorable children)
    (fuel : Nat) {draft draft' : Draft} (hdraft : draft.Sound) {input rest : Input}
    (h : membersWith children fuel draft input = .ok (draft', rest)) : draft'.Sound := by
  induction fuel generalizing draft input with
  | zero => cases h
  | succ fuel ih =>
    obtain ⟨_, _, _, -, hmember, ⟨-, rfl⟩ | ⟨_, -, hmore⟩⟩ := membersWith_eq_ok h
    · exact sound_of_member hgives hdraft hmember
    · exact ih (sound_of_member hgives hdraft hmember) hmore

theorem sound_of_members {children : Reader (List Node)} (hgives : GivesStorable children)
    {fuel : Nat} {draft : Draft} {input rest : Input}
    (h : members children fuel input = .ok (draft, rest)) : draft.Sound := by
  rcases members_eq_ok h with ⟨-, rfl⟩ | h
  · exact sound_empty
  · exact sound_of_membersWith hgives fuel sound_empty h

theorem sound_of_positional {children : Reader (List Node)} (hgives : GivesStorable children)
    (fields : List Node.Field) {draft draft' : Draft} (hdraft : draft.Sound) {follow : Follow}
    {rest : Input} (h : positional children draft fields follow = .ok (draft', rest)) :
    draft'.Sound := by
  induction fields generalizing draft follow with
  | nil =>
    cases follow with
    | closed => cases h; exact hdraft
    | element => cases h
  | cons field fields ih =>
    cases follow with
    | closed =>
      obtain ⟨rfl, -⟩ := positional_closed_eq_ok h
      exact hdraft
    | element input =>
      obtain ⟨_, _, _, hread, -, h⟩ := positional_element_eq_ok h
      exact ih (sound_of_readField hgives hdraft hread) h

/-- A draft that is complete becomes a node that may be stored. -/
theorem storable_of_finish {draft : Draft} (hdraft : draft.Sound) {node : Node}
    (h : draft.finish = .ok node) : node.Storable := by
  obtain ⟨r, hr, hmade⟩ := finish_eq_ok h
  obtain ⟨hhere, hchildren⟩ := Node.storableHere_of_ofRecord hmade
  refine Node.storable_iff.mpr ⟨hhere, fun child hchild => ?_⟩
  rw [← Node.children_record] at hchild
  cases hcs : node.record.children with
  | none =>
    rw [hcs] at hchild
    cases hchild
  | some cs =>
    rw [hcs] at hchild
    have hgiven := Option.join_eq_some_iff.mp (hr.symm.trans (hchildren cs hcs))
    exact hdraft cs hgiven child hchild

theorem storable_of_nodeAbove {fuel : Nat} {children : Option (Reader (List Node))}
    (hgives : ∀ read ∈ children, GivesStorable read) {input rest : Input} {node : Node}
    (h : nodeAbove fuel children input = .ok (node, rest)) : node.Storable := by
  obtain ⟨read, _, draft, rfl, hfinish, ⟨-, hmembers⟩ | ⟨-, hfields⟩⟩ := nodeAbove_eq_ok h
  · exact storable_of_finish (sound_of_members (hgives read rfl) hmembers) hfinish
  · exact storable_of_finish (sound_of_positional (hgives read rfl) _ sound_empty hfields) hfinish

theorem storable_of_nodesWith {read : Reader Node}
    (hread : ∀ input node rest, read input = .ok (node, rest) → node.Storable) (fuel : Nat)
    {before nodes : List Node} (hbefore : ∀ node ∈ before, node.Storable) {follow : Follow}
    {rest : Input} (h : nodesWith read fuel before follow = .ok (nodes, rest)) :
    ∀ node ∈ nodes, node.Storable := by
  induction fuel generalizing before follow with
  | zero =>
    cases follow with
    | closed =>
      obtain ⟨rfl, -⟩ := nodesWith_closed_eq_ok h
      exact fun node hnode => hbefore node (List.mem_reverse.mp hnode)
    | element => cases h
  | succ fuel ih =>
    cases follow with
    | closed =>
      obtain ⟨rfl, -⟩ := nodesWith_closed_eq_ok h
      exact fun node hnode => hbefore node (List.mem_reverse.mp hnode)
    | element input =>
      obtain ⟨next, behind, _, hnext, -, h⟩ := nodesWith_element_eq_ok h
      refine ih (fun node hnode => ?_) h
      rcases List.mem_cons.mp hnode with rfl | hnode
      · exact hread input node behind hnext
      · exact hbefore node hnode

theorem givesStorable_nodes {fuel : Nat} {node : Option (Reader Node)}
    (hnode : ∀ read ∈ node, ∀ input tree rest, read input = .ok (tree, rest) → tree.Storable) :
    GivesStorable (nodes fuel node) := by
  intro input trees rest h
  obtain ⟨read, _, _, rfl, -, -, h⟩ := nodes_eq_ok h
  exact storable_of_nodesWith (hnode read rfl) fuel (fun _ h => absurd h List.not_mem_nil) h

/-- Every node that is read may be stored, whatever the text. -/
theorem storable_of_node (fuel : Nat) : ∀ (limit : Nat) (input : Input) (tree : Node)
    (rest : Input), node fuel limit input = .ok (tree, rest) → tree.Storable
  | 0, _, _, _, h => storable_of_nodeAbove (fun _ h => by cases h) h
  | 1, _, _, _, h =>
    storable_of_nodeAbove (fun _ h => by
      cases h
      exact givesStorable_nodes fun _ h => by cases h) h
  | limit + 2, _, _, _, h =>
    storable_of_nodeAbove (fun _ h => by
      cases h
      exact givesStorable_nodes fun _ h => by
        cases h
        exact storable_of_node fuel limit) h

/-- **The decoder gives storable trees only.** -/
theorem storable_of_document {input : Input} {tree : Node} (h : document input = .ok tree) :
    tree.Storable := by
  obtain ⟨_, hnode, -⟩ := document_eq_ok h
  exact storable_of_node _ _ _ _ _ hnode

end Bracketdown.Decode

namespace Bracketdown.Node

open Json (mostOpen levels)

/-- The compact text of a tree, read back: the tree, if it may be stored and there are levels enough
for it. -/
theorem decode_encode_of_storable {tree : Node} (h : tree.Storable) :
    decode tree.encode = Decode.limited Decode.levelLimit tree := by
  have hread := Decode.document_spell .compact h [] (fun _ h => absurd h List.not_mem_nil)
  rw [List.append_nil, Json.spell_compact] at hread
  rw [decode, encode, String.toList_ofList, hread]

theorem mostOpen_encode (tree : Node) : mostOpen tree.encode.toList = levels tree.toJson := by
  rw [encode, String.toList_ofList, ← Json.spell_compact 0, Json.mostOpen_spell]

theorem limited_eq_ok {limit : Nat} {tree : Node} :
    Decode.limited limit tree = .ok tree ↔ levels tree.toJson ≤ limit := by
  unfold Decode.limited
  by_cases h : levels tree.toJson ≤ limit
  · rw [if_pos h]
    exact ⟨fun _ => h, fun _ => rfl⟩
  · rw [if_neg h]
    exact ⟨fun hok => (by cases hok), fun hle => absurd hle h⟩

/-- **Which trees survive storing**: reading back what a tree is written as gives that tree exactly
when no node of another kind in it borrows a dedicated kind, the depth of every heading in it is
from one to six, and its text never has more than 127 objects and arrays open at once. -/
theorem decode_encode_eq_ok_iff (tree : Node) :
    decode tree.encode = .ok tree ↔
      (∀ kind value children, other kind value children ∈ tree.preorder →
        Kind.isDedicated kind = false)
      ∧ (∀ depth children, heading depth children ∈ tree.preorder → 1 ≤ depth ∧ depth ≤ 6)
      ∧ mostOpen tree.encode.toList ≤ 127 := by
  rw [← and_assoc, ← storable_iff_forall, mostOpen_encode]
  constructor
  · intro h
    have hstorable : tree.Storable := Decode.storable_of_document h
    refine ⟨hstorable, ?_⟩
    rw [decode_encode_of_storable hstorable] at h
    exact limited_eq_ok.mp h
  · rintro ⟨hstorable, hlevels⟩
    rw [decode_encode_of_storable hstorable]
    exact limited_eq_ok.mpr hlevels

end Bracketdown.Node
