import Bracketdown.Node.Content

/-!
# Joining texts from the left

`joinTexts` is a fold from the right. A reader that appends one node after the other joins from the
left instead: a text goes onto the end of the text in front of it (`pushJoined`). The two give the
same nodes, because what stands between two texts decides whether they are joined, not the order in
which neighbours are looked at (`foldl_pushJoined`).
-/

namespace Bracketdown.Node

theorem text_or_ne (node : Node) : (∃ b, node = .text b) ∨ ∀ b, node ≠ .text b := by
  cases node with
  | text b => exact .inl ⟨b, rfl⟩
  | _ => exact .inr fun _ h => by cases h

theorem pushJoined_of_ne_text {node : Node} (h : ∀ b, node ≠ .text b) (nodes : List Node) :
    pushJoined nodes node = node :: nodes := by
  unfold pushJoined
  split
  next b _ _ => exact absurd rfl (h b)
  · rfl

theorem pushJoined_onto_ne_text {last : Node} (h : ∀ a, last ≠ .text a) (nodes : List Node)
    (node : Node) : pushJoined (last :: nodes) node = node :: last :: nodes := by
  unfold pushJoined
  split
  next _ a _ hnodes => exact absurd (List.cons.inj hnodes).1 (h a)
  · rfl

theorem consJoined_of_ne_text {node : Node} (h : ∀ a, node ≠ .text a) (nodes : List Node) :
    consJoined node nodes = node :: nodes := by
  unfold consJoined
  split
  next a _ _ => exact absurd rfl (h a)
  · rfl

theorem consJoined_onto_ne_text {second : Node} (h : ∀ b, second ≠ .text b) (first : Node)
    (nodes : List Node) : consJoined first (second :: nodes) = first :: second :: nodes := by
  unfold consJoined
  split
  next _ b _ hnodes => exact absurd (List.cons.inj hnodes).1 (h b)
  · rfl

theorem consJoined_nil (node : Node) : consJoined node [] = [node] := by
  unfold consJoined
  split
  next hnodes => cases hnodes
  · rfl

/-- Two texts in front of others may be joined first. -/
theorem consJoined_text_text (a b : String) (nodes : List Node) :
    consJoined (.text a) (consJoined (.text b) nodes) = consJoined (.text (a ++ b)) nodes := by
  cases nodes with
  | nil => rfl
  | cons next nodes =>
    rcases text_or_ne next with ⟨c, rfl⟩ | hnext
    · show Node.text (a ++ (b ++ c)) :: nodes = .text (a ++ b ++ c) :: nodes
      rw [String.append_assoc]
    · rw [consJoined_onto_ne_text hnext, consJoined_onto_ne_text hnext]
      rfl

/-- Two texts that are appended may be joined first. -/
theorem pushJoined_text_text (nodes : List Node) (a b : String) :
    pushJoined (pushJoined nodes (.text a)) (.text b) = pushJoined nodes (.text (a ++ b)) := by
  cases nodes with
  | nil => rfl
  | cons last nodes =>
    rcases text_or_ne last with ⟨c, rfl⟩ | hlast
    · show Node.text (c ++ a ++ b) :: nodes = .text (c ++ (a ++ b)) :: nodes
      rw [String.append_assoc]
    · rw [pushJoined_onto_ne_text hlast, pushJoined_onto_ne_text hlast]
      rfl

theorem consJoined_ne_nil (node : Node) (nodes : List Node) : consJoined node nodes ≠ [] := by
  unfold consJoined
  split <;> exact List.cons_ne_nil _ _

theorem joinTexts_eq_nil {nodes : List Node} : joinTexts nodes = [] ↔ nodes = [] := by
  cases nodes with
  | nil => exact ⟨fun _ => rfl, fun _ => rfl⟩
  | cons node nodes =>
    exact ⟨fun h => absurd h (consJoined_ne_nil _ _), fun h => absurd h (List.cons_ne_nil _ _)⟩

/-- Only the first of the others is looked at. -/
theorem consJoined_cons (first second : Node) (nodes : List Node) :
    consJoined first (second :: nodes) = consJoined first [second] ++ nodes := by
  rcases text_or_ne first with ⟨a, rfl⟩ | hfirst
  · rcases text_or_ne second with ⟨b, rfl⟩ | hsecond
    · rfl
    · rw [consJoined_onto_ne_text hsecond, consJoined_onto_ne_text hsecond]
      rfl
  · rw [consJoined_of_ne_text hfirst, consJoined_of_ne_text hfirst]
    rfl

/-- Only the last of the others is looked at. -/
theorem pushJoined_append {nodes : List Node} (h : nodes ≠ []) (before : List Node) (node : Node) :
    pushJoined (nodes ++ before) node = pushJoined nodes node ++ before := by
  cases nodes with
  | nil => exact absurd rfl h
  | cons last nodes =>
    rcases text_or_ne node with ⟨b, rfl⟩ | hnode
    · rcases text_or_ne last with ⟨a, rfl⟩ | hlast
      · rfl
      · rw [pushJoined_onto_ne_text hlast, List.cons_append, pushJoined_onto_ne_text hlast]
        rfl
    · rw [pushJoined_of_ne_text hnode, pushJoined_of_ne_text hnode]
      rfl

/-- Putting a node in front of others and appending one may be done in either order. With one node
between the two, this is that appending strings is associative. -/
theorem reverse_pushJoined_consJoined (first node : Node) (nodes : List Node) :
    (pushJoined (consJoined first nodes).reverse node).reverse
      = consJoined first (pushJoined nodes.reverse node).reverse := by
  match nodes with
  | [] =>
    rcases text_or_ne node with ⟨c, rfl⟩ | hnode
    · rcases text_or_ne first with ⟨a, rfl⟩ | hfirst
      · rfl
      · rw [consJoined_of_ne_text hfirst, consJoined_of_ne_text hfirst]
        exact congrArg List.reverse (pushJoined_onto_ne_text hfirst [] (.text c))
    · rw [pushJoined_of_ne_text hnode, pushJoined_of_ne_text hnode, consJoined_nil]
      exact (consJoined_onto_ne_text hnode first []).symm
  | [second] =>
    rcases text_or_ne second with ⟨b, rfl⟩ | hsecond
    · rcases text_or_ne node with ⟨c, rfl⟩ | hnode
      · rcases text_or_ne first with ⟨a, rfl⟩ | hfirst
        · show [Node.text (a ++ b ++ c)] = [Node.text (a ++ (b ++ c))]
          rw [String.append_assoc]
        · rw [consJoined_of_ne_text hfirst, consJoined_of_ne_text hfirst]
          rfl
      · rw [pushJoined_of_ne_text hnode, pushJoined_of_ne_text hnode, List.reverse_cons,
          List.reverse_reverse]
        exact (consJoined_cons first _ [node]).symm
    · rw [consJoined_onto_ne_text hsecond]
      show (pushJoined [second, first] node).reverse = _
      rw [pushJoined_onto_ne_text hsecond]
      show [first, second, node] = consJoined first (pushJoined [second] node).reverse
      rw [pushJoined_onto_ne_text hsecond]
      exact (consJoined_onto_ne_text hsecond first [node]).symm
  | second :: third :: nodes =>
    have hne : (third :: nodes).reverse ≠ [] := by
      rw [ne_eq, List.reverse_eq_nil_iff]
      exact List.cons_ne_nil _ _
    rw [consJoined_cons, List.reverse_append, pushJoined_append hne,
      List.reverse_cons (a := second), pushJoined_append hne, List.reverse_append,
      List.reverse_reverse, List.reverse_append]
    exact (consJoined_cons first second _).symm

theorem joinTexts_append_singleton (nodes : List Node) (node : Node) :
    joinTexts (nodes ++ [node]) = (pushJoined (joinTexts nodes).reverse node).reverse := by
  induction nodes with
  | nil => cases node <;> rfl
  | cons first nodes ih =>
    show consJoined first (joinTexts (nodes ++ [node])) = _
    rw [ih]
    exact (reverse_pushJoined_consJoined first node (joinTexts nodes)).symm

/-- **Joining from the left and from the right is the same.** -/
theorem foldl_pushJoined (before nodes : List Node) :
    nodes.foldl pushJoined (joinTexts before).reverse = (joinTexts (before ++ nodes)).reverse := by
  induction nodes generalizing before with
  | nil => rw [List.foldl_nil, List.append_nil]
  | cons node nodes ih =>
    have hpush : pushJoined (joinTexts before).reverse node
        = (joinTexts (before ++ [node])).reverse := by
      rw [joinTexts_append_singleton, List.reverse_reverse]
    rw [List.foldl_cons, hpush, ih, List.append_assoc, List.singleton_append]

end Bracketdown.Node
