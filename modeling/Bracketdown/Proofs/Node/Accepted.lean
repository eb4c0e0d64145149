import Bracketdown.Node.Decode

/-!
# What an accepted text is made of

The readers of the decoder refuse a text at the first thing that is wrong, so one that gives a
result has gone one of a few ways. Each lemma here says for one reader which ways these are: what
stands at the place it started from, which readers it went on to, and what it made of their results.
What holds of every accepted text is proved from them, without looking at the readers again.
-/

namespace Bracketdown.Decode

open Json (Fault Input skipBlanks)

variable {input rest : Input}

theorem lift_eq_ok {α : Type} {x : Except Fault α} {a : α} : lift x = .ok a ↔ x = .ok a := by
  cases x with
  | ok b => exact ⟨fun h => by cases h; rfl, fun h => by cases h; rfl⟩
  | error f => exact ⟨fun h => (by cases h), fun h => (by cases h)⟩

/-! ## Fields -/

theorem string_eq_ok {s : String} (h : string input = .ok (s, rest)) :
    ∃ inner, skipBlanks input = some '"' :: inner ∧ Json.readString [] inner = .ok (s, rest) := by
  unfold string at h
  split at h
  · next inner heq => exact ⟨inner, heq, lift_eq_ok.mp h⟩
  · cases h

theorem boolean_eq_ok {b : Bool} (h : boolean input = .ok (b, rest)) :
    ∃ letters, (b = true ∧ skipBlanks input = some 't' :: letters
        ∧ Json.readWord ['r', 'u', 'e'] letters = .ok rest)
      ∨ b = false ∧ skipBlanks input = some 'f' :: letters
        ∧ Json.readWord ['a', 'l', 's', 'e'] letters = .ok rest := by
  unfold boolean at h
  split at h
  · next letters heq =>
    obtain ⟨behind, hword, h⟩ := bind_eq_ok.mp h
    cases h
    exact ⟨letters, Or.inl ⟨rfl, heq, lift_eq_ok.mp hword⟩⟩
  · next letters heq =>
    obtain ⟨behind, hword, h⟩ := bind_eq_ok.mp h
    cases h
    exact ⟨letters, Or.inr ⟨rfl, heq, lift_eq_ok.mp hword⟩⟩
  · cases h

/-- An integer that is accepted is a number without a fraction and within the bound. -/
theorem natural_eq_ok {expected : Expected} {bound : Nat} {n : UInt64}
    (h : natural expected bound input = .ok (n, rest)) :
    n.toNat ≤ bound
      ∧ ((∃ digits, skipBlanks input = some '-' :: digits
          ∧ Json.readNumeral true digits = .ok (.natural n, rest))
        ∨ Json.readNumeral false (skipBlanks input) = .ok (.natural n, rest)) := by
  unfold natural at h
  dsimp only at h
  split at h
  · next digits heq =>
    obtain ⟨⟨m, behind⟩, hread, h⟩ := bind_eq_ok.mp h
    cases m with
    | natural m =>
      dsimp only at h
      split at h
      next hbound =>
        cases h
        exact ⟨hbound, Or.inl ⟨digits, heq, lift_eq_ok.mp hread⟩⟩
      · cases h
    | negative | fraction => cases h
  · next heq =>
    split at h
    · obtain ⟨⟨m, behind⟩, hread, h⟩ := bind_eq_ok.mp h
      cases m with
      | natural m =>
        dsimp only at h
        split at h
        next hbound =>
          cases h
          exact ⟨hbound, Or.inr (heq ▸ lift_eq_ok.mp hread)⟩
        · cases h
      | negative | fraction => cases h
    · cases h
  · cases h

/-- A value that may be absent is `null` or a value. -/
theorem optional_eq_ok {α : Type} {read : Reader α} {given : Option α}
    (h : optional read input = .ok (given, rest)) :
    (given = none ∧ ∃ letters, skipBlanks input = some 'n' :: letters
        ∧ Json.readWord ['u', 'l', 'l'] letters = .ok rest)
      ∨ ∃ a, given = some a ∧ read (skipBlanks input) = .ok (a, rest) := by
  unfold optional at h
  split at h
  · next letters heq =>
    obtain ⟨behind, hword, h⟩ := bind_eq_ok.mp h
    cases h
    exact Or.inl ⟨rfl, letters, heq, lift_eq_ok.mp hword⟩
  · obtain ⟨⟨a, behind⟩, hread, h⟩ := bind_eq_ok.mp h
    cases h
    exact Or.inr ⟨a, rfl, hread⟩

theorem readField_children_eq_ok {children : Reader (List Node)} {draft draft' : Draft}
    (h : draft.readField children .children input = .ok (draft', rest)) :
    ∃ given, optional children input = .ok (given, rest)
      ∧ draft' = { draft with children := some given } := by
  obtain ⟨⟨given, behind⟩, hread, h⟩ := bind_eq_ok.mp h
  cases h
  exact ⟨given, hread, rfl⟩

/-- The other fields leave the children of a draft as they are. -/
theorem readField_eq_ok_of_ne {children : Reader (List Node)} {draft draft' : Draft}
    {field : Node.Field} (hne : field ≠ .children)
    (h : draft.readField children field input = .ok (draft', rest)) :
    draft'.children = draft.children
      ∧ ((∃ s, string input = .ok (s, rest)) ∨ (∃ s, optional string input = .ok (s, rest))
        ∨ (∃ n, optional byte input = .ok (n, rest)) ∨ (∃ n, optional word input = .ok (n, rest))
        ∨ ∃ b, optional boolean input = .ok (b, rest)) := by
  cases field with
  | kind =>
    obtain ⟨⟨a, behind⟩, hread, h⟩ := bind_eq_ok.mp h
    cases h
    exact ⟨rfl, Or.inl ⟨a, hread⟩⟩
  | value | url | alt | lang =>
    obtain ⟨⟨a, behind⟩, hread, h⟩ := bind_eq_ok.mp h
    cases h
    exact ⟨rfl, Or.inr (Or.inl ⟨a, hread⟩)⟩
  | depth =>
    obtain ⟨⟨a, behind⟩, hread, h⟩ := bind_eq_ok.mp h
    cases h
    exact ⟨rfl, Or.inr (Or.inr (Or.inl ⟨a, hread⟩))⟩
  | start =>
    obtain ⟨⟨a, behind⟩, hread, h⟩ := bind_eq_ok.mp h
    cases h
    exact ⟨rfl, Or.inr (Or.inr (Or.inr (Or.inl ⟨a, hread⟩)))⟩
  | ordered | checked =>
    obtain ⟨⟨a, behind⟩, hread, h⟩ := bind_eq_ok.mp h
    cases h
    exact ⟨rfl, Or.inr (Or.inr (Or.inr (Or.inr ⟨a, hread⟩)))⟩
  | children => exact absurd rfl hne

/-! ## Objects -/

theorem colon_eq_ok (h : colon input = .ok rest) : skipBlanks input = some ':' :: rest := by
  unfold colon at h
  split at h
  · next heq =>
    cases h
    exact heq
  · cases h
  · cases h

/-- A member is a known field, whose value is read, or it is skipped. -/
theorem member_eq_ok {children : Reader (List Node)} {draft draft' : Draft}
    (h : member children draft input = .ok (draft', rest)) :
    ∃ key behind value, Json.readString [] input = .ok (key, behind)
      ∧ skipBlanks behind = some ':' :: value
      ∧ ((∃ field, Node.Field.ofName? key = some field ∧ draft.has field = false
            ∧ draft.readField children field value = .ok (draft', rest))
          ∨ Node.Field.ofName? key = none ∧ draft' = draft ∧ Json.skipValue value = .ok rest) := by
  obtain ⟨⟨key, behind⟩, hkey, h⟩ := bind_eq_ok.mp h
  refine ⟨key, behind, ?_⟩
  dsimp only at h
  split at h
  · next field hfield =>
    split at h
    · obtain ⟨_, h', -⟩ := bind_eq_ok.mp h
      cases h'
    · next hnew =>
      obtain ⟨value, hvalue, h⟩ := bind_eq_ok.mp h
      exact ⟨value, lift_eq_ok.mp hkey, colon_eq_ok (lift_eq_ok.mp hvalue),
        Or.inl ⟨field, hfield, Bool.eq_false_iff.mpr hnew, h⟩⟩
  · next hfield =>
    obtain ⟨behind', hskip, h⟩ := bind_eq_ok.mp h
    cases h
    obtain ⟨value, hvalue, hskip⟩ := bind_eq_ok.mp (lift_eq_ok.mp hskip)
    exact ⟨value, lift_eq_ok.mp hkey, colon_eq_ok hvalue, Or.inr ⟨hfield, rfl, hskip⟩⟩

/-- A member is followed by the closing brace or by a comma and further members. -/
theorem membersWith_eq_ok {children : Reader (List Node)} {fuel : Nat} {draft draft' : Draft}
    (h : membersWith children (fuel + 1) draft input = .ok (draft', rest)) :
    ∃ inner next behind, input = some '"' :: inner
      ∧ member children draft inner = .ok (next, behind)
      ∧ ((skipBlanks behind = some '\x7d' :: rest ∧ draft' = next)
          ∨ ∃ more, skipBlanks behind = some ',' :: more
            ∧ membersWith children fuel next (skipBlanks more) = .ok (draft', rest)) := by
  unfold membersWith at h
  split at h
  · next inner =>
    obtain ⟨⟨next, behind⟩, hmember, h⟩ := bind_eq_ok.mp h
    refine ⟨inner, next, behind, rfl, hmember, ?_⟩
    dsimp only at h
    split at h
    · cases h
    · next heq =>
      cases h
      exact Or.inl ⟨heq, rfl⟩
    · next more heq =>
      split at h
      · cases h
      · cases h
      · exact Or.inr ⟨more, heq, h⟩
    · cases h
  · cases h

theorem members_eq_ok {children : Reader (List Node)} {fuel : Nat} {draft : Draft}
    (h : members children fuel input = .ok (draft, rest)) :
    (skipBlanks input = some '\x7d' :: rest ∧ draft = {})
      ∨ membersWith children fuel {} (skipBlanks input) = .ok (draft, rest) := by
  unfold members at h
  split at h
  · cases h
  · next heq =>
    cases h
    exact Or.inl ⟨heq, rfl⟩
  · exact Or.inr h

/-! ## Arrays -/

/-- An element is followed by a comma and another one or by the closing bracket. -/
theorem afterElement_eq_ok {follow : Follow} (h : afterElement input = .ok follow) :
    (∃ behind, follow = .closed behind ∧ skipBlanks input = some ']' :: behind)
      ∨ ∃ behind, follow = .element (skipBlanks behind)
        ∧ skipBlanks input = some ',' :: behind := by
  unfold afterElement at h
  split at h
  · cases h
  · next behind heq =>
    cases h
    exact Or.inl ⟨behind, rfl, heq⟩
  · next behind heq =>
    split at h
    · cases h
    · cases h
    · cases h
      exact Or.inr ⟨behind, rfl, heq⟩
  · cases h

theorem afterBracket_eq_ok {follow : Follow} (h : afterBracket input = .ok follow) :
    (∃ behind, follow = .closed behind ∧ skipBlanks input = some ']' :: behind)
      ∨ follow = .element (skipBlanks input) := by
  unfold afterBracket at h
  split at h
  · cases h
  · next behind heq =>
    cases h
    exact Or.inl ⟨behind, rfl, heq⟩
  · cases h
    exact Or.inr rfl

theorem closeArray_eq_ok (h : closeArray input = .ok rest) :
    skipBlanks input = some ']' :: rest := by
  unfold closeArray at h
  split at h
  · cases h
  · next heq =>
    cases h
    exact heq
  · split at h <;> cases h
  · cases h

/-- A field in an array is followed as any element is; behind the last field the array ends. -/
theorem positional_element_eq_ok {children : Reader (List Node)} {field : Node.Field}
    {fields : List Node.Field} {draft draft' : Draft}
    (h : positional children draft (field :: fields) (.element input) = .ok (draft', rest)) :
    ∃ next behind follow, draft.readField children field input = .ok (next, behind)
      ∧ afterElement behind = .ok follow
      ∧ positional children next fields follow = .ok (draft', rest) := by
  cases fields with
  | nil =>
    obtain ⟨⟨next, behind⟩, hread, h⟩ := bind_eq_ok.mp h
    obtain ⟨behind', hclose, h⟩ := bind_eq_ok.mp h
    cases h
    refine ⟨_, behind, .closed _, hread, ?_, rfl⟩
    rw [afterElement, closeArray_eq_ok (lift_eq_ok.mp hclose)]
    rfl
  | cons field' fields =>
    obtain ⟨⟨next, behind⟩, hread, h⟩ := bind_eq_ok.mp h
    obtain ⟨follow, hfollow, h⟩ := bind_eq_ok.mp h
    exact ⟨next, behind, follow, hread, lift_eq_ok.mp hfollow, h⟩

theorem positional_closed_eq_ok {children : Reader (List Node)} {fields : List Node.Field}
    {draft draft' : Draft}
    (h : positional children draft fields (.closed input) = .ok (draft', rest)) :
    draft' = draft ∧ rest = input := by
  cases fields with
  | nil => cases h; exact ⟨rfl, rfl⟩
  | cons field fields => cases fields <;> cases h <;> exact ⟨rfl, rfl⟩

theorem nodesWith_closed_eq_ok {node : Reader Node} {fuel : Nat} {before nodes : List Node}
    (h : nodesWith node fuel before (.closed input) = .ok (nodes, rest)) :
    nodes = before.reverse ∧ rest = input := by
  cases fuel <;> cases h <;> exact ⟨rfl, rfl⟩

theorem nodesWith_element_eq_ok {node : Reader Node} {fuel : Nat} {before nodes : List Node}
    (h : nodesWith node (fuel + 1) before (.element input) = .ok (nodes, rest)) :
    ∃ n behind follow, node input = .ok (n, behind) ∧ afterElement behind = .ok follow
      ∧ nodesWith node fuel (n :: before) follow = .ok (nodes, rest) := by
  obtain ⟨⟨n, behind⟩, hnode, h⟩ := bind_eq_ok.mp h
  obtain ⟨follow, hfollow, h⟩ := bind_eq_ok.mp h
  exact ⟨n, behind, follow, hnode, lift_eq_ok.mp hfollow, h⟩

/-! ## Nodes -/

theorem nodes_eq_ok {fuel : Nat} {node : Option (Reader Node)} {nodes : List Node}
    (h : Decode.nodes fuel node input = .ok (nodes, rest)) :
    ∃ read inner follow, node = some read ∧ skipBlanks input = some '[' :: inner
      ∧ afterBracket inner = .ok follow ∧ nodesWith read fuel [] follow = .ok (nodes, rest) := by
  unfold Decode.nodes at h
  split at h
  · next inner heq =>
    cases node with
    | none => cases h
    | some read =>
      obtain ⟨follow, hfollow, h⟩ := bind_eq_ok.mp h
      exact ⟨read, inner, follow, rfl, heq, lift_eq_ok.mp hfollow, h⟩
  · cases h

/-- A node is the complete draft of an object or of an array with at least one element. -/
theorem nodeAbove_eq_ok {fuel : Nat} {children : Option (Reader (List Node))} {node : Node}
    (h : nodeAbove fuel children input = .ok (node, rest)) :
    ∃ read inner draft, children = some read ∧ draft.finish = .ok node
      ∧ ((skipBlanks input = some '\x7b' :: inner ∧ members read fuel inner = .ok (draft, rest))
          ∨ skipBlanks input = some '[' :: inner
            ∧ positional read {} Node.Field.all (.element (skipBlanks inner))
              = .ok (draft, rest)) := by
  unfold nodeAbove at h
  split at h
  · next inner heq =>
    cases children with
    | none => cases h
    | some read =>
      obtain ⟨⟨draft, behind⟩, hmembers, h⟩ := bind_eq_ok.mp h
      obtain ⟨made, hfinish, h⟩ := bind_eq_ok.mp h
      cases h
      exact ⟨read, inner, draft, rfl, hfinish, Or.inl ⟨heq, hmembers⟩⟩
  · next inner heq =>
    cases children with
    | none => cases h
    | some read =>
      obtain ⟨follow, hfollow, h⟩ := bind_eq_ok.mp h
      rcases afterBracket_eq_ok (lift_eq_ok.mp hfollow) with ⟨behind, rfl, -⟩ | rfl
      · cases h
      · obtain ⟨⟨draft, behind⟩, hfields, h⟩ := bind_eq_ok.mp h
        obtain ⟨made, hfinish, h⟩ := bind_eq_ok.mp h
        cases h
        exact ⟨read, inner, draft, rfl, hfinish, Or.inr ⟨heq, hfields⟩⟩
  · cases h

theorem finish_eq_ok {draft : Draft} {node : Node} (h : draft.finish = .ok node) :
    ∃ r : Node.Record, r.children = draft.children.join ∧ Node.ofRecord r = .ok node := by
  unfold Draft.finish at h
  split at h
  · cases h
  · dsimp only at h
    split at h
    next hmade =>
      cases h
      exact ⟨_, rfl, hmade⟩
    · cases h

theorem document_eq_ok {tree : Node} (h : document input = .ok tree) :
    ∃ rest, node (input.length + 1) levelLimit input = .ok (tree, rest)
      ∧ skipBlanks rest = [] := by
  obtain ⟨⟨made, rest⟩, hnode, h⟩ := bind_eq_ok.mp h
  dsimp only at h
  split at h
  · next heq =>
    cases h
    exact ⟨rest, hnode, heq⟩
  · cases h

end Bracketdown.Decode
