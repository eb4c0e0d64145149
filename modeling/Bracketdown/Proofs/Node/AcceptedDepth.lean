import Bracketdown.Proofs.Json.ReadPast
import Bracketdown.Proofs.Node.RoundTrip

/-!
# How deeply an accepted text is nested

The decoder counts the brackets it enters and skips the values of unknown keys. What it enters is
what `mostWanted` counts, so the count of an accepted text is within the level limit, and the tree
that is read needs no more levels than the text has open at once (`mostWanted_of_document`):
whatever is dropped or defaulted on the way, nothing is nested more deeply than it was. Hence an
accepted tree is one that can be stored, and is read back (`decode_encode_of_decode`); and to read a
text and write it again never nests it more deeply (`mostOpen_encode_le_of_decode`).

Both bounds are one invariant of the readers. `Passage` says what reading from one place of a text
to another does to the count and to the height of what has been read, and each reader is a passage
made of those of the readers it calls.
-/

namespace Bracketdown

/-- Whether a field has the name. -/
def Node.Field.isName (name : String) : Bool := (ofName? name).isSome

namespace Decode

open Json (Input skipBlanks Flat Part Bracket countAt levels levelsAll levelsAll_reverse
  flat_skipBlanks countAt_plain countAt_array countAt_object countAt_close countAt_comma mostWanted)
open Node.Field (isName)

/-! ## From one place of a text to another -/

/-- Reading from a place to a later one, `base` brackets being open at both. At the first place the
count of open brackets from there on is `count` and what has been read has the height `height`; at
the second they are `count'` and `height'`. What is added to the height was open in between, and at
most `limit` brackets were. -/
structure Passage (base limit height count height' count' : Nat) : Prop where
  low : max (base + height') count' ≤ max (base + height) count
  high : count ≤ max (base + limit) count'

namespace Passage

variable {base limit height count height' count' height'' count'' : Nat}

theorem refl : Passage base limit height count height count :=
  ⟨Nat.le_refl _, Nat.le_max_right _ _⟩

theorem trans (h : Passage base limit height count height' count')
    (h' : Passage base limit height' count' height'' count'') :
    Passage base limit height count height'' count'' where
  low := Nat.le_trans h'.low h.low
  high := by
    have hfirst := h.high
    have hsecond := h'.high
    omega

/-- Less may have become of what was read. -/
theorem le (h : Passage base limit height count height' count') (hle : height'' ≤ height') :
    Passage base limit height count height'' count' where
  low := by
    have hlow := h.low
    omega
  high := h.high

/-- What is read beside something else leaves the higher of the two. -/
theorem beside (h : Passage base limit 0 count height count') (other : Nat) :
    Passage base limit other count (max height other) count' where
  low := by
    have hlow := h.low
    omega
  high := h.high

/-- A closing bracket. -/
theorem close : Passage base limit height (max base count) height count where
  low := by omega
  high := by omega

/-- What stands between brackets is one level higher with them. -/
theorem enclose (hbase : base + 1 ≤ count)
    (h : Passage (base + 1) limit 0 count height count') :
    Passage base (limit + 1) 0 count (height + 1) count' where
  low := by
    have hlow := h.low
    omega
  high := by
    have hhigh := h.high
    omega

end Passage

/-- What a reader of values does to the count of open brackets, when what it reads has the given
height. -/
def Spans {α : Type} (read : Reader α) (height : α → Nat) (limit : Nat) : Prop :=
  ∀ (opened : List Bracket) (input rest : Input) (a : α), read input = .ok (a, rest) →
    Passage opened.length limit 0 (countAt isName .value opened input) (height a)
      (countAt isName .value opened rest)

/-! ## Readers without brackets -/

/-- A reader of values that opens no bracket. -/
def Level {α : Type} (read : Reader α) : Prop :=
  ∀ (opened : List Bracket) (input rest : Input) (a : α), read input = .ok (a, rest) →
    countAt isName .value opened input = countAt isName .value opened rest

theorem level_of_flat {α : Type} {read : Reader α}
    (h : ∀ input rest a, read input = .ok (a, rest) → Flat input rest) : Level read :=
  fun opened input rest a hread => h input rest a hread isName .value opened

theorem level_string : Level string := by
  intro opened input rest s h
  obtain ⟨inner, hquote, hread⟩ := string_eq_ok h
  rw [flat_skipBlanks, hquote, Json.countAt_quote]
  exact Json.most_of_readString hread

theorem level_boolean : Level boolean := by
  refine level_of_flat fun input rest b h => (flat_skipBlanks input).trans ?_
  obtain ⟨letters, ⟨-, hopen, hword⟩ | ⟨-, hopen, hword⟩⟩ := boolean_eq_ok h
  · rw [hopen]
    exact (Json.flat_readWord rfl hword).cons rfl
  · rw [hopen]
    exact (Json.flat_readWord rfl hword).cons rfl

theorem flat_natural {expected : Expected} {bound : Nat} {input rest : Input} {n : UInt64}
    (h : natural expected bound input = .ok (n, rest)) : Flat input rest := by
  refine (flat_skipBlanks input).trans ?_
  obtain ⟨-, ⟨digits, hsign, hread⟩ | hread⟩ := natural_eq_ok h
  · rw [hsign]
    exact (Json.flat_readNumeral hread).cons rfl
  · exact Json.flat_readNumeral hread

theorem level_byte : Level byte := by
  refine level_of_flat fun input rest b h => ?_
  obtain ⟨⟨n, behind⟩, hread, h⟩ := bind_eq_ok.mp h
  cases h
  exact flat_natural hread

theorem level_word : Level word := level_of_flat fun _ _ _ h => flat_natural h

theorem spans_of_level {α : Type} {read : Reader α} (h : Level read) (limit : Nat) :
    Spans read (fun _ => 0) limit := by
  intro opened input rest a hread
  rw [h opened input rest a hread]
  exact .refl

theorem spans_optional {α : Type} {read : Reader α} {height : α → Nat} {limit : Nat}
    (h : Spans read height limit) :
    Spans (optional read) (fun given => given.elim 0 height) limit := by
  intro opened input rest given hread
  rw [flat_skipBlanks input]
  rcases optional_eq_ok hread with ⟨rfl, letters, hnull, hword⟩ | ⟨a, rfl, hvalue⟩
  · rw [hnull, (Json.flat_readWord rfl hword).cons rfl]
    exact .refl
  · exact h opened _ rest a hvalue

/-! ## Drafts -/

/-- The height of the array of some nodes. -/
def arrayHeight (nodes : List Node) : Nat := levelsAll (nodes.map Node.toJson) + 1

/-- The height of the children in a draft. -/
def Draft.height (draft : Draft) : Nat := draft.children.join.elim 0 arrayHeight

section

variable {children : Reader (List Node)} {limit : Nat}
  (hchildren : Spans children arrayHeight limit)
include hchildren

theorem passage_readField {draft draft' : Draft} {field : Node.Field} {input rest : Input}
    (h : draft.readField children field input = .ok (draft', rest)) (opened : List Bracket) :
    Passage opened.length limit draft.height (countAt isName .value opened input) draft'.height
      (countAt isName .value opened rest) := by
  by_cases hfield : field = .children
  · subst hfield
    obtain ⟨given, hread, rfl⟩ := readField_children_eq_ok h
    exact ((spans_optional hchildren opened input rest given hread).beside draft.height).le
      (Nat.le_max_left _ _)
  · obtain ⟨hsame, hread⟩ := readField_eq_ok_of_ne hfield h
    have hflat : ∃ height, Passage opened.length limit 0 (countAt isName .value opened input) height
        (countAt isName .value opened rest) := by
      rcases hread with ⟨a, h⟩ | ⟨a, h⟩ | ⟨a, h⟩ | ⟨a, h⟩ | ⟨a, h⟩
      · exact ⟨_, spans_of_level level_string limit opened input rest a h⟩
      · exact ⟨_, spans_optional (spans_of_level level_string limit) opened input rest a h⟩
      · exact ⟨_, spans_optional (spans_of_level level_byte limit) opened input rest a h⟩
      · exact ⟨_, spans_optional (spans_of_level level_word limit) opened input rest a h⟩
      · exact ⟨_, spans_optional (spans_of_level level_boolean limit) opened input rest a h⟩
    obtain ⟨height, hpassage⟩ := hflat
    have hheight : draft'.height = draft.height := by rw [Draft.height, hsame, Draft.height]
    rw [hheight]
    exact (hpassage.beside draft.height).le (Nat.le_max_right _ _)

/-- A member is read past to a place where its value has ended. -/
theorem passage_member {draft draft' : Draft} {inner rest : Input}
    (h : member children draft inner = .ok (draft', rest)) (opened : List Bracket) :
    ∃ part, Part.Ends part
      ∧ Passage opened.length limit draft.height (countAt isName .key opened (some '"' :: inner))
          draft'.height (countAt isName part opened rest) := by
  obtain ⟨key, behind, value, hkey, hcolon, hvalue⟩ := member_eq_ok h
  rw [Json.countAt_quote, Part.behindQuote_key hkey, Json.most_of_readString hkey, flat_skipBlanks,
    hcolon, countAt_plain rfl]
  rcases hvalue with ⟨field, hname, -, hread⟩ | ⟨hname, rfl, hskip⟩
  · rw [isName, hname, Option.isSome_some, if_pos rfl]
    exact ⟨.value, Part.ends_value, passage_readField hchildren hread opened⟩
  · rw [isName, hname, Option.isSome_none, if_neg Bool.false_ne_true,
      Json.countAt_of_skipValue hskip]
    exact ⟨.skipped 0, Part.ends_skipped, .refl⟩

theorem passage_membersWith (fuel : Nat) {draft draft' : Draft} {input rest : Input}
    (h : membersWith children fuel draft input = .ok (draft', rest)) (opened : List Bracket) :
    Passage (opened.length + 1) limit draft.height (countAt isName .key (.object :: opened) input)
      draft'.height (countAt isName .value opened rest) := by
  induction fuel generalizing draft input with
  | zero => cases h
  | succ fuel ih =>
    obtain ⟨inner, next, behind, rfl, hmember, hafter⟩ := membersWith_eq_ok h
    obtain ⟨part, hends, hpassage⟩ := passage_member hchildren hmember (.object :: opened)
    refine hpassage.trans ?_
    rw [flat_skipBlanks]
    rcases hafter with ⟨hclose, rfl⟩ | ⟨more, hcomma, hmore⟩
    · rw [hclose, countAt_close hends (Or.inr rfl)]
      exact .close
    · rw [hcomma, countAt_comma hends, Bracket.inner, flat_skipBlanks]
      exact ih hmore

theorem passage_members {fuel : Nat} {draft : Draft} {input rest : Input}
    (h : members children fuel input = .ok (draft, rest)) (opened : List Bracket) :
    Passage (opened.length + 1) limit 0 (countAt isName .key (.object :: opened) input)
      draft.height (countAt isName .value opened rest) := by
  rw [flat_skipBlanks]
  rcases members_eq_ok h with ⟨hclose, rfl⟩ | hmore
  · rw [hclose, countAt_close Part.ends_key (Or.inr rfl)]
    exact .close
  · exact passage_membersWith hchildren fuel hmore opened

end

/-- The count from a place in an array on, inside `opened`, where an element may follow. -/
def Follow.count (opened : List Bracket) : Follow → Nat
  | .element input => countAt isName .value (.array :: opened) input
  | .closed rest => max (opened.length + 1) (countAt isName .value opened rest)

theorem count_afterElement {input : Input} {follow : Follow}
    (h : afterElement input = .ok follow) (opened : List Bracket) :
    countAt isName .value (.array :: opened) input = follow.count opened := by
  rw [flat_skipBlanks]
  rcases afterElement_eq_ok h with ⟨behind, rfl, hclose⟩ | ⟨behind, rfl, hcomma⟩
  · rw [hclose, countAt_close Part.ends_value (Or.inl rfl)]
    rfl
  · rw [hcomma, countAt_comma Part.ends_value, flat_skipBlanks]
    rfl

theorem count_afterBracket {input : Input} {follow : Follow}
    (h : afterBracket input = .ok follow) (opened : List Bracket) :
    countAt isName .value (.array :: opened) input = follow.count opened := by
  rw [flat_skipBlanks]
  rcases afterBracket_eq_ok h with ⟨behind, rfl, hclose⟩ | rfl
  · rw [hclose, countAt_close Part.ends_value (Or.inl rfl)]
    rfl
  · rfl

theorem passage_positional {children : Reader (List Node)} {limit : Nat}
    (hchildren : Spans children arrayHeight limit) (fields : List Node.Field)
    {draft draft' : Draft} {follow : Follow} {rest : Input}
    (h : positional children draft fields follow = .ok (draft', rest)) (opened : List Bracket) :
    Passage (opened.length + 1) limit draft.height (follow.count opened) draft'.height
      (countAt isName .value opened rest) := by
  induction fields generalizing draft follow with
  | nil =>
    cases follow with
    | closed =>
      obtain ⟨rfl, rfl⟩ := positional_closed_eq_ok h
      exact .close
    | element => cases h
  | cons field fields ih =>
    cases follow with
    | closed =>
      obtain ⟨rfl, rfl⟩ := positional_closed_eq_ok h
      exact .close
    | element input =>
      obtain ⟨next, behind, follow', hread, hfollow, hmore⟩ := positional_element_eq_ok h
      refine (passage_readField hchildren hread (.array :: opened)).trans ?_
      rw [count_afterElement hfollow]
      exact ih hmore

/-! ## Nodes -/

/-- A node needs a level more than its children. -/
theorem levels_le_of_finish {draft : Draft} {node : Node} (h : draft.finish = .ok node) :
    levels node.toJson ≤ draft.height + 1 := by
  obtain ⟨r, hr, hmade⟩ := finish_eq_ok h
  refine levels_toJson_le.mpr fun cs hcs => ?_
  rw [Draft.height, ← hr, (Node.storableHere_of_ofRecord hmade).2 cs hcs]
  exact Nat.le_refl _

theorem spans_nodeAbove {fuel limit : Nat} {children : Option (Reader (List Node))}
    (hchildren : ∀ read ∈ children, Spans read arrayHeight limit) :
    Spans (nodeAbove fuel children) (fun node => levels node.toJson) (limit + 1) := by
  intro opened input rest node h
  obtain ⟨read, inner, draft, rfl, hfinish, hread⟩ := nodeAbove_eq_ok h
  have hheight := levels_le_of_finish hfinish
  rcases hread with ⟨hopen, hmembers⟩ | ⟨hopen, hfields⟩
  · rw [flat_skipBlanks input, hopen, countAt_object]
    exact ((passage_members (hchildren read rfl) hmembers opened).enclose
      (Json.length_le_countAt (.object :: opened) _)).le hheight
  · rw [flat_skipBlanks input, hopen, countAt_array, flat_skipBlanks inner]
    exact ((passage_positional (hchildren read rfl) _ hfields opened).enclose
      (Json.length_le_countAt (.array :: opened) _)).le hheight

theorem passage_nodesWith {read : Reader Node} {limit : Nat}
    (hread : Spans read (fun node => levels node.toJson) limit) (fuel : Nat)
    {before nodes : List Node} {follow : Follow} {rest : Input}
    (h : nodesWith read fuel before follow = .ok (nodes, rest)) (opened : List Bracket) :
    Passage (opened.length + 1) limit (levelsAll (before.map Node.toJson)) (follow.count opened)
      (levelsAll (nodes.map Node.toJson)) (countAt isName .value opened rest) := by
  induction fuel generalizing before follow with
  | zero =>
    cases follow with
    | closed =>
      obtain ⟨rfl, rfl⟩ := nodesWith_closed_eq_ok h
      rw [List.map_reverse, levelsAll_reverse]
      exact .close
    | element => cases h
  | succ fuel ih =>
    cases follow with
    | closed =>
      obtain ⟨rfl, rfl⟩ := nodesWith_closed_eq_ok h
      rw [List.map_reverse, levelsAll_reverse]
      exact .close
    | element input =>
      obtain ⟨n, behind, follow', hnode, hfollow, hmore⟩ := nodesWith_element_eq_ok h
      refine ((hread (.array :: opened) input behind n hnode).beside
        (levelsAll (before.map Node.toJson))).trans ?_
      rw [count_afterElement hfollow]
      exact ih hmore

theorem spans_nodes {fuel limit : Nat} {node : Option (Reader Node)}
    (hnode : ∀ read ∈ node, Spans read (fun node => levels node.toJson) limit) :
    Spans (nodes fuel node) arrayHeight (limit + 1) := by
  intro opened input rest trees h
  obtain ⟨read, inner, follow, rfl, hopen, hfollow, h⟩ := nodes_eq_ok h
  rw [flat_skipBlanks input, hopen, countAt_array]
  refine Passage.enclose (Json.length_le_countAt (.array :: opened) inner) ?_
  rw [count_afterBracket hfollow]
  exact passage_nodesWith (hnode read rfl) fuel h opened

/-- Every node is read as its level limit and its height say. -/
theorem spans_node (fuel : Nat) : ∀ limit,
    Spans (node fuel limit) (fun node => levels node.toJson) limit
  | 0 => fun _ _ _ _ h => by
    obtain ⟨_, _, _, hnone, -⟩ := nodeAbove_eq_ok h
    cases hnone
  | 1 => spans_nodeAbove fun read hread => by
    cases hread
    intro _ _ _ _ h
    obtain ⟨_, _, _, hnone, -⟩ := nodes_eq_ok h
    cases hnone
  | limit + 2 => spans_nodeAbove fun read hread => by
    cases hread
    refine spans_nodes fun read hread => ?_
    cases hread
    exact spans_node fuel limit

/-- **The level limit and the height of the tree**: in the part of an accepted text that is not
skipped as many objects and arrays are open at once as the tree needs, and at most as many as may
be. -/
theorem mostWanted_of_document {input : Input} {tree : Node} (h : document input = .ok tree) :
    levels tree.toJson ≤ mostWanted isName input ∧ mostWanted isName input ≤ levelLimit := by
  obtain ⟨rest, hnode, hend⟩ := document_eq_ok h
  have hpassage := spans_node _ levelLimit [] input rest tree hnode
  have hrest : countAt isName .value [] rest = 0 := by
    rw [flat_skipBlanks, hend]
    rfl
  rw [hrest] at hpassage
  have hlow : max (0 + levels tree.toJson) 0 ≤ max (0 + 0) (mostWanted isName input) :=
    hpassage.low
  have hhigh : mostWanted isName input ≤ max (0 + levelLimit) 0 := hpassage.high
  exact ⟨by omega, by omega⟩

end Decode

namespace Node

open Json (mostOpen mostWanted)

/-- **What is accepted can be reproduced**: a tree that was read from some text, however its nodes
are spelled there, has no node of another kind with a dedicated kind and no heading out of range. It
is written with no more objects and arrays open at once than the text has outside the values of
unknown keys, and what is written is read as the same tree and written the same way again. -/
theorem decode_encode_of_decode {text : String} {tree : Node} (h : decode text = .ok tree) :
    (∀ kind value children, other kind value children ∈ tree.preorder →
        Kind.isDedicated kind = false)
      ∧ (∀ depth children, heading depth children ∈ tree.preorder → 1 ≤ depth ∧ depth ≤ 6)
      ∧ mostOpen tree.encode.toList ≤ mostWanted Field.isName (text.toList.map some)
      ∧ decode tree.encode = .ok tree
      ∧ (decode tree.encode).map encode = .ok tree.encode := by
  have hstorable : tree.Storable := Decode.storable_of_document h
  obtain ⟨hheight, hlimit⟩ := Decode.mostWanted_of_document h
  have hagain : decode tree.encode = .ok tree := by
    rw [decode_encode_of_storable hstorable]
    exact limited_eq_ok.mpr (Nat.le_trans hheight hlimit)
  obtain ⟨hother, hheading⟩ := storable_iff_forall.mp hstorable
  refine ⟨hother, hheading, ?_, hagain, ?_⟩
  · rw [mostOpen_encode]
    exact hheight
  · rw [hagain]
    rfl

/-- An unknown key in front, a child written as an array, and the kind last. -/
theorem decode_encode_of_decode_skipped :
    let text := "\x7b\"b\":[[[[[]]]]],\"children\":[[\"text\",\"v\"]],\"type\":\"a\"\x7d"
    let again :=
      "\x7b\"type\":\"a\",\"children\":[\x7b\"type\":\"text\",\"value\":\"v\"\x7d]\x7d"
    mostOpen text.toList = 6
      ∧ mostWanted Field.isName (text.toList.map some) = 3
      ∧ mostOpen again.toList ≤ mostWanted Field.isName (text.toList.map some)
      ∧ (decode text).map encode = .ok again
      ∧ (decode again).map encode = .ok again := by
  intro text again
  have htext : (decode text).toOption.map encode = some again := by decide +kernel
  cases hread : decode text with
  | error e =>
    rw [hread] at htext
    cases htext
  | ok tree =>
    have hagain : tree.encode = again := by
      rw [hread] at htext
      exact Option.some.inj htext
    obtain ⟨-, -, hopen, -, hsame⟩ := decode_encode_of_decode hread
    rw [hagain] at hopen hsame
    exact ⟨by decide +kernel, by decide +kernel, hopen, congrArg _ hagain, hsame⟩

/-- So what is written for an accepted text never has more objects and arrays open at once than the
text. -/
theorem mostOpen_encode_le_of_decode {text : String} {tree : Node} (h : decode text = .ok tree) :
    mostOpen tree.encode.toList ≤ mostOpen text.toList := by
  rw [mostOpen_encode]
  exact Nat.le_trans (Decode.mostWanted_of_document h).1 (Json.mostWanted_le_mostOpen _ _)

end Node

end Bracketdown
