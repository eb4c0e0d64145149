import Bracketdown.Proofs.Json.ReadOver
import Bracketdown.Proofs.Node.ReadMeaning

/-!
# Every accepted text is spelled

`decode_spells` says what becomes of a text that spells a value. Here is the converse: a text that
is accepted spells a value (`exists_spells_of_decode`), since every reader of the decoder gets past
nothing else. Together they say which texts are accepted and as which tree (`decode_eq_ok_iff`).
-/

namespace Bracketdown.Decode

open Json (Syntax Quoted Spells Input Cut skipBlanks none_not_mem_of_cons)
open Json.Syntax (elementTokens memberTokens membersTokens)
open Node (Field)

/-- A reader gets past nothing but a value. -/
def ReadsOver {α : Type} (read : Reader α) : Prop :=
  ∀ ⦃input rest : Input⦄ ⦃a : α⦄, none ∉ input → read input = .ok (a, rest) →
    ∃ v : Syntax, Cut v.tokens input rest

/-! ## Fields -/

theorem readsOver_string : ReadsOver string := by
  intro input rest s hinput h
  obtain ⟨inner, hquote, hread⟩ := string_eq_ok h
  obtain ⟨s, hs⟩ :=
    (Json.lettered_of_readString (none_not_mem_of_cons hinput hquote) hread).cut hquote
  exact ⟨.string s, hs⟩

theorem readsOver_boolean : ReadsOver boolean := by
  intro input rest b hinput h
  obtain ⟨letters, ⟨-, hletter, hword⟩ | ⟨-, hletter, hword⟩⟩ := boolean_eq_ok h
  · exact ⟨.bool true, Json.cut_word hletter hword⟩
  · exact ⟨.bool false, Json.cut_word hletter hword⟩

theorem readsOver_natural (expected : Expected) (bound : Nat) :
    ReadsOver (natural expected bound) := by
  intro input rest n hinput h
  obtain ⟨-, ⟨digits, hminus, hread⟩ | hread⟩ := natural_eq_ok h
  · obtain ⟨n, hn⟩ := Json.exists_cut_number (Json.exists_number_of_readNumeral hread) hminus
    exact ⟨.number n, hn⟩
  · obtain ⟨n, hn⟩ :=
      @Json.exists_cut_number false _ _ _ (Json.exists_number_of_readNumeral hread) rfl
    exact ⟨.number n, hn⟩

theorem readsOver_byte : ReadsOver byte := by
  intro input rest n hinput h
  obtain ⟨⟨m, behind⟩, hread, h⟩ := bind_eq_ok.mp h
  cases h
  exact readsOver_natural _ _ hinput hread

theorem ReadsOver.optional {α : Type} {read : Reader α} (h : ReadsOver read) :
    ReadsOver (Decode.optional read) := by
  intro input rest a? hinput hread
  obtain ⟨-, letters, hletter, hword⟩ | ⟨a, -, hread⟩ := optional_eq_ok hread
  · exact ⟨.null, Json.cut_word hletter hword⟩
  · obtain ⟨v, hv⟩ := h ((Cut.blanks input).none_not_mem hinput) hread
    exact ⟨v, hv.of_skipBlanks⟩

section

variable {children : Reader (List Node)} {draft draft' : Draft} {input inner rest : Input}

theorem readsOver_readField (h : ReadsOver children) (draft : Draft) (field : Field) :
    ReadsOver (draft.readField children field) := by
  intro input rest draft' hinput hread
  by_cases hfield : field = .children
  · subst hfield
    obtain ⟨given, hread, -⟩ := readField_children_eq_ok hread
    exact h.optional hinput hread
  · obtain ⟨-, ⟨s, hread⟩ | ⟨s, hread⟩ | ⟨n, hread⟩ | ⟨n, hread⟩ | ⟨b, hread⟩⟩ :=
      readField_eq_ok_of_ne hfield hread
    · exact readsOver_string hinput hread
    · exact readsOver_string.optional hinput hread
    · exact readsOver_byte.optional hinput hread
    · exact (readsOver_natural _ _).optional hinput hread
    · exact readsOver_boolean.optional hinput hread

/-! ## Objects and arrays -/

/-- A member, from the quote of its key on. -/
theorem exists_of_member (h : ReadsOver children) (hinput : none ∉ input)
    (hquote : skipBlanks input = some '"' :: inner)
    (hread : member children draft inner = .ok (draft', rest)) :
    ∃ m : Quoted × Syntax, Cut (memberTokens m) input rest := by
  obtain ⟨name, behind, value, hkey, hcolon, hvalue⟩ := member_eq_ok hread
  obtain ⟨key, hkey⟩ :=
    (Json.lettered_of_readString (none_not_mem_of_cons hinput hquote) hkey).cut hquote
  have hwhole := none_not_mem_of_cons (hkey.none_not_mem hinput) hcolon
  obtain ⟨v, hv⟩ : ∃ v : Syntax, Cut v.tokens value rest := by
    rcases hvalue with ⟨field, -, -, hfield⟩ | ⟨-, -, hskip⟩
    · exact readsOver_readField h draft field hwhole hfield
    · exact Json.exists_of_skipValue hwhole hskip
  exact ⟨(key, v), hkey.trans ((Cut.mark hcolon).trans hv)⟩

theorem exists_of_membersWith (h : ReadsOver children) :
    ∀ (fuel : Nat) {draft : Draft} {input : Input}, none ∉ input →
      membersWith children fuel draft (skipBlanks input) = .ok (draft', rest) →
      ∃ m ms, Cut (memberTokens m ++ membersTokens ms) input rest
  | 0, _, _, _, hread => by cases hread
  | fuel + 1, draft, input, hinput, hread => by
    obtain ⟨inner, next, behind, hquote, hmember, hfollow⟩ := membersWith_eq_ok hread
    obtain ⟨m, hm⟩ := exists_of_member h hinput hquote hmember
    rcases hfollow with ⟨hclose, -⟩ | ⟨more, hcomma, hmore⟩
    · exact ⟨m, [], hm.trans (Cut.mark hclose)⟩
    · have hwhole := none_not_mem_of_cons (hm.none_not_mem hinput) hcomma
      obtain ⟨n, ns, hns⟩ := exists_of_membersWith h fuel hwhole hmore
      exact ⟨m, n :: ns, hm.trans ((Cut.mark hcomma).trans hns)⟩

theorem exists_of_members (h : ReadsOver children) {fuel : Nat} (hinput : none ∉ input)
    (hopen : skipBlanks input = some '\x7b' :: inner)
    (hread : members children fuel inner = .ok (draft', rest)) :
    ∃ ms, Cut (Syntax.object ms).tokens input rest := by
  rcases members_eq_ok hread with ⟨hclose, -⟩ | hread
  · exact ⟨[], (Cut.mark hopen).trans (Cut.mark hclose)⟩
  · obtain ⟨m, ms, hms⟩ :=
      exists_of_membersWith h fuel (none_not_mem_of_cons hinput hopen) hread
    exact ⟨m :: ms, (Cut.mark hopen).trans hms⟩

/-- The elements of a node behind its first one. -/
theorem exists_of_positional (h : ReadsOver children) :
    ∀ (fields : List Field) {draft : Draft} {input : Input} {follow : Follow}, none ∉ input →
      afterElement input = .ok follow →
      positional children draft fields follow = .ok (draft', rest) →
      ∃ vs, Cut (elementTokens vs) input rest := by
  intro fields
  induction fields with
  | nil =>
    intro draft input follow hinput hfollow hread
    rcases afterElement_eq_ok hfollow with ⟨behind, rfl, hclose⟩ | ⟨behind, rfl, -⟩
    · obtain ⟨-, rfl⟩ := positional_closed_eq_ok hread
      exact ⟨[], Cut.mark hclose⟩
    · cases hread
  | cons field fields ih =>
    intro draft input follow hinput hfollow hread
    rcases afterElement_eq_ok hfollow with ⟨behind, rfl, hclose⟩ | ⟨behind, rfl, hcomma⟩
    · obtain ⟨-, rfl⟩ := positional_closed_eq_ok hread
      exact ⟨[], Cut.mark hclose⟩
    · obtain ⟨next, left, follow, hfield, hfollow, hread⟩ := positional_element_eq_ok hread
      have hwhole := (Cut.blanks behind).none_not_mem (none_not_mem_of_cons hinput hcomma)
      obtain ⟨v, hv⟩ := readsOver_readField h draft field hwhole hfield
      obtain ⟨vs, hvs⟩ := ih (hv.none_not_mem hwhole) hfollow hread
      exact ⟨v :: vs, (Cut.mark hcomma).trans (hv.of_skipBlanks.trans hvs)⟩

end

/-- The nodes of an array behind its first one. -/
theorem exists_of_nodesWith {read : Reader Node} (h : ReadsOver read) {nodes : List Node}
    {rest : Input} :
    ∀ (fuel : Nat) {before : List Node} {input : Input} {follow : Follow}, none ∉ input →
      afterElement input = .ok follow → nodesWith read fuel before follow = .ok (nodes, rest) →
      ∃ vs, Cut (elementTokens vs) input rest := by
  intro fuel
  induction fuel with
  | zero =>
    intro before input follow hinput hfollow hread
    rcases afterElement_eq_ok hfollow with ⟨behind, rfl, hclose⟩ | ⟨behind, rfl, -⟩
    · obtain ⟨-, rfl⟩ := nodesWith_closed_eq_ok hread
      exact ⟨[], Cut.mark hclose⟩
    · cases hread
  | succ fuel ih =>
    intro before input follow hinput hfollow hread
    rcases afterElement_eq_ok hfollow with ⟨behind, rfl, hclose⟩ | ⟨behind, rfl, hcomma⟩
    · obtain ⟨-, rfl⟩ := nodesWith_closed_eq_ok hread
      exact ⟨[], Cut.mark hclose⟩
    · obtain ⟨n, left, follow, hnode, hfollow, hread⟩ := nodesWith_element_eq_ok hread
      have hwhole := (Cut.blanks behind).none_not_mem (none_not_mem_of_cons hinput hcomma)
      obtain ⟨v, hv⟩ := h hwhole hnode
      obtain ⟨vs, hvs⟩ := ih (hv.none_not_mem hwhole) hfollow hread
      exact ⟨v :: vs, (Cut.mark hcomma).trans (hv.of_skipBlanks.trans hvs)⟩

theorem readsOver_nodes {fuel : Nat} {read : Reader Node} (h : ReadsOver read) :
    ReadsOver (nodes fuel (some read)) := by
  intro input rest ns hinput hread
  obtain ⟨read, inner, follow, hsome, hopen, hfollow, hread⟩ := nodes_eq_ok hread
  cases hsome
  have hinner := none_not_mem_of_cons hinput hopen
  rcases afterBracket_eq_ok hfollow with ⟨behind, rfl, hclose⟩ | rfl
  · obtain ⟨-, rfl⟩ := nodesWith_closed_eq_ok hread
    exact ⟨.array [], (Cut.mark hopen).trans (Cut.mark hclose)⟩
  · cases fuel with
    | zero => cases hread
    | succ fuel =>
      obtain ⟨n, left, follow, hnode, hfollow, hread⟩ := nodesWith_element_eq_ok hread
      have hwhole := (Cut.blanks inner).none_not_mem hinner
      obtain ⟨v, hv⟩ := h hwhole hnode
      obtain ⟨vs, hvs⟩ := exists_of_nodesWith h fuel (hv.none_not_mem hwhole) hfollow hread
      exact ⟨.array (v :: vs), (Cut.mark hopen).trans (hv.of_skipBlanks.trans hvs)⟩

/-! ## Nodes and documents -/

theorem readsOver_nodeAbove {fuel : Nat} {children : Reader (List Node)} (h : ReadsOver children) :
    ReadsOver (nodeAbove fuel (some children)) := by
  intro input rest node hinput hread
  obtain ⟨_, inner, draft, hsome, -, ⟨hopen, hread⟩ | ⟨hopen, hread⟩⟩ := nodeAbove_eq_ok hread
  · cases hsome
    obtain ⟨ms, hms⟩ := exists_of_members h hinput hopen hread
    exact ⟨.object ms, hms⟩
  · cases hsome
    obtain ⟨next, left, follow, hfield, hfollow, hread⟩ := positional_element_eq_ok hread
    have hwhole := (Cut.blanks inner).none_not_mem (none_not_mem_of_cons hinput hopen)
    obtain ⟨v, hv⟩ := readsOver_readField h {} .kind hwhole hfield
    obtain ⟨vs, hvs⟩ := exists_of_positional h _ (hv.none_not_mem hwhole) hfollow hread
    exact ⟨.array (v :: vs), (Cut.mark hopen).trans (hv.of_skipBlanks.trans hvs)⟩

theorem readsOver_node (fuel : Nat) : ∀ levels, ReadsOver (node fuel levels)
  | 0 => by
    intro input rest tree hinput hread
    obtain ⟨_, _, _, hnone, -⟩ := nodeAbove_eq_ok hread
    cases hnone
  | 1 => by
    refine readsOver_nodeAbove ?_
    intro input rest ns hinput hread
    obtain ⟨_, _, _, hnone, -⟩ := nodes_eq_ok hread
    cases hnone
  | levels + 2 => readsOver_nodeAbove (readsOver_nodes (readsOver_node fuel levels))

/-- **Every accepted text spells a value.** -/
theorem exists_spells_of_decode {text : String} {tree : Node}
    (h : Node.decode text = .ok tree) : ∃ v, Spells text v := by
  obtain ⟨rest, hnode, hend⟩ := document_eq_ok h
  -- A text has no damage, which alone a skipped string would not notice.
  have hinput : none ∉ text.toList.map some := by simp
  obtain ⟨v, hv⟩ := readsOver_node _ _ hinput hnode
  have hblanks := Cut.blanks rest
  rw [hend] at hblanks
  obtain ⟨front, htext, hfront⟩ := hv.trans hblanks
  rw [List.append_nil] at htext hfront
  rw [← List.map_inj_right (fun _ _ => Option.some.inj) |>.mp htext] at hfront
  exact ⟨v, hfront⟩

/-- **The texts that are accepted** are those that spell a value with a meaning, and what is read is
this meaning. -/
theorem decode_eq_ok_iff {text : String} {tree : Node} :
    Node.decode text = .ok tree ↔ ∃ v, Spells text v ∧ meaning levelLimit v = .ok tree := by
  constructor
  · intro h
    obtain ⟨v, hv⟩ := exists_spells_of_decode h
    exact ⟨v, hv, ((decode_spells hv).1 tree).mp h⟩
  · rintro ⟨v, hv, hmeaning⟩
    exact ((decode_spells hv).1 tree).mpr hmeaning

end Bracketdown.Decode
