import Bracketdown.Node.Decode
import Bracketdown.Proofs.Json.ReadBack
import Bracketdown.Proofs.Node.Members
import Bracketdown.Proofs.Node.Storable

/-!
# Reading the fields of a written node

What the decoder does with the written form of a record, field by field. A field that is read leaves
its value in the draft (`Draft.fill`), and a draft into which all given fields of a record were
filled becomes what the record describes (`finish_filled`). The children are the only field whose
reading depends on how much may still be open; here they are a parameter.
-/

namespace Bracketdown.Decode

open Json (Input Layout isGap spell quoted digits escapedAll skipBlanks Delimited)

/-! ## Values of fields -/

theorem string_quoted (s : String) (rest : Input) :
    string ((quoted s).map some ++ rest) = .ok (s, rest) := by
  rw [string, quoted, List.map_cons, List.cons_append,
    Json.skipBlanks_of_not_isGap (by decide)]
  show lift (Json.readString [] ((escapedAll s.toList ++ ['"']).map some ++ rest)) = _
  rw [Json.readString_quoted]
  rfl

theorem boolean_word (b : Bool) (rest : Input) :
    boolean ((Json.word b).map some ++ rest) = .ok (b, rest) := by
  cases b with
  | true =>
    rw [boolean, Json.word, if_pos rfl, List.map_cons, List.cons_append,
      Json.skipBlanks_of_not_isGap (by decide)]
    show lift (Json.readWord ['r', 'u', 'e'] (['r', 'u', 'e'].map some ++ rest)) >>= _ = _
    rw [Json.readWord_append]
    rfl
  | false =>
    rw [boolean, Json.word, if_neg (by decide), List.map_cons, List.cons_append,
      Json.skipBlanks_of_not_isGap (by decide)]
    show lift (Json.readWord ['a', 'l', 's', 'e'] (['a', 'l', 's', 'e'].map some ++ rest)) >>= _
      = _
    rw [Json.readWord_append]
    rfl

theorem not_isGap_of_isDigit {c : Char} (h : c.isDigit = true) : ¬ isGap c := by
  rintro (rfl | rfl | rfl | rfl) <;> exact absurd h (by decide)

theorem natural_digits {expected : Expected} {bound n : Nat} (hn : n ≤ bound)
    (hbound : bound < UInt64.size) {rest : Input} (hrest : Delimited rest) :
    natural expected bound ((digits n).map some ++ rest) = .ok (n.toUInt64, rest) := by
  have hfit : n < UInt64.size := Nat.lt_of_le_of_lt hn hbound
  have hread := Json.readNumeral_digits hfit hrest
  have hback : n.toUInt64.toNat = n := Nat.mod_eq_of_lt hfit
  obtain ⟨c, cs, hcs, hc⟩ := Json.digits_eq_cons n
  rw [hcs, List.map_cons, List.cons_append] at hread ⊢
  rw [natural, Json.skipBlanks_of_not_isGap (not_isGap_of_isDigit hc)]
  split
  next heq =>
    cases heq
    exact absurd hc (by decide)
  next heq =>
    cases heq
    rw [Json.digit_some hc, Option.isSome_some, if_pos rfl, hread]
    simp [lift, bind, Except.bind, hback, hn]
  next heq => cases heq

theorem byte_digits (n : UInt8) {rest : Input} (hrest : Delimited rest) :
    byte ((digits n.toNat).map some ++ rest) = .ok (n, rest) := by
  have hn : n.toNat ≤ 255 := Nat.le_of_lt_succ n.toNat_lt
  have hcut : n.toNat.toUInt64.toUInt8 = n := by
    rw [← UInt8.toNat_inj, UInt64.toNat_toUInt8, Nat.toUInt64_eq, UInt64.toNat_ofNat']
    omega
  rw [byte, natural_digits hn (by decide) hrest]
  simp only [bind, Except.bind, pure, Except.pure, hcut]

theorem word_digits (n : UInt64) {rest : Input} (hrest : Delimited rest) :
    Decode.word ((digits n.toNat).map some ++ rest) = .ok (n, rest) := by
  have hn : n.toNat ≤ UInt64.size - 1 := Nat.le_of_lt_succ n.toNat_lt
  rw [Decode.word, natural_digits hn (by decide) hrest, Nat.toUInt64_eq, UInt64.ofNat_toNat]

/-- A value that is there is read by its reader. -/
theorem optional_of_ne_null {α : Type} (read : Reader α) {c : Char} (hgap : ¬ isGap c)
    (hnull : c ≠ 'n') (input : Input) :
    optional read (some c :: input)
      = (read (some c :: input)).map fun (a, rest) => (some a, rest) := by
  rw [optional, Json.skipBlanks_of_not_isGap hgap]
  split
  next heq =>
    cases heq
    exact absurd rfl hnull
  next => cases read (some c :: input) <;> rfl

theorem optional_quoted (s : String) (rest : Input) :
    optional string ((quoted s).map some ++ rest) = .ok (some s, rest) := by
  have h := optional_of_ne_null string (c := '"') (by decide) (by decide)
    ((escapedAll s.toList ++ ['"']).map some ++ rest)
  rw [← List.cons_append, ← List.map_cons, ← quoted, string_quoted] at h
  exact h

theorem optional_word (b : Bool) (rest : Input) :
    optional boolean ((Json.word b).map some ++ rest) = .ok (some b, rest) := by
  have h := boolean_word b rest
  cases b with
  | true =>
    rw [Json.word, if_pos rfl, List.map_cons, List.cons_append] at h ⊢
    rw [optional_of_ne_null boolean (c := 't') (by decide) (by decide), h]
    rfl
  | false =>
    rw [Json.word, if_neg (by decide), List.map_cons, List.cons_append] at h ⊢
    rw [optional_of_ne_null boolean (c := 'f') (by decide) (by decide), h]
    rfl

/-- Digits are never taken for the absent value. -/
theorem optional_digits {α : Type} {read : Reader α} {n : Nat} {a : α} {rest : Input}
    (h : read ((digits n).map some ++ rest) = .ok (a, rest)) :
    optional read ((digits n).map some ++ rest) = .ok (some a, rest) := by
  obtain ⟨c, cs, hcs, hc⟩ := Json.digits_eq_cons n
  have hnull : c ≠ 'n' := by
    rintro rfl
    exact absurd hc (by decide)
  rw [hcs, List.map_cons, List.cons_append] at h ⊢
  rw [optional_of_ne_null read (not_isGap_of_isDigit hc) hnull, h]
  rfl

theorem string_gap {cs : List Char} (h : ∀ c ∈ cs, isGap c) (input : Input) :
    string (cs.map some ++ input) = string input := by
  rw [string, Json.skipBlanks_gap h, string]

theorem optional_gap {α : Type} (read : Reader α) {cs : List Char} (h : ∀ c ∈ cs, isGap c)
    (input : Input) : optional read (cs.map some ++ input) = optional read input := by
  rw [optional, Json.skipBlanks_gap h, optional]

namespace Draft

open Node (Record Field)

/-- The draft with a field filled in from a record. -/
def fill (r : Record) (draft : Draft) : Field → Draft
  | .kind => { draft with kind := some r.kind }
  | .value => { draft with value := some r.value }
  | .depth => { draft with depth := some r.depth }
  | .ordered => { draft with ordered := some r.ordered }
  | .start => { draft with start := some r.start }
  | .checked => { draft with checked := some r.checked }
  | .url => { draft with url := some r.url }
  | .alt => { draft with alt := some r.alt }
  | .lang => { draft with lang := some r.lang }
  | .children => { draft with children := some r.children }

/-- Blanks in front of a field's value do not matter. -/
theorem readField_gap (children : Reader (List Node)) (draft : Draft) (field : Field)
    {cs : List Char} (h : ∀ c ∈ cs, isGap c) (input : Input) :
    draft.readField children field (cs.map some ++ input)
      = draft.readField children field input := by
  cases field with
  | kind => simp only [readField, string_gap h]
  | _ => simp only [readField, optional_gap _ h]

/-- A written field other than the children is read into the draft. -/
theorem readField_spell {r : Record} {field : Field} {v : Json} (hv : r.valueOf? field = some v)
    (hne : field ≠ .children) (children : Reader (List Node)) (draft : Draft) (layout : Layout)
    (level : Nat) {rest : Input} (hrest : Delimited rest) :
    draft.readField children field ((spell layout level v).map some ++ rest)
      = .ok (draft.fill r field, rest) := by
  cases field with
  | children => exact absurd rfl hne
  | kind =>
    cases hv
    simp only [spell, readField, string_quoted]
    rfl
  | value | url | alt | lang =>
    obtain ⟨s, hs, rfl⟩ := Option.map_eq_some_iff.mp hv
    simp only [spell, readField, optional_quoted, fill, hs]
    rfl
  | ordered | checked =>
    obtain ⟨b, hb, rfl⟩ := Option.map_eq_some_iff.mp hv
    simp only [spell, readField, optional_word, fill, hb]
    rfl
  | depth =>
    obtain ⟨n, hn, rfl⟩ := Option.map_eq_some_iff.mp hv
    simp only [spell, readField, optional_digits (byte_digits n hrest), fill, hn]
    rfl
  | start =>
    obtain ⟨n, hn, rfl⟩ := Option.map_eq_some_iff.mp hv
    simp only [spell, readField, optional_digits (word_digits n hrest), fill, hn]
    rfl

/-! ## Complete drafts -/

theorem has_fill (r : Record) (draft : Draft) (field other : Field) :
    (draft.fill r field).has other = (decide (field = other) || draft.has other) := by
  cases field <;> cases other <;> rfl

/-- What a field of a draft is after fields were filled in: the record's, if it was among them. -/
theorem foldl_fill (r : Record) (fields : List Field) (draft : Draft) :
    fields.foldl (fill r) draft =
      { kind := if .kind ∈ fields then some r.kind else draft.kind
        value := if .value ∈ fields then some r.value else draft.value
        depth := if .depth ∈ fields then some r.depth else draft.depth
        ordered := if .ordered ∈ fields then some r.ordered else draft.ordered
        start := if .start ∈ fields then some r.start else draft.start
        checked := if .checked ∈ fields then some r.checked else draft.checked
        url := if .url ∈ fields then some r.url else draft.url
        alt := if .alt ∈ fields then some r.alt else draft.alt
        lang := if .lang ∈ fields then some r.lang else draft.lang
        children := if .children ∈ fields then some r.children else draft.children } := by
  induction fields generalizing draft with
  | nil => rfl
  | cons field fields ih =>
    rw [List.foldl_cons, ih]
    cases field <;> simp [fill]

/-- A field that is given whenever the record has a value reads as that value. -/
theorem join_of_given {α β : Type} {given : Prop} [Decidable given] {a : Option α} (f : α → β)
    (h : ¬ given → a.map f = none) : (if given then some a else none).join = a := by
  split
  · rfl
  next hgiven =>
    rw [Option.map_eq_none_iff.mp (h hgiven)]
    rfl

/-- **A draft with the kind and all fields that a record has becomes what the record describes**,
whatever the order of the fields. -/
theorem finish_foldl_fill (r : Record) {fields : List Field} (hkind : .kind ∈ fields)
    (habsent : ∀ field, field ∉ fields → r.valueOf? field = none) :
    (fields.foldl (fill r) {}).finish = (Node.ofRecord r).mapError .defect := by
  -- A field that is not among the given ones has no value in the record either.
  rw [foldl_fill, finish, if_pos hkind]
  dsimp only
  rw [join_of_given (a := r.value) _ (habsent .value),
    join_of_given (a := r.depth) _ (habsent .depth),
    join_of_given (a := r.ordered) _ (habsent .ordered),
    join_of_given (a := r.start) _ (habsent .start),
    join_of_given (a := r.checked) _ (habsent .checked),
    join_of_given (a := r.url) _ (habsent .url),
    join_of_given (a := r.alt) _ (habsent .alt),
    join_of_given (a := r.lang) _ (habsent .lang),
    join_of_given (a := r.children) _ (habsent .children)]
  cases Node.ofRecord r <;> rfl

/-- The draft with all fields that a record gives becomes what the record describes. -/
theorem finish_filled (r : Record) :
    ((r.given.map Prod.fst).foldl (fill r) {}).finish
      = (Node.ofRecord r).mapError .defect := by
  refine finish_foldl_fill r (Node.mem_fields_given.mpr rfl) fun field hfield => ?_
  rw [Node.mem_fields_given, Bool.not_eq_true, Option.isSome_eq_false_iff] at hfield
  exact Option.isNone_iff_eq_none.mp hfield

end Draft

end Bracketdown.Decode
