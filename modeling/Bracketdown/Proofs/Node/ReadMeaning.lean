import Bracketdown.Proofs.Json.ReadSyntax
import Bracketdown.Proofs.Node.Accepted
import Bracketdown.Proofs.Node.Meaning
import Bracketdown.Proofs.Node.ReadTree

/-!
# The decoder reads what a text means

Every reader of the decoder is compared with what the value in front of it comes to: `Reads` says
that on any text that spells a value the reader ends behind the value with what it means, or fails
with its defect, or fails for another reason when the value is refused. Readers are made of readers,
and so are these facts; at the top stands `decode_spells`.
-/

namespace Bracketdown.Decode

open Json (Syntax Quoted Number Spaced Ending Spells Input skipBlanks)
open Json.Syntax (elementTokens memberTokens membersTokens)
open Node (Field)

/-! ## Readers and outcomes -/

/-- A reader has gone as an outcome says: what it read is behind it, with a text of the given tokens
left, or it failed. -/
def Gives {α : Type} (tokens : List (List Char)) :
    Outcome α → Except DecodeError (α × Input) → Prop
  | .ok a, result => ∃ rest, Spaced tokens rest ∧ result = .ok (a, rest.map some)
  | .error (some d), result => result = .error (.defect d)
  | .error none, result => ∀ x, result ≠ .ok x

/-- A reader of values reads what they mean, as far as a value has not more than `bound` tokens. -/
def Reads {α : Type} (read : Reader α) (take : Syntax → Outcome α) (bound : Nat) : Prop :=
  ∀ ⦃v : Syntax⦄ ⦃tokens : List (List Char)⦄ ⦃text : List Char⦄, v.tokens.length ≤ bound →
    Ending tokens → Spaced (v.tokens ++ tokens) text → Gives tokens (take v) (read (text.map some))

section

variable {α β : Type} {tokens tokens' : List (List Char)}

theorem Gives.of_agrees {a b : Outcome α} {result : Except DecodeError (α × Input)}
    (hagrees : Agrees a b) (h : Gives tokens b result) : Gives tokens a result := by
  match a with
  | .ok a =>
    rw [show b = .ok a from hagrees] at h
    exact h
  | .error (some d) =>
    rw [show b = .error (some d) from hagrees] at h
    exact h
  | .error none =>
    intro x hx
    match b with
    | .ok a => exact hagrees a rfl
    | .error (some d) =>
      rw [show result = .error (.defect d) from h] at hx
      cases hx
    | .error none => exact h x hx

/-- Two steps go as their outcomes say when the first does and the second does from there. -/
theorem Gives.bind {a : Outcome α} {f : α → Outcome β} {result : Except DecodeError (α × Input)}
    {next : α × Input → Except DecodeError (β × Input)} (h : Gives tokens a result)
    (hnext : ∀ x rest, a = .ok x → Spaced tokens rest →
      Gives tokens' (f x) (next (x, rest.map some))) :
    Gives tokens' (a >>= f) (result >>= next) := by
  match a with
  | .ok a =>
    obtain ⟨rest, hrest, rfl⟩ := h
    exact hnext a rest rfl hrest
  | .error (some d) =>
    rw [show result = .error (.defect d) from h]
    exact rfl
  | .error none =>
    intro x hx
    obtain ⟨y, hy, -⟩ := bind_eq_ok.mp hx
    exact h y hy

theorem Gives.ok {a : α} {rest : List Char} (h : Spaced tokens rest) :
    Gives tokens (.ok a) (.ok (a, rest.map some)) := ⟨rest, h, rfl⟩

/-- What is made of a thing that was read. -/
theorem Gives.map {a : Outcome α} {result : Except DecodeError (α × Input)}
    (h : Gives tokens a result) (f : α → β) :
    Gives tokens (a.map f) (result >>= fun (x, rest) => pure (f x, rest)) := by
  have hmap : a.map f = a >>= fun x => .ok (f x) := by cases a <;> rfl
  rw [hmap]
  exact h.bind fun x rest _ hrest => Gives.ok hrest

end

/-- A value that is there, or a refusal. -/
def wanted {α : Type} : Option α → Outcome α
  | some a => .ok a
  | none => .error none

/-- A reader that reads the wanted value exactly when it is there. -/
theorem gives_wanted {α : Type} {tokens : List (List Char)} {o : Option α}
    {result : Except DecodeError (α × Input)}
    (hsome : ∀ a, o = some a → ∃ rest, Spaced tokens rest ∧ result = .ok (a, rest.map some))
    (hnone : ∀ a rest, result = .ok (a, rest) → o ≠ none) : Gives tokens (wanted o) result := by
  cases o with
  | some a => exact hsome a rfl
  | none => exact fun ⟨a, rest⟩ hread => hnone a rest hread rfl

/-! ## Strings, truth values and numbers -/

section

variable (bound : Nat)

theorem reads_string : Reads string (fun v => wanted v.string?) bound := by
  intro v tokens text _ _ htext
  obtain ⟨c, tail, hstarts, -, hblanks⟩ := Json.Syntax.skipBlanks_spaced htext
  have hinner : ∀ s, v = .string s → ∃ rest, Spaced tokens rest ∧
      skipBlanks (text.map some)
        = some '"' :: (s.inner.map some ++ some '"' :: rest.map some) := by
    rintro s rfl
    rw [Json.Syntax.tokens, Quoted.spelling, List.singleton_append] at htext
    obtain ⟨rest, hrest, hquote⟩ := htext.skipBlanks_cons (by decide)
    rw [List.map_append, List.append_assoc] at hquote
    exact ⟨rest, hrest, hquote⟩
  refine gives_wanted (fun value hvalue => ?_) fun value behind hread hvalue => ?_
  · cases v with
    | string s =>
      obtain ⟨rest, hrest, hquote⟩ := hinner s rfl
      refine ⟨rest, hrest, ?_⟩
      rw [string, hquote]
      exact congrArg lift (Json.readString_inner hvalue _)
    | _ => cases hvalue
  · obtain ⟨inner, hquote, hread⟩ := string_eq_ok hread
    obtain ⟨hc, -⟩ := List.cons.inj (hblanks.symm.trans hquote)
    cases hc
    obtain ⟨s, rfl⟩ := hstarts.eq_string
    obtain ⟨rest, hrest, hquote'⟩ := hinner s rfl
    obtain ⟨-, rfl⟩ := List.cons.inj (hquote'.symm.trans hquote)
    obtain ⟨f, hf⟩ := Json.readString_inner_error hvalue (rest.map some)
    rw [hf] at hread
    cases hread

theorem reads_boolean : Reads boolean (fun v => wanted v.bool?) bound := by
  intro v tokens text _ _ htext
  obtain ⟨c, tail, hstarts, -, hblanks⟩ := Json.Syntax.skipBlanks_spaced htext
  refine gives_wanted (fun value hvalue => ?_) fun value behind hread hvalue => ?_
  · match v, hvalue with
    | .bool true, rfl =>
      rw [Json.Syntax.tokens] at htext
      obtain ⟨rest, hrest, hword⟩ := Spaced.skipBlanks_cons (c := 't') htext (by decide)
      refine ⟨rest, hrest, ?_⟩
      rw [boolean, hword]
      show lift (Json.readWord ['r', 'u', 'e'] (['r', 'u', 'e'].map some ++ rest.map some)) >>= _
        = _
      rw [Json.readWord_append]
      rfl
    | .bool false, rfl =>
      rw [Json.Syntax.tokens] at htext
      obtain ⟨rest, hrest, hword⟩ := Spaced.skipBlanks_cons (c := 'f') htext (by decide)
      refine ⟨rest, hrest, ?_⟩
      rw [boolean, hword]
      show lift (Json.readWord ['a', 'l', 's', 'e']
        (['a', 'l', 's', 'e'].map some ++ rest.map some)) >>= _ = _
      rw [Json.readWord_append]
      rfl
  · obtain ⟨letters, ⟨-, hletter, -⟩ | ⟨-, hletter, -⟩⟩ := boolean_eq_ok hread
    · obtain ⟨hc, -⟩ := List.cons.inj (hblanks.symm.trans hletter)
      cases hc
      rw [hstarts.eq_true] at hvalue
      cases hvalue
    · obtain ⟨hc, -⟩ := List.cons.inj (hblanks.symm.trans hletter)
      cases hc
      rw [hstarts.eq_false] at hvalue
      cases hvalue

/-- A natural number within the bound is accepted. -/
theorem natural_of_digit {expected : Expected} {limit : Nat} {input behind rest : Input} {c : Char}
    {m : UInt64} (hdigit : c.isDigit = true) (hblanks : skipBlanks input = some c :: behind)
    (hread : Json.readNumeral false (some c :: behind) = .ok (.natural m, rest))
    (hlimit : m.toNat ≤ limit) : natural expected limit input = .ok (m, rest) := by
  rw [natural, hblanks]
  split
  next heq =>
    rw [Option.some.inj (List.cons.inj heq).1] at hdigit
    exact absurd hdigit (by decide)
  next heq =>
    rw [← heq, ← (List.cons.inj heq).1, Json.digit_some hdigit, Option.isSome_some, if_pos rfl,
      hread]
    simp [lift, bind, Except.bind, hlimit]
  next heq => cases heq

/-- No other number is accepted. -/
theorem natural_number {expected : Expected} {limit : Nat} {n : Number} {m : UInt64}
    {input rest behind : Input} (hrest : Json.Delimited rest)
    (hblanks : (n.negative = true
        ∧ skipBlanks input = some '-' :: ((n.whole.chars ++ n.tail).map some ++ rest))
      ∨ n.negative = false ∧ ∃ c cs, c.isDigit = true ∧ skipBlanks input = some c :: cs
        ∧ some c :: cs = (n.whole.chars ++ n.tail).map some ++ rest)
    (hread : natural expected limit input = .ok (m, behind)) :
    ∃ value, n.natural? = some value ∧ value < UInt64.size ∧ value ≤ limit := by
  obtain ⟨hlimit, ⟨digits, hminus, hnumeral⟩ | hnumeral⟩ := natural_eq_ok hread
  · -- Behind a sign no natural number is read.
    rcases hblanks with ⟨-, hblanks⟩ | ⟨-, c, cs, hdigit, hblanks, -⟩
    · obtain ⟨-, rfl⟩ := List.cons.inj (hminus.symm.trans hblanks)
      cases (n.natural_of_readNumeral_spelling hrest hnumeral).1
    · obtain ⟨hc, -⟩ := List.cons.inj (hminus.symm.trans hblanks)
      cases hc
      exact absurd hdigit (by decide)
  · rcases hblanks with ⟨-, hblanks⟩ | ⟨hnegative, c, cs, hdigit, hblanks, hspelling⟩
    · rw [hblanks] at hnumeral
      cases hnumeral
    · rw [hblanks, hspelling] at hnumeral
      obtain ⟨-, hfraction, hexponent, hsize⟩ :=
        n.natural_of_readNumeral_spelling hrest hnumeral
      have hvalue := Number.natural_eq_some.mpr ⟨hnegative, hfraction, hexponent, rfl⟩
      refine ⟨_, hvalue, hsize, ?_⟩
      rw [n.readNumeral_natural hvalue hsize hrest] at hnumeral
      cases hnumeral
      rw [Nat.toUInt64_eq, UInt64.toNat_ofNat', Nat.mod_eq_of_lt hsize] at hlimit
      exact hlimit

theorem reads_natural (expected : Expected) {limit : Nat} (hlimit : limit < UInt64.size) :
    Reads (natural expected limit) (fun v => wanted ((v.natural? limit).map Nat.toUInt64))
      bound := by
  intro v tokens text _ hending htext
  obtain ⟨c, tail, hstarts, -, hblanks⟩ := Json.Syntax.skipBlanks_spaced htext
  refine gives_wanted (fun m hm => ?_) fun m behind hread hvalue => ?_
  · obtain ⟨value, hvalue, rfl⟩ := Option.map_eq_some_iff.mp hm
    match v, hvalue with
    | .number n, hvalue =>
      obtain ⟨hnatural, hle⟩ := Option.filter_eq_some_iff.mp hvalue
      rw [decide_eq_true_eq] at hle
      have hsize := Nat.lt_of_le_of_lt hle hlimit
      rw [Json.Syntax.tokens, List.singleton_append] at htext
      obtain ⟨rest, hrest, ⟨hnegative, -⟩ | ⟨-, c, cs, hdigit, hdigits, hspelling⟩⟩ :=
        Number.skipBlanks_spelling htext
      · rw [(Number.natural_eq_some.mp hnatural).1] at hnegative
        cases hnegative
      · have hread := n.readNumeral_natural hnatural hsize (hending.delimited hrest)
        rw [← hspelling] at hread
        refine ⟨rest, hrest, natural_of_digit hdigit hdigits hread ?_⟩
        rw [Nat.toUInt64_eq, UInt64.toNat_ofNat', Nat.mod_eq_of_lt hsize]
        exact hle
  · have hnumber : ∃ n, v = .number n := by
      obtain ⟨-, ⟨digits, hminus, -⟩ | hnumeral⟩ := natural_eq_ok hread
      · obtain ⟨hc, -⟩ := List.cons.inj (hblanks.symm.trans hminus)
        cases hc
        exact hstarts.eq_number (.inl rfl)
      · by_cases hdigit : c.isDigit = true
        · exact hstarts.eq_number (.inr hdigit)
        · rw [hblanks, Json.readNumeral, Json.spanDigits, Json.digit?, if_neg hdigit] at hnumeral
          cases hnumeral
    obtain ⟨n, rfl⟩ := hnumber
    rw [Json.Syntax.tokens, List.singleton_append] at htext
    obtain ⟨rest, hrest, hshape⟩ := Number.skipBlanks_spelling htext
    obtain ⟨value, hnatural, -, hle⟩ := natural_number (hending.delimited hrest) hshape hread
    rw [Option.map_eq_none_iff, Json.Syntax.natural?, hnatural, Option.filter_some,
      if_pos (decide_eq_true hle)] at hvalue
    cases hvalue

theorem reads_byte :
    Reads byte (fun v => wanted ((v.natural? 255).map Nat.toUInt8)) bound := by
  intro v tokens text hbound hending htext
  have hread := reads_natural bound .byte (show 255 < UInt64.size by decide) hbound hending htext
  have hcast := hread.map UInt64.toUInt8
  have hcut : ∀ n : Nat, n.toUInt64.toUInt8 = n.toUInt8 := by
    intro n
    rw [← UInt8.toNat_inj, UInt64.toNat_toUInt8, Nat.toUInt64_eq, UInt64.toNat_ofNat',
      Nat.toUInt8_eq, UInt8.toNat_ofNat']
    omega
  cases hvalue : v.natural? 255 with
  | some value =>
    simp only [hvalue, Option.map_some, wanted, Except.map, hcut] at hcast ⊢
    exact hcast
  | none =>
    simp only [hvalue, Option.map_none, wanted, Except.map] at hcast ⊢
    exact hcast

theorem reads_word :
    Reads Decode.word (fun v => wanted ((v.natural? (UInt64.size - 1)).map Nat.toUInt64)) bound :=
  reads_natural bound .word (by decide)

end

/-- A value that may be `null`. -/
theorem Reads.optional {α : Type} {read : Reader α} {take : Syntax → Outcome α} {bound : Nat}
    (h : Reads read take bound) : Reads (Decode.optional read) (orNull take) bound := by
  intro v tokens text hbound hending htext
  obtain ⟨c, tail, hstarts, htail, hblanks⟩ := Json.Syntax.skipBlanks_spaced htext
  by_cases hc : c = 'n'
  · subst hc
    obtain rfl := hstarts.eq_null
    rw [Json.Syntax.tokens] at htext
    obtain ⟨rest, hrest, hword⟩ := Spaced.skipBlanks_cons (c := 'n') htext (by decide)
    refine ⟨rest, hrest, ?_⟩
    rw [Decode.optional, hword]
    show lift (Json.readWord ['u', 'l', 'l'] (['u', 'l', 'l'].map some ++ rest.map some)) >>= _ = _
    rw [Json.readWord_append]
    rfl
  · have hnull : v.isNull = false := by
      cases v with
      | null => exact absurd hstarts hc
      | _ => rfl
    have hread := (h hbound hending htail).map some
    rw [Decode.optional, hblanks, orNull, if_neg (by rw [hnull]; decide)]
    split
    next heq =>
      obtain ⟨hletter, -⟩ := List.cons.inj heq
      exact absurd (Option.some.inj hletter) hc
    next => exact hread

/-! ## Fields -/

/-- A value that is put somewhere, as it stands in `takeField`. -/
theorem map_wanted {α β : Type} {o : Option α} (put : α → β) (a : α) :
    (wanted o).map put = if o.isSome then .ok (put (o.getD a)) else .error none := by
  cases o <;> rfl

/-- The same for a value that may be `null`. -/
theorem map_orNull_wanted {α β : Type} {view : Syntax → Option α} (hnull : view .null = none)
    (put : Option α → β) (v : Syntax) :
    (orNull (fun v => wanted (view v)) v).map put
      = if v.isNull || (view v).isSome then .ok (put (view v)) else .error none := by
  cases hv : v.isNull with
  | true =>
    obtain rfl := Json.Syntax.isNull_iff.mp hv
    rw [hnull]
    rfl
  | false =>
    rw [orNull, hv, if_neg Bool.false_ne_true, Bool.false_or]
    cases view v <;> rfl

/-- A reader for a field that may be `null` fills it in. -/
theorem Reads.put {α : Type} {read : Reader α} {view : Syntax → Option α} {bound : Nat}
    (h : Reads read (fun v => wanted (view v)) bound) (hnull : view .null = none)
    (put : Option α → Draft) :
    Reads (fun input => do
        let (a, rest) ← Decode.optional read input
        return (put a, rest))
      (fun v => if v.isNull || (view v).isSome then .ok (put (view v)) else .error none) bound := by
  intro v tokens text hbound hending htext
  have hread := (h.optional hbound hending htext).map put
  rw [map_orNull_wanted hnull] at hread
  exact hread

theorem reads_readField {readChildren : Reader (List Node)}
    {children : Syntax → Outcome (List Node)} {bound : Nat}
    (h : Reads readChildren children bound) (draft : Draft) (field : Field) :
    Reads (draft.readField readChildren field) (takeField children draft field) bound := by
  intro v tokens text hbound hending htext
  unfold takeField
  cases field with
  | children =>
    rw [if_pos rfl]
    exact (h.optional hbound hending htext).map _
  | kind =>
    have hread := (reads_string bound hbound hending htext).map
      fun a => { draft with kind := some a }
    rw [map_wanted _ ""] at hread
    exact hread
  | value =>
    exact (reads_string bound).put rfl (fun a => { draft with value := some a }) hbound hending
      htext
  | url =>
    exact (reads_string bound).put rfl (fun a => { draft with url := some a }) hbound hending htext
  | alt =>
    exact (reads_string bound).put rfl (fun a => { draft with alt := some a }) hbound hending htext
  | lang =>
    exact (reads_string bound).put rfl (fun a => { draft with lang := some a }) hbound hending htext
  | ordered =>
    exact (reads_boolean bound).put rfl (fun a => { draft with ordered := some a }) hbound hending
      htext
  | checked =>
    exact (reads_boolean bound).put rfl (fun a => { draft with checked := some a }) hbound hending
      htext
  | depth =>
    have hread := (reads_byte bound).put rfl (fun a => { draft with depth := some a }) hbound
      hending htext
    simp only [Option.isSome_map] at hread
    exact hread
  | start =>
    have hread := (reads_word bound).put rfl (fun a => { draft with start := some a }) hbound
      hending htext
    simp only [Option.isSome_map] at hread
    exact hread

/-! ## Objects -/

/-- A draft with one more member. An unknown key leaves it as it is. -/
def takeMember (children : Syntax → Outcome (List Node)) (draft : Draft) (m : Quoted × Syntax) :
    Outcome Draft :=
  if m.1.string?.isSome then
    match m.1.field? with
    | some field => if draft.has field then .error none else takeField children draft field m.2
    | none => .ok draft
  else .error none

/-- Members whose keys are strings are taken as the known fields among them. -/
theorem takeMembers_eq {children : Syntax → Outcome (List Node)} {ms : List (Quoted × Syntax)}
    (h : ∀ m ∈ ms, m.1.string?.isSome) (draft : Draft) :
    ms.foldlM (takeMember children) draft = takeFields children draft (Json.knownFields ms) := by
  induction ms generalizing draft with
  | nil => rfl
  | cons m ms ih =>
    obtain ⟨key, v⟩ := m
    have ih := ih fun n hn => h n (List.mem_cons_of_mem _ hn)
    have hkey : key.string?.isSome := h (key, v) (List.mem_cons_self ..)
    rw [List.foldlM_cons, takeMember, if_pos hkey]
    dsimp only
    cases hfield : key.field? with
    | none =>
      rw [Json.knownFields_cons_unknown hfield]
      exact ih draft
    | some field =>
      rw [Json.knownFields_cons_known hfield, takeFields]
      dsimp only
      cases draft.has field with
      | true => rfl
      | false =>
        rw [if_neg Bool.false_ne_true, if_neg Bool.false_ne_true]
        cases takeField children draft field v with
        | error e => rfl
        | ok next => exact ih next

/-- Members with a key that is no string are refused. -/
theorem takeMembers_eq_ok {children : Syntax → Outcome (List Node)} {ms : List (Quoted × Syntax)}
    {draft draft' : Draft} (h : ms.foldlM (takeMember children) draft = .ok draft') :
    ∀ m ∈ ms, m.1.string?.isSome := by
  induction ms generalizing draft with
  | nil => exact fun _ hm => absurd hm List.not_mem_nil
  | cons n ms ih =>
    rw [List.foldlM_cons] at h
    obtain ⟨next, hnext, h⟩ := bind_eq_ok.mp h
    intro m hm
    rcases List.mem_cons.mp hm with rfl | hm
    · rw [takeMember] at hnext
      split at hnext
      · assumption
      · cases hnext
    · exact ih h m hm

section

variable {readChildren : Reader (List Node)} {children : Syntax → Outcome (List Node)} {bound : Nat}
  {tokens : List (List Char)}

/-- A member is read, from behind the quote of its key on. -/
theorem gives_member (h : Reads readChildren children bound) (key : Quoted) {v : Syntax}
    {colon : Input} {value : List Char} (hbound : v.tokens.length ≤ bound)
    (hending : Ending tokens) (hvalue : Spaced (v.tokens ++ tokens) value)
    (hcolon : skipBlanks colon = some ':' :: value.map some) (draft : Draft) :
    Gives tokens (takeMember children draft (key, v))
      (member readChildren draft (key.inner.map some ++ some '"' :: colon)) := by
  have hbehind : Decode.colon colon = .ok (value.map some) := by
    rw [Decode.colon, hcolon]
    rfl
  rw [takeMember]
  cases hname : key.string? with
  | none =>
    intro x hx
    obtain ⟨name, rest, -, hkey, -⟩ := member_eq_ok hx
    obtain ⟨f, hf⟩ := Json.readString_inner_error hname colon
    rw [hf] at hkey
    cases hkey
  | some name =>
    rw [Option.isSome_some, if_pos rfl, Quoted.field?, hname, Option.bind_some, member,
      Json.readString_inner hname]
    cases hfield : Field.ofName? name with
    | none =>
      obtain ⟨rest, hrest, hskip⟩ := Json.skipValue_spaced v hending hvalue
      refine ⟨rest, hrest, ?_⟩
      simp only [lift, bind, Except.bind, hfield, hbehind, hskip]
      rfl
    | some field =>
      cases hhas : draft.has field with
      | true =>
        simp only [lift, bind, Except.bind, hfield, hhas, if_true]
        exact fun x hx => by cases hx
      | false =>
        simp only [lift, bind, Except.bind, hfield, hhas, Bool.false_eq_true, if_false, hbehind]
        exact reads_readField h draft field hbound hending hvalue

/-- The members of an object are read one after the other. -/
theorem gives_members (h : Reads readChildren children bound) {ms : List (Quoted × Syntax)} :
    ∀ {m : Quoted × Syntax} (draft : Draft) (fuel : Nat) {text : List Char},
      (∀ n ∈ m :: ms, n.2.tokens.length ≤ bound) → ms.length < fuel →
      Spaced (memberTokens m ++ (membersTokens ms ++ tokens)) text →
      Gives tokens ((m :: ms).foldlM (takeMember children) draft)
        (membersWith readChildren fuel draft (skipBlanks (text.map some))) := by
  induction ms with
  | nil =>
    rintro ⟨key, v⟩ draft fuel text hbound hfuel htext
    obtain ⟨fuel, rfl⟩ := Nat.exists_eq_add_of_le' (show 1 ≤ fuel from hfuel)
    obtain ⟨inner, colon, value, hvalue, hquote, rfl, hcolon⟩ := Json.member_spaced htext
    have hmember := gives_member h key (hbound (key, v) (List.mem_cons_self ..))
      (Json.ending_membersTokens [] tokens) hvalue hcolon draft
    rw [hquote, membersWith, List.foldlM_cons]
    refine hmember.bind fun next behind _ hbehind => ?_
    rw [Json.Syntax.membersTokens] at hbehind
    obtain ⟨rest, hrest, hclose⟩ := hbehind.skipBlanks_mark (by decide)
    refine ⟨rest, hrest, ?_⟩
    simp only [hclose]
    rfl
  | cons n ms ih =>
    rintro ⟨key, v⟩ draft fuel text hbound hfuel htext
    obtain ⟨fuel, rfl⟩ := Nat.exists_eq_add_of_le' (Nat.succ_le_of_lt (Nat.zero_lt_of_lt hfuel))
    obtain ⟨inner, colon, value, hvalue, hquote, rfl, hcolon⟩ := Json.member_spaced htext
    have hmember := gives_member h key (hbound (key, v) (List.mem_cons_self ..))
      (Json.ending_membersTokens (n :: ms) tokens) hvalue hcolon draft
    rw [hquote, membersWith, List.foldlM_cons]
    refine hmember.bind fun next behind _ hbehind => ?_
    rw [Json.Syntax.membersTokens, List.cons_append, List.append_assoc] at hbehind
    obtain ⟨more, hmore, hcomma⟩ := hbehind.skipBlanks_mark (by decide)
    have hrest := ih next fuel
      (fun k hk => hbound k (List.mem_cons_of_mem _ hk)) (Nat.lt_of_succ_lt_succ hfuel) hmore
    obtain ⟨_, _, _, _, hquote', _⟩ := Json.member_spaced hmore
    rw [hquote'] at hrest
    simp only [hcomma, hquote']
    exact hrest

end

/-! ## Arrays -/

/-- What follows a bracket or an element: the further elements of an array, and its end. -/
def Follows (tokens : List (List Char)) : List Syntax → Follow → Prop
  | [], follow => ∃ rest, Spaced tokens rest ∧ follow = .closed (rest.map some)
  | v :: vs, follow => ∃ text, Spaced (v.tokens ++ (elementTokens vs ++ tokens)) text
      ∧ follow = .element (text.map some)

section

variable {tokens : List (List Char)} {text : List Char}

theorem afterElement_spaced {vs : List Syntax} (h : Spaced (elementTokens vs ++ tokens) text) :
    ∃ follow, afterElement (text.map some) = .ok follow ∧ Follows tokens vs follow := by
  cases vs with
  | nil =>
    rw [elementTokens] at h
    obtain ⟨rest, hrest, hclose⟩ := h.skipBlanks_mark (by decide)
    exact ⟨_, by rw [afterElement, hclose]; rfl, rest, hrest, rfl⟩
  | cons v vs =>
    rw [elementTokens, List.cons_append, List.append_assoc] at h
    obtain ⟨rest, hrest, hcomma⟩ := h.skipBlanks_mark (by decide)
    obtain ⟨c, tail, hstarts, htail, hblanks⟩ := Json.Syntax.skipBlanks_spaced hrest
    refine ⟨.element (some c :: tail.map some), ?_, c :: tail, htail, rfl⟩
    rw [afterElement, hcomma]
    simp only [hblanks]
    split
    next heq => cases heq
    next heq => exact absurd (Option.some.inj (List.cons.inj heq).1) hstarts.ne.2
    next => rfl

theorem afterBracket_spaced {vs : List Syntax}
    (h : Spaced ((Syntax.array vs).tokens ++ tokens) text) :
    ∃ inner follow, skipBlanks (text.map some) = some '[' :: inner
      ∧ afterBracket inner = .ok follow ∧ Follows tokens vs follow := by
  cases vs with
  | nil =>
    rw [Json.Syntax.tokens] at h
    obtain ⟨inner, hinner, hopen⟩ := Spaced.skipBlanks_mark h (by decide)
    obtain ⟨rest, hrest, hclose⟩ := hinner.skipBlanks_mark (by decide)
    exact ⟨_, _, hopen, by rw [afterBracket, hclose]; rfl, rest, hrest, rfl⟩
  | cons v vs =>
    rw [Json.Syntax.tokens, List.cons_append, List.append_assoc] at h
    obtain ⟨inner, hinner, hopen⟩ := h.skipBlanks_mark (by decide)
    obtain ⟨c, tail, hstarts, htail, hblanks⟩ := Json.Syntax.skipBlanks_spaced hinner
    refine ⟨_, .element (some c :: tail.map some), hopen, ?_, c :: tail, htail, rfl⟩
    rw [afterBracket, hblanks]
    split
    next heq => cases heq
    next heq => exact absurd (Option.some.inj (List.cons.inj heq).1) hstarts.ne.2
    next => rfl

/-- The nodes of an array are read one after the other. -/
theorem gives_nodes {read : Reader Node} {take : Syntax → Outcome Node} {bound : Nat}
    (h : Reads read take bound) {vs : List Syntax} :
    ∀ {fuel : Nat} (before : List Node) {follow : Follow}, (∀ v ∈ vs, v.tokens.length ≤ bound) →
      vs.length ≤ fuel → Follows tokens vs follow →
      Gives tokens ((vs.mapM take).map (before.reverse ++ ·))
        (nodesWith read fuel before follow) := by
  induction vs with
  | nil =>
    rintro fuel before follow - - ⟨rest, hrest, rfl⟩
    refine ⟨rest, hrest, ?_⟩
    show _ = Except.ok (before.reverse ++ [], _)
    rw [List.append_nil]
    cases fuel <;> rfl
  | cons v vs ih =>
    rintro fuel before follow hbound hfuel ⟨text, htext, rfl⟩
    obtain ⟨fuel, rfl⟩ := Nat.exists_eq_add_of_le' (Nat.succ_le_of_lt (Nat.zero_lt_of_lt hfuel))
    have hnode := h (hbound v (List.mem_cons_self ..)) (Json.ending_elementTokens vs tokens) htext
    -- The reader keeps the nodes read so far in reverse order.
    have hbind : ((v :: vs).mapM take).map (before.reverse ++ ·)
        = take v >>= fun n => (vs.mapM take).map ((n :: before).reverse ++ ·) := by
      rw [List.mapM_cons]
      cases take v with
      | error e => rfl
      | ok n =>
        cases vs.mapM take with
        | error e => rfl
        | ok ns => simp [bind, Except.bind, pure, Except.pure, Except.map]
    rw [hbind, nodesWith]
    refine hnode.bind fun n behind _ hbehind => ?_
    obtain ⟨next, hnext, hfollows⟩ := afterElement_spaced hbehind
    have hrest := ih (n :: before) (fun w hw => hbound w (List.mem_cons_of_mem _ hw))
      (Nat.le_of_succ_le_succ hfuel) hfollows
    simp only [hnext, lift, bind, Except.bind]
    exact hrest

end

theorem Gives.of_ok {α : Type} {tokens : List (List Char)} {a : Outcome α} {x : α} {behind : Input}
    (h : Gives tokens a (.ok (x, behind))) :
    a = .ok x ∧ ∃ rest, Spaced tokens rest ∧ behind = rest.map some := by
  match a with
  | .ok a =>
    obtain ⟨rest, hrest, heq⟩ := h
    cases heq
    exact ⟨rfl, rest, hrest, rfl⟩
  | .error (some d) => cases h
  | .error none => exact absurd rfl (h _)

section

variable {readChildren : Reader (List Node)} {children : Syntax → Outcome (List Node)} {bound : Nat}
  {tokens : List (List Char)}

theorem closeArray_spaced {text : List Char} (h : Spaced (elementTokens [] ++ tokens) text) :
    ∃ rest, Spaced tokens rest ∧ closeArray (text.map some) = .ok (rest.map some) := by
  rw [elementTokens] at h
  obtain ⟨rest, hrest, hclose⟩ := h.skipBlanks_mark (by decide)
  refine ⟨rest, hrest, ?_⟩
  rw [closeArray, hclose]
  rfl

/-- Fields that are neither in a draft nor the field that comes into it. -/
theorem new_takeField {draft draft' : Draft} {field : Field} {v : Syntax} {fields : List Field}
    (hnodup : (field :: fields).Nodup) (hnew : ∀ f ∈ field :: fields, draft.has f = false)
    (h : takeField children draft field v = .ok draft') : ∀ f ∈ fields, draft'.has f = false := by
  intro f hf
  have hne : field ≠ f := fun heq => (List.nodup_cons.mp hnodup).1 (heq ▸ hf)
  rw [has_takeField h, hnew f (List.mem_cons_of_mem _ hf), decide_eq_false hne]
  rfl

/-- An array that is not longer than the fields is read as their values, one after the other. -/
theorem gives_positional (h : Reads readChildren children bound) {fields : List Field} :
    ∀ {vs : List Syntax} (draft : Draft) {follow : Follow}, (∀ v ∈ vs, v.tokens.length ≤ bound) →
      vs.length ≤ fields.length → fields.Nodup → (∀ f ∈ fields, draft.has f = false) →
      Follows tokens vs follow →
      Gives tokens (takeFields children draft (fields.zip vs))
        (positional readChildren draft fields follow) := by
  induction fields with
  | nil =>
    intro vs draft follow _ hlength _ _ hfollows
    obtain rfl := List.length_eq_zero_iff.mp (Nat.le_zero.mp hlength)
    obtain ⟨rest, hrest, rfl⟩ := hfollows
    exact Gives.ok hrest
  | cons field fields ih =>
    intro vs draft follow hbound hlength hnodup hnew hfollows
    cases vs with
    | nil =>
      obtain ⟨rest, hrest, rfl⟩ := hfollows
      cases fields <;> exact Gives.ok hrest
    | cons v vs =>
      obtain ⟨text, htext, rfl⟩ := hfollows
      have hfield := reads_readField h draft field (hbound v (List.mem_cons_self ..))
        (Json.ending_elementTokens vs tokens) htext
      rw [List.zip_cons_cons, takeFields, hnew field (List.mem_cons_self ..),
        if_neg Bool.false_ne_true]
      cases fields with
      | nil =>
        obtain rfl := List.length_eq_zero_iff.mp (Nat.le_zero.mp (Nat.le_of_succ_le_succ hlength))
        refine hfield.bind fun next behind _ hbehind => ?_
        obtain ⟨rest, hrest, hclose⟩ := closeArray_spaced hbehind
        simp only [hclose, lift, bind, Except.bind]
        exact Gives.ok hrest
      | cons field' fields =>
        refine hfield.bind fun next behind htake hbehind => ?_
        obtain ⟨follow, hfollow, hfollows⟩ := afterElement_spaced hbehind
        simp only [hfollow, lift, bind, Except.bind]
        exact ih next (fun w hw => hbound w (List.mem_cons_of_mem _ hw))
          (Nat.le_of_succ_le_succ hlength) (List.nodup_cons.mp hnodup).2
          (new_takeField hnodup hnew htake) hfollows

/-- An array that is longer than the fields is refused. -/
theorem length_le_of_positional (h : Reads readChildren children bound) {fields : List Field} :
    ∀ {vs : List Syntax} {draft draft' : Draft} {follow : Follow} {rest : Input},
      (∀ v ∈ vs, v.tokens.length ≤ bound) → Follows tokens vs follow →
      positional readChildren draft fields follow = .ok (draft', rest) →
      vs.length ≤ fields.length := by
  induction fields with
  | nil =>
    intro vs draft draft' follow rest _ hfollows hread
    cases vs with
    | nil => exact Nat.le_refl _
    | cons v vs =>
      obtain ⟨text, -, rfl⟩ := hfollows
      cases hread
  | cons field fields ih =>
    intro vs draft draft' follow rest hbound hfollows hread
    cases vs with
    | nil => exact Nat.zero_le _
    | cons v vs =>
      obtain ⟨text, htext, rfl⟩ := hfollows
      obtain ⟨next, behind, follow', hfield, hfollow, hread⟩ := positional_element_eq_ok hread
      have hgives := reads_readField h draft field (hbound v (List.mem_cons_self ..))
        (Json.ending_elementTokens vs tokens) htext
      rw [hfield] at hgives
      obtain ⟨-, left, hleft, rfl⟩ := hgives.of_ok
      obtain ⟨follow'', hfollow', hfollows⟩ := afterElement_spaced hleft
      rw [hfollow'] at hfollow
      cases hfollow
      exact Nat.succ_le_succ
        (ih (fun w hw => hbound w (List.mem_cons_of_mem _ hw)) hfollows hread)

end

/-! ## Nodes -/

/-- A node is made of the fields that were read. -/
theorem gives_finished {tokens : List (List Char)} {draft : Draft} {rest : List Char}
    (h : Spaced tokens rest) :
    Gives tokens (finished draft)
      (draft.finish >>= fun node => (.ok (node, rest.map some) : Except DecodeError _)) := by
  rw [finished]
  cases hfinish : draft.finish with
  | ok node => exact Gives.ok h
  | error e =>
    cases e with
    | defect d => exact rfl
    | _ => exact fun x hx => by cases hx

theorem reads_nodes {read : Reader Node} {take : Syntax → Outcome Node} {bound fuel : Nat}
    (h : Reads read take bound) (hfuel : bound ≤ fuel) :
    Reads (nodes fuel (some read)) (nodesOf take) bound := by
  intro v tokens text hbound hending htext
  obtain ⟨c, tail, hstarts, -, hblanks⟩ := Json.Syntax.skipBlanks_spaced htext
  by_cases hc : c = '['
  · subst hc
    obtain ⟨vs, rfl⟩ := hstarts.eq_array
    obtain ⟨inner, follow, hopen, hfollow, hfollows⟩ := afterBracket_spaced htext
    have hlength := Json.Syntax.length_array_tokens vs
    have hnodes := gives_nodes h []
      (fun w hw => Nat.le_trans (hlength.2 w hw) hbound)
      (Nat.le_trans hlength.1 (Nat.le_trans hbound hfuel)) hfollows
    have hmap : (vs.mapM take).map ([].reverse ++ ·) = nodesOf take (.array vs) := by
      rw [nodesOf]
      cases vs.mapM take <;> rfl
    rw [hmap] at hnodes
    rw [nodes, hopen]
    simp only [hfollow, lift, bind, Except.bind]
    exact hnodes
  · have hnone : nodesOf take v = .error none := by
      cases v with
      | array vs => exact absurd hstarts hc
      | _ => rfl
    rw [hnone]
    rintro ⟨ns, rest⟩ hread
    obtain ⟨_, inner, _, _, hopen, -, -⟩ := nodes_eq_ok hread
    obtain ⟨heq, -⟩ := List.cons.inj (hblanks.symm.trans hopen)
    exact hc (Option.some.inj heq)

section

variable {readChildren : Reader (List Node)} {children : Syntax → Outcome (List Node)}
  {bound fuel : Nat}

/-- An object is read as the node that its members mean. -/
theorem gives_object (h : Reads readChildren children bound) (hfuel : bound ≤ fuel)
    {ms : List (Quoted × Syntax)} {tokens : List (List Char)} {text : List Char}
    (hbound : (Syntax.object ms).tokens.length ≤ bound)
    (htext : Spaced ((Syntax.object ms).tokens ++ tokens) text) :
    Gives tokens (ms.foldlM (takeMember children) {} >>= finished)
      (nodeAbove fuel (some readChildren) (text.map some)) := by
  have hlength := Json.Syntax.length_object_tokens ms
  cases ms with
  | nil =>
    rw [Json.Syntax.tokens] at htext
    obtain ⟨inner, hinner, hopen⟩ := Spaced.skipBlanks_mark htext (by decide)
    obtain ⟨rest, -, hclose⟩ := hinner.skipBlanks_mark (by decide)
    rw [nodeAbove_of_brace hopen, members, hclose]
    exact fun x hx => by cases hx
  | cons m ms =>
    rw [Json.Syntax.tokens, List.cons_append, List.append_assoc] at htext
    obtain ⟨inner, hinner, hopen⟩ := htext.skipBlanks_mark (by decide)
    have hmembers := gives_members h {} fuel
      (fun n hn => Nat.le_trans (hlength.2 n hn) hbound)
      (Nat.le_trans hlength.1 (Nat.le_trans hbound hfuel)) hinner
    obtain ⟨_, _, _, _, hquote, _⟩ := Json.member_spaced hinner
    rw [hquote] at hmembers
    rw [nodeAbove_of_brace hopen, members_of_quote hquote]
    exact hmembers.bind fun draft rest _ hrest => gives_finished hrest

/-- An array is read as the node that its elements mean in their order. -/
theorem gives_array (h : Reads readChildren children bound) {vs : List Syntax}
    {tokens : List (List Char)} {text : List Char}
    (hbound : (Syntax.array vs).tokens.length ≤ bound)
    (htext : Spaced ((Syntax.array vs).tokens ++ tokens) text)
    (hlength : vs.length ≤ Field.all.length) :
    Gives tokens (takeFields children {} (Field.all.zip vs) >>= finished)
      (nodeAbove fuel (some readChildren) (text.map some)) := by
  obtain ⟨inner, follow, hopen, hfollow, hfollows⟩ := afterBracket_spaced htext
  rw [nodeAbove, hopen]
  simp only [hfollow, lift]
  cases vs with
  | nil =>
    obtain ⟨rest, -, rfl⟩ := hfollows
    exact fun x hx => by cases hx
  | cons v vs =>
    have hfields := gives_positional h {}
      (fun w hw => Nat.le_trans ((Json.Syntax.length_array_tokens _).2 w hw) hbound) hlength
      (by decide) (fun f _ => by cases f <;> rfl) hfollows
    obtain ⟨next, -, rfl⟩ := hfollows
    exact hfields.bind fun draft rest _ hrest => gives_finished hrest

/-- An array with more elements than there are fields is refused. -/
theorem array_ne_ok (h : Reads readChildren children bound) {vs : List Syntax}
    {tokens : List (List Char)} {text : List Char}
    (hbound : (Syntax.array vs).tokens.length ≤ bound)
    (htext : Spaced ((Syntax.array vs).tokens ++ tokens) text)
    (hlength : ¬ vs.length ≤ Field.all.length) (x : Node × Input) :
    nodeAbove fuel (some readChildren) (text.map some) ≠ .ok x := by
  intro hread
  obtain ⟨inner, follow, hopen, hfollow, hfollows⟩ := afterBracket_spaced htext
  obtain ⟨_, inner', draft, hsome, -, ⟨hbrace, -⟩ | ⟨hbracket, hfields⟩⟩ := nodeAbove_eq_ok hread
  · obtain ⟨heq, -⟩ := List.cons.inj (hopen.symm.trans hbrace)
    cases heq
  · cases hsome
    obtain ⟨-, rfl⟩ := List.cons.inj (hopen.symm.trans hbracket)
    rcases afterBracket_eq_ok hfollow with ⟨behind, rfl, -⟩ | rfl
    · cases vs with
      | nil => exact hlength (Nat.zero_le _)
      | cons v vs =>
        obtain ⟨next, -, heq⟩ := hfollows
        cases heq
    · exact hlength (length_le_of_positional h
        (fun w hw => Nat.le_trans ((Json.Syntax.length_array_tokens _).2 w hw) hbound)
        hfollows hfields)

theorem reads_nodeAbove (h : Reads readChildren children bound) (hfuel : bound ≤ fuel) :
    Reads (nodeAbove fuel (some readChildren)) (nodeOf children) bound := by
  intro v tokens text hbound hending htext
  have hrefused : v.fields? = none → nodeOf children v = .error none := by
    intro hfields
    rw [nodeOf, Json.Syntax.node?, hfields]
    rfl
  cases v with
  | object ms =>
    have hobject := gives_object h hfuel hbound htext
    by_cases hkeys : (ms.all fun m => m.1.string?.isSome) = true
    · rw [takeMembers_eq (List.all_eq_true.mp hkeys)] at hobject
      have hfields : (Syntax.object ms).fields? = some (Json.knownFields ms) := if_pos hkeys
      exact hobject.of_agrees (agrees_nodeOf children hfields)
    · -- The key that is no string is refused when it is reached, unless another fault comes first.
      rw [hrefused (if_neg hkeys)]
      refine hobject.of_agrees fun node hnode => ?_
      obtain ⟨draft, htake, -⟩ := bind_eq_ok.mp hnode
      exact hkeys (List.all_eq_true.mpr (takeMembers_eq_ok htake))
  | array vs =>
    by_cases hlength : vs.length ≤ Field.all.length
    · have hfields : (Syntax.array vs).fields? = some (Field.all.zip vs) := if_pos hlength
      exact (gives_array h hbound htext hlength).of_agrees (agrees_nodeOf children hfields)
    · rw [hrefused (if_neg hlength)]
      exact array_ne_ok h hbound htext hlength
  | null | bool _ | number _ | string _ =>
    rw [hrefused rfl]
    rintro ⟨node, rest⟩ hread
    obtain ⟨c, tail, hstarts, -, hblanks⟩ := Json.Syntax.skipBlanks_spaced htext
    obtain ⟨_, inner, _, -, -, ⟨hopen, -⟩ | ⟨hopen, -⟩⟩ := nodeAbove_eq_ok hread
    · obtain ⟨heq, -⟩ := List.cons.inj (hblanks.symm.trans hopen)
      cases heq
      obtain ⟨ms, hms⟩ := hstarts.eq_object
      cases hms
    · obtain ⟨heq, -⟩ := List.cons.inj (hblanks.symm.trans hopen)
      cases heq
      obtain ⟨vs, hvs⟩ := hstarts.eq_array
      cases hvs

end

/-- **A node is read as what it means.** The induction goes down the levels by two, from a node to
its children. -/
theorem reads_node {bound fuel : Nat} (hfuel : bound ≤ fuel) :
    ∀ levels, Reads (node fuel levels) (meaning levels) bound
  | 0 => by
    rintro v tokens text - - - ⟨tree, rest⟩ hread
    obtain ⟨_, _, _, hnone, -⟩ := nodeAbove_eq_ok hread
    cases hnone
  | 1 => by
    refine reads_nodeAbove ?_ hfuel
    rintro v tokens text - - - ⟨ns, rest⟩ hread
    obtain ⟨_, _, _, hnone, -⟩ := nodes_eq_ok hread
    cases hnone
  | levels + 2 => reads_nodeAbove (reads_nodes (reads_node hfuel levels) hfuel) hfuel

/-! ## Documents -/

/-- A text comes to what the value means that it spells: it is accepted when the value has a
meaning, with that tree, and refused for a defect when the value has one. -/
theorem decode_spells {text : String} {v : Syntax} (h : Spells text v) :
    (∀ tree, Node.decode text = .ok tree ↔ meaning levelLimit v = .ok tree)
      ∧ ∀ d, meaning levelLimit v = .error (some d) → Node.decode text = .error (.defect d) := by
  have hspaced : Spaced (v.tokens ++ []) text.toList := by
    rw [List.append_nil]
    exact h
  -- No token is empty, so the fuel, which is one more than the length of the text, is enough.
  have hbound : v.tokens.length ≤ (text.toList.map some).length + 1 := by
    have hlength := hspaced.length_le_of_append v.ne_nil_of_mem_tokens
    rw [List.length_map]
    omega
  have hread := reads_node (Nat.le_refl _) levelLimit hbound (show Ending [] from trivial) hspaced
  rw [Node.decode, document]
  generalize meaning levelLimit v = meant at hread
  rcases meant with (_ | d) | tree
  case error.none =>
    refine ⟨fun tree => ⟨fun hok => ?_, fun hok => ?_⟩, fun d hd => ?_⟩
    · obtain ⟨x, hx, -⟩ := bind_eq_ok.mp hok
      exact absurd hx (hread x)
    · cases hok
    · cases hd
  case error.some =>
    rw [show node _ _ _ = .error (.defect d) from hread]
    refine ⟨fun tree => ⟨fun hok => ?_, fun hok => ?_⟩, fun d' hd => ?_⟩
    · cases hok
    · cases hok
    · cases hd
      rfl
  case ok =>
    obtain ⟨rest, hrest, hnode⟩ := hread
    have hdone : document (text.toList.map some) = .ok tree := by
      rw [document, hnode]
      simp only [bind, Except.bind, hrest.skipBlanks_nil]
      rfl
    rw [document] at hdone
    rw [hdone]
    refine ⟨fun other => ⟨fun heq => ?_, fun heq => ?_⟩, fun d hd => by cases hd⟩
    · cases heq
      rfl
    · cases heq
      rfl

end Bracketdown.Decode
