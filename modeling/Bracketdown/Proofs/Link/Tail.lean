import Bracketdown.Link.Literal

/-!
# What an URL sheds

The end of an URL is trimmed of what more likely belongs to the sentence around it. `Shed` says what
the part that is cut off may consist of, read from the right: punctuation, closing parentheses that
the text up to them has too many of, and references. `Settled` says that nothing of the sort is left
at an end. Trimming keeps to both (`shed_trimTail`, `settled_trimTail`), and together they fix where
the cut is (`trimTail_eq_iff`).

Whether a parenthesis may go depends on all that stands before it, and a reference that goes may
bare one that could not go before. Only a part that could shed nothing itself and holds neither
parentheses nor references is out of the question; what is behind it is trimmed as if it stood alone
(`trimTail_append`).
-/

namespace Bracketdown.Link

/-! ## References -/

/-- A reference that ends a text, which is written backwards. -/
theorem dropReference?_eq_some {s rest : List Char} :
    dropReference? s = some rest
      ↔ ∃ name, name ≠ [] ∧ (∀ c ∈ name, c.isAlphanum = true) ∧ s = name ++ '&' :: rest := by
  constructor
  · intro h
    have hcut : s.takeWhile Char.isAlphanum ++ s.dropWhile Char.isAlphanum = s :=
      List.takeWhile_append_dropWhile
    unfold dropReference? at h
    split at h
    next c cs _ htake hdrop =>
      cases h
      refine ⟨c :: cs, List.cons_ne_nil c cs, ?_, ?_⟩
      · rw [← htake]
        exact List.all_eq_true.mp List.all_takeWhile
      · rw [← hcut, htake, hdrop]
    · cases h
  · rintro ⟨name, hne, hname, rfl⟩
    have htake : (name ++ '&' :: rest).takeWhile Char.isAlphanum = name := by
      rw [List.takeWhile_append_of_pos hname, List.takeWhile_cons_of_neg (by decide),
        List.append_nil]
    have hdrop : (name ++ '&' :: rest).dropWhile Char.isAlphanum = '&' :: rest := by
      rw [List.dropWhile_append_of_pos hname, List.dropWhile_cons_of_neg (by decide)]
    obtain ⟨c, cs, rfl⟩ := List.exists_cons_of_ne_nil hne
    rw [dropReference?, htake, hdrop]
    rfl

/-- What stands in front of the first ampersand of a text, written backwards, is a name or not. -/
theorem dropReference?_of_not_mem {name : List Char} (h : '&' ∉ name) (rest : List Char) :
    dropReference? (name ++ '&' :: rest)
      = if !name.isEmpty && name.all Char.isAlphanum then some rest else none := by
  have hfirst : ∀ before behind : List Char, '&' ∉ before →
      (before ++ '&' :: behind).takeWhile (· ≠ '&') = before := by
    intro before behind hbefore
    rw [List.takeWhile_append_of_pos, List.takeWhile_cons_of_neg (by decide), List.append_nil]
    intro c hc
    exact decide_eq_true fun heq => hbefore (heq ▸ hc)
  split
  next hname =>
    rw [Bool.and_eq_true, Bool.not_eq_true', List.isEmpty_eq_false_iff, List.all_eq_true] at hname
    exact dropReference?_eq_some.mpr ⟨name, hname.1, hname.2, rfl⟩
  next hname =>
    refine Option.eq_none_iff_forall_ne_some.mpr fun rest' hrest => hname ?_
    obtain ⟨name', hne, halphanum, hcut⟩ := dropReference?_eq_some.mp hrest
    have hamp : '&' ∉ name' := fun hmem => absurd (halphanum _ hmem) (by decide)
    have heq : name = name' := by rw [← hfirst name rest h, hcut, hfirst name' rest' hamp]
    rw [Bool.and_eq_true, Bool.not_eq_true', List.isEmpty_eq_false_iff, List.all_eq_true, heq]
    exact ⟨hne, halphanum⟩

/-- A text without an ampersand in front of another adds no reference to it. -/
theorem dropReference?_append {s last : List Char} (h : '&' ∉ last) :
    dropReference? (s ++ last) = (dropReference? s).map (· ++ last) := by
  have hiff : ∀ rest, dropReference? (s ++ last) = some rest
      ↔ (dropReference? s).map (· ++ last) = some rest := by
    intro rest
    rw [Option.map_eq_some_iff]
    constructor
    · intro hdrop
      obtain ⟨name, hne, hname, hcut⟩ := dropReference?_eq_some.mp hdrop
      rcases List.append_eq_append_iff.mp hcut with ⟨more, -, hlast⟩ | ⟨more, hs, hmore⟩
      · refine absurd ?_ h
        rw [hlast]
        exact List.mem_append_right more (List.mem_cons_self ..)
      · -- The ampersand is in the first text, for there is none in the second.
        cases more with
        | nil =>
          refine absurd ?_ h
          rw [← List.nil_append last, ← hmore]
          exact List.mem_cons_self ..
        | cons c more =>
          rw [List.cons_append, List.cons.injEq] at hmore
          obtain ⟨rfl, rfl⟩ := hmore
          exact ⟨more, dropReference?_eq_some.mpr ⟨name, hne, hname, hs⟩, rfl⟩
    · rintro ⟨rest', hdrop, rfl⟩
      obtain ⟨name, hne, hname, rfl⟩ := dropReference?_eq_some.mp hdrop
      refine dropReference?_eq_some.mpr ⟨name, hne, hname, ?_⟩
      rw [List.append_assoc, List.cons_append]
  exact Option.ext hiff

/-! ## What is cut off -/

/-- What may be cut off behind a text: from the right, one piece after the other. -/
inductive Shed (kept : List Char) : List Char → Prop where
  | nothing : Shed kept []
  | punctuation {tail : List Char} {c : Char} (h : Shed kept tail)
    (hc : isTailPunctuation c = true) : Shed kept (tail ++ [c])
  /-- A closing parenthesis, when there are more of these up to here than opening ones. -/
  | parenthesis {tail : List Char} (h : Shed kept tail)
    (hcount : (kept ++ (tail ++ [')'])).count '(' < (kept ++ (tail ++ [')'])).count ')') :
    Shed kept (tail ++ [')'])
  | reference {tail name : List Char} (h : Shed kept tail) (hne : name ≠ [])
    (hname : ∀ c ∈ name, c.isAlphanum = true) : Shed kept (tail ++ '&' :: (name ++ [';']))

/-- A text that has nothing at its end that may be cut off. -/
structure Settled (s : List Char) : Prop where
  punctuation : ∀ c ∈ s.getLast?, isTailPunctuation c = false
  parenthesis : s.getLast? = some ')' → s.count ')' ≤ s.count '('
  reference : ∀ before name, s = before ++ '&' :: (name ++ [';']) → name ≠ [] →
    ¬ ∀ c ∈ name, c.isAlphanum = true

theorem count_close_cons (rest : List Char) :
    ((')' :: rest).count '(' < (')' :: rest).count ')')
      ↔ rest.count '(' < rest.count ')' + 1 := by
  rw [List.count_cons_of_ne (by decide), List.count_cons_self]

/-- What trimming takes away, both texts written backwards. -/
theorem shed_trimReversed (s : List Char) :
    ∃ tail, s.reverse = (trimReversed s).reverse ++ tail ∧ Shed (trimReversed s).reverse tail := by
  fun_induction trimReversed s with
  | case1 => exact ⟨[], rfl, .nothing⟩
  | case2 c rest hc ih =>
    obtain ⟨tail, hcut, hshed⟩ := ih
    exact ⟨tail ++ [c], by rw [List.reverse_cons, hcut, List.append_assoc], hshed.punctuation hc⟩
  | case3 c rest _ hc ih =>
    obtain ⟨tail, hcut, hshed⟩ := ih
    obtain ⟨rfl, hcount⟩ := hc
    have hcut' : (')' :: rest).reverse = (trimReversed rest).reverse ++ (tail ++ [')']) := by
      rw [List.reverse_cons, hcut, List.append_assoc]
    refine ⟨tail ++ [')'], hcut', hshed.parenthesis ?_⟩
    rw [← hcut', List.count_reverse, List.count_reverse]
    exact (count_close_cons rest).mpr hcount
  | case4 rest rest' hdrop _ _ ih =>
    obtain ⟨tail, hcut, hshed⟩ := ih
    obtain ⟨name, hne, hname, rfl⟩ := dropReference?_eq_some.mp hdrop
    refine ⟨tail ++ '&' :: (name.reverse ++ [';']), ?_, hshed.reference ?_ ?_⟩
    · simp [hcut]
    · exact mt List.reverse_eq_nil_iff.mp hne
    · exact fun c hc => hname c (List.mem_reverse.mp hc)
  | case5 => exact ⟨[], (List.append_nil _).symm, .nothing⟩
  | case6 => exact ⟨[], (List.append_nil _).symm, .nothing⟩

/-- **Trimming cuts off nothing else.** -/
theorem shed_trimTail (s : List Char) :
    ∃ tail, s = trimTail s ++ tail ∧ Shed (trimTail s) tail := by
  have h := shed_trimReversed s.reverse
  rw [List.reverse_reverse] at h
  exact h

/-- A text, written backwards, that starts with a character which may stay. -/
theorem settled_reverse_cons {c : Char} {rest : List Char}
    (hpunctuation : isTailPunctuation c = false)
    (hparenthesis : c = ')' → rest.count ')' + 1 ≤ rest.count '(')
    (hreference : c = ';' → dropReference? rest = none) : Settled (c :: rest).reverse where
  punctuation := by
    intro d hd
    rw [List.reverse_cons, List.getLast?_concat, Option.mem_some_iff] at hd
    rw [← hd]
    exact hpunctuation
  parenthesis := by
    intro hlast
    rw [List.reverse_cons, List.getLast?_concat, Option.some.injEq] at hlast
    subst hlast
    rw [List.count_reverse, List.count_reverse, List.count_cons_self,
      List.count_cons_of_ne (by decide)]
    exact hparenthesis rfl
  reference := by
    intro before name hcut hne hname
    have hcons : c :: rest = ';' :: (name.reverse ++ '&' :: before.reverse) := by
      rw [← List.reverse_reverse (c :: rest), hcut]
      simp
    obtain ⟨rfl, rfl⟩ := List.cons.inj hcons
    have hdrop : dropReference? (name.reverse ++ '&' :: before.reverse) = some before.reverse :=
      dropReference?_eq_some.mpr ⟨name.reverse, mt List.reverse_eq_nil_iff.mp hne,
        fun c hc => hname c (List.mem_reverse.mp hc), rfl⟩
    have hnone := hreference rfl
    rw [hdrop] at hnone
    cases hnone

theorem settled_trimReversed (s : List Char) : Settled (trimReversed s).reverse := by
  fun_induction trimReversed s with
  | case1 =>
    refine ⟨fun c hc => (by cases hc), fun h => (by cases h), fun before name hcut => ?_⟩
    exact absurd hcut.symm (List.append_ne_nil_of_right_ne_nil _ (List.cons_ne_nil _ _))
  | case2 _ _ _ ih => exact ih
  | case3 _ _ _ _ ih => exact ih
  | case4 _ _ _ _ _ ih => exact ih
  | case5 rest hdrop _ _ =>
    exact settled_reverse_cons (by decide) (fun h => absurd h (by decide)) (fun _ => hdrop)
  | case6 c rest hpunctuation hparenthesis hreference =>
    refine settled_reverse_cons (Bool.eq_false_iff.mpr hpunctuation) (fun hc => ?_)
      (fun hc => absurd hc hreference)
    exact Nat.le_of_not_lt fun hcount => hparenthesis ⟨hc, by omega⟩

/-- **Trimming goes on until nothing may be cut off.** -/
theorem settled_trimTail (s : List Char) : Settled (trimTail s) := settled_trimReversed s.reverse

/-! ## Where the cut is -/

/-- A text with nothing at its end that may be cut off stays, written backwards. -/
theorem trimReversed_of_settled {s : List Char} (h : Settled s.reverse) : trimReversed s = s := by
  cases s with
  | nil => rw [trimReversed]
  | cons c rest =>
    have hlast : (c :: rest).reverse.getLast? = some c := by
      rw [List.reverse_cons, List.getLast?_concat]
    have hpunctuation : ¬ isTailPunctuation c = true :=
      Bool.eq_false_iff.mp (h.punctuation c hlast)
    have hparenthesis : ¬ (c = ')' ∧ rest.count '(' < rest.count ')' + 1) := by
      rintro ⟨rfl, hcount⟩
      have hle := h.parenthesis hlast
      rw [List.count_reverse, List.count_reverse] at hle
      exact Nat.not_lt.mpr hle ((count_close_cons rest).mpr hcount)
    rw [trimReversed, if_neg hpunctuation, if_neg hparenthesis]
    split
    next hc =>
      split
      next rest' hdrop =>
        obtain ⟨name, hne, hname, rfl⟩ := dropReference?_eq_some.mp hdrop
        refine absurd (fun d hd => hname d (List.mem_reverse.mp hd))
          (h.reference rest'.reverse name.reverse ?_ (mt List.reverse_eq_nil_iff.mp hne))
        simp [hc]
      next => rfl
    · rfl

/-- What may be cut off makes no difference to what trimming leaves. -/
theorem Shed.trimTail_append {kept tail : List Char} (h : Shed kept tail) :
    trimTail (kept ++ tail) = trimTail kept := by
  unfold trimTail
  rw [List.reverse_inj]
  induction h with
  | nothing => rw [List.append_nil]
  | @punctuation tail c _ hc ih =>
    rw [← List.append_assoc, List.reverse_concat, trimReversed, if_pos hc, ih]
  | @parenthesis tail _ hcount ih =>
    rw [← List.append_assoc] at hcount ⊢
    have hexcess : (kept ++ tail).reverse.count '(' < (kept ++ tail).reverse.count ')' + 1 := by
      rw [← List.count_reverse, ← List.count_reverse (a := ')'), List.reverse_concat] at hcount
      exact (count_close_cons _).mp hcount
    rw [List.reverse_concat, trimReversed, if_neg (by decide), if_pos ⟨rfl, hexcess⟩, ih]
  | @reference tail name _ hne hname ih =>
    have hreverse : (kept ++ (tail ++ '&' :: (name ++ [';']))).reverse
        = ';' :: (name.reverse ++ '&' :: (kept ++ tail).reverse) := by simp
    have hdrop : dropReference? (name.reverse ++ '&' :: (kept ++ tail).reverse)
        = some (kept ++ tail).reverse :=
      dropReference?_eq_some.mpr ⟨name.reverse, mt List.reverse_eq_nil_iff.mp hne,
        fun c hc => hname c (List.mem_reverse.mp hc), rfl⟩
    rw [hreverse, trimReversed, if_neg (by decide), if_neg fun hc => absurd hc.1 (by decide),
      if_pos rfl]
    split
    next rest hrest =>
      rw [hdrop, Option.some.injEq] at hrest
      rw [← hrest, ih]
    next hnone =>
      rw [hdrop] at hnone
      cases hnone

theorem Settled.trimTail_eq {s : List Char} (h : Settled s) : trimTail s = s := by
  rw [trimTail, trimReversed_of_settled (s.reverse_reverse.symm ▸ h), List.reverse_reverse]

/-- **There is one cut** that takes away only what may be cut off and leaves nothing of the sort. -/
theorem trimTail_eq_iff {s kept : List Char} :
    trimTail s = kept ↔ Settled kept ∧ ∃ tail, s = kept ++ tail ∧ Shed kept tail := by
  constructor
  · rintro rfl
    exact ⟨settled_trimTail s, shed_trimTail s⟩
  · rintro ⟨hsettled, tail, rfl, hshed⟩
    rw [hshed.trimTail_append, hsettled.trimTail_eq]

/-! ## Text in front -/

/-- Text without parentheses in front changes nothing of what may be cut off. -/
theorem Shed.behind {first kept tail : List Char} (hopen : '(' ∉ first) (hclose : ')' ∉ first)
    (h : Shed kept tail) : Shed (first ++ kept) tail := by
  induction h with
  | nothing => exact .nothing
  | punctuation _ hc ih => exact ih.punctuation hc
  | parenthesis _ hcount ih =>
    have hcounts : ∀ rest : List Char, (first ++ rest).count '(' = rest.count '('
        ∧ (first ++ rest).count ')' = rest.count ')' := fun rest => by
      rw [List.count_append, List.count_append, List.count_eq_zero.mpr hopen,
        List.count_eq_zero.mpr hclose, Nat.zero_add, Nat.zero_add]
      exact ⟨rfl, rfl⟩
    refine ih.parenthesis ?_
    rw [List.append_assoc, (hcounts _).1, (hcounts _).2]
    exact hcount
  | reference _ hne hname ih => exact ih.reference hne hname

/-- What stays of a text stays when there is more in front of it, unless it is all trimmed. -/
theorem Settled.behind {first kept : List Char} (hopen : '(' ∉ first) (hclose : ')' ∉ first)
    (hamp : '&' ∉ first) (hne : kept ≠ []) (h : Settled kept) : Settled (first ++ kept) := by
  have hlast : (first ++ kept).getLast? = kept.getLast? := by
    rw [List.getLast?_append, List.getLast?_eq_some_getLast hne, Option.some_or]
  refine ⟨?_, ?_, ?_⟩
  · rw [hlast]
    exact h.punctuation
  · rw [hlast, List.count_append, List.count_append, List.count_eq_zero.mpr hopen,
      List.count_eq_zero.mpr hclose, Nat.zero_add, Nat.zero_add]
    exact h.parenthesis
  · intro before name hcut hname
    rcases List.append_eq_append_iff.mp hcut with ⟨more, hbefore, hkept⟩ | ⟨more, hfirst, hmore⟩
    · exact h.reference more name hkept hname
    · -- The ampersand is not in front.
      cases more with
      | nil => exact h.reference [] name hmore.symm hname
      | cons c more =>
        rw [List.cons_append, List.cons.injEq] at hmore
        refine absurd ?_ hamp
        rw [hfirst, ← hmore.1]
        exact List.mem_append_right before (List.mem_cons_self ..)

/-- Behind a text that sheds nothing and has neither parentheses nor ampersands, both texts written
backwards. -/
theorem trimReversed_append {c : Char} {last : List Char}
    (hpunctuation : isTailPunctuation c = false)
    (hsemicolon : c ≠ ';') (hopen : '(' ∉ c :: last) (hclose : ')' ∉ c :: last)
    (hamp : '&' ∉ c :: last) (s : List Char) :
    trimReversed (s ++ c :: last) = trimReversed s ++ c :: last := by
  fun_induction trimReversed s with
  | case1 =>
    rw [List.nil_append, trimReversed, if_neg (Bool.eq_false_iff.mp hpunctuation),
      if_neg, if_neg hsemicolon]
    rintro ⟨rfl, -⟩
    exact hclose (List.mem_cons_self ..)
  | case2 d rest hd ih => rw [List.cons_append, trimReversed, if_pos hd, ih]
  | case3 d rest hd hparenthesis ih =>
    rw [List.cons_append, trimReversed, if_neg hd, if_pos, ih]
    rw [List.count_append, List.count_append, List.count_eq_zero.mpr hopen,
      List.count_eq_zero.mpr hclose]
    exact hparenthesis
  | case4 rest rest' hdrop hd _ ih =>
    have hdrop' : dropReference? (rest ++ c :: last) = some (rest' ++ c :: last) := by
      rw [dropReference?_append hamp, hdrop]
      rfl
    rw [List.cons_append, trimReversed, if_neg hd, if_neg fun h => absurd h.1 (by decide),
      if_pos rfl]
    split
    next heq =>
      rw [hdrop', Option.some.injEq] at heq
      rw [← heq, ih]
    next heq =>
      rw [hdrop'] at heq
      cases heq
  | case5 rest hdrop hd _ =>
    have hdrop' : dropReference? (rest ++ c :: last) = none := by
      rw [dropReference?_append hamp, hdrop]
      rfl
    rw [List.cons_append, trimReversed, if_neg hd, if_neg fun h => absurd h.1 (by decide),
      if_pos rfl]
    split
    next heq =>
      rw [hdrop'] at heq
      cases heq
    next => rfl
  | case6 d rest hd hparenthesis hreference =>
    rw [List.cons_append, trimReversed, if_neg hd, if_neg, if_neg hreference]
    rw [List.count_append, List.count_append, List.count_eq_zero.mpr hopen,
      List.count_eq_zero.mpr hclose]
    exact hparenthesis

/-- **What is behind a firm text is trimmed as if it stood alone.** -/
theorem trimTail_append {first : List Char} {c : Char} (hpunctuation : isTailPunctuation c = false)
    (hsemicolon : c ≠ ';') (hopen : '(' ∉ first ++ [c]) (hclose : ')' ∉ first ++ [c])
    (hamp : '&' ∉ first ++ [c]) (s : List Char) :
    trimTail (first ++ [c] ++ s) = first ++ [c] ++ trimTail s := by
  have hswap : ∀ d, d ∉ first ++ [c] → d ∉ c :: first.reverse := by
    intro d hd hmem
    refine hd (List.mem_append.mpr ?_)
    rcases List.mem_cons.mp hmem with rfl | hmem
    · exact .inr (List.mem_singleton.mpr rfl)
    · exact .inl (List.mem_reverse.mp hmem)
  have htrim := trimReversed_append hpunctuation hsemicolon (hswap _ hopen) (hswap _ hclose)
    (hswap _ hamp) s.reverse
  rw [trimTail, List.reverse_append, List.reverse_append, List.reverse_singleton,
    List.singleton_append, htrim, List.reverse_append, List.reverse_cons, List.reverse_reverse,
    trimTail]

end Bracketdown.Link
