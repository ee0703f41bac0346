-- Products in returns, said without a scanner: the text has the word `return`, and
-- further on in its statement a star with a call on one side. A return in the same
-- statement as an earlier one is not looked at again, and tells nothing more.
import BigO.Proofs.BareBodies
import BigO.Proofs.WholeWords

namespace BigO.Recursion

open BigO.Text BigO.Scan BigO.Scan.Scanner

/-! ## Products -/

/-- A part of a dotted name. -/
def isDotted (c : Char) : Bool :=
  isWord c || c == '.'

/-- A product with a call, from its star or its call to the bracket of the call or the star. -/
inductive IsProduct : List Char → Prop where
  /-- `* f.g (`. -/
  | timesCall {gap name gap' : List Char} {x : Char} (hgap : Only isBlank gap)
      (hx : isNameStart x = true) (hname : Only isDotted name) (hgap' : Only isBlank gap') :
      IsProduct ('*' :: (gap ++ x :: (name ++ (gap' ++ ['(']))))
  /-- `f (…) *`. -/
  | callTimes {name gap inside gap' : List Char} {x : Char} (hx : isNameStart x = true)
      (hname : Only isWord name) (hgap : Only isBlank gap) (hinside : Only inStatement inside)
      (hgap' : Only isBlank gap') :
      IsProduct (x :: (name ++ (gap ++ '(' :: (inside ++ ')' :: (gap' ++ ['*'])))))

/-- The text has a return with a product of a call further on in its statement. -/
def ReturnsProduct (body : List Char) : Prop :=
  ∃ before skipped product after,
    body = before ++ ("return".toList ++ (skipped ++ (product ++ after))) ∧
      before.getLast?.any isWord = false ∧
      (skipped ++ (product ++ after)).head?.any isWord = false ∧
      Only inStatement skipped ∧ IsProduct product

theorem reads_timesCall_iff {c : Cursor} :
    timesCall.reads c = true ↔
      ∃ gap x name gap' rest, c.after = '*' :: (gap ++ x :: (name ++ (gap' ++ '(' :: rest))) ∧
        Only isBlank gap ∧ isNameStart x = true ∧ Only isDotted name ∧ Only isBlank gap' := by
  constructor
  · intro h
    obtain ⟨r, hr⟩ := reads_iff.mp h
    obtain ⟨⟨⟨⟩, d⟩, hd, hr⟩ := mem_bind.mp hr
    obtain ⟨⟨⟨⟩, e⟩, he, hr⟩ := mem_bind.mp hr
    obtain ⟨⟨⟨⟩, f⟩, hf, hr⟩ := mem_bind.mp hr
    obtain ⟨⟨⟨⟩, g⟩, hg, hr⟩ := mem_bind.mp hr
    obtain ⟨⟨⟨⟩, k⟩, hk, hr⟩ := mem_bind.mp hr
    obtain ⟨_, hstar, rfl⟩ := passes_char '*' c _ hd
    obtain ⟨gap, hgap, hblank⟩ := passes_run isBlank d _ he
    obtain ⟨_, hfirst, x, rfl, hx⟩ := passes_one isNameStart e _ hf
    obtain ⟨name, hname, hdotted⟩ := passes_run isDotted f _ hg
    obtain ⟨gap', hgap', hblank'⟩ := passes_run isBlank g _ hk
    obtain ⟨_, hbracket, rfl⟩ := passes_char '(' k r hr
    refine ⟨gap, x, name, gap', r.2.after, ?_, hblank, hx, hdotted, hblank'⟩
    rw [hstar.ahead, hgap.ahead, hfirst.ahead, hname.ahead, hgap'.ahead, hbracket.ahead]
    rfl
  · rintro ⟨gap, x, name, gap', rest, hc, hblank, hx, hdotted, hblank'⟩
    have hxBlank : isBlank x = false := isBlank_of_isNameStart hx
    have hstop : (gap' ++ '(' :: rest).head?.any isDotted = false := by
      cases gap' with
      | nil => rfl
      | cons y ys =>
        have hy : isBlank y = true := hblank' y (List.mem_cons_self ..)
        have hdot : y ≠ '.' := by
          rintro rfl
          exact absurd hy (by decide)
        simp [isDotted, isWord_of_isBlank hy, hdot]
    rw [reads_iff_leads]
    refine (leads_one hc (by decide)).bind fun _ d hd => ?_
    refine (leads_run hd hblank hxBlank).bind fun _ d hd => ?_
    refine (leads_one hd hx).bind fun _ d hd => ?_
    refine (leads_run_to hd hdotted hstop).bind fun _ d hd => ?_
    refine (leads_run hd hblank' (by decide)).bind fun _ d hd => ?_
    exact reads_iff_leads.mp (reads_char hd)

theorem closesBeforeTimes_iff {c : Cursor} :
    closesBeforeTimes c = true ↔
      ∃ gap rest, c.after = ')' :: (gap ++ '*' :: rest) ∧ Only isBlank gap := by
  constructor
  · intro h
    rw [closesBeforeTimes] at h
    split at h
    · rename_i cs hc
      obtain ⟨rest, hrest⟩ := List.head?_eq_some_iff.mp (eq_of_beq h)
      refine ⟨cs.takeWhile isBlank, rest, ?_, only_takeWhile isBlank cs⟩
      rw [hc, ← hrest, trimStart, List.takeWhile_append_dropWhile]
    · exact absurd h (by decide)
  · rintro ⟨gap, rest, hc, hgap⟩
    have hstar : (gap ++ '*' :: rest).dropWhile isBlank = '*' :: rest := by
      rw [List.dropWhile_append_of_pos hgap]
      rfl
    rw [closesBeforeTimes, hc]
    show ((gap ++ '*' :: rest).dropWhile isBlank).head? == some '*'
    rw [hstar]
    rfl

theorem reads_callTimes_iff {c : Cursor} :
    callTimes.reads c = true ↔
      ∃ x name gap inside gap' rest,
        c.after = x :: (name ++ (gap ++ '(' :: (inside ++ ')' :: (gap' ++ '*' :: rest)))) ∧
          isNameStart x = true ∧ Only isWord name ∧ Only isBlank gap ∧ Only inStatement inside ∧
          Only isBlank gap' := by
  constructor
  · intro h
    obtain ⟨r, hr⟩ := reads_iff.mp h
    obtain ⟨⟨⟨⟩, d⟩, hd, hr⟩ := mem_bind.mp hr
    obtain ⟨⟨⟨⟩, e⟩, he, hr⟩ := mem_bind.mp hr
    obtain ⟨⟨⟨⟩, f⟩, hf, hr⟩ := mem_bind.mp hr
    obtain ⟨⟨⟨⟩, g⟩, hg, hr⟩ := mem_bind.mp hr
    obtain ⟨_, hfirst, x, rfl, hx⟩ := passes_one isNameStart c _ hd
    obtain ⟨name, hname, hword⟩ := passes_run isWord d _ he
    obtain ⟨gap, hgap, hblank⟩ := passes_run isBlank e _ hf
    obtain ⟨_, hbracket, rfl⟩ := passes_char '(' f _ hg
    obtain ⟨inside, hinside, hstatement, hcloses⟩ := to_of_nearest? (mem_goTo.mp hr)
    obtain ⟨gap', rest, hrest, hblank'⟩ := closesBeforeTimes_iff.mp hcloses
    refine ⟨x, name, gap, inside, gap', rest, ?_, hx, hword, hblank, hstatement, hblank'⟩
    rw [hfirst.ahead, hname.ahead, hgap.ahead, hbracket.ahead, ← hrest, ← hinside.ahead]
    rfl
  · rintro ⟨x, name, gap, inside, gap', rest, hc, hx, hword, hblank, hstatement, hblank'⟩
    have hstop : ∀ more, (gap ++ '(' :: more).head?.any isWord = false := by
      intro more
      cases gap with
      | nil => rfl
      | cons y ys => simp [isWord_of_isBlank (hblank y (List.mem_cons_self ..))]
    rw [reads_iff_leads]
    refine (leads_one hc hx).bind fun _ d hd => ?_
    refine (leads_run_to hd hword (hstop _)).bind fun _ d hd => ?_
    refine (leads_run hd hblank (by decide)).bind fun _ d hd => ?_
    refine (leads_one hd (by decide)).bind fun _ d hd => ?_
    have hto : d.To inside ⟨inside.reverse ++ d.before, ')' :: (gap' ++ '*' :: rest)⟩ := ⟨hd, rfl⟩
    exact reads_iff_leads.mp (reads_nearest_iff.mpr
      ⟨inside, _, hto, hstatement, closesBeforeTimes_iff.mpr ⟨gap', rest, rfl, hblank'⟩⟩)

/-- A product is read where one is written. -/
theorem reads_either_iff {c : Cursor} :
    (either timesCall callTimes).reads c = true ↔
      ∃ product rest, c.after = product ++ rest ∧ IsProduct product := by
  have hor : (either timesCall callTimes).reads c = true ↔
      timesCall.reads c = true ∨ callTimes.reads c = true := by
    simp only [reads_iff, mem_either, exists_or]
  rw [hor, reads_timesCall_iff, reads_callTimes_iff]
  constructor
  · rintro (⟨gap, x, name, gap', rest, hc, hgap, hx, hname, hgap'⟩ |
      ⟨x, name, gap, inside, gap', rest, hc, hx, hname, hgap, hinside, hgap'⟩)
    · exact ⟨_, rest, by simp [hc], .timesCall hgap hx hname hgap'⟩
    · exact ⟨_, rest, by simp [hc], .callTimes hx hname hgap hinside hgap'⟩
  · rintro ⟨product, rest, hc, hproduct⟩
    cases hproduct with
    | @timesCall gap name gap' x hgap hx hname hgap' =>
      exact .inl ⟨gap, x, name, gap', rest, by simp [hc], hgap, hx, hname, hgap'⟩
    | @callTimes name gap inside gap' x hx hname hgap hinside hgap' =>
      exact .inr ⟨x, name, gap, inside, gap', rest, by simp [hc], hx, hname, hgap, hinside, hgap'⟩

theorem reads_product_iff {c : Cursor} :
    product.reads c = true ↔
      ∃ skipped written rest, c.after = skipped ++ (written ++ rest) ∧ Only inStatement skipped ∧
        IsProduct written := by
  rw [product, reads_nearest_iff]
  constructor
  · rintro ⟨skipped, d, hto, honly, hreads⟩
    obtain ⟨written, rest, hd, hproduct⟩ := reads_either_iff.mp hreads
    exact ⟨skipped, written, rest, by rw [hto.ahead, hd], honly, hproduct⟩
  · rintro ⟨skipped, written, rest, hc, honly, hproduct⟩
    exact ⟨skipped, ⟨skipped.reverse ++ c.before, written ++ rest⟩, ⟨hc, rfl⟩, honly,
      reads_either_iff.mpr ⟨written, rest, rfl, hproduct⟩⟩

/-! ## Returns -/

/-- A return is read where the word stands whole, up to the end of its statement. -/
theorem mem_returned_iff {c a d : Cursor} :
    (a, d) ∈ returned c ↔ (c.To "return".toList a ∧ c.wordBefore = false ∧ a.wordAfter = false) ∧
      d = Cursor.pass inStatement a.before a.after := by
  rw [← mem_word_iff (r := ((), a)) (by decide) (List.all_eq_true.mp (by decide))]
  constructor
  · intro h
    obtain ⟨⟨⟨⟩, b⟩, hb, h⟩ := mem_bind.mp h
    obtain ⟨_, hplace, h⟩ := mem_bind.mp h
    obtain rfl := List.mem_singleton.mp hplace
    obtain ⟨_, hrun, h⟩ := mem_bind.mp h
    obtain rfl := List.mem_singleton.mp hrun
    obtain ⟨rfl, rfl⟩ := Prod.mk.inj (mem_pure.mp h)
    exact ⟨hb, rfl⟩
  · rintro ⟨ha, rfl⟩
    refine mem_bind.mpr ⟨_, ha, mem_bind.mpr ⟨_, List.mem_singleton_self _, ?_⟩⟩
    exact mem_bind.mpr ⟨_, List.mem_singleton_self _, mem_pure.mpr rfl⟩

theorem to_of_mem_returned {c a d : Cursor} (h : (a, d) ∈ returned c) :
    c.To "return".toList a ∧ ∃ statement, a.To statement d ∧ Only inStatement statement := by
  obtain ⟨⟨hword, -⟩, rfl⟩ := mem_returned_iff.mp h
  exact ⟨hword, _, a.to_pass inStatement, only_takeWhile inStatement a.after⟩

theorem passes_returned : returned.Passes (· ≠ []) := by
  rintro c ⟨a, d⟩ h
  obtain ⟨hword, statement, hstatement, -⟩ := to_of_mem_returned h
  exact ⟨_, hword.trans hstatement, by simp⟩

/-- From a return that covers another, the other is passed within the statement. -/
theorem to_of_covered {c a e b d : Cursor} (ha : c.To "return".toList a) (htext : e.text = c.text)
    (he : (b, d) ∈ returned e) (hle : c.after.length ≤ e.after.length)
    (hlt : d.after.length < c.after.length) :
    ∃ skipped, b.To skipped a ∧ Only inStatement skipped := by
  obtain ⟨hb, statement, hd, honly⟩ := to_of_mem_returned he
  have hdtext : d.text = c.text := hd.text_eq.trans (hb.text_eq.trans htext)
  rcases Nat.le_total d.after.length a.after.length with hbehind | hwithin
  · -- the statement goes on past the word, so all that lies between is part of it
    have hback : a.after.length ≤ b.after.length := by
      have hc := congrArg List.length ha.ahead
      have he := congrArg List.length hb.ahead
      rw [List.length_append] at hc he
      omega
    have hbtext : a.text = b.text := ha.text_eq.trans (hdtext.symm.trans hd.text_eq)
    obtain ⟨skipped, hskipped⟩ := exists_passed hbtext hback
    obtain ⟨rest, hrest⟩ := exists_passed (hdtext.trans ha.text_eq.symm) hbehind
    rw [hd.unique (hskipped.trans hrest)] at honly
    exact ⟨skipped, hskipped, (List.forall_mem_append.mp honly).1⟩
  · -- the statement ends within the word
    obtain ⟨first, hfirst⟩ := exists_passed hdtext (Nat.le_of_lt hlt)
    obtain ⟨last, hlast⟩ := exists_passed (ha.text_eq.trans hdtext.symm) hwithin
    have hreturn : Only inStatement "return".toList := List.all_eq_true.mp (by decide)
    rw [ha.unique (hfirst.trans hlast)] at hreturn
    exact ⟨statement ++ last, hd.trans hlast, honly.append (List.forall_mem_append.mp hreturn).2⟩

/-- A search for returns finds a product just if the text returns one. -/
theorem returnsProduct_iff (body : List Char) :
    returnsProduct body = true ↔ ReturnsProduct body := by
  have hfinds := finds_findAll passes_returned body
  rw [returnsProduct, List.any_eq_true]
  constructor
  · rintro ⟨a, ha, hreads⟩
    obtain ⟨c, d, hc, hhead⟩ := hfinds.exists_way passes_returned ha
    obtain ⟨⟨hto, hbefore, hafter⟩, -⟩ := mem_returned_iff.mp (List.mem_of_head? hhead)
    obtain ⟨skipped, written, rest, hrest, honly, hproduct⟩ := reads_product_iff.mp hreads
    refine ⟨c.before.reverse, skipped, written, rest, ?_, ?_, ?_, honly, hproduct⟩
    · rw [← hrest, ← hto.ahead]
      exact hc.symm
    · rwa [List.getLast?_reverse]
    · rwa [← hrest]
  · rintro ⟨before, skipped, written, rest, rfl, hbefore, hafter, honly, hproduct⟩
    have hto : Cursor.To ⟨before.reverse, "return".toList ++ (skipped ++ (written ++ rest))⟩
        "return".toList ⟨"return".toList.reverse ++ before.reverse, skipped ++ (written ++ rest)⟩ :=
      ⟨rfl, rfl⟩
    have hmem := mem_returned_iff.mpr
      ⟨⟨hto, by rwa [Cursor.wordBefore, List.head?_reverse], hafter⟩, rfl⟩
    obtain ⟨b, hb, e, d, htext, hhead, hle, hlt⟩ := hfinds.covers passes_returned
      (by simp [Cursor.text]) (by simp) (List.ne_nil_of_mem hmem)
    obtain ⟨more, hmore, hmoreOnly⟩ :=
      to_of_covered hto htext (List.mem_of_head? hhead) hle hlt
    refine ⟨b, hb, reads_product_iff.mpr ⟨more ++ skipped, written, rest, ?_, ?_, hproduct⟩⟩
    · rw [hmore.ahead, List.append_assoc]
    · exact hmoreOnly.append honly

end BigO.Recursion
