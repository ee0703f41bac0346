-- A definition with its parameters left open, and the returns in the text around it. Where no
-- return stands in the signature, a return above it has its product before the parameters and
-- one below it has it after them, so that the parameters have no part in either.
import BigO.Proofs.FirstDeclarations
import BigO.Proofs.IndentedBodies
import BigO.Proofs.Respacing

namespace BigO.Recursion

open BigO.Text BigO.Scan

/-! ## Definitions and their parameters -/

/-- A text with a definition in it, but for the parameters. The name, the blanks around it and
the bracket stand on one line. -/
structure Definition where
  above : List Char
  lead : List Char
  name : List Char
  gap : List Char
  /-- From the bracket that closes the parameters on. -/
  rest : List Char
  startsLine : EndsLine above
  isLead : IsLead lead
  name_ne_nil : name ≠ []
  name_only : Only isWord name
  isGap : Only isBlank gap
  onLine : '\n' ∉ lead ++ gap
  closes : rest.head? = some ')'

namespace Definition

variable (d : Definition)

/-- The line of the definition up to the bracket of its parameters. -/
def opening : List Char :=
  d.lead ++ (d.name ++ (d.gap ++ ['(']))

/-- The text with these parameters. -/
def text (params : List Char) : List Char :=
  d.above ++ (d.opening ++ (params ++ d.rest))

/-- The lines of the signature after the first one. -/
def continuation (params : List Char) : List (List Char) :=
  (lines (params ++ firstLine d.rest)).tail

end Definition

/-! ## Products across lines -/

theorem IsLead.head?_trimStart {lead : List Char} (h : IsLead lead) (more : List Char) :
    ∃ x, (trimStart (lead ++ more)).head? = some x ∧ isNameStart x = true := by
  have hmargin : ∀ {margin : List Char}, Only isInLineBlank margin → Only isBlank margin :=
    fun hmargin x hx => isBlank_of_isInLineBlank (hmargin x hx)
  cases h with
  | plain honly _ _ =>
    refine ⟨'d', ?_, by decide⟩
    rw [List.append_assoc, trimStart_append_of_only (hmargin honly)]
    rfl
  | async honly _ _ _ _ =>
    refine ⟨'a', ?_, by decide⟩
    rw [List.append_assoc, trimStart_append_of_only (hmargin honly)]
    rfl

/-- A line feed comes after a text that has none. -/
theorem split_of_notMem {a b y rest : List Char} (ha : '\n' ∉ a)
    (h : a ++ b = y ++ '\n' :: rest) : ∃ y', b = y' ++ '\n' :: rest := by
  rcases List.append_eq_append_iff.mp h with ⟨y', -, hb⟩ | ⟨y', rfl, hrest⟩
  · exact ⟨y', hb⟩
  · cases y' with
    | nil => exact ⟨[], hrest.symm⟩
    | cons x xs =>
      obtain rfl := (List.cons.inj hrest).1
      exact absurd (by simp) ha

/-- A line feed stands in a gap, and then what comes after the gap comes next, or else it
stands further on. -/
theorem split_of_gap {gap b y rest : List Char} {x : Char} (hgap : Only isBlank gap)
    (hx : isBlank x = false) (h : gap ++ x :: b = y ++ '\n' :: rest) :
    (trimStart rest).head? = some x ∨ ∃ y', b = y' ++ '\n' :: rest := by
  have hne : x ≠ '\n' := by
    rintro rfl
    exact absurd hx (by decide)
  rcases List.append_eq_append_iff.mp h with ⟨y', -, hb⟩ | ⟨y', rfl, hrest⟩
  · cases y' with
    | nil => exact absurd (List.cons.inj hb).1 hne
    | cons z zs => exact .inr ⟨zs, (List.cons.inj hb).2⟩
  · cases y' with
    | nil => exact absurd (List.cons.inj hrest).1.symm hne
    | cons z zs =>
      left
      have hzs : Only isBlank zs := fun c hc => hgap c (by simp [hc])
      have hnext : rest = zs ++ x :: b := (List.cons.inj hrest).2
      rw [hnext, trimStart_append_of_only hzs, trimStart,
        List.dropWhile_cons_of_neg (by simp [hx])]
      rfl

/-- What a call times something has after a line feed starts with a bracket or a star. -/
theorem head?_after_feed {name gap inside gap' y rest : List Char} (hname : Only isWord name)
    (hgap : Only isBlank gap) (hinside : Only inStatement inside) (hgap' : Only isBlank gap')
    (h : name ++ (gap ++ '(' :: (inside ++ ')' :: (gap' ++ ['*']))) = y ++ '\n' :: rest) :
    (trimStart rest).head? = some '(' ∨ (trimStart rest).head? = some '*' := by
  have hword : '\n' ∉ name := fun hmem => absurd (hname _ hmem) (by decide)
  have hstatement : '\n' ∉ inside ++ [')'] := by
    rw [List.mem_append, not_or]
    exact ⟨fun hmem => absurd (hinside _ hmem) (by decide), by decide⟩
  obtain ⟨y₁, h₁⟩ := split_of_notMem hword h
  rcases split_of_gap hgap (by decide) h₁ with hnext | ⟨y₂, h₂⟩
  · exact .inl hnext
  · have hclosed : (inside ++ [')']) ++ (gap' ++ ['*']) = y₂ ++ '\n' :: rest := by
      rw [← h₂]
      simp
    obtain ⟨y₃, h₃⟩ := split_of_notMem hstatement hclosed
    rcases split_of_gap hgap' (by decide) h₃ with hnext | ⟨y₄, h₄⟩
    · exact .inr hnext
    · exact absurd h₄ (by simp)

/-- A product that starts above a definition ends before its parameters. -/
theorem IsProduct.ends_before_parameters {product after above params : List Char}
    (h : IsProduct product) (habove : above.getLast? = some '\n') (d : Definition)
    (hsplit : product ++ after = above ++ (d.opening ++ params)) :
    product <+: above ++ d.opening := by
  rw [← List.append_assoc] at hsplit
  rcases List.append_eq_append_iff.mp hsplit with ⟨more, hmore, -⟩ | ⟨more, rfl, -⟩
  · exact ⟨more, hmore.symm⟩
  · cases more with
    | nil => simp
    | cons z zs =>
      generalize hproduct : above ++ d.opening ++ z :: zs = product at h
      exfalso
      cases h with
      | @timesCall gap name gap' x hgap hx hname hgap' =>
        -- its only bracket is its end
        have hnone : '(' ∉ '*' :: (gap ++ x :: (name ++ gap')) := by
          simp only [List.mem_cons, List.mem_append, not_or]
          refine ⟨by decide, fun hmem => absurd (hgap _ hmem) (by decide), ?_,
            fun hmem => absurd (hname _ hmem) (by decide),
            fun hmem => absurd (hgap' _ hmem) (by decide)⟩
          rintro rfl
          exact absurd hx (by decide)
        have hend : '*' :: (gap ++ x :: (name ++ (gap' ++ ['(']))) =
            ('*' :: (gap ++ x :: (name ++ gap'))) ++ ['('] := by simp
        have hlast := congrArg List.dropLast (hproduct.trans hend)
        rw [List.dropLast_append_of_ne_nil (List.cons_ne_nil z zs), List.dropLast_concat] at hlast
        refine hnone (hlast ▸ ?_)
        simp [Definition.opening]
      | @callTimes name gap inside gap' x hx hname hgap hinside hgap' =>
        -- what follows the line feed would be no lead
        obtain ⟨y, rfl⟩ := List.getLast?_eq_some_iff.mp habove
        have hword : Only isWord (x :: name) :=
          List.forall_mem_cons.mpr ⟨isWord_of_isNameStart hx, hname⟩
        have hfeed : (x :: name) ++ (gap ++ '(' :: (inside ++ ')' :: (gap' ++ ['*']))) =
            y ++ '\n' :: (d.lead ++ (d.name ++ (d.gap ++ '(' :: z :: zs))) := by
          rw [List.cons_append, ← hproduct]
          simp [Definition.opening]
        obtain ⟨c, hc, hstart⟩ := d.isLead.head?_trimStart (d.name ++ (d.gap ++ '(' :: z :: zs))
        have hnext := head?_after_feed hword hgap hinside hgap' hfeed
        rw [hc, Option.some.injEq, Option.some.injEq] at hnext
        rcases hnext with rfl | rfl
        · exact absurd hstart (by decide)
        · exact absurd hstart (by decide)

/-- So does all that a return above a definition has. -/
theorem IsProduct.exists_before_parameters {skipped product after y params : List Char}
    (h : IsProduct product) (hskipped : Only inStatement skipped) (hy : y.getLast? = some '\n')
    (d : Definition) (hsplit : skipped ++ (product ++ after) = y ++ (d.opening ++ params)) :
    ∃ more, y ++ d.opening = skipped ++ (product ++ more) := by
  have hfeed : '\n' ∉ skipped := fun hmem => absurd (hskipped _ hmem) (by decide)
  rcases List.append_eq_append_iff.mp hsplit with ⟨y', rfl, hproduct⟩ | ⟨more, rfl, -⟩
  · rw [List.getLast?_append, Option.or_eq_some_iff] at hy
    rcases hy with hlast | ⟨-, hlast⟩
    · obtain ⟨more, hmore⟩ := h.ends_before_parameters hlast d hproduct
      exact ⟨more, by rw [List.append_assoc, ← hmore]⟩
    · exact absurd (List.mem_of_getLast? hlast) hfeed
  · exact absurd (List.mem_append_left _ (List.mem_of_getLast? hy)) hfeed

theorem IsProduct.ne_nil {product : List Char} (h : IsProduct product) : product ≠ [] := by
  cases h with
  | timesCall => exact List.cons_ne_nil _ _
  | callTimes => exact List.cons_ne_nil _ _

/-! ## Returns and parameters -/

theorem ReturnsProduct.hasWord {body : List Char} (h : ReturnsProduct body) :
    HasWord "return".toList body := by
  obtain ⟨before, skipped, product, after, hbody, hbefore, hafter, -, -⟩ := h
  exact ⟨before, _, hbody, hbefore, hafter⟩

/-- A word that a cut does not go through lies on one side of it. -/
theorem word_left_or_right {w before after a b : List Char}
    (h : before ++ (w ++ after) = a ++ b)
    (hcut : (∀ x, a.getLast? = some x → x ∉ w) ∨ ∀ x, b.head? = some x → x ∉ w) :
    (∃ v, a = before ++ (w ++ v) ∧ after = v ++ b) ∨
      ∃ u, before = a ++ u ∧ b = u ++ (w ++ after) := by
  rcases List.append_eq_append_iff.mp h with ⟨v, rfl, hword⟩ | ⟨u, hbefore, hb⟩
  · rcases List.append_eq_append_iff.mp hword with ⟨v', rfl, hafter⟩ | ⟨u, rfl, rfl⟩
    · exact .inl ⟨v', rfl, hafter⟩
    · cases u with
      | nil => exact .inl ⟨[], by simp, by simp⟩
      | cons y u =>
        rcases hcut with hlast | hfirst
        · cases hv : v.getLast? with
          | none =>
            rw [List.getLast?_eq_none_iff.mp hv]
            exact .inr ⟨[], by simp, rfl⟩
          | some x =>
            have hx : x ∉ v ++ y :: u := hlast x (by rw [List.getLast?_append, hv]; rfl)
            exact absurd (List.mem_append_left _ (List.mem_of_getLast? hv)) hx
        · exact absurd (by simp) (hfirst y rfl)
  · exact .inr ⟨u, hbefore, hb⟩

/-- Where no return stands in the signature, its parameters have no part in what the returns
above and below it have. -/
theorem ReturnsProduct.other_parameters {d : Definition} {above tail a : List Char}
    (habove : EndsLine above) (htail : tail.head? = some ')')
    (hnone : ¬ HasWord "return".toList (d.opening ++ a))
    (h : ReturnsProduct (above ++ (d.opening ++ (a ++ tail)))) (b : List Char) :
    ReturnsProduct (above ++ (d.opening ++ (b ++ tail))) := by
  obtain ⟨before, skipped, product, after, hbody, hbefore, hafter, hskipped, hproduct⟩ := h
  have hbody' : before ++ ("return".toList ++ (skipped ++ (product ++ after))) =
      (above ++ (d.opening ++ a)) ++ tail := by
    rw [← hbody]
    simp
  have hclosing : ∀ x, tail.head? = some x → x ∉ "return".toList := by
    intro x hx
    rw [htail, Option.some.injEq] at hx
    rw [← hx]
    decide
  rcases word_left_or_right hbody' (.inr hclosing) with ⟨v, hv, hstatement⟩ | ⟨u, rfl, htail'⟩
  · have hfeed : ∀ x, above.getLast? = some x → x ∉ "return".toList := by
      intro x hx
      rcases habove with rfl | hlast
      · exact absurd hx (by simp)
      · rw [hlast, Option.some.injEq] at hx
        rw [← hx]
        decide
    rcases word_left_or_right hv.symm (.inl hfeed) with ⟨y, hy, rfl⟩ | ⟨y, rfl, hsignature⟩
    · -- the return stands above, and what it has ends before the parameters
      have hlast : y.getLast? = some '\n' := by
        rcases habove with rfl | hlast
        · exact absurd hy.symm (by simp)
        · rw [hy, ← List.append_assoc, List.getLast?_append, Option.or_eq_some_iff] at hlast
          rcases hlast with hlast | ⟨-, hlast⟩
          · exact hlast
          · rw [List.getLast?_append] at hlast
            exact absurd hlast (by simp)
      rw [List.append_assoc, List.append_assoc] at hstatement
      obtain ⟨more, hmore⟩ := hproduct.exists_before_parameters hskipped hlast d hstatement
      have hne : skipped ++ product ≠ [] := by simp [hproduct.ne_nil]
      refine ⟨before, skipped, product, more ++ (b ++ tail), ?_, hbefore, ?_, hskipped, hproduct⟩
      · have hopening : above ++ d.opening =
            before ++ ("return".toList ++ (skipped ++ (product ++ more))) := by
          rw [← hmore, hy]
          simp
        rw [← List.append_assoc, hopening]
        simp
      · rw [← List.append_assoc, List.head?_append_of_ne_nil _ hne] at hafter ⊢
        exact hafter
    · -- the return stands in the signature
      refine absurd ⟨y, v, hsignature, ?_, ?_⟩ hnone
      · cases hy : y.getLast? with
        | none => rfl
        | some x => simpa [List.getLast?_append, hy] using hbefore
      · cases v with
        | nil => rfl
        | cons x xs => simpa [hstatement] using hafter
  · -- the return stands below
    have hne : u ≠ [] := by
      rintro rfl
      exact hclosing 'r' (by rw [htail']; rfl) (by decide)
    refine ⟨above ++ (d.opening ++ (b ++ u)), skipped, product, after, ?_, ?_, hafter, hskipped,
      hproduct⟩
    · rw [htail']
      simp
    · have hsame : ∀ c : List Char, (above ++ (d.opening ++ (c ++ u))).getLast? = u.getLast? := by
        intro c
        rw [← List.append_assoc, ← List.append_assoc, List.getLast?_append_of_ne_nil _ hne]
      rw [hsame]
      rwa [List.append_assoc, List.append_assoc, hsame] at hbefore

end BigO.Recursion
