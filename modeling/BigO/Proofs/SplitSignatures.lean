-- A signature on one line or on several. How often a function calls itself is counted alike,
-- but its body is cut where a line of the signature is not indented deeper than the `def`: then
-- no return of the function is seen.
import BigO.Proofs.OpenParameters
import BigO.Proofs.OwnBlock

namespace BigO.Recursion

open BigO.Text BigO.Scan BigO.Scan.Scanner

/-! ## Reports of one function -/

/-- What is reported of a function, if anything is. -/
def report? (lang : Language) (text f : List Char) : Option Signal :=
  (signals lang text).find? (·.function.toList == f)

theorem report?_eq (lang : Language) (text f : List Char) :
    report? lang text f = (firstDeclared? lang text f).bind (signalOf? lang text) := by
  have hmem : ∀ g, g ∈ signals lang text ∧ g.function.toList = f ↔
      (firstDeclared? lang text f).bind (signalOf? lang text) = some g := by
    intro g
    rw [mem_signals_iff, Option.bind_eq_some_iff]
    constructor
    · rintro ⟨⟨s, hfirst, hsignal⟩, rfl⟩
      have hs := (of_firstDeclared? hfirst).2
      exact ⟨s, by rw [function_of_signalOf? hs hsignal, hfirst], hsignal⟩
    · rintro ⟨s, hfirst, hsignal⟩
      obtain ⟨rfl, hs⟩ := of_firstDeclared? hfirst
      exact ⟨⟨s, hfirst, hsignal⟩, function_of_signalOf? hs hsignal⟩
  cases hreport : report? lang text f with
  | some g =>
    have hname : g.function.toList = f := by simpa using List.find?_some hreport
    exact ((hmem g).mp ⟨List.mem_of_find?_eq_some hreport, hname⟩).symm
  | none =>
    have hnone := List.find?_eq_none.mp hreport
    symm
    rw [Option.eq_none_iff_forall_ne_some]
    intro g hg
    obtain ⟨hg, hname⟩ := (hmem g).mpr hg
    exact hnone g hg (by simp [hname])

section Signal

variable {f body : List Char} {occurrences : Int}

/-- The body has no part in the count. -/
theorem map_selfCalls_signal? (f body body' : List Char) (occurrences : Int) :
    (signal? f occurrences body).map (fun g => (g.function, g.selfCalls)) =
      (signal? f occurrences body').map (fun g => (g.function, g.selfCalls)) := by
  unfold signal?
  split <;> rfl

theorem signal?_congr {body' : List Char} (h : ReturnsProduct body ↔ ReturnsProduct body') :
    signal? f occurrences body = signal? f occurrences body' := by
  rw [← returnsProduct_iff, ← returnsProduct_iff, ← Bool.eq_iff_iff] at h
  unfold signal? hintOf
  rw [h]

/-- A body without a return leaves the hint to the count. -/
theorem hint_of_not_returnsProduct {g : Signal} (h : ¬ ReturnsProduct body)
    (hg : signal? f occurrences body = some g) :
    g.hint = if 2 ≤ g.selfCalls then .exponential else .linear := by
  rw [← returnsProduct_iff] at h
  unfold signal? at hg
  split at hg
  · exact absurd hg (by simp)
  · obtain rfl := Option.some.inj hg
    simp [hintOf, h]

end Signal

/-! ## The line of a definition -/

namespace Definition

variable (d : Definition)

theorem notMem_opening : '\n' ∉ d.opening := by
  have hline := d.onLine
  rw [List.mem_append, not_or] at hline
  simp only [opening, List.mem_append, List.mem_singleton, not_or]
  exact ⟨hline.1, fun h => absurd (d.name_only _ h) (by decide), hline.2, by decide⟩

theorem getLast?_opening : d.opening.getLast? = some '(' := by
  simp [opening]

/-- The line is indented as far as its lead, whatever parameters follow. -/
theorem indentWidth_opening (more : List Char) : isBlankText (d.opening ++ more) = false ∧
    indentWidth (d.opening ++ more) = indentWidth d.lead := by
  have hlead : isBlankText d.lead = false := by
    rw [Bool.eq_false_iff, Ne, ← trimStart_eq_nil_iff]
    intro hnil
    obtain ⟨x, hx, -⟩ := d.isLead.head?_trimStart []
    rw [List.append_nil, hnil] at hx
    exact absurd hx (by simp)
  rw [opening, List.append_assoc]
  exact indentWidth_append hlead _

/-- What stands below the lines of the signature. -/
theorem exists_below : ∃ below, below.head?.all (· == '\n') = true ∧ ∀ params,
    d.opening ++ (params ++ d.rest) = (d.opening ++ (params ++ firstLine d.rest)) ++ below := by
  refine ⟨d.rest.dropWhile (· != '\n'), ?_, fun params => ?_⟩
  · have hstop := List.head?_dropWhile_not (· != '\n') d.rest
    cases h : (d.rest.dropWhile (· != '\n')).head? with
    | none => rfl
    | some x => simpa [h] using hstop
  · simp [firstLine, List.takeWhile_append_dropWhile]

theorem head?_firstLine : (firstLine d.rest).head? = some ')' := by
  obtain ⟨rest, hrest⟩ := List.head?_eq_some_iff.mp d.closes
  rw [hrest, firstLine, List.takeWhile_cons_of_pos (by decide)]
  rfl

theorem notMem_firstLine : '\n' ∉ firstLine d.rest := fun h =>
  absurd (List.mem_takeWhile_imp h) (by decide)

/-- The lines of a signature: its first one and its continuation. -/
theorem lines_signature (params : List Char) : ∃ header,
    lines (d.opening ++ (params ++ firstLine d.rest)) = header :: d.continuation params ∧
      isBlankText header = false ∧ indentWidth header = indentWidth d.lead := by
  obtain ⟨l, ls, hparams, hlines⟩ :=
    lines_eq_cons_append d.notMem_opening (b := params ++ firstLine d.rest)
  refine ⟨d.opening ++ l, ?_, d.indentWidth_opening l⟩
  rw [hlines, continuation, hparams, List.tail_cons]

/-! ## The first declaration of its name -/

/-- The declaration that the definition makes. -/
def signature : Signature :=
  ⟨⟨(d.above ++ d.lead).reverse, d.name ++ (d.gap ++ ['('])⟩, d.name⟩

theorem isDefinition_signature (hname : IsName d.name) :
    IsDefinition ⟨d.above.reverse, d.opening⟩ d.signature
      ⟨(d.above ++ d.opening).reverse, []⟩ where
  atLineStart := by
    rw [Cursor.atLineStart, List.head?_reverse]
    rcases d.startsLine with hnil | hlast
    · rw [hnil]
      rfl
    · rw [hlast]
      rfl
  lead := ⟨d.lead, ⟨rfl, by simp [signature]⟩, d.isLead⟩
  isName := hname
  called := ⟨d.gap, ⟨by simp [signature], by simp [signature, opening]⟩, d.isGap⟩

/-- No other declaration of the name stands above, so this is the first one. -/
theorem eq_signature_of_mem_declared (hname : IsName d.name)
    (hfirst : ∀ s ∈ declared .python d.above, s.name ≠ d.name) {s : Signature}
    (hs : s ∈ declared .python (d.above ++ d.opening)) (hsame : s.name = d.name) :
    s = d.signature := by
  obtain ⟨c, e, hc, hdefinition⟩ := mem_declared_iff.mp hs
  have hown := d.isDefinition_signature hname
  have htext : e.text = d.above ++ d.opening := by
    obtain ⟨passed, hto, -⟩ := hdefinition.bracket
    rw [hto.text_eq, hc]
  rcases Nat.lt_or_ge e.after.length d.opening.length with hlt | hge
  · -- its bracket is the one of the line
    have hle := hown.end_le (htext.trans (by simp [Cursor.text])) hdefinition.head?_before hlt
    have hend : e = ⟨(d.above ++ d.opening).reverse, []⟩ :=
      eq_of_length_after (htext.trans (by simp [Cursor.text])) (Nat.le_antisymm hle (Nat.zero_le _))
    subst hend
    exact hdefinition.signature_unique hown
  · obtain ⟨t, ht, rfl⟩ := hdefinition.exists_followedBy hc hge
    exact absurd hsame (hfirst t ht)

/-- The body of whichever function is declared in the line or above it starts above the line
or with it. -/
theorem exists_fromLineStart {c : Cursor} (hc : c.text = d.above ++ d.opening) :
    ∃ above line, c.fromLineStart = above ++ d.opening ∧ EndsLine above ∧
      above ++ d.opening = line ++ c.after ∧ '\n' ∉ line := by
  obtain ⟨b, line, hfrom, hstart, hline, hnone⟩ := exists_lineStart c
  have htext : b.before.reverse ++ b.after = d.above ++ d.opening := by
    rw [← hc, hline.text_eq]
    rfl
  rw [hfrom, ← hline.ahead]
  rcases List.append_eq_append_iff.mp htext with ⟨above, habove, hafter⟩ | ⟨more, hmore, hopening⟩
  · refine ⟨above, line, hafter, ?_, hafter ▸ hline.ahead, hnone⟩
    rcases d.startsLine with hnil | hlast
    · exact .inl (List.append_eq_nil_iff.mp (habove ▸ hnil)).2
    · rw [habove, List.getLast?_append, Option.or_eq_some_iff] at hlast
      rcases hlast with hlast | ⟨hnil, -⟩
      · exact .inr hlast
      · exact .inl (List.getLast?_eq_none_iff.mp hnil)
  · cases hlast : more.getLast? with
    | none =>
      obtain rfl := List.getLast?_eq_none_iff.mp hlast
      exact ⟨[], line, hopening.symm, .inl rfl, hopening.trans hline.ahead, hnone⟩
    | some x =>
      -- the line of the definition would be broken
      have hbefore : b.before.head? = some x := by
        rw [← List.getLast?_reverse, hmore, List.getLast?_append, hlast]
        rfl
      obtain rfl : x = '\n' := by simpa [Cursor.atLineStart, hbefore] using hstart
      refine absurd ?_ d.notMem_opening
      rw [hopening]
      exact List.mem_append_left _ (List.mem_of_getLast? hlast)

/-- What is reported of the function goes by a body that starts above its line, or with it if
nothing above declares the name. -/
theorem report?_text : (∀ params, report? .python (d.text params) d.name = none) ∨
    ∃ above, EndsLine above ∧ ((∀ s ∈ declared .python d.above, s.name ≠ d.name) → above = []) ∧
      ∀ params, report? .python (d.text params) d.name =
        signal? d.name (callCount d.name (d.text params))
          (indentedBody (above ++ (d.opening ++ (params ++ d.rest)))) := by
  by_cases hname : IsName d.name
  · right
    have hdefinition := d.isDefinition_signature hname
    have hmem : d.signature ∈ declared .python (d.above ++ d.opening) :=
      mem_declared_iff.mpr ⟨_, _, by simp [Cursor.text], hdefinition⟩
    have hsome : (firstDeclared? .python (d.above ++ d.opening) d.name).isSome = true :=
      List.find?_isSome.mpr ⟨d.signature, hmem, beq_self_eq_true d.name⟩
    obtain ⟨s, hfirst⟩ := Option.isSome_iff_exists.mp hsome
    obtain ⟨hsame, hs⟩ := of_firstDeclared? hfirst
    obtain ⟨above, line, hfrom, habove, hline, hnone⟩ :=
      d.exists_fromLineStart (isDeclaredName_of_mem_declared hs).inText
    refine ⟨above, habove, fun hundeclared => ?_, fun params => ?_⟩
    · -- then the line up to the name is the lead, and nothing of it is above
      rw [d.eq_signature_of_mem_declared hname hundeclared hs hsame] at hline
      have hlead : above ++ d.lead = line := by
        rw [opening, ← List.append_assoc] at hline
        exact List.append_cancel_right hline
      refine habove.resolve_right fun hlast => hnone ?_
      rw [← hlead]
      exact List.mem_append_left _ (List.mem_of_getLast? hlast)
    · have htext : d.text params = (d.above ++ d.opening) ++ (params ++ d.rest) := by
        simp [text]
      have hbody : (s.followedBy (params ++ d.rest)).start.fromLineStart =
          above ++ (d.opening ++ (params ++ d.rest)) := by
        rw [← List.append_assoc, ← hfrom]
        simp [Signature.followedBy, Cursor.fromLineStart, Cursor.before_followedBy]
      have hkept : (s.followedBy (params ++ d.rest)).name = d.name := hsame
      rw [report?_eq, htext, firstDeclared?_append hfirst, Option.bind_some, signalOf?, hbody,
        hkept]
      rfl
  · left
    intro params
    rw [report?_eq]
    cases hfirst : firstDeclared? .python (d.text params) d.name with
    | none => rfl
    | some s =>
      obtain ⟨hsame, hs⟩ := of_firstDeclared? hfirst
      exact absurd (hsame ▸ (isDeclaredName_of_mem_declared hs).isName) hname

end Definition

/-! ## One line or several -/

section Several

variable (d : Definition) {one several : List Char} (h : Respaced one several)

include h

theorem callCount_several :
    callCount d.name (d.text one) = callCount d.name (d.text several) := by
  have hopening : (d.above ++ d.opening).getLast?.any isWord = false := by
    rw [List.getLast?_append, d.getLast?_opening]
    show isWord '(' = false
    decide
  have hclosing : d.rest.head?.any isWord = false := by
    rw [d.closes]
    decide
  have hwhole := h.between hopening hclosing
  rw [List.append_assoc, List.append_assoc] at hwhole
  exact callCount_respaced d.name_ne_nil d.name_only hwhole

/-- A return stands in the signature or not, whatever its lines. -/
theorem hasReturn_several : HasWord "return".toList (d.opening ++ one) ↔
    HasWord "return".toList (d.opening ++ several) := by
  have hopening : d.opening.getLast?.any isWord = false := by
    rw [d.getLast?_opening]
    decide
  have hend : ([] : List Char).head?.any isWord = false := rfl
  have hsignature := h.between hopening hend
  rw [List.append_nil, List.append_nil] at hsignature
  exact hsignature.hasWord_iff (by decide) (List.all_eq_true.mp (by decide))

omit h in
/-- Lines of a signature that are all deeper than its first one go together. -/
theorem isHeaded_signature {params : List Char}
    (hdeeper : ∀ l ∈ d.continuation params, isDeeper (indentWidth d.lead) l = true) :
    IsHeaded (indentWidth d.lead) (d.opening ++ (params ++ firstLine d.rest)) := by
  obtain ⟨header, hlines, hblank, hwidth⟩ := d.lines_signature params
  exact ⟨header, d.continuation params, hlines, hblank, hwidth, hdeeper⟩

/-- If the signature goes on in deeper lines, its lines have no part in what is returned. -/
theorem returnsProduct_several (hone : '\n' ∉ one)
    (hnone : ¬ HasWord "return".toList (d.opening ++ one))
    (hdeeper : ∀ l ∈ d.continuation several, isDeeper (indentWidth d.lead) l = true)
    {above : List Char} (habove : EndsLine above) :
    ReturnsProduct (indentedBody (above ++ (d.opening ++ (several ++ d.rest)))) ↔
      ReturnsProduct (indentedBody (above ++ (d.opening ++ (one ++ d.rest)))) := by
  have hnone' : ¬ HasWord "return".toList (d.opening ++ several) :=
    mt (hasReturn_several d h).mpr hnone
  have hline : d.continuation one = [] := by
    have hfeed : '\n' ∉ one ++ firstLine d.rest := by
      rw [List.mem_append, not_or]
      exact ⟨hone, d.notMem_firstLine⟩
    rw [Definition.continuation, lines_of_notMem hfeed]
    rfl
  have hheaded := isHeaded_signature d hdeeper
  have hheaded' : IsHeaded (indentWidth d.lead) (d.opening ++ (one ++ firstLine d.rest)) :=
    isHeaded_signature d (by simp [hline])
  obtain ⟨below, hbelow, hsplit⟩ := d.exists_below
  rw [hsplit, hsplit]
  rcases indentedBody_of_headed habove hbelow (indentWidth d.lead) with ⟨body, hbody⟩ |
    ⟨tail, htail⟩
  · rw [hbody _ hheaded, hbody _ hheaded']
  · have hclosing : (firstLine d.rest ++ tail).head? = some ')' := by
      rw [List.head?_append, d.head?_firstLine]
      rfl
    rw [htail _ hheaded, htail _ hheaded']
    simp only [List.append_assoc]
    exact ⟨fun hreturns => hreturns.other_parameters habove hclosing hnone' one,
      fun hreturns => hreturns.other_parameters habove hclosing hnone several⟩

omit h in
/-- If it goes on in a line that is not deeper, the body ends within the signature. -/
theorem not_returnsProduct_of_shallow
    (hnone : ¬ HasWord "return".toList (d.opening ++ several))
    (hshallow : ∃ l ∈ d.continuation several, isDeeper (indentWidth d.lead) l = false) :
    ¬ ReturnsProduct (indentedBody (d.opening ++ (several ++ d.rest))) := by
  intro hreturns
  obtain ⟨below, hbelow, hsplit⟩ := d.exists_below
  obtain ⟨header, hlines, -, hwidth⟩ := d.lines_signature several
  rw [← hwidth] at hshallow
  obtain ⟨more, hmore⟩ := indentedBody_of_shallow hbelow hlines hshallow
  rw [← hsplit] at hmore
  obtain ⟨before, after, hbody, hbefore, hafter⟩ := hreturns.hasWord
  rw [← List.append_assoc] at hmore
  -- the line feed at its end stands before the bracket that closes the parameters
  rcases List.append_eq_append_iff.mp hmore with ⟨u, -, hlast⟩ | ⟨u, hsignature, hlast⟩
  · exact absurd (hlast ▸ by simp) d.notMem_firstLine
  · refine hnone ⟨before, after ++ u, ?_, hbefore, ?_⟩
    · rw [hsignature, hbody]
      simp
    · cases after with
      | cons x xs => exact hafter
      | nil =>
        cases u with
        | nil => rfl
        | cons y ys =>
          obtain rfl : '\n' = y := (List.cons.inj hlast).1
          show isWord '\n' = false
          decide

end Several

/-- For every definition, its parameters on one line, and the same parameters with any other
blanks between their tokens: the function is reported or not alike, with the same number of
calls. If no return stands in the signature and all lines of it after the first are blank or
indented deeper than the `def`, then the reports are the same. If one of them is not, and no
function of the name is declared above, then the hint goes by the number of calls alone. -/
theorem signature_on_several_lines (d : Definition) {one several : List Char}
    (h : Respaced one several) (hone : '\n' ∉ one) :
    (report? .python (d.text several) d.name).map (fun g => (g.function, g.selfCalls)) =
        (report? .python (d.text one) d.name).map (fun g => (g.function, g.selfCalls)) ∧
      (¬ HasWord "return".toList (d.opening ++ one) →
        ((∀ l ∈ d.continuation several, isDeeper (indentWidth d.lead) l = true) →
          report? .python (d.text several) d.name = report? .python (d.text one) d.name) ∧
        ((∃ l ∈ d.continuation several, isDeeper (indentWidth d.lead) l = false) →
          (∀ s ∈ declared .python d.above, s.name ≠ d.name) →
          ∀ g, report? .python (d.text several) d.name = some g →
            g.hint = if 2 ≤ g.selfCalls then .exponential else .linear)) := by
  rcases d.report?_text with hnone | ⟨above, habove, hfirst, hreport⟩
  · simp [hnone]
  · simp only [hreport, ← callCount_several d h]
    refine ⟨map_selfCalls_signal? .., fun hreturn => ⟨fun hdeeper => ?_, ?_⟩⟩
    · exact signal?_congr (returnsProduct_several d h hone hreturn hdeeper habove)
    · intro hshallow hundeclared g hg
      have hreturn' : ¬ HasWord "return".toList (d.opening ++ several) :=
        mt (hasReturn_several d h).mpr hreturn
      rw [hfirst hundeclared] at hg
      exact hint_of_not_returnsProduct (not_returnsProduct_of_shallow d hreturn' hshallow) hg

/-! ## A function on several lines -/

/-- A function of one parameter that multiplies by its own result. -/
def ownProduct : Definition where
  above := []
  lead := "def".toList ++ " ".toList
  name := "fact".toList
  gap := []
  rest := "):\n    return n * fact(n - 1)\n".toList
  startsLine := .inl rfl
  isLead := IsLead.plain (only_nil _) (by decide) (List.all_eq_true.mp (by decide))
  name_ne_nil := by decide
  name_only := List.all_eq_true.mp (by decide)
  isGap := only_nil _
  onLine := by decide
  closes := by decide

/-- The parameter on a line of its own, with the bracket after it or on the next line. -/
def ownLine (closing : List Char) : List Char :=
  "\n    ".toList ++ ("n".toList ++ closing)

theorem respaced_ownLine {closing : List Char} (h : Only isBlank closing) :
    Respaced "n".toList (ownLine closing) := by
  have hapart : Apart "n".toList closing := by
    right
    cases closing with
    | nil => rfl
    | cons x xs => exact isWord_of_isBlank (h x (List.mem_cons_self ..))
  refine ⟨["n".toList], ?_, ?_⟩
  · exact Spaced.cons (only_nil _) (.inr rfl : Apart "n".toList []) (.nil (only_nil _))
  · exact Spaced.cons (List.all_eq_true.mp (by decide)) hapart (.nil h)

theorem signature_on_several_lines_ownProduct :
    ¬ HasWord "return".toList (ownProduct.opening ++ "n".toList) ∧
      (∀ s ∈ declared .python ownProduct.above, s.name ≠ ownProduct.name) ∧
      report? .python (ownProduct.text (ownLine [])) ownProduct.name =
        some ⟨"fact", 1, .factorial⟩ ∧
      ∀ g, report? .python (ownProduct.text (ownLine ['\n'])) ownProduct.name = some g →
        g.hint = if 2 ≤ g.selfCalls then .exponential else .linear := by
  have hreturn : ¬ HasWord "return".toList (ownProduct.opening ++ "n".toList) := by decide +kernel
  have habove : ∀ s ∈ declared .python ownProduct.above, s.name ≠ ownProduct.name := by
    have hnone : declared .python [] = [] := by decide +kernel
    intro s hs
    rw [show ownProduct.above = [] from rfl, hnone] at hs
    exact absurd hs List.not_mem_nil
  have hdeeper := signature_on_several_lines ownProduct (respaced_ownLine (only_nil isBlank))
    (by decide)
  have hshallow := signature_on_several_lines ownProduct
    (respaced_ownLine (List.forall_mem_singleton.mpr (by decide) : Only isBlank ['\n']))
    (by decide)
  refine ⟨hreturn, habove, ?_, (hshallow.2 hreturn).2 (by decide +kernel) habove⟩
  rw [(hdeeper.2 hreturn).1 (by decide +kernel)]
  decide +kernel

/-- It is not so that other blanks between the parameters leave the report as it is: here the
bracket that closes them is back at the `def`, and the return below it is not seen. -/
theorem closing_line_cuts_body :
    report? .python (ownProduct.text "n".toList) ownProduct.name = some ⟨"fact", 1, .factorial⟩ ∧
      report? .python (ownProduct.text (ownLine ['\n'])) ownProduct.name =
        some ⟨"fact", 1, .linear⟩ ∧
      ¬ ∀ (d : Definition) (one several : List Char), Respaced one several → '\n' ∉ one →
        report? .python (d.text several) d.name = report? .python (d.text one) d.name := by
  have hone : report? .python (ownProduct.text "n".toList) ownProduct.name =
      some ⟨"fact", 1, .factorial⟩ := by decide +kernel
  have hseveral : report? .python (ownProduct.text (ownLine ['\n'])) ownProduct.name =
      some ⟨"fact", 1, .linear⟩ := by decide +kernel
  refine ⟨hone, hseveral, fun hclaim => ?_⟩
  have hsame := hclaim ownProduct "n".toList (ownLine ['\n'])
    (respaced_ownLine (List.forall_mem_singleton.mpr (by decide))) (by decide)
  rw [hone, hseveral] at hsame
  exact absurd hsame (by decide)

end BigO.Recursion
