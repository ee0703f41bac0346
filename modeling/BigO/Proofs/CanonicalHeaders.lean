-- Loop headers in their plain forms, and the bound that each was written with: the
-- upper end of a counting call, or the right side of the comparison. Whatever the
-- parts of such a header hold, the bound read from it is that one.
import BigO.Language
import BigO.Proofs.BalancedArguments
import BigO.Proofs.WholeWords

namespace BigO.Scan

/-! ## Searching in vain -/

theorem Cursor.To.of_mem_all {text : List Char} {c : Cursor} (h : c ∈ Cursor.all text) :
    Cursor.To ⟨[], text⟩ c.before.reverse c :=
  ⟨(Cursor.mem_all.mp h).symm, by simp⟩

namespace Scanner

variable {α : Type}

theorem find?_eq_none {s : Scanner α} {text : List Char} (h : ∀ c ∈ Cursor.all text, s c = []) :
    s.find? text = none := by
  rw [Scanner.find?, List.findSome?_eq_none_iff]
  intro c hc
  rw [h c hc]
  rfl

/-- At least one character, and on to the nearest place that passes the test. -/
theorem leads_oneNearest {p : Char → Bool} {test : Cursor → Bool} {passed rest : List Char}
    {c : Cursor} (hc : c.after = passed ++ rest) (hne : passed ≠ [])
    (hp : ∀ y ∈ passed, p y = true)
    (hskip : ∀ read tail d, passed = read ++ tail → read ≠ [] → tail ≠ [] → c.To read d →
      test d = false)
    (hstop : ∀ d, c.To passed d → test d = true) :
    (one p >>= fun _ => nearest p test).Leads c fun _ left => left = rest := by
  obtain ⟨x, xs, rfl⟩ := List.exists_cons_of_ne_nil hne
  rcases c with ⟨before, after⟩
  subst hc
  obtain ⟨hx, hxs⟩ := List.forall_mem_cons.mp hp
  have hnext := Cursor.To.next before x (xs ++ rest)
  obtain ⟨u, d, hhead, hd⟩ := leads_nearest hxs ⟨x :: before, xs ++ rest⟩ rfl
    (fun read tail d hread htail hd => hskip (x :: read) tail d (by rw [hread]; rfl)
      (List.cons_ne_nil x read) htail (hnext.trans hd))
    (fun d hd => hstop d (hnext.trans hd))
  refine ⟨u, d, head?_bind (a := ()) ?_ hhead, hd⟩
  simp [one, hx]

end Scanner

end BigO.Scan

namespace BigO.Loop

open BigO.Text BigO.Scan BigO.Scan.Scanner

/-! ## The forms -/

/-- A loop header in its plain form, and the bound that it was written with. -/
inductive CanonicalHeader : Language → List Char → List Char → Prop where
  /-- `for v in range(a, b, …)` and any rest: the second argument of several, or the only
  one. -/
  | counting {v first : List Char} {others : List (List Char)} (rest : List Char)
      (unbroken : ∀ c ∈ v, isBlank c = false)
      (arguments : ∀ a ∈ first :: others, IsArgument a) :
      CanonicalHeader .python
        ("for ".toList ++ (v ++ (" in range(".toList ++ (joined (first :: others) ++ ')' :: rest))))
        (others.headD first)
  /-- `while L < B:`. -/
  | comparing (lead sign bound : List Char) (less : IsLess sign) (firstLess : '<' ∉ lead)
      (noLoop : ¬ HasWord "for".toList lead ∧ ¬ HasWord "for".toList bound)
      (ne_nil : bound ≠ []) (trimmed : trim bound = bound)
      (inLine : '\n' ∉ bound) (noColon : ':' ∉ bound)
      (oneTerm : ¬ HasWord "and".toList bound ∧ ¬ HasWord "or".toList bound) :
      CanonicalHeader .python
        ("while ".toList ++ (lead ++ ' ' :: (sign ++ ' ' :: (bound ++ [':'])))) bound
  /-- `for (I; L < B;` and any rest. -/
  | clauses {lang : Language} (braces : lang.profile.usesBraces = true)
      (first lead sign bound rest : List Char) (less : IsLess sign)
      (noSemicolon : ';' ∉ first ∧ ';' ∉ lead ∧ ';' ∉ bound) (firstLess : '<' ∉ lead)
      (ne_nil : bound ≠ []) (trimmed : trim bound = bound) :
      CanonicalHeader lang
        ("for (".toList ++ (first ++ ';' :: ' ' ::
          (lead ++ ' ' :: (sign ++ ' ' :: (bound ++ ';' :: rest))))) bound
  /-- `while (L < B) {`. -/
  | condition {lang : Language} (braces : lang.profile.usesBraces = true)
      (lead sign bound : List Char) (less : IsLess sign) (noSemicolon : ';' ∉ lead ∧ ';' ∉ bound)
      (firstLess : '<' ∉ lead) (ne_nil : bound ≠ []) (trimmed : trim bound = bound)
      (noBracket : ')' ∉ bound)
      (oneTerm : ¬ ['&', '&'] <:+: bound ∧ ¬ ['|', '|'] <:+: bound) :
      CanonicalHeader lang
        ("while (".toList ++ (lead ++ ' ' :: (sign ++ ' ' :: (bound ++ [')', ' ', '{'])))) bound

theorem boundRules_of_usesBraces {lang : Language} (h : lang.profile.usesBraces = true) :
    lang.profile.boundRules = Language.braceBoundRules := by
  cases lang with
  | python => exact absurd h (by decide)
  | java => rfl
  | c => rfl

/-! ## Counting calls -/

theorem inLine_of_mem_joined {arguments : List (List Char)} (h : ∀ a ∈ arguments, IsArgument a) :
    ∀ c ∈ joined arguments, inLine c = true := by
  induction arguments with
  | nil => simp [joined]
  | cons first others ih =>
    obtain ⟨hfirst, hothers⟩ := List.forall_mem_cons.mp h
    have hline : ∀ c ∈ first, inLine c = true := by
      intro c hc
      rw [inLine, bne_iff_ne]
      rintro rfl
      exact hfirst.inLine hc
    cases others with
    | nil => rwa [joined, List.intercalate_singleton]
    | cons second others =>
      have hsep : ∀ c ∈ [',', ' '], inLine c = true := List.all_eq_true.mp (by decide)
      intro c hc
      rw [joined, List.intercalate_cons_cons, List.mem_append, List.mem_append] at hc
      rcases hc with (hc | hc) | hc
      · exact hline c hc
      · exact hsep c hc
      · exact ih hothers c hc

theorem loopBound?_counting {v first : List Char} {others : List (List Char)} (rest : List Char)
    (hv : ∀ c ∈ v, isBlank c = false) (hargs : ∀ a ∈ first :: others, IsArgument a) :
    Language.python.loopBound? ("for ".toList ++
      (v ++ (" in range(".toList ++ (joined (first :: others) ++ ')' :: rest)))) =
        some (others.headD first) := by
  have hsolid : Solid ("for ".toList ++
      ((v ++ (" in range(".toList ++ joined (first :: others))) ++ [')'])) :=
    solid_around (by decide) (by decide) _
  have htrim := hsolid.trim_append rest
  simp only [List.append_assoc, List.cons_append, List.nil_append] at htrim
  have hline : (joined (first :: others) ++ ')' :: trimEnd rest).takeWhile inLine =
      joined (first :: others) ++ ')' :: (trimEnd rest).takeWhile inLine := by
    rw [List.takeWhile_append_of_pos (inLine_of_mem_joined hargs),
      List.takeWhile_cons_of_pos (by decide)]
  obtain ⟨span, hfind, hspan⟩ : ∃ span, rangeCall.find? ("for ".toList ++
      (v ++ (" in range(".toList ++ (joined (first :: others) ++ ')' :: trimEnd rest)))) =
        some span ∧
      span.text = joined (first :: others) ++ ')' :: (trimEnd rest).takeWhile inLine := by
    obtain ⟨span, -, hfind, hspan⟩ := (leads_rangeCall hv (List.forall_mem_nil _)
      (joined (first :: others) ++ ')' :: trimEnd rest)).find?
    exact ⟨span, hfind, hspan.trans hline⟩
  have hrules : Language.python.profile.boundRules = [.call rangeCall, .limit whileLimit] := rfl
  rw [Language.loopBound?, bound?, hrules, htrim, List.findSome?_cons, BoundRule.bound?, hfind,
    Option.bind_some, hspan, upperEnd?_joined hargs]

/-! ## Comparisons -/

/-- The bound that a comparison gives, with blanks around it or not. -/
theorem bound?_limit {side : Scanner Span} {header bound : List Char} {span : Span}
    (before : List Char) (hfind : side.find? header = some span)
    (hspan : span.text = before ++ bound) (hbefore : ∀ c ∈ before, isBlank c = true)
    (hbound : Solid bound) :
    (BoundRule.limit side).bound? header = some bound := by
  have htrim : trim (before ++ bound) = bound := by
    simpa using hbound.trim hbefore (List.forall_mem_nil _)
  have hne : bound ≠ [] := by
    rintro rfl
    exact absurd hbound.first (by decide)
  rw [BoundRule.bound?, hfind, Option.bind_some, hspan, htrim, if_neg hne]

theorem bound?_limit_eq_none {side : Scanner Span} {header : List Char}
    (h : side.find? header = none) : (BoundRule.limit side).bound? header = none := by
  rw [BoundRule.bound?, h]
  rfl

/-- From the sign on, the right side is read up to the nearest place where it may end. -/
theorem leads_side {p : Char → Bool} {test : Cursor → Bool} {c : Cursor}
    {sign bound rest : List Char} (hsign : IsLess sign) (hbound : Solid bound)
    (hc : c.after = sign ++ ' ' :: (bound ++ rest)) (hp : ∀ y ∈ bound, p y = true)
    (hskip : ∀ b read tail d, bound = read ++ tail → read ≠ [] → tail ≠ [] →
      b.after = bound ++ rest → Cursor.To b read d → test d = false)
    (hstop : ∀ d : Cursor, d.after = rest → test d = true) :
    (lessThan >>= fun _ => many isBlank >>= fun _ =>
      captured (one p >>= fun _ => nearest p test)).Leads c fun span _ => span.text = bound := by
  have hne : bound ≠ [] := by
    rintro rfl
    exact absurd hbound.first (by decide)
  refine (leads_lessThan hsign hc (by simp)).bind fun _ d hd => ?_
  have hblanks : (many isBlank).Leads d fun _ left => left = bound ++ rest := by
    have hfirst := hbound.first
    obtain ⟨x, xs, rfl⟩ := List.exists_cons_of_ne_nil hne
    have hspaced : d.after = [' '] ++ x :: (xs ++ rest) := hd
    refine ⟨(), _, head?_many isBlank d, ?_⟩
    exact after_pass hspaced (List.all_eq_true.mp (by decide)) (by simpa using hfirst)
  refine hblanks.bind fun _ b hb => ?_
  obtain ⟨span, e, hhead, hspan, -⟩ := leads_captured hb (leads_oneNearest hb hne hp
    (fun read tail d hread hrne htne hto => hskip b read tail d hread hrne htne hb hto)
    (fun d hto => hstop d (hto.after_eq hb)))
  exact ⟨span, e, hhead, hspan⟩

/-- What is left of a right side is not blank, so the blanks in front of it end before it
does. -/
theorem trimStart_left {bound read tail : List Char} (hbound : Solid bound)
    (h : bound = read ++ tail) (hne : tail ≠ []) (rest : List Char) :
    ∃ x xs, x :: xs <:+ bound ∧ trimStart (tail ++ rest) = x :: (xs ++ rest) := by
  have hsome : trimStart tail ≠ [] := by
    rw [Ne, trimStart_eq_nil_iff, isBlankText, List.all_eq_true]
    intro hblank
    have hlast := hbound.last
    rw [h, List.getLast?_append, List.getLast?_eq_some_getLast hne] at hlast
    simp [hblank _ (List.getLast_mem hne)] at hlast
  obtain ⟨x, xs, hx⟩ := List.exists_cons_of_ne_nil hsome
  refine ⟨x, xs, ?_, ?_⟩
  · rw [← hx, h]
    exact (List.dropWhile_suffix isBlank).trans (List.suffix_append read tail)
  · rw [trimStart] at hx
    rw [trimStart, List.dropWhile_append, hx]
    rfl

/-- No word starts at the end of the right side. -/
theorem not_reads_in_side {w : String} (hne : w.toList ≠ [])
    (hw : ∀ y ∈ w.toList, isWord y = true) {bound passed : List Char} {c d : Cursor}
    (hbound : ¬ HasWord w.toList bound) (hc : c.after = bound ++ [':']) (hd : c.To passed d) :
    (word w).reads d = false := by
  rw [Bool.eq_false_iff]
  intro hreads
  have hword := hasWord_of_reads hne hw hd hreads
  rw [hc] at hword
  rcases hword.split hne hw (by decide) with hword | hword
  · exact hbound hword
  · obtain ⟨before, after, hnil, -⟩ := hword
    simp [hne] at hnil

theorem endsHeader_side {bound read tail : List Char} {c d : Cursor} (hbound : Solid bound)
    (hcolon : ':' ∉ bound) (hand : ¬ HasWord "and".toList bound)
    (hor : ¬ HasWord "or".toList bound) (hc : c.after = bound ++ [':'])
    (hread : bound = read ++ tail) (hne : tail ≠ []) (hd : c.To read d) :
    endsHeader d = false := by
  have hafter := hd.after_eq (hc.trans (by rw [hread, List.append_assoc]))
  obtain ⟨x, xs, hsuffix, htrim⟩ := trimStart_left hbound hread hne [':']
  have hto : c.To (read ++ d.after.takeWhile isBlank) (Cursor.pass isBlank d.before d.after) :=
    hd.trans ⟨by rw [Cursor.pass_eq, List.takeWhile_append_dropWhile], by rw [Cursor.pass_eq]⟩
  have hnext : (Cursor.pass isBlank d.before d.after).after = x :: (xs ++ [':']) := by
    rw [Cursor.pass_eq, hafter, ← htrim]
    rfl
  have hx : x ≠ ':' := by
    rintro rfl
    exact hcolon (hsuffix.subset (List.mem_cons_self ..))
  have hwordAnd :=
    not_reads_in_side (w := "and") (by decide) (List.all_eq_true.mp (by decide)) hand hc hto
  have hwordOr :=
    not_reads_in_side (w := "or") (by decide) (List.all_eq_true.mp (by decide)) hor hc hto
  simp [endsHeader, Cursor.atTextEnd, hnext, hx, hwordAnd, hwordOr]

/-- Two signs in a row are both of the right side, and not one of them the bracket. -/
theorem infix_side_of_pair {bound xs more rest : List Char} {s x : Char} (hs : s ≠ ')')
    (hsuffix : x :: xs <:+ bound) (h : x :: (xs ++ ')' :: more) = s :: s :: rest) :
    [s, s] <:+: bound := by
  obtain ⟨rfl, hxs⟩ := List.cons.inj h
  cases xs with
  | nil => exact absurd (List.cons.inj hxs).1.symm hs
  | cons y ys =>
    obtain ⟨rfl, -⟩ := List.cons.inj hxs
    exact List.IsInfix.trans ⟨[], ys, rfl⟩ hsuffix.isInfix

theorem endsCondition_side {bound read tail : List Char} {c d : Cursor} (hbound : Solid bound)
    (hbracket : ')' ∉ bound) (hand : ¬ ['&', '&'] <:+: bound) (hor : ¬ ['|', '|'] <:+: bound)
    (hc : c.after = bound ++ [')', ' ', '{']) (hread : bound = read ++ tail) (hne : tail ≠ [])
    (hd : c.To read d) : endsCondition d = false := by
  have hafter := hd.after_eq (hc.trans (by rw [hread, List.append_assoc]))
  obtain ⟨x, xs, hsuffix, htrim⟩ := trimStart_left hbound hread hne [')', ' ', '{']
  rw [Bool.eq_false_iff]
  intro hends
  rw [endsCondition, hafter, htrim] at hends
  split at hends
  · rename_i hx
    obtain ⟨rfl, -⟩ := List.cons.inj hx
    exact hbracket (hsuffix.subset (List.mem_cons_self ..))
  · rename_i hx
    exact hand (infix_side_of_pair (by decide) hsuffix hx)
  · rename_i hx
    exact hor (infix_side_of_pair (by decide) hsuffix hx)
  · exact absurd hends (by decide)

/-! ## Loops with a condition -/

/-- Without the word `for` there is no counting call. -/
theorem find?_rangeCall_eq_none {text : List Char} (h : ¬ HasWord "for".toList text) :
    rangeCall.find? text = none := by
  refine find?_eq_none fun c hc => bind_eq_nil ?_
  by_contra hne
  have hreads : (word "for").reads c = true := by simpa [reads] using hne
  exact h (hasWord_of_reads (by decide) (List.all_eq_true.mp (by decide)) (.of_mem_all hc) hreads)

theorem leads_whileLimit {lead sign bound : List Char} (hsign : IsLess sign) (hlead : '<' ∉ lead)
    (hbound : Solid bound) (hline : '\n' ∉ bound) (hcolon : ':' ∉ bound)
    (hand : ¬ HasWord "and".toList bound) (hor : ¬ HasWord "or".toList bound) :
    whileLimit.Leads
      ⟨[], "while ".toList ++ (lead ++ ' ' :: (sign ++ ' ' :: (bound ++ [':'])))⟩
      fun span _ => span.text = bound := by
  have hrun : ∀ y ∈ ' ' :: (lead ++ [' ']), (y != '<') = true := by
    intro y hy
    rw [bne_iff_ne]
    rintro rfl
    simp [hlead] at hy
  have hin : ∀ y ∈ bound, inLine y = true := by
    intro y hy
    rw [inLine, bne_iff_ne]
    rintro rfl
    exact hline hy
  unfold whileLimit
  refine Leads.bind (Q := fun _ left => left = ' ' :: (lead ++ ' ' :: (sign ++ _)))
    ⟨(), _, rfl, rfl⟩ fun _ d hd => ?_
  obtain ⟨more, hmore⟩ := List.head?_eq_some_iff.mp hsign.head?
  have hsplit : d.after = (' ' :: (lead ++ [' '])) ++
      '<' :: (more ++ ' ' :: (bound ++ [':'])) := by
    rw [hd, hmore]
    simp
  refine (leads_run hsplit hrun (by decide)).bind fun _ d hd => ?_
  rw [← List.cons_append, ← hmore] at hd
  refine leads_side hsign hbound hd hin ?_ ?_
  · intro b read tail d hread _ hne hb hto
    exact endsHeader_side hbound hcolon hand hor hb hread hne hto
  · intro d hd
    have hnext : d.after = [] ++ [':'] := hd
    have hend := after_pass (p := isBlank) hnext (List.forall_mem_nil _) (by decide)
    simp [endsHeader, hend]

theorem loopBound?_comparing {lead sign bound : List Char} (hsign : IsLess sign)
    (hlead : '<' ∉ lead) (hfor : ¬ HasWord "for".toList lead ∧ ¬ HasWord "for".toList bound)
    (hbound : Solid bound) (hline : '\n' ∉ bound) (hcolon : ':' ∉ bound)
    (hterm : ¬ HasWord "and".toList bound ∧ ¬ HasWord "or".toList bound) :
    Language.python.loopBound?
      ("while ".toList ++ (lead ++ ' ' :: (sign ++ ' ' :: (bound ++ [':'])))) = some bound := by
  have hsolid : Solid ("while ".toList ++ (lead ++ ' ' :: (sign ++ ' ' :: (bound ++ [':'])))) := by
    have h : Solid ("while ".toList ++ ((lead ++ ' ' :: (sign ++ ' ' :: bound)) ++ [':'])) :=
      solid_around (by decide) (by decide) _
    simpa using h
  have hword : ¬ HasWord "for".toList
      ("while ".toList ++ (lead ++ ' ' :: (sign ++ ' ' :: (bound ++ [':'])))) := by
    have hsplit : ∀ {a b : List Char} {x : Char}, isWord x = false → ¬ HasWord "for".toList a →
        ¬ HasWord "for".toList b → ¬ HasWord "for".toList (a ++ x :: b) :=
      fun hx ha hb h => (h.split (by decide) (List.all_eq_true.mp (by decide)) hx).elim ha hb
    have hless : ¬ HasWord "for".toList sign := by
      rcases hsign with rfl | rfl
      · decide
      · decide
    have hend : ¬ HasWord "for".toList (bound ++ [':']) := hsplit (by decide) hfor.2 (by decide)
    exact hsplit (a := "while".toList) (by decide) (by decide)
      (hsplit (by decide) hfor.1 (hsplit (by decide) hless hend))
  obtain ⟨span, -, hfind, hspan⟩ :=
    (leads_whileLimit hsign hlead hbound hline hcolon hterm.1 hterm.2).find?
  have hside := bound?_limit [] hfind hspan (List.forall_mem_nil _) hbound
  have hrules : Language.python.profile.boundRules = [.call rangeCall, .limit whileLimit] := rfl
  rw [Language.loopBound?, bound?, hrules, hsolid.trim_self, List.findSome?_cons, BoundRule.bound?,
    find?_rangeCall_eq_none hword, Option.bind_none, List.findSome?_cons, hside]

/-- Without a semicolon there are no clauses. -/
theorem find?_clauseLimit_eq_none {text : List Char} (h : ';' ∉ text) :
    clauseLimit.find? text = none := by
  have hmono : ∀ {a b : List Char}, a <:+ b → ';' ∈ a → ';' ∈ b := fun hab ha => hab.subset ha
  have hneeds : clauseLimit.Needs (';' ∈ ·) := by
    refine Needs.bind_right hmono (forward_here _) fun _ => ?_
    refine Needs.bind_right hmono (forward_exactly _) fun _ => ?_
    refine Needs.bind_right hmono (forward_run _) fun _ => ?_
    refine Needs.bind_right hmono (forward_one _) fun _ => ?_
    refine Needs.bind_right hmono (forward_run _) fun _ => ?_
    refine Needs.bind_left ?_
    exact fun c r hr => List.mem_of_head? (needs_char ';' c r hr)
  refine find?_eq_none fun c hc => hneeds.eq_nil fun hmem => ?_
  exact h ((Cursor.after_suffix_of_mem_all hc).subset hmem)

theorem leads_conditionLimit {lead sign bound : List Char} (hsign : IsLess sign)
    (hsemi : ';' ∉ lead ∧ ';' ∉ bound) (hlead : '<' ∉ lead) (hbound : Solid bound)
    (hbracket : ')' ∉ bound) (hand : ¬ ['&', '&'] <:+: bound) (hor : ¬ ['|', '|'] <:+: bound) :
    conditionLimit.Leads
      ⟨[], "while (".toList ++ (lead ++ ' ' :: (sign ++ ' ' :: (bound ++ [')', ' ', '{'])))⟩
      fun span _ => span.text = bound := by
  have hfew : ∀ y ∈ lead ++ [' '], (y != ';') = true := by
    intro y hy
    rw [bne_iff_ne]
    rintro rfl
    simp [hsemi.1] at hy
  have hin : ∀ y ∈ bound, inCondition y = true := by
    intro y hy
    rw [inCondition, Bool.and_eq_true, bne_iff_ne, bne_iff_ne]
    refine ⟨?_, ?_⟩
    · rintro rfl
      exact hsemi.2 hy
    · rintro rfl
      exact hbracket hy
  unfold conditionLimit
  refine Leads.bind (Q := fun _ left => left = "while".toList ++
    ' ' :: '(' :: (lead ++ ' ' :: (sign ++ _))) ⟨(), _, rfl, rfl⟩ fun _ d hd => ?_
  refine (leads_literal hd).bind fun _ d hd => ?_
  have hspaced : d.after =
      [' '] ++ '(' :: (lead ++ ' ' :: (sign ++ ' ' :: (bound ++ [')', ' ', '{']))) := hd
  refine (leads_run hspaced (List.all_eq_true.mp (by decide)) (by decide)).bind fun _ d hd => ?_
  refine (leads_one hd (by decide)).bind fun _ d hd => ?_
  have hsplit : d.after = (lead ++ [' ']) ++ (sign ++ ' ' :: (bound ++ [')', ' ', '{'])) := by
    rw [hd]
    simp
  refine leads_few hfew d hsplit ?_ ?_
  · intro read tail e hread hne he
    exact lessThan_bind_eq_nil (by simp [hlead]) hsplit hread hne he
  · intro e he
    refine leads_side hsign hbound (he.after_eq hsplit) hin ?_ ?_
    · intro b read tail d hread _ hne hb hto
      exact endsCondition_side hbound hbracket hand hor hb hread hne hto
    · intro d hd
      rw [endsCondition, hd]
      rfl

theorem loopBound?_condition {lang : Language} (hbraces : lang.profile.usesBraces = true)
    {lead sign bound : List Char} (hsign : IsLess sign) (hsemi : ';' ∉ lead ∧ ';' ∉ bound)
    (hlead : '<' ∉ lead) (hbound : Solid bound) (hbracket : ')' ∉ bound)
    (hterm : ¬ ['&', '&'] <:+: bound ∧ ¬ ['|', '|'] <:+: bound) :
    lang.loopBound?
      ("while (".toList ++ (lead ++ ' ' :: (sign ++ ' ' :: (bound ++ [')', ' ', '{'])))) =
        some bound := by
  have hsolid : Solid
      ("while (".toList ++ (lead ++ ' ' :: (sign ++ ' ' :: (bound ++ [')', ' ', '{'])))) := by
    have h : Solid ("while (".toList ++
        ((lead ++ ' ' :: (sign ++ ' ' :: bound)) ++ [')', ' ', '{'])) :=
      solid_around (by decide) (by decide) _
    simpa using h
  have hnone : ';' ∉
      "while (".toList ++ (lead ++ ' ' :: (sign ++ ' ' :: (bound ++ [')', ' ', '{']))) := by
    rcases hsign with rfl | rfl
    · simp [hsemi]
    · simp [hsemi]
  obtain ⟨span, -, hfind, hspan⟩ :=
    (leads_conditionLimit hsign hsemi hlead hbound hbracket hterm.1 hterm.2).find?
  have hside := bound?_limit [] hfind hspan (List.forall_mem_nil _) hbound
  have hclauses := bound?_limit_eq_none (find?_clauseLimit_eq_none hnone)
  rw [Language.loopBound?, bound?, boundRules_of_usesBraces hbraces, Language.braceBoundRules,
    hsolid.trim_self, List.findSome?_cons, hclauses, List.findSome?_cons, hside]

theorem loopBound?_clauses {lang : Language} (hbraces : lang.profile.usesBraces = true)
    {first lead sign bound : List Char} (rest : List Char) (hsign : IsLess sign)
    (hsemi : ';' ∉ first ∧ ';' ∉ lead ∧ ';' ∉ bound) (hlead : '<' ∉ lead) (hbound : Solid bound) :
    lang.loopBound? ("for (".toList ++ (first ++ ';' :: ' ' ::
      (lead ++ ' ' :: (sign ++ ' ' :: (bound ++ ';' :: rest))))) = some bound := by
  have hsolid : Solid ("for (".toList ++
      ((first ++ ';' :: ' ' :: (lead ++ ' ' :: (sign ++ ' ' :: bound))) ++ [';'])) :=
    solid_around (by decide) (by decide) _
  have htrim := hsolid.trim_append rest
  have hleads := leads_clauseLimit [' '] first (' ' :: (lead ++ [' '])) sign (' ' :: bound)
    (trimEnd rest) (List.all_eq_true.mp (by decide)) hsemi.1 (by simp [hsemi]) (by simp [hlead])
    hsign (by simp [hsemi]) (by simp) (by simp)
  obtain ⟨span, -, hfind, hspan⟩ := hleads.find?
  have hside : (BoundRule.limit clauseLimit).bound? ("for (".toList ++ (first ++ ';' :: ' ' ::
      (lead ++ ' ' :: (sign ++ ' ' :: (bound ++ ';' :: trimEnd rest))))) = some bound := by
    have h := bound?_limit [' '] hfind hspan (List.all_eq_true.mp (by decide)) hbound
    simp only [List.append_assoc, List.cons_append, List.nil_append] at h
    exact h
  simp only [List.append_assoc, List.cons_append, List.nil_append] at htrim
  rw [Language.loopBound?, bound?, boundRules_of_usesBraces hbraces, Language.braceBoundRules,
    htrim, List.findSome?_cons, hside]

/-- A header in its plain form tells the bound that it was written with. -/
theorem loopBound?_of_canonicalHeader {lang : Language} {header bound : List Char}
    (h : CanonicalHeader lang header bound) : lang.loopBound? header = some bound := by
  cases h with
  | counting rest hv hargs => exact loopBound?_counting rest hv hargs
  | comparing lead sign _ hsign hlead hfor hne htrim hline hcolon hterm =>
    exact loopBound?_comparing hsign hlead hfor (solid_of_trim_eq hne htrim) hline hcolon hterm
  | clauses hbraces first lead sign _ rest hsign hsemi hlead hne htrim =>
    exact loopBound?_clauses hbraces rest hsign hsemi hlead (solid_of_trim_eq hne htrim)
  | condition hbraces lead sign _ hsign hsemi hlead hne htrim hbracket hterm =>
    exact loopBound?_condition hbraces hsign hsemi hlead (solid_of_trim_eq hne htrim) hbracket hterm

/-- Brackets and commas within an argument, words that only hold `for`, `and` or `or`, and a
second comparison on the right side. -/
theorem loopBound?_of_canonicalHeader_ofEachForm :
    Language.python.loopBound?
        "for row in range(len(grid[0]), max(a, b)[i:j], -1): # in range(9)  ".toList =
      some "max(a, b)[i:j]".toList ∧
    Language.python.loopBound? "while form[band] <= len(before) << order:".toList =
      some "len(before) << order".toList ∧
    Language.java.loopBound? "for (int i = f(1, 2); i < (a < b ? m : n); i += 2) \x7b".toList =
      some "(a < b ? m : n)".toList ∧
    Language.c.loopBound? "while (i & 1 <= n & m | k) \x7b".toList = some "n & m | k".toList := by
  have harguments : ∀ a ∈ ["len(grid[0])".toList, "max(a, b)[i:j]".toList, "-1".toList],
      IsArgument a := by decide
  have hname : ∀ c ∈ "row".toList, isBlank c = false := by
    have h : "row".toList.any isBlank = false := by decide
    simpa using h
  refine ⟨?_, ?_, ?_, ?_⟩
  · exact loopBound?_of_canonicalHeader
      (.counting (v := "row".toList) ": # in range(9)  ".toList hname harguments)
  · exact loopBound?_of_canonicalHeader
      (.comparing "form[band]".toList "<=".toList "len(before) << order".toList
        (.inr rfl) (by decide) (by decide) (by decide) (by decide) (by decide) (by decide)
        (by decide))
  · exact loopBound?_of_canonicalHeader
      (.clauses rfl "int i = f(1, 2)".toList ['i'] ['<'] "(a < b ? m : n)".toList
        " i += 2) \x7b".toList (.inl rfl) (by decide) (by decide) (by decide) (by decide))
  · exact loopBound?_of_canonicalHeader
      (.condition rfl "i & 1".toList "<=".toList "n & m | k".toList (.inr rfl)
        (by decide) (by decide) (by decide) (by decide) (by decide) (by decide))

end BigO.Loop
