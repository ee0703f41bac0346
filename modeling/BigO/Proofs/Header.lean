-- What a loop header tells, whether it is read as a line of the source or as
-- tokens of the parse tree with one space between them: it opens a loop, its
-- bound is the one it was written with, and nothing in it is scaled.
import BigO.Proofs.LoopForest
import BigO.Proofs.Places
import Mathlib.Data.List.TakeWhile

/-! ## Trimming -/

namespace BigO.Text

/-- The text has blanks at neither end, and is not empty. -/
structure Solid (text : List Char) : Prop where
  first : text.head?.any (!isBlank ·) = true
  last : text.getLast?.any (!isBlank ·) = true

theorem trimStart_blanks_append {blanks : List Char} (hb : ∀ c ∈ blanks, isBlank c = true)
    (text : List Char) (ht : text.head?.any (!isBlank ·) = true) :
    trimStart (blanks ++ text) = text := by
  unfold trimStart
  rw [List.dropWhile_append_of_pos hb]
  cases text with
  | nil => rfl
  | cons c cs => exact List.dropWhile_cons_of_neg (by simpa using ht)

theorem trimEnd_append_blanks {blanks : List Char} (hb : ∀ c ∈ blanks, isBlank c = true)
    (text : List Char) (ht : text.getLast?.any (!isBlank ·) = true) :
    trimEnd (text ++ blanks) = text := by
  have hrev : ∀ c ∈ blanks.reverse, isBlank c = true := fun c hc => hb c (List.mem_reverse.mp hc)
  have h := trimStart_blanks_append hrev text.reverse (by rwa [List.head?_reverse])
  unfold trimStart at h
  unfold trimEnd
  rw [List.reverse_append, h, List.reverse_reverse]

/-- Trimming takes off the blanks around a solid text and no more. -/
theorem Solid.trim {before text after : List Char} (h : Solid text)
    (hb : ∀ c ∈ before, isBlank c = true) (ha : ∀ c ∈ after, isBlank c = true) :
    Text.trim (before ++ (text ++ after)) = text := by
  have hfirst : (text ++ after).head?.any (!isBlank ·) = true := by
    cases text with
    | nil => exact absurd h.first (by simp)
    | cons c cs => exact h.first
  rw [Text.trim, trimStart_blanks_append hb _ hfirst, trimEnd_append_blanks ha _ h.last]

theorem Solid.trim_self {text : List Char} (h : Solid text) : Text.trim text = text := by
  have hnil : ∀ c ∈ ([] : List Char), isBlank c = true := by simp
  simpa using h.trim hnil hnil

theorem solid_of_forall {text : List Char} (hne : text ≠ []) (h : ∀ c ∈ text, isBlank c = false) :
    Solid text := by
  constructor
  · rw [List.head?_eq_some_head hne]
    simpa using h _ (List.head_mem hne)
  · rw [List.getLast?_eq_some_getLast hne]
    simpa using h _ (List.getLast_mem hne)

/-- A text that trimming leaves as it is has blanks at neither end. -/
theorem solid_of_trim_eq {text : List Char} (hne : text ≠ []) (h : Text.trim text = text) :
    Solid text := by
  have hstart : trimStart text = text := by
    have hle : text.length ≤ (trimStart text).length := by
      have hcut := (List.dropWhile_suffix (l := (trimStart text).reverse) isBlank).length_le
      rw [List.length_reverse] at hcut
      calc text.length = (Text.trim text).length := by rw [h]
        _ ≤ (trimStart text).length := by rwa [Text.trim, trimEnd, List.length_reverse]
    exact (List.dropWhile_suffix isBlank).eq_of_length_le hle
  have hstop : text.reverse.dropWhile isBlank = text.reverse := by
    rw [Text.trim, hstart, trimEnd] at h
    rw [← List.reverse_eq_iff, h]
  constructor
  · have hfirst := List.head?_dropWhile_not isBlank text
    rw [← trimStart, hstart] at hfirst
    rw [List.head?_eq_some_head hne] at hfirst ⊢
    simpa using hfirst
  · have hlast := List.head?_dropWhile_not isBlank text.reverse
    rw [hstop, List.head?_reverse] at hlast
    rw [List.getLast?_eq_some_getLast hne] at hlast ⊢
    simpa using hlast

/-- Trimming what starts with a solid text cuts the rest only. -/
theorem Solid.trim_append {text : List Char} (h : Solid text) (rest : List Char) :
    Text.trim (text ++ rest) = text ++ trimEnd rest := by
  have hfirst : (text ++ rest).head?.any (!isBlank ·) = true := by
    cases text with
    | nil => exact absurd h.first (by simp)
    | cons c cs => exact h.first
  have hstart : trimStart (text ++ rest) = text ++ rest :=
    trimStart_blanks_append (List.forall_mem_nil _) _ hfirst
  have hstop : text.reverse.dropWhile isBlank = text.reverse := by
    have hlast : text.reverse.head?.any (!isBlank ·) = true := by
      rw [List.head?_reverse]
      exact h.last
    exact trimStart_blanks_append (List.forall_mem_nil _) _ hlast
  rw [Text.trim, hstart, trimEnd, trimEnd, List.reverse_append, List.dropWhile_append, hstop]
  split
  · rename_i hblank
    rw [List.isEmpty_iff.mp hblank]
    simp
  · simp

theorem solid_around {start stop : List Char} (hstart : start.head?.any (!isBlank ·) = true)
    (hstop : stop.getLast?.any (!isBlank ·) = true) (middle : List Char) :
    Solid (start ++ (middle ++ stop)) := by
  constructor
  · cases start with
    | nil => exact absurd hstart (by simp)
    | cons c cs => exact hstart
  · cases h : stop.getLast? with
    | none =>
      rw [h] at hstop
      exact absurd hstop (by simp)
    | some c =>
      rw [List.getLast?_append, List.getLast?_append, h]
      rwa [h] at hstop

end BigO.Text

namespace BigO.Loop

open BigO.Text BigO.Scan BigO.Scan.Scanner

/-! ## Arguments -/

/-- The only argument of a call, and what the call is closed by. -/
theorem argumentsFrom_single {argument : List Char}
    (h : ∀ c ∈ argument, isOpening c = false ∧ isClosing c = false ∧ c ≠ ',')
    (current rest : List Char) :
    argumentsFrom 0 current (argument ++ ')' :: rest) =
      some (lastArgument (current.reverse ++ argument)) := by
  induction argument generalizing current with
  | nil => simp [argumentsFrom, isOpening, isClosing]
  | cons c cs ih =>
    obtain ⟨hopen, hclose, hcomma⟩ := h c (List.mem_cons_self ..)
    rw [List.cons_append, argumentsFrom, hopen, hclose, if_neg (by decide), if_neg (by decide),
      if_neg (by simp [hcomma]), ih fun d hd => h d (List.mem_cons_of_mem _ hd)]
    simp

/-! ## Bounds -/

theorem isBlank_of_isTokenChar {c : Char} (h : isTokenChar c = true) : isBlank c = false := by
  by_cases hc : c.toNat < 128
  · revert h
    exact forall_ascii (P := fun c => isTokenChar c = true → isBlank c = false) (by decide) hc
  · simpa [isTokenChar, hc] using h

theorem ne_of_isTokenChar {c x : Char} (hc : isTokenChar c = true) (hx : isTokenChar x = false) :
    c ≠ x := by
  rintro rfl
  rw [hc] at hx
  exact absurd hx (by decide)

/-- A character of a token does not end or nest an argument. -/
theorem isTokenChar_in_argument {c : Char} (h : isTokenChar c = true) :
    isOpening c = false ∧ isClosing c = false ∧ c ≠ ',' := by
  have hne : ∀ x, isTokenChar x = false → (c == x) = false := by
    intro x hx
    exact beq_false_of_ne (ne_of_isTokenChar h hx)
  unfold isOpening isClosing
  rw [hne '(' (by decide), hne '[' (by decide), hne '{' (by decide), hne ')' (by decide),
    hne ']' (by decide), hne '}' (by decide)]
  exact ⟨rfl, rfl, ne_of_isTokenChar h (by decide)⟩

namespace Bound

theorem solid (b : Bound) : Solid b.text := by
  refine solid_of_forall b.ne_nil ?_
  intro c hc
  exact isBlank_of_isTokenChar (b.isTokenChar_of_mem hc)

theorem trim_spaced (b : Bound) {before after : List Char} (hb : ∀ c ∈ before, c = ' ')
    (ha : ∀ c ∈ after, c = ' ') : trim (before ++ (b.text ++ after)) = b.text := by
  refine b.solid.trim ?_ ?_
  · intro c hc
    rw [hb c hc]
    decide
  · intro c hc
    rw [ha c hc]
    decide

/-- The bound alone in brackets, with or without blanks, is the only argument. -/
theorem arguments_spaced (b : Bound) {before after : List Char} (hb : ∀ c ∈ before, c = ' ')
    (ha : ∀ c ∈ after, c = ' ') (rest : List Char) :
    arguments? (before ++ (b.text ++ after) ++ ')' :: rest) = some [b.text] := by
  have hspace : isOpening ' ' = false ∧ isClosing ' ' = false ∧ ' ' ≠ ',' := by decide
  have htoken : ∀ c ∈ before ++ (b.text ++ after),
      isOpening c = false ∧ isClosing c = false ∧ c ≠ ',' := by
    intro c hc
    rw [List.mem_append, List.mem_append] at hc
    rcases hc with hc | hc | hc
    · rw [hb c hc]
      exact hspace
    · exact isTokenChar_in_argument (b.isTokenChar_of_mem hc)
    · rw [ha c hc]
      exact hspace
  rw [arguments?, argumentsFrom_single htoken, lastArgument]
  simp [b.trim_spaced hb ha, b.ne_nil]

end Bound

/-! ## The two rules -/

/-- No counting call is read from inside the variable. -/
theorem inRange_eq_nil {tail rest : List Char} {f : Unit → Scanner Span} {c : Cursor}
    (htail : ∀ x ∈ tail, isBlank x = false) (hc : c.after = tail ++ ' ' :: 'i' :: rest) :
    (wordEdge >>= fun _ => literal "in" >>= fun _ => runSome isBlank >>= fun _ =>
      literal "range" >>= f) c = [] := by
  apply eq_nil_of_always
  intro r hr
  obtain ⟨⟨⟨⟩, d⟩, hd, hr⟩ := mem_bind.mp hr
  obtain ⟨-, hd⟩ := mem_here.mp hd
  obtain ⟨⟨⟨⟩, e⟩, he, hr⟩ := mem_bind.mp hr
  have hin := after_of_mem_literal he
  rw [(Prod.mk.inj hd).2, hc] at hin
  -- only a variable that ends in `in` gets this far, and then no `range` comes next
  match tail, htail, hin with
  | [], _, hin => exact absurd (List.cons.inj hin).1 (by decide)
  | [x], _, hin => exact absurd (List.cons.inj (List.cons.inj hin).2).1 (by decide)
  | x :: y :: z :: tail, htail, hin =>
    have hz : e.after = z :: (tail ++ ' ' :: 'i' :: rest) := by
      simpa using (List.cons.inj (List.cons.inj hin).2).2.symm
    obtain ⟨⟨⟨⟩, g⟩, hg, hr⟩ := mem_bind.mp hr
    obtain ⟨⟨⟨⟩, k⟩, hk, -⟩ := mem_bind.mp hg
    have hblank := (always_one hz _ hk).1
    rw [htail z (by simp)] at hblank
    exact absurd hblank (by decide)
  | [x, y], _, hin =>
    have hafter : e.after = ' ' :: ([] ++ 'i' :: rest) := by
      simpa using (List.cons.inj (List.cons.inj hin).2).2.symm
    obtain ⟨⟨⟨⟩, g⟩, hg, hr⟩ := mem_bind.mp hr
    have hnext := always_runSome [] hafter (by simp) (by decide) _ hg
    obtain ⟨⟨⟨⟩, k⟩, hk, -⟩ := mem_bind.mp hr
    have hrange := after_of_mem_literal hk
    rw [hnext] at hrange
    exact absurd (List.cons.inj hrange).1 (by decide)

/-- From the word after the variable on, the call is read up to the end of its line. -/
theorem leads_inRange {gap rest : List Char} {c : Cursor} (hgap : ∀ x ∈ gap, isBlank x = true)
    (hedge : c.atWordEdge = true)
    (hc : c.after = "in".toList ++ (" range".toList ++ (gap ++ '(' :: rest))) :
    (wordEdge >>= fun _ => literal "in" >>= fun _ => runSome isBlank >>= fun _ =>
      literal "range" >>= fun _ => blanks >>= fun _ => char '(' >>= fun _ =>
      captured (run inLine)).Leads c fun span _ => span.text = rest.takeWhile inLine := by
  refine (leads_here hedge).bind fun _ d hd => ?_
  rw [hc] at hd
  refine (leads_literal hd).bind fun _ d hd => ?_
  have hspaced : d.after = [' '] ++ 'r' :: ("ange".toList ++ (gap ++ '(' :: rest)) := hd
  have hspace : ∀ x ∈ [' '], isBlank x = true := List.all_eq_true.mp (by decide)
  refine (leads_runSome hspaced (by simp) hspace (by decide)).bind fun _ d hd => ?_
  refine (leads_literal hd).bind fun _ d hd => ?_
  refine (leads_run hd hgap (by decide)).bind fun _ d hd => ?_
  refine (leads_one hd (by decide)).bind fun _ d hd => ?_
  have hrun : (run inLine).Leads d fun _ left => left = rest.dropWhile inLine :=
    ⟨(), _, rfl, by rw [Cursor.pass_eq, hd]⟩
  have hcut : d.after = rest.takeWhile inLine ++ rest.dropWhile inLine :=
    hd.trans List.takeWhile_append_dropWhile.symm
  obtain ⟨span, e, hhead, hspan, -⟩ := leads_captured hcut hrun
  exact ⟨span, e, hhead, hspan⟩

/-- What follows the bracket of a counting call is the rest of its line. Any text without
blanks may be the variable. -/
theorem leads_rangeCall {v gap : List Char} (hv : ∀ x ∈ v, isBlank x = false)
    (hgap : ∀ x ∈ gap, isBlank x = true) (rest : List Char) :
    rangeCall.Leads ⟨[], "for ".toList ++ (v ++ (" in range".toList ++ (gap ++ '(' :: rest)))⟩
      fun span _ => span.text = rest.takeWhile inLine := by
  have hline : ∀ y ∈ v ++ [' '], inLine y = true := by
    intro y hy
    rw [List.mem_append, List.mem_singleton] at hy
    unfold inLine
    rw [bne_iff_ne]
    rintro rfl
    rcases hy with hy | hy
    · exact absurd (hv _ hy) (by decide)
    · exact absurd hy (by decide)
  unfold rangeCall fewSome
  refine Leads.bind (Q := fun _ left => left = ' ' :: (v ++ _)) ⟨(), _, rfl, rfl⟩ ?_
  intro _ c hc
  rw [bind_bind]
  refine (leads_one hc (by decide)).bind fun _ c hc => ?_
  have hsplit : c.after = (v ++ [' ']) ++ ("in range".toList ++ (gap ++ '(' :: rest)) := by
    rw [hc, List.append_assoc]
    rfl
  refine leads_few hline c hsplit ?_ ?_
  · intro read tail d hread hne hd
    obtain ⟨init, x, rfl⟩ := (List.eq_nil_or_concat tail).resolve_left hne
    rw [List.concat_eq_append] at hread hne
    obtain ⟨hvread, hx⟩ := List.append_inj' (hread.trans (List.append_assoc ..).symm) rfl
    have hafter := hd.after_eq (hsplit.trans (by rw [hread, List.append_assoc]))
    rw [← (List.cons.inj hx).1, List.append_assoc] at hafter
    refine inRange_eq_nil ?_ hafter
    intro y hy
    exact hv y (hvread ▸ List.mem_append_right read hy)
  · intro d hd
    have hbehind : d.before.head? = some ' ' := by
      rw [hd.head?_before (by simp), List.getLast?_concat]
    have hedge : d.atWordEdge = true := by
      unfold Cursor.atWordEdge Cursor.wordBefore Cursor.wordAfter
      rw [hbehind, hd.after_eq hsplit]
      rfl
    exact leads_inRange hgap hedge (hd.after_eq hsplit)

/-- No comparison is read before its sign. -/
theorem lessThan_bind_eq_nil {β : Type} {f : Unit → Scanner β} {lead rest read tail : List Char}
    {c d : Cursor} (hless : '<' ∉ lead) (hc : c.after = lead ++ rest) (hread : lead = read ++ tail)
    (hne : tail ≠ []) (hd : c.To read d) : (lessThan >>= f) d = [] := by
  obtain ⟨x, xs, rfl⟩ := List.exists_cons_of_ne_nil hne
  have hafter := hd.after_eq (hc.trans (by rw [hread, List.append_assoc]))
  refine eq_nil_of_head (Needs.bind_left (Needs.bind_left (needs_char '<'))) hafter ?_
  rintro rfl
  exact hless (by simp [hread])

/-- The two signs of a comparison that keeps a loop going. -/
def IsLess (sign : List Char) : Prop :=
  sign = ['<'] ∨ sign = ['<', '=']

theorem leads_lessThan {c : Cursor} {sign rest : List Char} (hsign : IsLess sign)
    (hc : c.after = sign ++ rest) (hrest : rest.head? ≠ some '=') :
    lessThan.Leads c fun _ left => left = rest := by
  rcases hsign with rfl | rfl
  · refine (leads_one hc (by decide)).bind fun _ d hd => ?_
    have hskip : char '=' d = [] := (needs_char '=').eq_nil (by rwa [hd])
    have hleads := leads_optional hskip
    rwa [hd] at hleads
  · refine (leads_one hc (by decide)).bind fun _ d hd => ?_
    obtain ⟨u, e, hhead, he⟩ := leads_one (p := (· == '=')) hd (by decide)
    refine ⟨u, e, ?_, he⟩
    show (char '=' d ++ [((), d)]).head? = _
    rw [List.head?_append]
    exact congrArg (Option.or · _) hhead

theorem IsLess.head? {sign : List Char} (h : IsLess sign) : sign.head? = some '<' := by
  rcases h with rfl | rfl <;> rfl

/-- The bound of a loop with clauses stands between the comparison and the second
semicolon. -/
theorem leads_clauseLimit (blank first lead sign side rest : List Char)
    (hblank : ∀ c ∈ blank, isBlank c = true) (hfirst : ';' ∉ first) (hlead : ';' ∉ lead)
    (hless : '<' ∉ lead) (hsign : IsLess sign) (hside : ';' ∉ side) (heq : side.head? ≠ some '=')
    (hne : side ≠ []) :
    clauseLimit.Leads
      ⟨[], "for".toList ++
        (blank ++ '(' :: (first ++ ';' :: (lead ++ (sign ++ (side ++ ';' :: rest)))))⟩
      fun span _ => span.text = side := by
  have hpass : ∀ {t : List Char}, ';' ∉ t → ∀ c ∈ t, (c != ';') = true := by
    intro t ht c hc
    simp only [bne_iff_ne, ne_eq]
    rintro rfl
    exact ht hc
  unfold clauseLimit
  refine Leads.bind (Q := fun _ left => left = "for".toList ++ _) ⟨(), _, rfl, rfl⟩ ?_
  intro _ d hd
  refine (leads_literal hd).bind fun _ d hd => ?_
  refine (leads_run hd hblank (by decide)).bind fun _ d hd => ?_
  refine (leads_one hd (by decide)).bind fun _ d hd => ?_
  refine (leads_run hd (hpass hfirst) (by decide)).bind fun _ d hd => ?_
  refine (leads_one hd (by decide)).bind fun _ d hd => ?_
  refine leads_few (hpass hlead) d hd ?_ ?_
  · exact fun read tail e hread hne he => lessThan_bind_eq_nil hless hd hread hne he
  · intro e he
    have hhead : (side ++ ';' :: rest).head? ≠ some '=' := by
      obtain ⟨x, xs, rfl⟩ := List.exists_cons_of_ne_nil hne
      exact heq
    refine (leads_lessThan hsign (he.after_eq hd) hhead).bind fun _ d hd => ?_
    refine (leads_captured hd (leads_runSome hd hne (hpass hside) (by decide))).bind ?_
    rintro span d ⟨hspan, hd⟩
    refine (leads_one hd (by decide)).bind fun _ d _ => ?_
    exact ⟨span, d, rfl, hspan⟩

theorem loopBound_of_loopBound? {lang : Language} {header : List Char} {b : Bound}
    (h : lang.loopBound? header = some b.text) : lang.loopBound header = b.text := by
  obtain ⟨x, xs, hx⟩ := List.exists_cons_of_ne_nil b.ne_nil
  rw [hx] at h
  rw [Language.loopBound, h, hx]

/-- The bound of a header with a counting call, with or without spaces in it. -/
theorem loopBound_range (b : Bound) (start before after rest : List Char)
    (hstart : start = "for i in range(".toList ∨ start = "for i in range (".toList)
    (hb : ∀ c ∈ before, c = ' ') (ha : ∀ c ∈ after, c = ' ') (hrest : '\n' ∉ rest)
    (hsolid : Solid (start ++ (before ++ (b.text ++ (after ++ ')' :: rest))))) :
    Language.python.loopBound (start ++ (before ++ (b.text ++ (after ++ ')' :: rest)))) =
      b.text := by
  have hline : '\n' ∉ before ++ (b.text ++ (after ++ ')' :: rest)) := by
    have hbound : '\n' ∉ b.text := b.notMem (by decide)
    simp only [List.mem_append, List.mem_cons, not_or]
    refine ⟨?_, hbound, ?_, by decide, hrest⟩
    · intro h
      exact absurd (hb _ h) (by decide)
    · intro h
      exact absurd (ha _ h) (by decide)
  have hcall : ∃ span, rangeCall.find?
      (start ++ (before ++ (b.text ++ (after ++ ')' :: rest)))) = some span ∧
      span.text = before ++ (b.text ++ (after ++ ')' :: rest)) := by
    have hv : ∀ x ∈ ['i'], isBlank x = false := List.forall_mem_singleton.mpr (by decide)
    have hcut : (before ++ (b.text ++ (after ++ ')' :: rest))).takeWhile inLine =
        before ++ (b.text ++ (after ++ ')' :: rest)) := by
      rw [List.takeWhile_eq_self_iff]
      intro c hc
      unfold inLine
      rw [bne_iff_ne]
      rintro rfl
      exact hline hc
    have hspace : ∀ x ∈ [' '], isBlank x = true := List.all_eq_true.mp (by decide)
    rcases hstart with rfl | rfl
    · obtain ⟨span, -, hfind, hspan⟩ := (leads_rangeCall hv (List.forall_mem_nil _) _).find?
      exact ⟨span, hfind, hspan.trans hcut⟩
    · obtain ⟨span, -, hfind, hspan⟩ := (leads_rangeCall hv hspace _).find?
      exact ⟨span, hfind, hspan.trans hcut⟩
  obtain ⟨span, hfind, hspan⟩ := hcall
  have hargs := b.arguments_spaced hb ha rest
  simp only [List.append_assoc] at hargs
  have hrules : Language.python.profile.boundRules = [.call rangeCall, .limit whileLimit] := rfl
  apply loopBound_of_loopBound?
  rw [Language.loopBound?, bound?, hrules, hsolid.trim_self, List.findSome?_cons,
    BoundRule.bound?, hfind, Option.bind_some, hspan, hargs]
  rfl

/-- The bound of a header with clauses, with or without spaces in it. -/
theorem loopBound_clause {lang : Language} {header : List Char}
    (hlang : lang.profile.boundRules = Language.braceBoundRules)
    (b : Bound) (first before after rest : List Char)
    (hheader : header = "for".toList ++ ([' '] ++ '(' :: (first ++ ';' :: (" i ".toList ++
      (['<'] ++ (before ++ (b.text ++ (after ++ ';' :: rest))))))))
    (hfirst : ';' ∉ first) (hb : ∀ c ∈ before, c = ' ') (ha : ∀ c ∈ after, c = ' ')
    (hsolid : Solid header) : lang.loopBound header = b.text := by
  have hside : ∀ x, x ≠ ' ' → isTokenChar x = false → x ∉ before ++ (b.text ++ after) := by
    intro x hx htoken h
    rw [List.mem_append, List.mem_append] at h
    rcases h with h | h | h
    · exact hx (hb x h)
    · exact b.notMem htoken h
    · exact hx (ha x h)
  have hspace : ∀ c ∈ [' '], isBlank c = true := List.all_eq_true.mp (by decide)
  have hleads := leads_clauseLimit [' '] first " i ".toList ['<'] (before ++ (b.text ++ after)) rest
    hspace hfirst (by decide) (by decide) (.inl rfl) (hside ';' (by decide) (by decide))
    (fun h => hside '=' (by decide) (by decide) (List.mem_of_head? h)) (by simp [b.ne_nil])
  rw [List.append_assoc before, List.append_assoc b.text, ← hheader] at hleads
  obtain ⟨span, -, hfind, hspan⟩ := hleads.find?
  apply loopBound_of_loopBound?
  rw [Language.loopBound?, bound?, hlang, hsolid.trim_self, Language.braceBoundRules,
    List.findSome?_cons, BoundRule.bound?, hfind, Option.bind_some, hspan, b.trim_spaced hb ha,
    if_neg b.ne_nil]

/-! ## Progressions -/

/-- The text has a sign that scales: a star, a slash, or a shift either way. -/
def HasScaling (text : List Char) : Prop :=
  '*' ∈ text ∨ '/' ∈ text ∨ '>' ∈ text ∨ 2 ≤ text.count '<'

instance (text : List Char) : Decidable (HasScaling text) := by
  unfold HasScaling
  infer_instance

theorem HasScaling.of_sublist {a b : List Char} (hab : a.Sublist b) (h : HasScaling a) :
    HasScaling b := by
  rcases h with h | h | h | h
  · exact .inl (hab.subset h)
  · exact .inr (.inl (hab.subset h))
  · exact .inr (.inr (.inl (hab.subset h)))
  · exact .inr (.inr (.inr (Nat.le_trans h (hab.count_le '<'))))

theorem needs_scaling_oneOf {signs : List String} (h : ∀ w ∈ signs, HasScaling w.toList) :
    (oneOf (signs.map literal)).Needs HasScaling := by
  intro c r hr
  obtain ⟨s, hs, hr⟩ := mem_oneOf.mp hr
  obtain ⟨w, hw, rfl⟩ := List.mem_map.mp hs
  rw [after_of_mem_literal hr]
  exact (h w hw).of_sublist (List.sublist_append_left _ _)

/-- Nothing is scaled in a text without such a sign. -/
theorem hasScaling_of_scales {text : List Char} (h : scales text = true) : HasScaling text := by
  have hsuffix : ∀ {a b : List Char}, a <:+ b → HasScaling a → HasScaling b :=
    fun hab => HasScaling.of_sublist hab.sublist
  have hname : name.Forward :=
    forward_captured ((forward_one _).bind fun _ => forward_run _)
  refine Needs.of_occurs (Needs.either ?_ ?_) hsuffix h
  · exact (needs_scaling_oneOf (by decide)).bind_left
  · -- the sign stands after the name, the equals sign and the name again
    refine Needs.bind_right hsuffix (forward_here _) fun _ => ?_
    refine Needs.bind_right hsuffix hname fun v => ?_
    refine Needs.bind_right hsuffix (forward_run _) fun _ => ?_
    refine Needs.bind_right hsuffix (forward_one _) fun _ => ?_
    refine Needs.bind_right hsuffix (forward_run _) fun _ => ?_
    refine Needs.bind_right hsuffix (forward_exactly _) fun _ => ?_
    refine Needs.bind_right hsuffix (forward_run _) fun _ => ?_
    exact (needs_scaling_oneOf (by decide)).bind_left

/-- A bound brings no sign that scales. -/
theorem not_scales_around (b : Bound) {start stop : List Char} (h : ¬ HasScaling (start ++ stop)) :
    scales (start ++ (b.text ++ stop)) = false := by
  rw [Bool.eq_false_iff]
  intro hscales
  apply h
  have hbound : b.text.count '<' = 0 := List.count_eq_zero.mpr (b.notMem (by decide))
  have hcount : (start ++ (b.text ++ stop)).count '<' = (start ++ stop).count '<' := by
    simp only [List.count_append]
    omega
  have hmem : ∀ x, isTokenChar x = false → x ∈ start ++ (b.text ++ stop) → x ∈ start ++ stop := by
    intro x hx hin
    rw [List.mem_append, List.mem_append] at hin
    rcases hin with hin | hin | hin
    · exact List.mem_append_left _ hin
    · exact absurd hin (b.notMem hx)
    · exact List.mem_append_right _ hin
  rcases hasScaling_of_scales hscales with hm | hm | hm | hm
  · exact .inl (hmem '*' (by decide) hm)
  · exact .inr (.inl (hmem '/' (by decide) hm))
  · exact .inr (.inr (.inl (hmem '>' (by decide) hm)))
  · exact .inr (.inr (.inr (hcount ▸ hm)))

/-! ## Headers -/

namespace Forest

open BigO.Tree (spaced)

/-- Tokens with a space after each. -/
def padded (ts : List (List Char)) : List Char :=
  ts.flatMap (· ++ [' '])

theorem spaced_append_cons (ts us : List (List Char)) (t : List Char) :
    spaced (ts ++ t :: us) = padded ts ++ (t ++ us.flatMap (' ' :: ·)) := by
  unfold spaced padded
  induction ts with
  | nil =>
    induction us generalizing t with
    | nil => simp
    | cons u us ih =>
      have := ih u
      simp only [List.nil_append, List.flatMap_nil] at this ⊢
      rw [List.intercalate_cons_cons, this]
      simp
  | cons s ts ih =>
    obtain ⟨u, rest, hu⟩ : ∃ u rest, ts ++ t :: us = u :: rest := by
      cases ts with
      | nil => exact ⟨t, us, rfl⟩
      | cons u ts => exact ⟨u, ts ++ t :: us, rfl⟩
    rw [hu] at ih
    rw [List.cons_append, hu, List.intercalate_cons_cons, ih]
    simp

theorem solid_header (lang : Language) (b : Bound) : Solid (header lang b) := by
  refine solid_around ?_ ?_ b.text
  · cases lang <;> decide
  · cases lang <;> decide

theorem solid_spacedHeader (lang : Language) (b : Bound) :
    Solid (spaced (headerTokens lang b)) := by
  rw [headerTokens, spaced_append_cons]
  refine solid_around ?_ ?_ b.text
  · cases lang <;> decide
  · cases lang <;> decide

/-- A header line tells the bound it was written with. -/
theorem loopBound_header (lang : Language) (b : Bound) :
    lang.loopBound (header lang b) = b.text := by
  have hsolid := solid_header lang b
  cases lang with
  | python =>
    exact loopBound_range b _ [] [] [':'] (.inl rfl) (by simp) (by simp) (by decide) hsolid
  | java | c =>
    exact loopBound_clause rfl b "int i = 0".toList [' '] [] " i++) \x7b".toList rfl (by decide)
      (by simp) (by simp) hsolid

/-- So do the tokens of a header. -/
theorem loopBound_headerTokens (lang : Language) (b : Bound) :
    lang.loopBound (spaced (headerTokens lang b)) = b.text := by
  have hsolid := solid_spacedHeader lang b
  rw [headerTokens, spaced_append_cons] at hsolid ⊢
  cases lang with
  | python =>
    exact loopBound_range b "for i in range (".toList [' '] [' '] [' ', ':'] (.inr rfl) (by simp)
      (by simp) (by decide) hsolid
  | java | c =>
    exact loopBound_clause rfl b " int i = 0 ".toList [' '] [' '] " i ++ )".toList rfl (by decide)
      (by simp) (by simp) hsolid

theorem not_scales_header (lang : Language) (b : Bound) : scales (header lang b) = false := by
  apply not_scales_around
  cases lang <;> decide

theorem bodyTokens_cases (lang : Language) (inner : Forest) :
    bodyTokens lang inner = [['{'], ['}']] ∨ bodyTokens lang inner = [closing .python] ∨
      bodyTokens lang inner = [] := by
  cases lang with
  | python =>
    cases inner with
    | empty => exact .inr (.inl rfl)
    | loop b inner rest => exact .inr (.inr rfl)
  | java | c => exact .inl rfl

theorem not_scales_tokens (lang : Language) (b : Bound) (inner : Forest) :
    scales (spaced (headerTokens lang b ++ bodyTokens lang inner)) = false := by
  rw [headerTokens, List.append_assoc, List.cons_append, spaced_append_cons]
  apply not_scales_around
  rcases bodyTokens_cases lang inner with h | h | h
  · rw [h]
    cases lang <;> decide
  · rw [h]
    cases lang <;> decide
  · rw [h]
    cases lang <;> decide

theorem opensLoop_header (lang : Language) (b : Bound) :
    lang.opensLoop (header lang b) = true := by
  cases lang <;> rfl

theorem not_opensLoop_closing (lang : Language) : lang.opensLoop (closing lang) = false := by
  cases lang <;> decide +kernel

end Forest

end BigO.Loop
