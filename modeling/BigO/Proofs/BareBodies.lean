-- Calls, products in returns, and bodies, in a text with paired returns and in the
-- bare text. The body of a function may end in a return that has lost its line
-- feed; it tells the same of calls and products.
import BigO.Proofs.BareSignatures

namespace BigO.Scan.Scanner

open BigO.Text

/-! ## Words -/

theorem word_eq (w : String) :
    word w = wordEdge >>= fun _ => literal w >>= fun _ => wordEdge := by
  funext c
  have hedge : ∀ ways : List (Unit × Cursor),
      ways.filter (fun r => r.2.atWordEdge) = ways.flatMap fun r => wordEdge r.2 := by
    intro ways
    induction ways with
    | nil => rfl
    | cons r ways ih =>
      rw [List.filter_cons, ih, List.flatMap_cons]
      cases h : r.2.atWordEdge with
      | true => simp [wordEdge, here, h]
      | false => simp [wordEdge, here, h]
  show (literal w c).filter (fun r => c.atWordEdge && r.2.atWordEdge) =
    (wordEdge c).flatMap fun q => (literal w q.2).flatMap fun r => wordEdge r.2
  rw [← funext fun q : Unit × Cursor => hedge (literal w q.2)]
  cases h : c.atWordEdge with
  | true => simp [wordEdge, here, h]
  | false => simp [wordEdge, here, h]

theorem agrees_word {text : List Char} (htext : PairedSoFar text) {w : String}
    (hw : Unbroken w.toList) :
    Agrees (Whole text) (Whole text) Eq (word w) (word w) := by
  rw [word_eq]
  refine (agrees_wordEdge htext).bind fun _ _ _ => ?_
  exact (agrees_literal htext hw).fromWhole.bind fun _ _ _ => agrees_wordEdge htext

/-- Lists that go together have the same images under functions that do. -/
theorem map_eq_of_forall₂ {α β γ : Type} {R : α → β → Prop} {l : List α} {l' : List β} {f : α → γ}
    {g : β → γ} (h : List.Forall₂ R l l') (hfg : ∀ a b, R a b → f a = g b) :
    l.map f = l'.map g := by
  induction h with
  | nil => rfl
  | cons hab _ ih => rw [List.map_cons, List.map_cons, hfg _ _ hab, ih]

end BigO.Scan.Scanner

namespace BigO.Recursion

open BigO.Text BigO.Scan BigO.Scan.Scanner

section Scans

variable {text : List Char} (htext : PairedSoFar text)

include htext

/-! ## Calls -/

theorem agrees_call {f : List Char} (hf : Unbroken f) :
    Agrees (Whole text) (Whole text) Eq (call f) (call f) := by
  refine (agrees_wordEdge htext).bind fun _ _ _ => ?_
  refine (agrees_exactly htext hf).fromWhole.bind fun _ _ _ => ?_
  refine (agrees_blanks htext).fromWhole.bind fun _ _ _ => ?_
  exact agrees_char htext (by decide) (by decide)

theorem callCount_bare {f : List Char} (hf : Unbroken f) :
    callCount f (Text.bare text) = callCount f text := by
  have hfound := forall₂_findAll htext (agrees_call htext hf) (fun c hc => ⟨hc.inText, .inl hc⟩)
    fun c hc => bind_eq_nil (wordEdge_torn htext hc)
  exact hfound.length_eq

/-! ## Products in returns -/

theorem agrees_timesCall : Agrees (Whole text) (Whole text) Eq timesCall timesCall := by
  refine (agrees_char htext (by decide) (by decide)).fromWhole.bind fun _ _ _ => ?_
  refine (agrees_blanks htext).fromWhole.bind fun _ _ _ => ?_
  refine (agrees_one htext (by decide) (by decide)).bind fun _ _ _ => ?_
  refine (agrees_run htext (by decide) (by decide)).bind fun _ _ _ => ?_
  refine (agrees_blanks htext).fromWhole.bind fun _ _ _ => ?_
  exact agrees_char htext (by decide) (by decide)

theorem closesBeforeTimes_bare {c : Cursor} (hc : c.text = text) :
    closesBeforeTimes c.bare = closesBeforeTimes c := by
  rcases c with ⟨before, after⟩
  cases after with
  | nil => rfl
  | cons x xs =>
    by_cases hx : x = '\r'
    · subst hx
      rcases after_return htext hc with rfl | ⟨more, rfl⟩
      · rfl
      · rfl
    · rw [Cursor.bare, bare_cons hx]
      by_cases hclose : x = ')'
      · subst hclose
        have hstart : trimStart (Text.bare xs) = Text.bare (trimStart xs) :=
          dropWhile_bare_of_return (by decide) xs
        show ((trimStart (Text.bare xs)).head? == some '*') = ((trimStart xs).head? == some '*')
        rw [hstart]
        cases htrim : trimStart xs with
        | nil => rfl
        | cons y ys =>
          have hy : y ≠ '\r' := by
            rintro rfl
            have hblank := List.head?_dropWhile_not isBlank xs
            rw [← trimStart, htrim, List.head?_cons] at hblank
            exact absurd hblank (by decide)
          rw [bare_cons hy]
          rfl
      · simp [closesBeforeTimes, hclose]

theorem agrees_callTimes : Agrees (Whole text) (·.text = text) Eq callTimes callTimes := by
  refine (agrees_one htext (by decide) (by decide)).fromWhole.bind fun _ _ _ => ?_
  refine (agrees_run htext (by decide) (by decide)).bind fun _ _ _ => ?_
  refine (agrees_blanks htext).fromWhole.bind fun _ _ _ => ?_
  refine (agrees_char htext (by decide) (by decide)).bind fun _ _ _ => ?_
  refine agrees_nearest htext (by decide) (by decide)
    (fun c hc => closesBeforeTimes_bare htext hc.inText) fun c hc => ?_
  rcases hc.after htext with hend | ⟨more, hmore⟩
  · simp [closesBeforeTimes, hend]
  · simp [closesBeforeTimes, hmore]

theorem agrees_product : Agrees (Whole text) (·.text = text) Eq product product := by
  have heither : Agrees (Whole text) (·.text = text) Eq (either timesCall callTimes)
      (either timesCall callTimes) :=
    ((agrees_timesCall htext).mono (fun _ h => h) fun _ h => h.inText).either
      (agrees_callTimes htext)
  refine agrees_nearest htext (by decide) (by decide) (fun c hc => heither.reads_eq hc) ?_
  intro c hc
  have htimes : timesCall c = [] := bind_eq_nil (one_torn htext (by decide) hc)
  have hcall : callTimes c = [] := bind_eq_nil (one_torn htext (by decide) hc)
  simp [reads, either, htimes, hcall]

/-- No return is written at a line end. -/
theorem isDead_returned {c : Cursor} (hc : Torn text c) : IsDead returned c := by
  have hnone : ∀ d : Cursor, d.after = [] ∨ (∃ more, d.after = '\n' :: more) → returned d = [] := by
    intro d hd
    have hliteral : literal "return" d = [] := by
      refine List.eq_nil_iff_forall_not_mem.mpr fun r hr => ?_
      rcases hd with hend | ⟨more, hmore⟩
      · exact absurd ((after_of_mem_literal hr).symm.trans hend) (by simp)
      · have hafter := (after_of_mem_literal hr).symm.trans hmore
        exact absurd (List.cons.inj hafter).1 (by decide)
    refine bind_eq_nil ?_
    rw [word, hliteral]
    rfl
  refine ⟨hnone _ ?_, hnone _ (hc.after htext)⟩
  rcases hc.after htext with hend | ⟨more, hmore⟩
  · exact .inl (by rw [Cursor.bare, hend]; rfl)
  · exact .inr ⟨Text.bare more, by rw [Cursor.bare, hmore]; rfl⟩

theorem returnsProduct_bare : returnsProduct (Text.bare text) = returnsProduct text := by
  have hrun : Agrees (Whole text) (·.text = text) Eq (run inStatement) (run inStatement) :=
    agrees_run_to htext (by decide) (fun c hc => (text_pass _ c).trans hc.inText)
      fun c hc => hc.inText
  have hreturned : Agrees (Whole text) (·.text = text) (fun d d' => d = d'.bare ∧ Whole text d')
      returned returned := by
    refine (agrees_word htext (by decide)).bind fun _ _ _ => ?_
    refine agrees_place.bind fun d d' hd => ?_
    exact hrun.bind fun _ _ _ => agrees_pure hd
  have hfound := forall₂_findAll htext hreturned
    (fun c hc => ⟨hc, (whole_or_torn hc).imp_right (isDead_returned htext)⟩)
    fun c hc => (isDead_returned htext hc).2
  have hreads := map_eq_of_forall₂ hfound (f := product.reads) (g := product.reads) <| by
    rintro _ d ⟨rfl, hd⟩
    exact (agrees_product htext).reads_eq hd
  have hany := congrArg (List.any · id) hreads
  simp only [List.any_map, Function.id_comp] at hany
  exact hany

end Scans

/-! ## Bodies -/

theorem fromLineStart_bare (c : Cursor) : c.bare.fromLineStart = Text.bare c.fromLineStart := by
  rw [Cursor.fromLineStart, Cursor.fromLineStart, bare_append, bare_reverse, Cursor.bare,
    takeWhile_bare_of_return (by decide)]

theorem fromLineStart_suffix (c : Cursor) : c.fromLineStart <:+ c.text := by
  obtain ⟨rest, hrest⟩ := List.takeWhile_prefix (p := (· != '\n')) (l := c.before)
  refine ⟨rest.reverse, ?_⟩
  rw [Cursor.fromLineStart, Cursor.text, ← List.append_assoc, ← List.reverse_append, hrest]

theorem blockFrom_cons (depth : Nat) (c : Char) (cs : List Char) :
    blockFrom depth (c :: cs) =
      if c = '{' then (blockFrom (depth + 1) cs).map (c :: ·)
      else if c = '}' then
        match depth with
        | 0 => (blockFrom 0 cs).map (c :: ·)
        | 1 => some [c]
        | d + 2 => (blockFrom (d + 1) cs).map (c :: ·)
      else (blockFrom depth cs).map (c :: ·) :=
  blockFrom.eq_def depth (c :: cs)

theorem blockFrom_bare (depth : Nat) (text : List Char) :
    blockFrom depth (Text.bare text) = (blockFrom depth text).map Text.bare := by
  induction text generalizing depth with
  | nil => rfl
  | cons c cs ih =>
    have hstep : ∀ {x : Char} (d : Nat), x ≠ '\r' →
        (blockFrom d (Text.bare cs)).map (x :: ·) =
          ((blockFrom d cs).map (x :: ·)).map Text.bare := by
      intro x d hx
      rw [ih, Option.map_map, Option.map_map]
      congr 1
      funext body
      exact (bare_cons hx body).symm
    by_cases hc : c = '\r'
    · subst hc
      rw [bare_return, ih, blockFrom_cons, if_neg (by decide), if_neg (by decide), Option.map_map]
      rfl
    · rw [bare_cons hc, blockFrom_cons, blockFrom_cons]
      split
      · exact hstep (depth + 1) hc
      · split
        · rcases depth with _ | _ | d
          · exact hstep 0 hc
          · rw [Option.map_some, bare_cons hc]
            rfl
          · exact hstep (d + 1) hc
        · exact hstep depth hc

theorem prefix_of_blockFrom {depth : Nat} {text body : List Char}
    (h : blockFrom depth text = some body) : body <+: text := by
  induction text generalizing depth body with
  | nil => simp [blockFrom] at h
  | cons c cs ih =>
    have hstep : ∀ {d : Nat}, (blockFrom d cs).map (c :: ·) = some body → body <+: c :: cs := by
      intro d hd
      obtain ⟨rest, hrest, rfl⟩ := Option.map_eq_some_iff.mp hd
      exact List.cons_prefix_cons.mpr ⟨rfl, ih hrest⟩
    rw [blockFrom_cons] at h
    split at h
    · exact hstep h
    · split at h
      · rcases depth with _ | _ | d
        · exact hstep h
        · rw [← Option.some.inj h]
          exact List.cons_prefix_cons.mpr ⟨rfl, List.nil_prefix⟩
        · exact hstep h
      · exact hstep h

theorem blockBody_bare (text : List Char) :
    blockBody (Text.bare text) = Text.bare (blockBody text) := by
  have hbrace : '{' ∈ Text.bare text ↔ '{' ∈ text := mem_bare (by decide)
  unfold blockBody
  by_cases h : '{' ∈ text
  · rw [if_pos (hbrace.mpr h), if_pos h, blockFrom_bare]
    cases blockFrom 0 text with
    | none => rfl
    | some body => rfl
  · rw [if_neg (mt hbrace.mp h), if_neg h]
    exact takeWhile_bare_of_return (by decide) text

theorem prefix_blockBody (text : List Char) : blockBody text <+: text := by
  unfold blockBody
  split
  · cases h : blockFrom 0 text with
    | none => exact List.prefix_refl text
    | some body => exact prefix_of_blockFrom h
  · exact List.takeWhile_prefix _

/-! ### Indented bodies -/

theorem prefix_joinLines {ls ms : List (List Char)} (h : ls <+: ms) :
    joinLines ls <+: joinLines ms := by
  induction ls generalizing ms with
  | nil => exact List.nil_prefix
  | cons l ls ih =>
    obtain ⟨rest, rfl⟩ := h
    cases ls with
    | nil => exact joinLines_starts_with_line l rest
    | cons m ls =>
      have htail := ih (List.prefix_append (m :: ls) rest)
      rw [List.cons_append] at htail
      show l ++ '\n' :: joinLines (m :: ls) <+: l ++ '\n' :: joinLines (m :: (ls ++ rest))
      rw [List.prefix_append_right_inj, List.cons_prefix_cons]
      exact ⟨rfl, htail⟩

theorem prefix_indentedBody (text : List Char) : indentedBody text <+: text := by
  unfold indentedBody
  obtain ⟨header, rest, hlines⟩ := List.exists_cons_of_ne_nil (lines_ne_nil text)
  rw [hlines]
  have hprefix : header :: rest.takeWhile (fun l =>
      isBlankText l || indentWidth header < indentWidth l) <+: lines text := by
    rw [hlines]
    exact List.cons_prefix_cons.mpr ⟨rfl, List.takeWhile_prefix _⟩
  have hjoin := prefix_joinLines hprefix
  rwa [joinLines_lines] at hjoin

/-- The first line has what the text has before its first line feed. -/
theorem lines_eq_cons_append {a b : List Char} (h : '\n' ∉ a) :
    ∃ l ls, lines b = l :: ls ∧ lines (a ++ b) = (a ++ l) :: ls := by
  obtain ⟨l, ls, hb⟩ := List.exists_cons_of_ne_nil (lines_ne_nil b)
  refine ⟨l, ls, hb, ?_⟩
  induction a with
  | nil => exact hb
  | cons x xs ih =>
    rw [List.mem_cons, not_or] at h
    rw [List.cons_append, lines, if_neg (Ne.symm h.1), ih h.2]
    rfl

theorem isBlank_of_isNameStart {x : Char} (h : isNameStart x = true) : isBlank x = false := by
  have hascii : x.toNat < 128 := by
    rcases (Bool.or_eq_true _ _).mp h with halpha | hscore
    · exact toNat_lt_of_isAlpha halpha
    · rw [beq_iff_eq.mp hscore]
      decide
  revert h
  exact forall_ascii (P := fun x => isNameStart x = true → isBlank x = false) (by decide) hascii

/-- The line of a name is not blank. -/
theorem header_not_blank {c : Cursor} (hname : c.after.head?.any isNameStart = true) :
    ∀ header rest, lines c.fromLineStart = header :: rest → isBlankText header = false := by
  intro header rest hlines
  rcases c with ⟨before, after⟩
  cases after with
  | nil => simp at hname
  | cons x xs =>
    have hblank : isBlank x = false := isBlank_of_isNameStart (by simpa using hname)
    have hx : x ≠ '\n' := by
      rintro rfl
      exact absurd hblank (by decide)
    have hbefore : '\n' ∉ (before.takeWhile (· != '\n')).reverse ++ [x] := by
      rw [List.mem_append, List.mem_reverse, List.mem_singleton, not_or]
      refine ⟨fun hmem => ?_, Ne.symm hx⟩
      exact absurd (List.all_eq_true.mp List.all_takeWhile _ hmem) (by decide)
    obtain ⟨l, ls, -, hsplit⟩ := lines_eq_cons_append hbefore (b := xs)
    have htext : Cursor.fromLineStart ⟨before, x :: xs⟩ =
        (before.takeWhile (· != '\n')).reverse ++ [x] ++ xs := by
      simp [Cursor.fromLineStart]
    rw [htext, hsplit, List.cons.injEq] at hlines
    rw [← hlines.1, isBlankText, List.all_eq_false]
    exact ⟨x, by simp, by simp [hblank]⟩

/-- A line that is blank or indented more is so without its return. -/
theorem takeWhile_deeper_bare (width : Nat) {ls : List (List Char)}
    (h : ∀ l ∈ ls, PairedSoFar l ∧ '\n' ∉ l) :
    (ls.map Text.bare).takeWhile (fun l => isBlankText l || width < indentWidth l) =
      (ls.takeWhile fun l => isBlankText l || width < indentWidth l).map Text.bare := by
  induction ls with
  | nil => rfl
  | cons l ls ih =>
    obtain ⟨⟨hpaired, hline⟩, hls⟩ := List.forall_mem_cons.mp h
    have hsame : (isBlankText (Text.bare l) || decide (width < indentWidth (Text.bare l))) =
        (isBlankText l || decide (width < indentWidth l)) := by
      rw [isBlankText_bare]
      cases hblank : isBlankText l with
      | true => rfl
      | false => rw [indentWidth_bare hpaired hline hblank]
    rw [List.map_cons, List.takeWhile_cons, List.takeWhile_cons, hsame]
    split
    · rw [ih hls, List.map_cons]
    · rfl

theorem pairedSoFar_of_mem_lines {text line : List Char} (htext : PairedSoFar text)
    (h : line ∈ lines text) : PairedSoFar line ∧ '\n' ∉ line :=
  ⟨htext.isInfix (infix_of_mem_lines h), lines_no_break text line h⟩

theorem indentedBody_bare {text : List Char} (htext : PairedSoFar text)
    (hheader : ∀ header rest, lines text = header :: rest → isBlankText header = false) :
    indentedBody (Text.bare text) = Text.bare (indentedBody text) := by
  have hline : ∀ l ∈ lines text, PairedSoFar l ∧ '\n' ∉ l :=
    fun _ hl => pairedSoFar_of_mem_lines htext hl
  unfold indentedBody
  rw [lines_bare]
  obtain ⟨header, rest, hlines⟩ := List.exists_cons_of_ne_nil (lines_ne_nil text)
  rw [hlines] at hline ⊢
  obtain ⟨⟨hpaired, hnone⟩, hrest⟩ := List.forall_mem_cons.mp hline
  have hwidth := indentWidth_bare hpaired hnone (hheader header rest hlines)
  show joinLines (Text.bare header :: (rest.map Text.bare).takeWhile _) = _
  rw [hwidth, takeWhile_deeper_bare _ hrest, ← List.map_cons, joinLines_map_bare]

/-! ## Signals -/

section Signals

variable {text : List Char} {s s' : Signature}

theorem body_bare (htext : PairedSoFar text) (h : SameSignature text s s') (lang : Language) :
    body lang s.start.fromLineStart = Text.bare (body lang s'.start.fromLineStart) ∧
      PairedSoFar (body lang s'.start.fromLineStart) := by
  have hstart : PairedSoFar s'.start.fromLineStart := by
    refine htext.isInfix ?_
    rw [← h.whole.inText]
    exact (fromLineStart_suffix s'.start).isInfix
  rw [h.start, fromLineStart_bare]
  unfold body
  split
  · exact ⟨blockBody_bare _, hstart.isInfix (prefix_blockBody _).isInfix⟩
  · exact ⟨indentedBody_bare hstart (header_not_blank h.first),
      hstart.isInfix (prefix_indentedBody _).isInfix⟩

theorem signalOf?_bare (htext : PairedSoFar text) (h : SameSignature text s s')
    (lang : Language) : signalOf? lang (Text.bare text) s = signalOf? lang text s' := by
  obtain ⟨hbody, hpaired⟩ := body_bare htext h lang
  unfold signalOf? signal? hintOf
  rw [h.name, callCount_bare htext h.nameable, hbody, returnsProduct_bare hpaired]

theorem forall₂_firstOfEach {l l' : List Signature} (h : List.Forall₂ (SameSignature text) l l') :
    List.Forall₂ (SameSignature text) (firstOfEach l) (firstOfEach l') := by
  induction h with
  | nil => exact .nil
  | @cons s s' _ _ hs _ ih =>
    refine .cons hs (List.rel_filter ?_ ih)
    intro t t' ht
    show (t.name != s.name) = true ↔ (t'.name != s'.name) = true
    rw [hs.name, ht.name]

/-- The functions that call themselves are those of the bare text. -/
theorem signals_bare (htext : Paired text) (lang : Language)
    (hthrows : lang = .java → ¬ throwsNothing <:+: Text.bare text) :
    signals lang (Text.bare text) = signals lang text := by
  have hdeclared := forall₂_firstOfEach (forall₂_declared htext lang hthrows)
  have hsignals := map_eq_of_forall₂ hdeclared fun s s' hs => signalOf?_bare htext.soFar hs lang
  have hkept := congrArg (List.filterMap id) hsignals
  rw [List.filterMap_map, List.filterMap_map] at hkept
  exact hkept

end Signals

end BigO.Recursion
