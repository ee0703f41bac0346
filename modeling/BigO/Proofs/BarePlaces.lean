-- Scanning a text with paired returns and scanning the bare text. A place that
-- does not part a return from its line feed has its like in the bare text; two
-- scanners agree if they read on from both in the same ways, in the same order.
-- The ways of a scanner that is built from others agree if theirs do.
import BigO.Proofs.PairedReturns
import BigO.Proofs.Places
import Mathlib.Data.List.Forall2

namespace BigO.Scan

open BigO.Text

/-! ## Places -/

/-- The like of a place in the bare text. -/
def Cursor.bare (c : Cursor) : Cursor :=
  ⟨Text.bare c.before, Text.bare c.after⟩

/-- A place of the text, not after a return. -/
structure Whole (text : List Char) (c : Cursor) : Prop where
  inText : c.text = text
  apart : c.before.head? ≠ some '\r'

/-- A place of the text, not after a return but for one that ends it. -/
structure Landed (text : List Char) (c : Cursor) : Prop where
  inText : c.text = text
  apart : c.before.head? ≠ some '\r' ∨ c.after = []

/-- A place of the text after a return. -/
structure Torn (text : List Char) (c : Cursor) : Prop where
  inText : c.text = text
  parts : c.before.head? = some '\r'

theorem Cursor.text_bare (c : Cursor) : c.bare.text = Text.bare c.text := by
  rw [Cursor.text, Cursor.text, bare_append, bare_reverse, Cursor.bare]

theorem Cursor.text_next (before : List Char) (x : Char) (xs : List Char) :
    Cursor.text ⟨x :: before, xs⟩ = Cursor.text ⟨before, x :: xs⟩ := by
  simp [Cursor.text]

theorem Whole.landed {text : List Char} {c : Cursor} (h : Whole text c) : Landed text c :=
  ⟨h.inText, .inl h.apart⟩

theorem Whole.next {text before xs : List Char} {x : Char}
    (h : Cursor.text ⟨before, x :: xs⟩ = text) (hx : x ≠ '\r') : Whole text ⟨x :: before, xs⟩ :=
  ⟨(Cursor.text_next before x xs).trans h, by simpa using hx⟩

theorem Torn.of_return {text before xs : List Char}
    (h : Cursor.text ⟨before, '\r' :: xs⟩ = text) : Torn text ⟨'\r' :: before, xs⟩ :=
  ⟨(Cursor.text_next before '\r' xs).trans h, rfl⟩

theorem whole_or_torn {text : List Char} {c : Cursor} (h : c.text = text) :
    Whole text c ∨ Torn text c := by
  by_cases hc : c.before.head? = some '\r'
  · exact .inr ⟨h, hc⟩
  · exact .inl ⟨h, hc⟩

/-- Nothing but a line feed comes after a return. -/
theorem Torn.after {text : List Char} (htext : PairedSoFar text) {c : Cursor} (h : Torn text c) :
    c.after = [] ∨ ∃ more, c.after = '\n' :: more := by
  obtain ⟨before, hbefore⟩ := List.head?_eq_some_iff.mp h.parts
  have hinfix : '\r' :: c.after <:+: text := by
    rw [← h.inText, Cursor.text, hbefore]
    exact ⟨before.reverse, [], by simp⟩
  exact (htext.isInfix hinfix).of_return

theorem pairedSoFar_after {text : List Char} (htext : PairedSoFar text) {c : Cursor}
    (h : c.text = text) : PairedSoFar c.after :=
  htext.isInfix ⟨c.before.reverse, [], by rw [← h, Cursor.text, List.append_nil]⟩

theorem after_return {text : List Char} (htext : PairedSoFar text) {before xs : List Char}
    (h : Cursor.text ⟨before, '\r' :: xs⟩ = text) : xs = [] ∨ ∃ more, xs = '\n' :: more :=
  (pairedSoFar_after htext h).of_return

/-- In a text that ends no line by halves every place reached is whole. -/
theorem Landed.whole {text : List Char} (htext : Paired text) {c : Cursor} (h : Landed text c) :
    Whole text c := by
  refine ⟨h.inText, ?_⟩
  rcases h.apart with hc | hend
  · exact hc
  · intro hc
    obtain ⟨before, hbefore⟩ := List.head?_eq_some_iff.mp hc
    have hlast := htext [] ⟨before.reverse, by rw [← h.inText, Cursor.text, hbefore, hend]; simp⟩
    exact absurd hlast (by simp)

theorem head?_before_bare {text : List Char} {c : Cursor} (h : Whole text c) :
    c.bare.before.head? = c.before.head? := by
  have happart := h.apart
  rcases c with ⟨before, after⟩
  cases before with
  | nil => rfl
  | cons x xs =>
    have hx : x ≠ '\r' := by simpa using happart
    simp [Cursor.bare, bare_cons hx]

/-! ## Agreement -/

namespace Scanner

variable {α α' β β' : Type}

/-- A way in the bare text and its like in the text: the values go together, and the
place in the text is one that is wanted. -/
structure Meets (V : α → α' → Prop) (Q : Cursor → Prop) (c : Cursor) (r : α × Cursor)
    (r' : α' × Cursor) : Prop where
  value : V r.1 r'.1
  place : r.2 = r'.2.bare
  onward : r'.2.after.length ≤ c.after.length
  reached : Q r'.2

/-- From a place `P`, one scanner reads on in the bare text as the other does in the
text, and comes to a place `Q`. -/
def Agrees (P Q : Cursor → Prop) (V : α → α' → Prop) (s : Scanner α) (s' : Scanner α') : Prop :=
  ∀ c, P c → List.Forall₂ (Meets V Q c) (s c.bare) (s' c)

variable {P Q R : Cursor → Prop} {V : α → α' → Prop} {W : β → β' → Prop}

theorem Meets.earlier {c d : Cursor} {r : α × Cursor} {r' : α' × Cursor} (h : Meets V Q d r r')
    (hle : d.after.length ≤ c.after.length) : Meets V Q c r r' :=
  ⟨h.value, h.place, Nat.le_trans h.onward hle, h.reached⟩

theorem Agrees.bind {s : Scanner α} {s' : Scanner α'} {f : α → Scanner β} {f' : α' → Scanner β'}
    (hs : Agrees P Q V s s') (hf : ∀ a a', V a a' → Agrees Q R W (f a) (f' a')) :
    Agrees P R W (s >>= f) (s' >>= f') := by
  intro c hc
  refine List.rel_flatMap (hs c hc) ?_
  rintro r r' hr
  have hways := hf r.1 r'.1 hr.value r'.2 hr.reached
  rw [← hr.place] at hways
  exact hways.imp fun _ _ h => h.earlier hr.onward

theorem Agrees.mono {P' Q' : Cursor → Prop} {s : Scanner α} {s' : Scanner α'}
    (hs : Agrees P Q V s s') (hP : ∀ c, P' c → P c) (hQ : ∀ c, Q c → Q' c) :
    Agrees P' Q' V s s' :=
  fun c hc => (hs c (hP c hc)).imp fun _ _ h => ⟨h.value, h.place, h.onward, hQ _ h.reached⟩

/-- What is known of the ways of a scanner is known of the places it comes to. -/
theorem Agrees.of_mem {Q' : Cursor → Prop} {s : Scanner α} {s' : Scanner α'}
    (hs : Agrees P Q V s s') (h : ∀ c r, P c → r ∈ s' c → Q r.2 → Q' r.2) :
    Agrees P Q' V s s' := by
  intro c hc
  have hways : List.Forall₂ (fun r' r => r' ∈ s' c ∧ Meets V Q c r r') (s' c) (s c.bare) :=
    (List.forall₂_and_left _ _).mpr ⟨fun _ hr' => hr', (hs c hc).flip⟩
  refine hways.flip.imp fun r r' hr => ?_
  exact ⟨hr.2.value, hr.2.place, hr.2.onward, h c r' hc hr.1 hr.2.reached⟩

theorem Agrees.fromWhole {text : List Char} {s : Scanner α} {s' : Scanner α'}
    (hs : Agrees (Landed text) Q V s s') : Agrees (Whole text) Q V s s' :=
  hs.mono (fun _ h => h.landed) fun _ h => h

theorem agrees_pure {a : α} {a' : α'} (h : V a a') : Agrees P P V (pure a) (pure a') :=
  fun _ hc => .cons ⟨h, rfl, Nat.le_refl _, hc⟩ .nil

theorem agrees_place : Agrees P P (fun d d' => d = d'.bare ∧ P d') place place :=
  fun _ hc => .cons ⟨⟨rfl, hc⟩, rfl, Nat.le_refl _, hc⟩ .nil

theorem Agrees.either {s t : Scanner α} {s' t' : Scanner α'} (hs : Agrees P Q V s s')
    (ht : Agrees P Q V t t') : Agrees P Q V (either s t) (either s' t') :=
  fun c hc => List.rel_append (hs c hc) (ht c hc)

theorem Agrees.optional {s : Scanner Unit} (hs : Agrees P P Eq s s) :
    Agrees P P Eq (optional s) (optional s) :=
  hs.either (agrees_pure rfl)

theorem agrees_oneOf {choices : List (Scanner α)} {V : α → α → Prop}
    (h : ∀ s ∈ choices, Agrees P Q V s s) : Agrees P Q V (oneOf choices) (oneOf choices) := by
  intro c hc
  induction choices with
  | nil => exact .nil
  | cons s choices ih =>
    obtain ⟨hs, hchoices⟩ := List.forall_mem_cons.mp h
    exact List.rel_append (hs c hc) (ih hchoices)

theorem Agrees.reads_eq {s : Scanner α} {s' : Scanner α'} (hs : Agrees P Q V s s') {c : Cursor}
    (hc : P c) : s.reads c.bare = s'.reads c := by
  have hlength := (hs c hc).length_eq
  rw [reads, reads, Bool.eq_iff_iff]
  simp [← List.length_eq_zero_iff, hlength]

theorem agrees_here {test : Cursor → Bool} (h : ∀ c, P c → test c.bare = test c) :
    Agrees P P Eq (here test) (here test) := by
  intro c hc
  unfold here
  rw [h c hc]
  split
  · exact .cons ⟨rfl, rfl, Nat.le_refl _, hc⟩ .nil
  · exact .nil

theorem Agrees.notAhead {s : Scanner Unit} (hs : Agrees P Q Eq s s) :
    Agrees P P Eq (notAhead s) (notAhead s) :=
  agrees_here fun _ hc => congrArg not (hs.reads_eq hc)

/-! ## Characters -/

section Characters

variable {text : List Char} (htext : PairedSoFar text)

include htext

theorem agrees_one {p : Char → Bool} (hr : p '\r' = false) (hn : p '\n' = false) :
    Agrees (Landed text) (Whole text) Eq (one p) (one p) := by
  rintro ⟨before, after⟩ hc
  cases after with
  | nil => exact .nil
  | cons x xs =>
    by_cases hx : x = '\r'
    · subst hx
      have hnone : one p ⟨before, '\r' :: xs⟩ = [] := by simp [one, hr]
      rw [hnone]
      rcases after_return htext hc.inText with rfl | ⟨more, rfl⟩
      · exact .nil
      · have hbare : one p (Cursor.bare ⟨before, '\r' :: '\n' :: more⟩) = [] := by
          simp [Cursor.bare, one, hn]
        rw [hbare]
        exact .nil
    · simp only [Cursor.bare, bare_cons hx, one]
      split
      · refine .cons ⟨rfl, ?_, by simp, .next hc.inText hx⟩ .nil
        simp [Cursor.bare, bare_cons hx]
      · exact .nil

theorem agrees_char {x : Char} (hr : x ≠ '\r') (hn : x ≠ '\n') :
    Agrees (Landed text) (Whole text) Eq (char x) (char x) :=
  agrees_one htext (by simpa using Ne.symm hr) (by simpa using Ne.symm hn)

/-- A run goes as far in the bare text. -/
theorem pass_bare {p : Char → Bool} (hp : p '\n' = true → p '\r' = true) {c : Cursor}
    (hc : c.text = text) :
    Cursor.pass p c.bare.before c.bare.after = (Cursor.pass p c.before c.after).bare := by
  have hafter := pairedSoFar_after htext hc
  rw [Cursor.pass_eq, Cursor.pass_eq, Cursor.bare, Cursor.bare, takeWhile_bare hp hafter,
    dropWhile_bare hp hafter, bare_append, bare_reverse]

omit htext in
theorem text_pass (p : Char → Bool) (c : Cursor) :
    (Cursor.pass p c.before c.after).text = c.text := by
  simp [Cursor.pass_eq, Cursor.text, List.takeWhile_append_dropWhile]

omit htext in
theorem length_pass_le (p : Char → Bool) (c : Cursor) :
    (Cursor.pass p c.before c.after).after.length ≤ c.after.length := by
  rw [Cursor.pass_eq]
  exact (List.dropWhile_suffix p).length_le

/-- A run may stop after a return, but stops at the same place. -/
theorem agrees_run_to {p : Char → Bool} (hp : p '\n' = true → p '\r' = true)
    (hQ : ∀ c, P c → Q (Cursor.pass p c.before c.after)) (hP : ∀ c, P c → c.text = text) :
    Agrees P Q Eq (run p) (run p) := by
  intro c hc
  refine .cons ⟨rfl, ?_, length_pass_le p c, hQ c hc⟩ .nil
  exact pass_bare htext hp (hP c hc)

omit htext in
/-- The last character of a run is of its class. -/
theorem whole_pass {p : Char → Bool} (hr : p '\r' = false) {c : Cursor} (h : Whole text c) :
    Whole text (Cursor.pass p c.before c.after) := by
  refine ⟨(text_pass p c).trans h.inText, ?_⟩
  rw [Cursor.pass_eq]
  intro hhead
  rw [List.head?_append, List.head?_reverse] at hhead
  cases hlast : (c.after.takeWhile p).getLast? with
  | none =>
    rw [hlast, Option.none_or] at hhead
    exact h.apart hhead
  | some x =>
    rw [hlast, Option.some_or, Option.some.injEq] at hhead
    subst hhead
    have hmem := List.mem_of_getLast? hlast
    have hpr := List.all_eq_true.mp List.all_takeWhile _ hmem
    rw [hr] at hpr
    exact Bool.noConfusion hpr

theorem agrees_run {p : Char → Bool} (hr : p '\r' = false) (hn : p '\n' = false) :
    Agrees (Whole text) (Whole text) Eq (run p) (run p) :=
  agrees_run_to htext (by simp [hn]) (fun _ => whole_pass hr) fun _ h => h.inText

/-- A run over both halves of a line end stops between them only where the text does. -/
theorem landed_pass {p : Char → Bool} (hn : p '\n' = true) {c : Cursor} (h : c.text = text) :
    Landed text (Cursor.pass p c.before c.after) := by
  have hin := (text_pass p c).trans h
  refine ⟨hin, ?_⟩
  rcases whole_or_torn hin with hwhole | htorn
  · exact .inl hwhole.apart
  · rcases htorn.after htext with hend | ⟨more, hmore⟩
    · exact .inr hend
    · -- the run would have gone on over the line feed
      have hdrop : c.after.dropWhile p = '\n' :: more := by
        rwa [Cursor.pass_eq] at hmore
      have hhead := List.head?_dropWhile_not p c.after
      rw [hdrop] at hhead
      simp [hn] at hhead

theorem agrees_run_over {p : Char → Bool} (hr : p '\r' = true) (hn : p '\n' = true) :
    Agrees (Landed text) (Landed text) Eq (run p) (run p) :=
  agrees_run_to htext (fun _ => hr) (fun _ h => landed_pass htext hn h.inText) fun _ h => h.inText

theorem agrees_blanks : Agrees (Landed text) (Landed text) Eq blanks blanks :=
  agrees_run_over htext (by decide) (by decide)

theorem agrees_runSome {p : Char → Bool} (hr : p '\r' = false) (hn : p '\n' = false) :
    Agrees (Landed text) (Whole text) Eq (runSome p) (runSome p) :=
  (agrees_one htext hr hn).bind fun _ _ _ => agrees_run htext hr hn

omit htext in
theorem runSome_eq (p : Char → Bool) (c : Cursor) :
    runSome p c = if c.after.head?.any p then run p c else [] := by
  rcases c with ⟨before, after⟩
  cases after with
  | nil => rfl
  | cons x xs =>
    show (one p ⟨before, x :: xs⟩).flatMap (fun r => run p r.2) = _
    cases hx : p x with
    | false => simp [one, hx]
    | true => simp [one, hx, run, Cursor.pass]

theorem passExactly_bare {fold : Char → Char} {word : List Char}
    (hword : fold '\r' ∉ word ∧ fold '\n' ∉ word) {c : Cursor} (hc : c.text = text) :
    Cursor.passExactly fold c.bare.before word c.bare.after =
      (Cursor.passExactly fold c.before word c.after).map Cursor.bare := by
  rcases c with ⟨before, after⟩
  induction word generalizing before after with
  | nil => rfl
  | cons w ws ih =>
    simp only [List.mem_cons, not_or] at hword
    obtain ⟨⟨hr, hrs⟩, hn, hns⟩ := hword
    cases after with
    | nil => rfl
    | cons x xs =>
      by_cases hx : x = '\r'
      · subst hx
        have hnone : Cursor.passExactly fold before (w :: ws) ('\r' :: xs) = none := by
          simp [Cursor.passExactly, hr]
        rw [hnone]
        rcases after_return htext hc with rfl | ⟨more, rfl⟩
        · rfl
        · simp [Cursor.bare, Cursor.passExactly, hn]
      · have hnext := ih ⟨hrs, hns⟩ (x :: before) xs
          ((Cursor.text_next before x xs).trans hc)
        simp only [Cursor.bare, bare_cons hx, Cursor.passExactly] at hnext ⊢
        split
        · exact hnext
        · rfl

omit htext in
/-- What is passed exactly ends in a character of the word. -/
theorem whole_passExactly {fold : Char → Char} {word : List Char} (hne : word ≠ [])
    (hr : fold '\r' ∉ word) {c d : Cursor} (hc : c.text = text)
    (h : Cursor.passExactly fold c.before word c.after = some d) :
    Whole text d ∧ d.after.length ≤ c.after.length := by
  rcases c with ⟨before, after⟩
  induction word generalizing before after with
  | nil => exact absurd rfl hne
  | cons w ws ih =>
    rw [List.mem_cons, not_or] at hr
    cases after with
    | nil => simp [Cursor.passExactly] at h
    | cons x xs =>
      simp only [Cursor.passExactly] at h
      split at h
      · rename_i hx
        have hxr : x ≠ '\r' := by
          rintro rfl
          exact hr.1 (eq_of_beq hx)
        have hnext : Whole text ⟨x :: before, xs⟩ := .next hc hxr
        cases ws with
        | nil =>
          simp only [Cursor.passExactly, Option.some.injEq] at h
          subst h
          exact ⟨hnext, by simp⟩
        | cons v vs =>
          obtain ⟨hd, hle⟩ := ih (by simp) hr.2 _ _ hnext.inText h
          exact ⟨hd, by simp only [List.length_cons] at hle ⊢; omega⟩
      · simp at h

/-- A word without line breaks stands at the same places of the bare text. -/
theorem agrees_passExactly {fold : Char → Char} {word : List Char} (hne : word ≠ [])
    (hword : fold '\r' ∉ word ∧ fold '\n' ∉ word) :
    Agrees (Landed text) (Whole text) Eq
      (fun c => goTo (Cursor.passExactly fold c.before word c.after))
      (fun c => goTo (Cursor.passExactly fold c.before word c.after)) := by
  intro c hc
  show List.Forall₂ _ (goTo (Cursor.passExactly fold c.bare.before word c.bare.after))
    (goTo (Cursor.passExactly fold c.before word c.after))
  rw [passExactly_bare htext hword hc.inText]
  cases h : Cursor.passExactly fold c.before word c.after with
  | none => exact .nil
  | some d =>
    obtain ⟨hd, hle⟩ := whole_passExactly hne hword.1 hc.inText h
    exact .cons ⟨rfl, rfl, hle, hd⟩ .nil

theorem agrees_exactly {word : List Char} (hword : Unbroken word) :
    Agrees (Landed text) (Whole text) Eq (exactly word) (exactly word) :=
  agrees_passExactly htext hword.1 hword.2

theorem agrees_literal {w : String} (hw : Unbroken w.toList) :
    Agrees (Landed text) (Whole text) Eq (literal w) (literal w) :=
  agrees_exactly htext hw

theorem wordAfter_bare {c : Cursor} (hc : c.text = text) : c.bare.wordAfter = c.wordAfter := by
  rcases c with ⟨before, after⟩
  cases after with
  | nil => rfl
  | cons x xs =>
    by_cases hx : x = '\r'
    · subst hx
      rcases after_return htext hc with rfl | ⟨more, rfl⟩
      · rfl
      · rfl
    · simp [Cursor.bare, Cursor.wordAfter, bare_cons hx]

theorem atWordEdge_bare {c : Cursor} (hc : Whole text c) : c.bare.atWordEdge = c.atWordEdge := by
  rw [Cursor.atWordEdge, Cursor.atWordEdge, Cursor.wordBefore, Cursor.wordBefore,
    head?_before_bare hc, wordAfter_bare htext hc.inText]

theorem agrees_wordEdge : Agrees (Whole text) (Whole text) Eq wordEdge wordEdge :=
  agrees_here fun _ hc => atWordEdge_bare htext hc

/-- No word starts or ends between a return and its line feed. -/
theorem wordEdge_torn {c : Cursor} (hc : Torn text c) : wordEdge c = [] := by
  have hbefore : c.wordBefore = false := by
    rw [Cursor.wordBefore, hc.parts]
    decide
  have hafter : c.wordAfter = false := by
    rw [Cursor.wordAfter]
    rcases hc.after htext with hend | ⟨more, hmore⟩
    · rw [hend]
      rfl
    · rw [hmore, List.head?_cons]
      decide
  simp [wordEdge, here, Cursor.atWordEdge, hbefore, hafter]

/-- No character but a blank is read between a return and its line feed. -/
theorem one_torn {p : Char → Bool} (hn : p '\n' = false) {c : Cursor} (hc : Torn text c) :
    one p c = [] := by
  have hafter := hc.after htext
  rcases c with ⟨before, after⟩
  rcases hafter with rfl | ⟨more, rfl⟩
  · rfl
  · simp [one, hn]

end Characters

/-- A run over line ends starts and stops at whole places if no return is left alone. -/
theorem agrees_runSome_over {text : List Char} (htext : Paired text) {p : Char → Bool}
    (hr : p '\r' = true) (hn : p '\n' = true) :
    Agrees (Whole text) (Whole text) Eq (runSome p) (runSome p) := by
  intro c hc
  have hhead : c.bare.after.head?.any p = c.after.head?.any p := by
    rcases c with ⟨before, after⟩
    cases after with
    | nil => rfl
    | cons x xs =>
      by_cases hx : x = '\r'
      · subst hx
        have hfeed := htext xs ⟨before.reverse, hc.inText⟩
        obtain ⟨more, rfl⟩ := List.head?_eq_some_iff.mp hfeed
        simp [Cursor.bare, hr, hn]
      · simp [Cursor.bare, bare_cons hx]
  rw [runSome_eq, runSome_eq, hhead]
  split
  · exact (agrees_run_over htext.soFar hr hn).mono (fun _ h => h.landed)
      (fun _ h => h.whole htext) c hc
  · exact .nil

end Scanner

end BigO.Scan
