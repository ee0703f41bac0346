-- What a scanner passes on its way: the stretch of text between the place it starts
-- from and the place it reaches. What holds of the stretches of the parts holds of the
-- whole, if it is kept when two stretches are put together.
import BigO.Proofs.Places

namespace BigO.Scan

open BigO.Text

theorem Cursor.to_pass (p : Char → Bool) (c : Cursor) :
    c.To (c.after.takeWhile p) (Cursor.pass p c.before c.after) := by
  rw [Cursor.pass_eq]
  exact ⟨List.takeWhile_append_dropWhile.symm, rfl⟩

theorem Cursor.head?_pass (p : Char → Bool) (c : Cursor) :
    (Cursor.pass p c.before c.after).after.head?.any p = false := by
  rw [Cursor.pass_eq]
  have hnot := List.head?_dropWhile_not p c.after
  cases h : (c.after.dropWhile p).head? with
  | none => rfl
  | some x => simpa [h] using hnot

/-- A text of characters of a class. -/
def Only (p : Char → Bool) (text : List Char) : Prop :=
  ∀ x ∈ text, p x = true

theorem only_nil (p : Char → Bool) : Only p [] :=
  List.forall_mem_nil _

theorem Only.append {p : Char → Bool} {a b : List Char} (ha : Only p a) (hb : Only p b) :
    Only p (a ++ b) :=
  List.forall_mem_append.mpr ⟨ha, hb⟩

theorem only_takeWhile (p : Char → Bool) (text : List Char) : Only p (text.takeWhile p) :=
  List.all_eq_true.mp List.all_takeWhile

/-- A text is cut in one way only where characters of a class end. -/
theorem append_inj_of_only {p : Char → Bool} {a a' b b' : List Char} (ha : Only p a)
    (ha' : Only p a') (hb : b.head?.any p = false) (hb' : b'.head?.any p = false)
    (h : a ++ b = a' ++ b') : a = a' ∧ b = b' := by
  have htake : ∀ {a b : List Char}, Only p a → b.head?.any p = false →
      (a ++ b).takeWhile p = a := by
    intro a b ha hb
    rw [List.takeWhile_append_of_pos ha]
    cases b with
    | nil => simp
    | cons x xs =>
      have hx : p x = false := hb
      simp [hx]
  have hsame : a = a' := by rw [← htake ha hb, h, htake ha' hb']
  subst hsame
  exact ⟨rfl, List.append_cancel_left h⟩

namespace Scanner

variable {α β : Type} {P Q R : List Char → Prop}

/-- All that the scanner passes has this property. -/
def Passes (P : List Char → Prop) (s : Scanner α) : Prop :=
  ∀ c r, r ∈ s c → ∃ passed, c.To passed r.2 ∧ P passed

theorem Passes.mono {s : Scanner α} (hs : s.Passes P) (h : ∀ text, P text → Q text) :
    s.Passes Q := by
  intro c r hr
  obtain ⟨passed, hto, hP⟩ := hs c r hr
  exact ⟨passed, hto, h passed hP⟩

theorem Passes.bind {s : Scanner α} {f : α → Scanner β} (hs : s.Passes P)
    (hf : ∀ a, (f a).Passes Q) (h : ∀ a b, P a → Q b → R (a ++ b)) : (s >>= f).Passes R := by
  intro c r hr
  obtain ⟨q, hq, hr⟩ := mem_bind.mp hr
  obtain ⟨first, hfirst, hP⟩ := hs c q hq
  obtain ⟨second, hsecond, hQ⟩ := hf q.1 q.2 r hr
  exact ⟨first ++ second, hfirst.trans hsecond, h first second hP hQ⟩

theorem Passes.either {s t : Scanner α} (hs : s.Passes P) (ht : t.Passes P) :
    (either s t).Passes P := by
  intro c r hr
  rcases mem_either.mp hr with hr | hr
  · exact hs c r hr
  · exact ht c r hr

theorem passes_pure (h : P []) (a : α) : (pure a : Scanner α).Passes P := by
  intro c r hr
  rw [mem_pure.mp hr]
  exact ⟨[], .refl c, h⟩

theorem Passes.optional {s : Scanner Unit} (hs : s.Passes P) (h : P []) :
    (optional s).Passes P :=
  hs.either (passes_pure h ())

theorem passes_oneOf {choices : List (Scanner α)} (h : ∀ s ∈ choices, s.Passes P) :
    (oneOf choices).Passes P := by
  intro c r hr
  obtain ⟨s, hs, hr⟩ := mem_oneOf.mp hr
  exact h s hs c r hr

/-- Any number of stretches in a row. -/
theorem Passes.repeated {s : Scanner Unit} (hs : s.Passes P) (hnil : P [])
    (happend : ∀ a b, P a → P b → P (a ++ b)) : (repeated s).Passes P := by
  have hatMost : ∀ xs, (atMost s xs).Passes P := by
    intro xs
    induction xs with
    | nil => exact passes_pure hnil ()
    | cons x xs ih => exact (hs.bind (fun _ => ih) happend).optional hnil
  exact fun c r hr => hatMost c.after c r hr

theorem passes_one (p : Char → Bool) : (one p).Passes fun text => ∃ x, text = [x] ∧ p x = true := by
  rintro c ⟨u, d⟩ hr
  obtain ⟨x, xs, hc, hx, rfl⟩ := mem_one.mp hr
  exact ⟨[x], ⟨hc, rfl⟩, x, rfl, hx⟩

theorem passes_run (p : Char → Bool) : (run p).Passes (Only p) := by
  intro c r hr
  rw [List.mem_singleton.mp hr]
  exact ⟨_, c.to_pass p, only_takeWhile p c.after⟩

theorem passes_runSome (p : Char → Bool) :
    (runSome p).Passes fun text => text ≠ [] ∧ Only p text := by
  refine (passes_one p).bind (fun _ => passes_run p) ?_
  rintro _ b ⟨x, rfl, hx⟩ hb
  exact ⟨List.cons_ne_nil x b, List.forall_mem_cons.mpr ⟨hx, hb⟩⟩

/-- A whole run is passed, and nothing else. -/
theorem mem_run_iff {p : Char → Bool} {c d : Cursor} :
    ((), d) ∈ run p c ↔ ∃ passed, c.To passed d ∧ Only p passed ∧ d.after.head?.any p = false := by
  constructor
  · intro h
    obtain rfl := (Prod.mk.inj (List.mem_singleton.mp h)).2
    exact ⟨_, c.to_pass p, only_takeWhile p c.after, c.head?_pass p⟩
  · rintro ⟨passed, hto, honly, hstop⟩
    have htake : d.after.takeWhile p = [] ∧ d.after.dropWhile p = d.after := by
      cases h : d.after with
      | nil => exact ⟨rfl, rfl⟩
      | cons x xs =>
        have hx : p x = false := by simpa [h] using hstop
        simp [hx]
    have hpass : Cursor.pass p c.before c.after = d := by
      rw [Cursor.pass_eq, hto.ahead, List.takeWhile_append_of_pos honly,
        List.dropWhile_append_of_pos honly, htake.1, htake.2, List.append_nil, ← hto.behind]
    exact List.mem_singleton.mpr (by rw [hpass])

theorem mem_runSome_iff {p : Char → Bool} {c d : Cursor} :
    ((), d) ∈ runSome p c ↔
      ∃ passed, c.To passed d ∧ passed ≠ [] ∧ Only p passed ∧ d.after.head?.any p = false := by
  constructor
  · intro h
    obtain ⟨⟨⟨⟩, b⟩, hone, hrun⟩ := mem_bind.mp h
    obtain ⟨_, hfirst, x, rfl, hx⟩ := passes_one p c _ hone
    obtain ⟨passed, hto, honly, hstop⟩ := mem_run_iff.mp hrun
    exact ⟨x :: passed, hfirst.trans hto, List.cons_ne_nil x passed,
      List.forall_mem_cons.mpr ⟨hx, honly⟩, hstop⟩
  · rintro ⟨passed, hto, hne, honly, hstop⟩
    obtain ⟨x, xs, rfl⟩ := List.exists_cons_of_ne_nil hne
    obtain ⟨hx, hxs⟩ := List.forall_mem_cons.mp honly
    refine mem_bind.mpr ⟨((), ⟨x :: c.before, xs ++ d.after⟩), ?_, ?_⟩
    · exact mem_one.mpr ⟨x, xs ++ d.after, hto.ahead, hx, rfl⟩
    · exact mem_run_iff.mpr ⟨xs, ⟨rfl, by simpa using hto.behind⟩, hxs, hstop⟩

theorem passes_many (p : Char → Bool) : (many p).Passes (Only p) := by
  have hreach : ∀ (after before : List Char) (d : Cursor), d ∈ reach p before after →
      ∃ passed, Cursor.To ⟨before, after⟩ passed d ∧ Only p passed := by
    intro after
    induction after with
    | nil =>
      intro before d hd
      rw [List.mem_singleton.mp hd]
      exact ⟨[], .refl _, only_nil p⟩
    | cons x xs ih =>
      intro before d hd
      rw [reach, List.mem_cons] at hd
      rcases hd with rfl | hd
      · exact ⟨[], .refl _, only_nil p⟩
      · split at hd
        · rename_i hx
          obtain ⟨passed, hto, honly⟩ := ih (x :: before) d hd
          exact ⟨x :: passed, (Cursor.To.next before x xs).trans hto,
            List.forall_mem_cons.mpr ⟨hx, honly⟩⟩
        · exact absurd hd List.not_mem_nil
  intro c r hr
  obtain ⟨d, hd, rfl⟩ := List.mem_map.mp hr
  exact hreach c.after c.before d (List.mem_reverse.mp hd)

theorem passes_char (x : Char) : (char x).Passes (· = [x]) := by
  refine (passes_one (· == x)).mono ?_
  rintro _ ⟨y, rfl, hy⟩
  rw [eq_of_beq hy]

theorem passes_exactly (text : List Char) : (exactly text).Passes (· = text) :=
  fun _ _ hr => ⟨text, to_of_mem_exactly hr, rfl⟩

/-- A whole run, up to a character that is not of the class or to the end. -/
theorem leads_run_to {p : Char → Bool} {c : Cursor} {passed rest : List Char}
    (hc : c.after = passed ++ rest) (hp : Only p passed) (hrest : rest.head?.any p = false) :
    (run p).Leads c fun _ left => left = rest := by
  refine ⟨(), _, rfl, ?_⟩
  rw [Cursor.pass_eq, hc]
  show (passed ++ rest).dropWhile p = rest
  rw [List.dropWhile_append_of_pos hp]
  cases rest with
  | nil => rfl
  | cons x xs => exact List.dropWhile_cons_of_neg (by simpa using hrest)

/-- The nearest place that passes the test is reached over characters of the class. -/
theorem to_of_nearest? {p : Char → Bool} {test : Cursor → Bool} {before after : List Char}
    {d : Cursor} (h : Cursor.nearest? p test before after = some d) :
    ∃ passed, Cursor.To ⟨before, after⟩ passed d ∧ Only p passed ∧ test d = true := by
  induction after generalizing before with
  | nil =>
    simp only [Cursor.nearest?, Option.ite_none_right_eq_some, Option.some.injEq] at h
    obtain ⟨htest, rfl⟩ := h
    exact ⟨[], .refl _, only_nil p, htest⟩
  | cons x xs ih =>
    rw [Cursor.nearest?] at h
    split at h
    · rename_i htest
      obtain rfl := Option.some.inj h
      exact ⟨[], .refl _, only_nil p, htest⟩
    · split at h
      · rename_i hx
        obtain ⟨passed, hto, honly, htest⟩ := ih h
        exact ⟨x :: passed, (Cursor.To.next before x xs).trans hto,
          List.forall_mem_cons.mpr ⟨hx, honly⟩, htest⟩
      · exact absurd h (by simp)

/-- If such a place can be reached at all, a nearest one is. -/
theorem nearest?_ne_none {p : Char → Bool} {test : Cursor → Bool} {passed : List Char} {d : Cursor}
    (hp : Only p passed) (htest : test d = true) :
    ∀ c : Cursor, c.To passed d → Cursor.nearest? p test c.before c.after ≠ none := by
  induction passed with
  | nil =>
    rintro ⟨before, after⟩ hto
    rw [hto.eq_self] at htest
    cases after with
    | nil => simp [Cursor.nearest?, htest]
    | cons x xs => simp [Cursor.nearest?, htest]
  | cons x xs ih =>
    rintro ⟨before, after⟩ hto
    obtain ⟨hx, hxs⟩ := List.forall_mem_cons.mp hp
    have hafter : after = x :: (xs ++ d.after) := hto.ahead
    subst hafter
    have hnext := ih hxs ⟨x :: before, xs ++ d.after⟩ ⟨rfl, by simpa using hto.behind⟩
    rw [Cursor.nearest?, if_pos hx]
    split
    · exact Option.some_ne_none _
    · exact hnext

theorem reads_nearest_iff {p : Char → Bool} {test : Cursor → Bool} {c : Cursor} :
    (nearest p test).reads c = true ↔
      ∃ passed d, c.To passed d ∧ Only p passed ∧ test d = true := by
  rw [reads_iff]
  constructor
  · rintro ⟨r, hr⟩
    obtain ⟨passed, hto, honly, htest⟩ := to_of_nearest? (mem_goTo.mp hr)
    exact ⟨passed, r.2, hto, honly, htest⟩
  · rintro ⟨passed, d, hto, honly, htest⟩
    obtain ⟨e, he⟩ := Option.ne_none_iff_exists'.mp (nearest?_ne_none honly htest c hto)
    exact ⟨((), e), mem_goTo.mpr he⟩

/-! ## Characters of a class -/

section Only

variable {p q : Char → Bool}

theorem Passes.only_bind {s : Scanner α} {f : α → Scanner β} (hs : s.Passes (Only p))
    (hf : ∀ a, (f a).Passes (Only p)) : (s >>= f).Passes (Only p) :=
  hs.bind hf fun _ _ => Only.append

theorem Passes.only_repeated {s : Scanner Unit} (hs : s.Passes (Only p)) :
    (Scanner.repeated s).Passes (Only p) :=
  hs.repeated (only_nil p) fun _ _ => Only.append

theorem passes_only_one (h : ∀ x, q x = true → p x = true) : (one q).Passes (Only p) := by
  refine (passes_one q).mono ?_
  rintro _ ⟨x, rfl, hx⟩
  exact List.forall_mem_singleton.mpr (h x hx)

theorem passes_only_char {x : Char} (h : p x = true) : (char x).Passes (Only p) :=
  passes_only_one fun y hy => by rwa [eq_of_beq hy]

theorem passes_only_run (h : ∀ x, q x = true → p x = true) : (run q).Passes (Only p) :=
  (passes_run q).mono fun _ htext x hx => h x (htext x hx)

theorem passes_only_runSome (h : ∀ x, q x = true → p x = true) : (runSome q).Passes (Only p) :=
  (passes_only_one h).only_bind fun _ => passes_only_run h

theorem passes_only_many (h : ∀ x, q x = true → p x = true) : (many q).Passes (Only p) :=
  (passes_many q).mono fun _ htext x hx => h x (htext x hx)

theorem passes_only_literal {w : String} (h : ∀ x ∈ w.toList, p x = true) :
    (literal w).Passes (Only p) :=
  (passes_exactly w.toList).mono fun _ htext => htext ▸ h

end Only

end Scanner

end BigO.Scan
