-- The places of a text and what reading on from them can tell: a scanner never
-- goes back, and given characters are read only where they stand.
import BigO.Scan.Scanner
import BigO.Text.Lines

namespace BigO.Scan

open BigO.Text

/-! ## Places -/

namespace Cursor

theorem mem_onward {before after : List Char} {c : Cursor} :
    c ∈ onward before after ↔
      ∃ passed, after = passed ++ c.after ∧ c.before = passed.reverse ++ before := by
  induction after generalizing before with
  | nil =>
    rcases c with ⟨b, a⟩
    simp only [onward, List.mem_singleton, Cursor.mk.injEq]
    constructor
    · rintro ⟨rfl, rfl⟩
      exact ⟨[], by simp, by simp⟩
    · rintro ⟨passed, ha, rfl⟩
      obtain ⟨rfl, rfl⟩ := List.append_eq_nil_iff.mp ha.symm
      simp
  | cons x xs ih =>
    simp only [onward, List.mem_cons, ih]
    constructor
    · rintro (rfl | ⟨passed, ha, hb⟩)
      · exact ⟨[], by simp, by simp⟩
      · exact ⟨x :: passed, by simp [ha], by simp [hb]⟩
    · rintro ⟨passed, ha, hb⟩
      cases passed with
      | nil =>
        left
        rcases c with ⟨b, a⟩
        simp_all
      | cons y ys =>
        simp only [List.cons_append, List.cons.injEq] at ha
        obtain ⟨rfl, ha⟩ := ha
        exact Or.inr ⟨ys, ha, by simpa using hb⟩

/-- The places of a text are those it is the whole text of. -/
theorem mem_all {text : List Char} {c : Cursor} : c ∈ all text ↔ c.text = text := by
  unfold all
  rw [mem_onward]
  constructor
  · rintro ⟨passed, rfl, hb⟩
    simp [Cursor.text, hb]
  · rintro rfl
    exact ⟨c.before.reverse, rfl, by simp⟩

theorem after_suffix_of_mem_all {text : List Char} {c : Cursor} (h : c ∈ all text) :
    c.after <:+ text := by
  rw [mem_all] at h
  exact ⟨c.before.reverse, h⟩

theorem all_eq_cons (text : List Char) : ∃ rest, all text = ⟨[], text⟩ :: rest := by
  cases text with
  | nil => exact ⟨[], rfl⟩
  | cons x xs => exact ⟨onward [x] xs, rfl⟩

/-- The second place lies after the first, with these characters between them. -/
structure To (c : Cursor) (passed : List Char) (d : Cursor) : Prop where
  ahead : c.after = passed ++ d.after
  behind : d.before = passed.reverse ++ c.before

namespace To

variable {c d e : Cursor} {passed further rest : List Char}

theorem refl (c : Cursor) : c.To [] c :=
  ⟨rfl, rfl⟩

theorem eq_self (h : c.To [] d) : d = c := by
  rcases d with ⟨before, after⟩
  have hbefore : before = c.before := h.behind
  have hafter : c.after = after := h.ahead
  rw [hbefore, ← hafter]

theorem next (before : List Char) (x : Char) (xs : List Char) :
    To ⟨before, x :: xs⟩ [x] ⟨x :: before, xs⟩ :=
  ⟨rfl, rfl⟩

theorem trans (h : c.To passed d) (h' : d.To further e) : c.To (passed ++ further) e := by
  constructor
  · rw [h.ahead, h'.ahead, List.append_assoc]
  · rw [h'.behind, h.behind, List.reverse_append, List.append_assoc]

theorem text_eq (h : c.To passed d) : d.text = c.text := by
  unfold Cursor.text
  rw [h.ahead, h.behind, List.reverse_append, List.reverse_reverse, List.append_assoc]

theorem after_eq (h : c.To passed d) (hc : c.after = passed ++ rest) : d.after = rest :=
  List.append_cancel_left (h.ahead.symm.trans hc)

theorem unique (h : c.To passed d) (h' : c.To further d) : passed = further :=
  List.append_cancel_right (h.ahead.symm.trans h'.ahead)

/-- The last character that was passed is the one behind. -/
theorem head?_before (h : c.To passed d) (hne : passed ≠ []) :
    d.before.head? = passed.getLast? := by
  rw [h.behind, List.head?_append, List.head?_reverse, List.getLast?_eq_some_getLast hne]
  rfl

theorem length_le (h : c.To passed d) : d.after.length ≤ c.after.length := by
  rw [h.ahead, List.length_append]
  omega

end To

/-- What is passed exactly stands ahead, up to the fold. -/
theorem passExactly_eq_some {fold : Char → Char} {before : List Char} {word after : List Char}
    {d : Cursor} (h : passExactly fold before word after = some d) :
    ∃ read, To ⟨before, after⟩ read d ∧ read.map fold = word := by
  induction word generalizing before after with
  | nil =>
    simp only [passExactly, Option.some.injEq] at h
    subst h
    exact ⟨[], .refl _, rfl⟩
  | cons x xs ih =>
    cases after with
    | nil => simp [passExactly] at h
    | cons y ys =>
      simp only [passExactly] at h
      split at h
      · rename_i hy
        obtain ⟨read, hto, hm⟩ := ih h
        refine ⟨y :: read, (To.next before y ys).trans hto, ?_⟩
        rw [List.map_cons, hm, eq_of_beq hy]
      · simp at h

end Cursor

/-! ## Reading on -/

namespace Scanner

variable {α β : Type}

/-- What is left ahead was ahead before. -/
def Forward (s : Scanner α) : Prop :=
  ∀ c r, r ∈ s c → r.2.after <:+ c.after

/-- The scanner reads on only where a property of the text ahead holds. -/
def Needs (P : List Char → Prop) (s : Scanner α) : Prop :=
  ∀ c r, r ∈ s c → P c.after

theorem Forward.bind {s : Scanner α} {f : α → Scanner β} (hs : s.Forward)
    (hf : ∀ a, (f a).Forward) : (s >>= f).Forward := by
  intro c r hr
  obtain ⟨q, hq, hr⟩ := mem_bind.mp hr
  exact (hf q.1 q.2 r hr).trans (hs c q hq)

theorem forward_pure (a : α) : (pure a : Scanner α).Forward := by
  intro c r hr
  rw [mem_pure] at hr
  subst hr
  exact List.suffix_refl _

theorem forward_here (test : Cursor → Bool) : (here test).Forward := by
  intro c r hr
  obtain ⟨-, rfl⟩ := mem_here.mp hr
  exact List.suffix_refl _

theorem forward_place : place.Forward := by
  intro c r hr
  simp only [place, List.mem_singleton] at hr
  subst hr
  exact List.suffix_refl _

theorem forward_one (p : Char → Bool) : (one p).Forward := by
  rintro c ⟨u, d⟩ hr
  obtain ⟨x, xs, hc, -, rfl⟩ := mem_one.mp hr
  rw [hc]
  exact List.suffix_cons x xs

theorem forward_run (p : Char → Bool) : (run p).Forward := by
  intro c r hr
  simp only [run, List.mem_singleton] at hr
  subst hr
  rw [Cursor.pass_eq]
  exact List.dropWhile_suffix p

theorem mem_goTo {d : Option Cursor} {r : Unit × Cursor} : r ∈ goTo d ↔ d = some r.2 := by
  cases d with
  | none => simp [goTo]
  | some e =>
    rcases r with ⟨⟨⟩, d⟩
    simp [goTo, eq_comm]

/-- Given characters are read where they stand, up to the fold. -/
theorem read_of_mem_folded {fold : Char → Char} {w : String} {c : Cursor} {r : Unit × Cursor}
    (h : r ∈ folded fold w c) :
    ∃ read, c.after = read ++ r.2.after ∧ read.map fold = w.toList := by
  obtain ⟨read, hto, hm⟩ := Cursor.passExactly_eq_some (mem_goTo.mp h)
  exact ⟨read, hto.ahead, hm⟩

theorem to_of_mem_exactly {text : List Char} {c : Cursor} {r : Unit × Cursor}
    (h : r ∈ exactly text c) : c.To text r.2 := by
  obtain ⟨read, hto, hm⟩ := Cursor.passExactly_eq_some (mem_goTo.mp h)
  rw [List.map_id] at hm
  rwa [hm] at hto

theorem after_of_mem_exactly {text : List Char} {c : Cursor} {r : Unit × Cursor}
    (h : r ∈ exactly text c) : c.after = text ++ r.2.after :=
  (to_of_mem_exactly h).ahead

theorem after_of_mem_literal {w : String} {c : Cursor} {r : Unit × Cursor}
    (h : r ∈ literal w c) : c.after = w.toList ++ r.2.after :=
  after_of_mem_exactly h

theorem forward_exactly (text : List Char) : (exactly text).Forward := by
  intro c r hr
  rw [after_of_mem_exactly hr]
  exact List.suffix_append _ _

theorem forward_captured {s : Scanner Unit} (hs : s.Forward) : (captured s).Forward :=
  forward_place.bind fun _ => hs.bind fun _ => forward_place.bind fun _ => forward_pure _

theorem Needs.bind_left {P : List Char → Prop} {s : Scanner α} {f : α → Scanner β}
    (hs : s.Needs P) : (s >>= f).Needs P := by
  intro c r hr
  obtain ⟨q, hq, -⟩ := mem_bind.mp hr
  exact hs c q hq

/-- What a later scanner needs is needed from the start, if more text before it
does no harm. -/
theorem Needs.bind_right {P : List Char → Prop} {s : Scanner α} {f : α → Scanner β}
    (hP : ∀ {a b : List Char}, a <:+ b → P a → P b) (hs : s.Forward) (hf : ∀ a, (f a).Needs P) :
    (s >>= f).Needs P := by
  intro c r hr
  obtain ⟨q, hq, hr⟩ := mem_bind.mp hr
  exact hP (hs c q hq) (hf q.1 q.2 r hr)

theorem needs_char (x : Char) : (char x).Needs fun text => text.head? = some x := by
  rintro c ⟨u, d⟩ hr
  obtain ⟨y, ys, hc, hy, -⟩ := mem_one.mp hr
  rw [hc, ← eq_of_beq hy]
  rfl

theorem Needs.eq_nil {P : List Char → Prop} {s : Scanner α} {c : Cursor} (hs : s.Needs P)
    (hc : ¬ P c.after) : s c = [] := by
  rw [List.eq_nil_iff_forall_not_mem]
  intro r hr
  exact hc (hs c r hr)

/-- No way from a place where another character than the needed one comes next. -/
theorem eq_nil_of_head {s : Scanner α} {x y : Char} {c : Cursor} {rest : List Char}
    (hs : s.Needs fun text => text.head? = some x) (hc : c.after = y :: rest) (hxy : y ≠ x) :
    s c = [] := by
  refine hs.eq_nil ?_
  rw [hc, List.head?_cons, Option.some.injEq]
  exact hxy

theorem Needs.either {P : List Char → Prop} {s t : Scanner α} (hs : s.Needs P) (ht : t.Needs P) :
    (either s t).Needs P := by
  intro c r hr
  rcases mem_either.mp hr with hr | hr
  · exact hs c r hr
  · exact ht c r hr

/-! ## The best way -/

/-- There is a way to read on, and the best one has this value and this rest. -/
def Leads (s : Scanner α) (c : Cursor) (P : α → List Char → Prop) : Prop :=
  ∃ a d, (s c).head? = some (a, d) ∧ P a d.after

theorem bind_bind {γ : Type} (s : Scanner α) (f : α → Scanner β) (g : β → Scanner γ) :
    s >>= f >>= g = s >>= fun a => f a >>= g := by
  funext c
  exact List.flatMap_assoc ..

theorem head?_bind {s : Scanner α} {f : α → Scanner β} {c d : Cursor} {a : α} {r : β × Cursor}
    (hs : (s c).head? = some (a, d)) (hf : (f a d).head? = some r) :
    ((s >>= f) c).head? = some r := by
  show ((s c).flatMap fun q => f q.1 q.2).head? = some r
  cases hsc : s c with
  | nil => simp [hsc] at hs
  | cons w ws =>
    rw [hsc, List.head?_cons, Option.some.injEq] at hs
    rw [hs, List.flatMap_cons, List.head?_append, hf]
    rfl

theorem Leads.bind {s : Scanner α} {f : α → Scanner β} {c : Cursor} {Q : α → List Char → Prop}
    {P : β → List Char → Prop} (hs : s.Leads c Q)
    (hf : ∀ a d, Q a d.after → (f a).Leads d P) : (s >>= f).Leads c P := by
  obtain ⟨a, d, hhead, hQ⟩ := hs
  obtain ⟨b, e, hnext, hP⟩ := hf a d hQ
  exact ⟨b, e, head?_bind hhead hnext, hP⟩

theorem reads_iff {s : Scanner α} {c : Cursor} : s.reads c = true ↔ ∃ r, r ∈ s c := by
  rw [reads, Bool.not_eq_true', List.isEmpty_eq_false_iff_exists_mem]

/-- A scanner reads on just if it has a best way. -/
theorem reads_iff_leads {s : Scanner α} {c : Cursor} :
    s.reads c = true ↔ s.Leads c fun _ _ => True := by
  rw [reads_iff]
  constructor
  · rintro ⟨r, hr⟩
    obtain ⟨q, ways, hways⟩ := List.exists_cons_of_ne_nil (List.ne_nil_of_mem hr)
    exact ⟨q.1, q.2, by rw [hways]; rfl, trivial⟩
  · rintro ⟨a, d, hhead, -⟩
    exact ⟨(a, d), List.mem_of_head? hhead⟩

theorem leads_one {p : Char → Bool} {c : Cursor} {x : Char} {rest : List Char}
    (hc : c.after = x :: rest) (hx : p x = true) : (one p).Leads c fun _ left => left = rest := by
  rcases c with ⟨before, after⟩
  subst hc
  exact ⟨(), ⟨x :: before, rest⟩, by simp [one, hx], rfl⟩

theorem reads_char {x : Char} {c : Cursor} {rest : List Char} (hc : c.after = x :: rest) :
    (char x).reads c = true := by
  obtain ⟨u, d, hhead, -⟩ := leads_one (p := (· == x)) hc (beq_self_eq_true x)
  exact reads_iff.mpr ⟨(u, d), List.mem_of_head? hhead⟩

theorem passExactly_append (before word rest : List Char) :
    Cursor.passExactly id before word (word ++ rest) = some ⟨word.reverse ++ before, rest⟩ := by
  induction word generalizing before with
  | nil => rfl
  | cons x xs ih => simp [Cursor.passExactly, ih]

/-- Given characters are read where they stand and nowhere else. -/
theorem mem_exactly_iff {text : List Char} {c : Cursor} {r : Unit × Cursor} :
    r ∈ exactly text c ↔ c.To text r.2 := by
  refine ⟨to_of_mem_exactly, fun h => mem_goTo.mpr ?_⟩
  rw [h.ahead, passExactly_append, ← h.behind]

theorem leads_literal {w : String} {c : Cursor} {rest : List Char}
    (hc : c.after = w.toList ++ rest) : (literal w).Leads c fun _ left => left = rest := by
  refine ⟨(), ⟨w.toList.reverse ++ c.before, rest⟩, ?_, rfl⟩
  show (goTo (Cursor.passExactly id c.before w.toList c.after)).head? = _
  rw [hc, passExactly_append]
  rfl

theorem after_pass {p : Char → Bool} {c : Cursor} {passed : List Char} {x : Char} {rest : List Char}
    (hc : c.after = passed ++ x :: rest) (hp : ∀ y ∈ passed, p y = true) (hx : p x = false) :
    (Cursor.pass p c.before c.after).after = x :: rest := by
  rw [Cursor.pass_eq, hc]
  show (passed ++ x :: rest).dropWhile p = _
  rw [List.dropWhile_append_of_pos hp, List.dropWhile_cons_of_neg (by simp [hx])]

theorem leads_here {test : Cursor → Bool} {c : Cursor} (h : test c = true) :
    (here test).Leads c fun _ left => left = c.after := by
  refine ⟨(), c, ?_, rfl⟩
  unfold here
  rw [if_pos h]
  rfl

theorem leads_run {p : Char → Bool} {c : Cursor} {passed : List Char} {x : Char} {rest : List Char}
    (hc : c.after = passed ++ x :: rest) (hp : ∀ y ∈ passed, p y = true) (hx : p x = false) :
    (run p).Leads c fun _ left => left = x :: rest :=
  ⟨(), Cursor.pass p c.before c.after, rfl, after_pass hc hp hx⟩

theorem leads_runSome {p : Char → Bool} {c : Cursor} {passed : List Char} {x : Char}
    {rest : List Char} (hc : c.after = passed ++ x :: rest) (hne : passed ≠ [])
    (hp : ∀ y ∈ passed, p y = true) (hx : p x = false) :
    (runSome p).Leads c fun _ left => left = x :: rest := by
  cases passed with
  | nil => exact absurd rfl hne
  | cons y ys =>
    refine (leads_one hc (hp y (List.mem_cons_self ..))).bind fun _ d hd => ?_
    exact leads_run hd (fun z hz => hp z (List.mem_cons_of_mem _ hz)) hx

/-- Where the scanner cannot read on, it is done without. -/
theorem leads_optional {s : Scanner Unit} {c : Cursor} (hs : s c = []) :
    (optional s).Leads c fun _ left => left = c.after := by
  refine ⟨(), c, ?_, rfl⟩
  show (s c ++ [((), c)]).head? = _
  rw [hs]
  rfl

theorem leads_captured {s : Scanner Unit} {c : Cursor} {passed rest : List Char}
    (hc : c.after = passed ++ rest) (hs : s.Leads c fun _ left => left = rest) :
    (captured s).Leads c fun span left => span.text = passed ∧ left = rest := by
  obtain ⟨u, d, hhead, hd⟩ := hs
  refine ⟨⟨c, d⟩, d, ?_, ?_, hd⟩
  · exact head?_bind rfl (head?_bind hhead rfl)
  · simp [Span.text, hc, hd]

/-- As few characters as will do: the rest of the scanner reads on only after
those that it cannot start at. -/
theorem leads_few {p : Char → Bool} {f : Unit → Scanner β} {P : β → List Char → Prop}
    {passed rest : List Char} (hp : ∀ y ∈ passed, p y = true) :
    ∀ c : Cursor, c.after = passed ++ rest →
      (∀ read tail d, passed = read ++ tail → tail ≠ [] → c.To read d → f () d = []) →
      (∀ d, c.To passed d → (f ()).Leads d P) → (few p >>= f).Leads c P := by
  induction passed with
  | nil =>
    rintro ⟨before, after⟩ hc - hf
    obtain ⟨b, e, hhead, hP⟩ := hf ⟨before, after⟩ (.refl _)
    refine ⟨b, e, head?_bind ?_ hhead, hP⟩
    cases after <;> rfl
  | cons x xs ih =>
    rintro ⟨before, after⟩ hc hskip hf
    subst hc
    have hx : p x = true := hp x (List.mem_cons_self ..)
    have hnext := Cursor.To.next before x (xs ++ rest)
    have hnone : f () ⟨before, x :: (xs ++ rest)⟩ = [] :=
      hskip [] (x :: xs) _ rfl (List.cons_ne_nil x xs) (.refl _)
    obtain ⟨b, e, hhead, hP⟩ := ih (fun y hy => hp y (List.mem_cons_of_mem _ hy))
      ⟨x :: before, xs ++ rest⟩ rfl
      (fun read tail d hxs hne hd =>
        hskip (x :: read) tail d (by rw [hxs]; rfl) hne (hnext.trans hd))
      (fun d hd => hf d (hnext.trans hd))
    refine ⟨b, e, ?_, hP⟩
    -- the first place gives nothing, so the ways are those from the next one on
    have hways : (few p >>= f) ⟨before, x :: (xs ++ rest)⟩ =
        (few p >>= f) ⟨x :: before, xs ++ rest⟩ := by
      show ((reach p before (x :: (xs ++ rest))).map ((), ·)).flatMap (fun r => f r.1 r.2) = _
      rw [reach, if_pos hx, List.map_cons, List.flatMap_cons, hnone]
      rfl
    rw [List.cons_append, hways, hhead]

/-- As many characters as will do: the whole run is the best way. -/
theorem head?_many (p : Char → Bool) (c : Cursor) :
    (many p c).head? = some ((), Cursor.pass p c.before c.after) := by
  have hlast : ∀ after before : List Char,
      (reach p before after).getLast? = some (Cursor.pass p before after) := by
    intro after
    induction after with
    | nil => exact fun _ => rfl
    | cons x xs ih =>
      intro before
      rw [reach, Cursor.pass]
      split
      · rw [List.getLast?_cons, ih]
        rfl
      · rfl
  unfold many
  rw [List.head?_map, List.head?_reverse, hlast]
  rfl

/-- On to the nearest place that passes the test: no place before it does. -/
theorem leads_nearest {p : Char → Bool} {test : Cursor → Bool} {passed rest : List Char}
    (hp : ∀ y ∈ passed, p y = true) :
    ∀ c : Cursor, c.after = passed ++ rest →
      (∀ read tail d, passed = read ++ tail → tail ≠ [] → c.To read d → test d = false) →
      (∀ d, c.To passed d → test d = true) →
      (nearest p test).Leads c fun _ left => left = rest := by
  induction passed with
  | nil =>
    rintro ⟨before, after⟩ hc - hstop
    have hhere := hstop ⟨before, after⟩ (.refl _)
    refine ⟨(), ⟨before, after⟩, ?_, hc⟩
    cases after with
    | nil => simp [nearest, Cursor.nearest?, hhere, goTo]
    | cons x xs => simp [nearest, Cursor.nearest?, hhere, goTo]
  | cons x xs ih =>
    rintro ⟨before, after⟩ hc hskip hstop
    subst hc
    have hx : p x = true := hp x (List.mem_cons_self ..)
    have hnext := Cursor.To.next before x (xs ++ rest)
    have hhere := hskip [] (x :: xs) ⟨before, x :: (xs ++ rest)⟩ rfl (List.cons_ne_nil x xs)
      (.refl _)
    obtain ⟨u, d, hhead, hd⟩ := ih (fun y hy => hp y (List.mem_cons_of_mem _ hy))
      ⟨x :: before, xs ++ rest⟩ rfl
      (fun read tail d hxs hne hd =>
        hskip (x :: read) tail d (by rw [hxs]; rfl) hne (hnext.trans hd))
      (fun d hd => hstop d (hnext.trans hd))
    refine ⟨u, d, ?_, hd⟩
    rw [← hhead]
    simp [nearest, Cursor.nearest?, hhere, hx]

/-! ## All ways -/

/-- All ways to read on have such a value and such a rest. -/
def Always (s : Scanner α) (c : Cursor) (P : α → List Char → Prop) : Prop :=
  ∀ r ∈ s c, P r.1 r.2.after

theorem Always.bind {s : Scanner α} {f : α → Scanner β} {c : Cursor} {Q : α → List Char → Prop}
    {P : β → List Char → Prop} (hs : s.Always c Q)
    (hf : ∀ a d, Q a d.after → (f a).Always d P) : (s >>= f).Always c P := by
  intro r hr
  obtain ⟨q, hq, hr⟩ := mem_bind.mp hr
  exact hf q.1 q.2 (hs q hq) r hr

theorem Always.either {s t : Scanner α} {c : Cursor} {P : α → List Char → Prop}
    (hs : s.Always c P) (ht : t.Always c P) : (either s t).Always c P := by
  intro r hr
  rcases mem_either.mp hr with hr | hr
  · exact hs r hr
  · exact ht r hr

theorem always_of_eq_nil {s : Scanner α} {c : Cursor} {P : α → List Char → Prop} (h : s c = []) :
    s.Always c P := by
  intro r hr
  rw [h] at hr
  exact absurd hr List.not_mem_nil

theorem bind_eq_nil {s : Scanner α} {f : α → Scanner β} {c : Cursor} (h : s c = []) :
    (s >>= f) c = [] := by
  show (s c).flatMap (fun r => f r.1 r.2) = []
  rw [h, List.flatMap_nil]

theorem eq_nil_of_always {s : Scanner α} {c : Cursor} (h : s.Always c fun _ _ => False) :
    s c = [] :=
  List.eq_nil_iff_forall_not_mem.mpr h

theorem always_one {p : Char → Bool} {c : Cursor} {x : Char} {rest : List Char}
    (hc : c.after = x :: rest) : (one p).Always c fun _ left => p x = true ∧ left = rest := by
  rintro ⟨u, d⟩ hr
  obtain ⟨y, ys, hy, hp, rfl⟩ := mem_one.mp hr
  rw [hc, List.cons.injEq] at hy
  rw [hy.1, hy.2]
  exact ⟨hp, rfl⟩

theorem always_run {p : Char → Bool} {c : Cursor} (passed : List Char) {x : Char}
    {rest : List Char} (hc : c.after = passed ++ x :: rest) (hp : ∀ y ∈ passed, p y = true)
    (hx : p x = false) : (run p).Always c fun _ left => left = x :: rest := by
  intro r hr
  rw [List.mem_singleton.mp hr]
  exact after_pass hc hp hx

theorem always_runSome {p : Char → Bool} {c : Cursor} (passed : List Char) {y x : Char}
    {rest : List Char}
    (hc : c.after = y :: (passed ++ x :: rest)) (hp : ∀ z ∈ passed, p z = true)
    (hx : p x = false) : (runSome p).Always c fun _ left => left = x :: rest :=
  (always_one hc).bind fun _ _ hd => always_run passed hd.2 hp hx

/-- Where the scanner cannot read on, nothing is read. -/
theorem always_optional {s : Scanner Unit} {c : Cursor} (hs : s c = []) :
    (optional s).Always c fun _ left => left = c.after := by
  refine (always_of_eq_nil hs).either ?_
  intro r hr
  rw [mem_pure.mp hr]

theorem always_repeated {s : Scanner Unit} {c : Cursor} (hs : s c = []) :
    (repeated s).Always c fun _ left => left = c.after := by
  have hatMost : ∀ xs, (atMost s xs).Always c fun _ left => left = c.after := by
    intro xs
    cases xs with
    | nil =>
      intro r hr
      rw [mem_pure.mp hr]
    | cons x xs =>
      exact always_optional (bind_eq_nil hs)
  exact hatMost c.after

/-! ## Searching -/

/-- A scanner that needs what the text does not have occurs nowhere. -/
theorem Needs.of_occurs {P : List Char → Prop} {s : Scanner α} (hs : s.Needs P)
    (hP : ∀ {a b : List Char}, a <:+ b → P a → P b) {text : List Char}
    (h : s.occurs text = true) : P text := by
  obtain ⟨c, hc, hne⟩ := occurs_iff.mp h
  obtain ⟨r, hr⟩ := List.exists_mem_of_ne_nil _ hne
  exact hP (Cursor.after_suffix_of_mem_all hc) (hs c r hr)

theorem allFrom_eq_nil {s : Scanner α} {places : List Cursor} (h : ∀ c ∈ places, s c = []) :
    ∀ skip, s.allFrom skip places = [] := by
  induction places with
  | nil =>
    intro skip
    cases skip <;> rfl
  | cons c cs ih =>
    have hc : s c = [] := h c (List.mem_cons_self ..)
    have hcs := ih fun d hd => h d (List.mem_cons_of_mem _ hd)
    intro skip
    cases skip with
    | zero => simp [allFrom, hc, hcs]
    | succ k => simpa [allFrom] using hcs k

/-- A scanner that reads on nowhere finds nothing. -/
theorem findAll_eq_nil {s : Scanner α} {text : List Char}
    (h : ∀ c ∈ Cursor.all text, s c = []) : s.findAll text = [] :=
  allFrom_eq_nil h 0

/-- A way at the very start of the text is the one that a search finds. -/
theorem Leads.find? {s : Scanner α} {text : List Char} {P : α → List Char → Prop}
    (h : s.Leads ⟨[], text⟩ P) : ∃ a rest, s.find? text = some a ∧ P a rest := by
  obtain ⟨a, d, hhead, hP⟩ := h
  obtain ⟨places, hall⟩ := Cursor.all_eq_cons text
  exact ⟨a, d.after, by simp [Scanner.find?, hall, hhead], hP⟩

end Scanner

end BigO.Scan

namespace BigO.Text

/-! ## Characters -/

/-- What holds of the first 128 characters holds of all ASCII. -/
theorem forall_ascii {P : Char → Prop} (h : ∀ n < 128, P (Char.ofNat n)) {c : Char}
    (hc : c.toNat < 128) : P c := by
  have := h c.toNat hc
  rwa [Char.ofNat_toNat] at this

/-- Only letters of ASCII have their case changed letter by letter. -/
theorem toLower_beyond_ascii {c : Char} (hc : ¬ c.toNat < 128) : c.toLower = c := by
  refine dif_neg fun hupper => hc ?_
  have hle := UInt32.le_iff_toNat_le.mp hupper.2
  exact Nat.lt_of_le_of_lt hle (by decide)

/-! ## Lines -/

theorem lines_append_cons (a b : List Char) : lines (a ++ '\n' :: b) = lines a ++ lines b := by
  induction a with
  | nil => simp [lines]
  | cons c cs ih =>
    simp only [List.cons_append, lines, ih]
    split
    · rfl
    · cases h : lines cs with
      | nil => exact absurd h (lines_ne_nil cs)
      | cons l ls => rfl

theorem lines_of_notMem {l : List Char} (h : '\n' ∉ l) : lines l = [l] := by
  induction l with
  | nil => rfl
  | cons c cs ih =>
    rw [List.mem_cons, not_or] at h
    simp [lines, Ne.symm h.1, ih h.2]

/-- Lines that hold no line feed are the lines of what they join to. -/
theorem lines_joinLines {ls : List (List Char)} (hne : ls ≠ []) (h : ∀ l ∈ ls, '\n' ∉ l) :
    lines (joinLines ls) = ls := by
  induction ls with
  | nil => exact absurd rfl hne
  | cons l ls ih =>
    have hl := lines_of_notMem (h l (List.mem_cons_self ..))
    cases ls with
    | nil => exact hl
    | cons m ms =>
      have hms := ih (List.cons_ne_nil m ms) fun k hk => h k (List.mem_cons_of_mem _ hk)
      rw [joinLines, lines_append_cons, hl, hms]
      rfl

theorem joinLines_starts_with_line (l : List Char) (ls : List (List Char)) :
    l <+: joinLines (l :: ls) := by
  cases ls with
  | nil => exact List.prefix_refl l
  | cons m ms => exact List.prefix_append l _

theorem infix_of_mem_lines {text l : List Char} (h : l ∈ lines text) : l <:+: text := by
  have hjoin : ∀ ls : List (List Char), l ∈ ls → l <:+: joinLines ls := by
    intro ls
    induction ls with
    | nil => simp
    | cons m ms ih =>
      intro hl
      rcases List.mem_cons.mp hl with rfl | hl
      · exact (joinLines_starts_with_line l ms).isInfix
      · cases ms with
        | nil => simp at hl
        | cons k ks =>
          exact (ih hl).trans ⟨m ++ ['\n'], [], by simp [joinLines]⟩
  have := hjoin (lines text) h
  rwa [joinLines_lines] at this

/-- From a place where a line starts, what lies ahead starts with a line of the
text. -/
theorem exists_line_of_atLineStart {text : List Char} {c : Scan.Cursor}
    (hc : c ∈ Scan.Cursor.all text) (hstart : c.atLineStart = true) :
    ∃ l ∈ lines text, l <+: c.after := by
  rw [Scan.Cursor.mem_all] at hc
  rcases c with ⟨before, after⟩
  have hfirst : ∃ l ∈ lines after, l <+: after := by
    obtain ⟨l, ls, hls⟩ := List.exists_cons_of_ne_nil (lines_ne_nil after)
    refine ⟨l, by simp [hls], ?_⟩
    have := joinLines_starts_with_line l ls
    rwa [← hls, joinLines_lines] at this
  cases before with
  | nil =>
    simp only [Scan.Cursor.text, List.reverse_nil, List.nil_append] at hc
    rwa [← hc]
  | cons x xs =>
    have hx : x = '\n' := by simpa [Scan.Cursor.atLineStart] using hstart
    subst hx
    have htext : text = xs.reverse ++ '\n' :: after := by
      simpa [Scan.Cursor.text] using hc.symm
    obtain ⟨l, hl, hpre⟩ := hfirst
    refine ⟨l, ?_, hpre⟩
    rw [htext, lines_append_cons]
    exact List.mem_append_right _ hl

end BigO.Text
