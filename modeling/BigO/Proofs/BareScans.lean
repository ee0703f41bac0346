-- Scanners that read on over line ends, in a text with paired returns and in the
-- bare text: as many characters as will do, any number of times, on to the
-- nearest place, and all occurrences one after the other.
import BigO.Proofs.BarePlaces
import BigO.Proofs.Search

namespace BigO.Scan.Scanner

open BigO.Text

variable {α α' β β' : Type} {P Q : Cursor → Prop} {W : β → β' → Prop}

/-! ## With or without -/

theorem optional_bind (s : Scanner Unit) (f : Unit → Scanner β) (c : Cursor) :
    (optional s >>= f) c = (s >>= f) c ++ f () c := by
  show (s c ++ [((), c)]).flatMap (fun r => f r.1 r.2) = _
  rw [List.flatMap_append, List.flatMap_singleton]
  rfl

theorem agrees_optional_bind {s : Scanner Unit} {f : Unit → Scanner β} {f' : Unit → Scanner β'}
    (hs : Agrees P Q W (s >>= f) (s >>= f')) (hf : Agrees P Q W (f ()) (f' ())) :
    Agrees P Q W (optional s >>= f) (optional s >>= f') := by
  intro c hc
  rw [optional_bind, optional_bind]
  exact List.rel_append (hs c hc) (hf c hc)

/-! ## As many as will do -/

theorem many_bind_nil (p : Char → Bool) (f : Unit → Scanner β) (before : List Char) :
    (many p >>= f) ⟨before, []⟩ = f () ⟨before, []⟩ := by
  show ((reach p before []).reverse.map ((), ·)).flatMap (fun r => f r.1 r.2) = _
  simp [reach]

theorem many_bind_cons (p : Char → Bool) (f : Unit → Scanner β) (before : List Char) (x : Char)
    (xs : List Char) :
    (many p >>= f) ⟨before, x :: xs⟩ =
      (if p x then (many p >>= f) ⟨x :: before, xs⟩ else []) ++ f () ⟨before, x :: xs⟩ := by
  have hways : ∀ c, (many p >>= f) c = (reach p c.before c.after).reverse.flatMap fun d => f () d :=
    fun _ => List.flatMap_map ..
  rw [hways, hways, reach, List.reverse_cons, List.flatMap_append, List.flatMap_singleton]
  split
  · rfl
  · rfl

theorem forall₂_append_of_if {R : β × Cursor → β' × Cursor → Prop} {b : Bool}
    {further own : List (β × Cursor)} {further' own' : List (β' × Cursor)}
    (hfurther : b = true → List.Forall₂ R further further') (hown : List.Forall₂ R own own') :
    List.Forall₂ R ((if b then further else []) ++ own) ((if b then further' else []) ++ own') := by
  cases b with
  | false => exact hown
  | true => exact List.rel_append (hfurther rfl) hown

section Many

variable {text : List Char} (htext : PairedSoFar text) {p : Char → Bool}
  (hp : p '\n' = true → p '\r' = true) {f : Unit → Scanner β} {f' : Unit → Scanner β'}
  (htorn : ∀ c, Torn text c → f' () c = [])

include htorn

theorem many_bind_last_return {before : List Char} (hc : Cursor.text ⟨before, ['\r']⟩ = text) :
    (many p >>= f') ⟨before, ['\r']⟩ = f' () ⟨before, ['\r']⟩ := by
  rw [many_bind_cons, many_bind_nil, htorn _ (.of_return hc), ite_self, List.nil_append]

include hp

/-- A return and its line feed are passed together or not at all. -/
theorem many_bind_return {before more : List Char}
    (hc : Cursor.text ⟨before, '\r' :: '\n' :: more⟩ = text) :
    (many p >>= f') ⟨before, '\r' :: '\n' :: more⟩ =
      (if p '\n' then (many p >>= f') ⟨'\n' :: '\r' :: before, more⟩ else []) ++
        f' () ⟨before, '\r' :: '\n' :: more⟩ := by
  rw [many_bind_cons, many_bind_cons, htorn _ (.of_return hc), List.append_nil]
  cases hfeed : p '\n' with
  | false => simp only [Bool.false_eq_true, if_false, ite_self]
  | true => rw [hp hfeed, if_pos rfl]

include htext

/-- The places between a return and its line feed make no difference if the rest of the
scanner does not read on from there. -/
theorem agrees_many_bind (hf : Agrees (Whole text) Q W (f ()) (f' ())) :
    Agrees (Whole text) Q W (many p >>= f) (many p >>= f') := by
  rintro ⟨before, after⟩ hc
  -- a return and its line feed are passed together, so the induction is on the length
  induction hlen : after.length using Nat.strongRecOn generalizing before after with
  | _ len ih =>
    subst hlen
    have hown := hf _ hc
    have hstep : ∀ {b a : List Char}, a.length < after.length → Whole text ⟨b, a⟩ →
        List.Forall₂ (Meets W Q ⟨before, after⟩) ((many p >>= f) (Cursor.bare ⟨b, a⟩))
          ((many p >>= f') ⟨b, a⟩) := by
      intro b a hlt hnext
      exact (ih a.length hlt b a hnext rfl).imp fun _ _ h => h.earlier (Nat.le_of_lt hlt)
    cases after with
    | nil =>
      show List.Forall₂ _ ((many p >>= f) ⟨Text.bare before, []⟩) _
      rw [many_bind_nil, many_bind_nil]
      exact hown
    | cons x xs =>
      by_cases hx : x = '\r'
      · subst hx
        rcases after_return htext hc.inText with rfl | ⟨more, rfl⟩
        · show List.Forall₂ _ ((many p >>= f) ⟨Text.bare before, []⟩) _
          rw [many_bind_nil, many_bind_last_return htorn hc.inText]
          exact hown
        · have hnext : Whole text ⟨'\n' :: '\r' :: before, more⟩ :=
            .next (Torn.of_return hc.inText).inText (by decide)
          rw [many_bind_return hp htorn hc.inText]
          show List.Forall₂ _ ((many p >>= f) ⟨Text.bare before, '\n' :: Text.bare more⟩) _
          rw [many_bind_cons]
          have hlt : more.length < ('\r' :: '\n' :: more).length := by
            simp only [List.length_cons]
            omega
          exact forall₂_append_of_if (fun _ => hstep hlt hnext) hown
      · have hnext := hstep (by simp) (Whole.next hc.inText hx)
        rw [Cursor.bare, bare_cons hx] at hnext hown ⊢
        rw [many_bind_cons, many_bind_cons]
        exact forall₂_append_of_if (fun _ => hnext) hown

end Many

/-! ## Any number of times -/

/-- Every way reads at least one character. -/
def Consumes (s : Scanner α) : Prop :=
  ∀ c r, r ∈ s c → r.2.after.length < c.after.length

theorem consumes_one (p : Char → Bool) : (one p).Consumes := by
  rintro c ⟨u, d⟩ hr
  obtain ⟨x, xs, hc, -, rfl⟩ := mem_one.mp hr
  simp [hc]

theorem Consumes.bind_forward {s : Scanner α} {f : α → Scanner β} (hs : s.Consumes)
    (hf : ∀ a, (f a).Forward) : (s >>= f).Consumes := by
  intro c r hr
  obtain ⟨q, hq, hr⟩ := mem_bind.mp hr
  exact Nat.lt_of_le_of_lt (hf q.1 q.2 r hr).length_le (hs c q hq)

theorem Forward.bind_consumes {s : Scanner α} {f : α → Scanner β} (hs : s.Forward)
    (hf : ∀ a, (f a).Consumes) : (s >>= f).Consumes := by
  intro c r hr
  obtain ⟨q, hq, hr⟩ := mem_bind.mp hr
  exact Nat.lt_of_lt_of_le (hf q.1 q.2 r hr) (hs c q hq).length_le

theorem Consumes.either {s t : Scanner α} (hs : s.Consumes) (ht : t.Consumes) :
    (either s t).Consumes := by
  intro c r hr
  rcases mem_either.mp hr with hr | hr
  · exact hs c r hr
  · exact ht c r hr

theorem Consumes.eq_nil {s : Scanner α} (hs : s.Consumes) {c : Cursor} (hc : c.after = []) :
    s c = [] := by
  refine List.eq_nil_iff_forall_not_mem.mpr fun r hr => ?_
  have hlt := hs c r hr
  simp [hc] at hlt

theorem atMost_cons (s : Scanner Unit) (x : Char) (xs : List Char) (c : Cursor) :
    atMost s (x :: xs) c = (s c).flatMap (fun r => atMost s xs r.2) ++ [((), c)] := rfl

/-- Enough characters are enough. -/
theorem atMost_eq {s : Scanner Unit} (hs : s.Consumes) {xs ys : List Char} {c : Cursor}
    (hxs : c.after.length ≤ xs.length) (hys : c.after.length ≤ ys.length) :
    atMost s xs c = atMost s ys c := by
  induction xs generalizing ys c with
  | nil =>
    have hend := hs.eq_nil (List.length_eq_zero_iff.mp (Nat.le_zero.mp hxs))
    cases ys with
    | nil => rfl
    | cons y ys => rw [atMost_cons, hend]; rfl
  | cons x xs ih =>
    cases ys with
    | nil =>
      have hend := hs.eq_nil (List.length_eq_zero_iff.mp (Nat.le_zero.mp hys))
      rw [atMost_cons, hend]
      rfl
    | cons y ys =>
      rw [atMost_cons, atMost_cons]
      congr 1
      refine List.flatMap_congr fun r hr => ?_
      have hlt := hs c r hr
      rw [List.length_cons] at hxs hys
      exact ih (by omega) (by omega)

theorem repeated_eq {s : Scanner Unit} (hs : s.Consumes) (c : Cursor) :
    repeated s c = (s c).flatMap (fun r => repeated s r.2) ++ [((), c)] := by
  show atMost s c.after c = _
  cases hafter : c.after with
  | nil =>
    rw [hs.eq_nil hafter]
    rfl
  | cons x xs =>
    rw [atMost_cons]
    congr 1
    refine List.flatMap_congr fun r hr => ?_
    have hlt := hs c r hr
    rw [hafter, List.length_cons] at hlt
    exact atMost_eq hs (by omega) (Nat.le_refl _)

theorem Agrees.repeated {s : Scanner Unit} (hs : Agrees P P Eq s s) (hc : s.Consumes) :
    Agrees P P Eq (repeated s) (repeated s) := by
  intro c hP
  induction hlen : c.after.length using Nat.strongRecOn generalizing c with
  | _ len ih =>
    subst hlen
    rw [repeated_eq hc, repeated_eq hc]
    refine List.rel_append ?_ (.cons ⟨rfl, rfl, Nat.le_refl _, hP⟩ .nil)
    have hways : List.Forall₂
        (fun r' r => r'.2.after.length < c.after.length ∧ Meets Eq P c r r') (s c) (s c.bare) :=
      (List.forall₂_and_left _ _).mpr ⟨fun r' hr' => hc c r' hr', (hs c hP).flip⟩
    refine List.rel_flatMap hways.flip ?_
    rintro r r' ⟨hlt, hr⟩
    have hrest := ih _ hlt r'.2 hr.reached rfl
    rw [← hr.place] at hrest
    exact hrest.imp fun _ _ h => h.earlier hr.onward

/-! ## The nearest place -/

theorem text_nearest? {p : Char → Bool} {test : Cursor → Bool} {before after : List Char}
    {d : Cursor} (h : Cursor.nearest? p test before after = some d) :
    d.text = Cursor.text ⟨before, after⟩ ∧ d.after.length ≤ after.length := by
  obtain ⟨passed, hto, -⟩ := to_of_nearest? h
  exact ⟨hto.text_eq, hto.length_le⟩

section Nearest

variable {text : List Char} (htext : PairedSoFar text) {p : Char → Bool} (hr : p '\r' = true)
  (hn : p '\n' = false) {test : Cursor → Bool}
  (htest : ∀ c, Whole text c → test c.bare = test c) (htorn : ∀ c, Torn text c → test c = false)

include htext hr hn htest htorn

theorem nearest?_bare {before after : List Char} (hc : Whole text ⟨before, after⟩) :
    Cursor.nearest? p test (Text.bare before) (Text.bare after) =
      (Cursor.nearest? p test before after).map Cursor.bare := by
  induction after generalizing before with
  | nil =>
    have hsame : test ⟨Text.bare before, []⟩ = test ⟨before, []⟩ := htest _ hc
    simp only [bare_nil, Cursor.nearest?, hsame]
    split
    · rfl
    · rfl
  | cons x xs ih =>
    have hsame := htest _ hc
    by_cases hx : x = '\r'
    · subst hx
      -- the way ends at the line feed, or with the text
      have hstop : Cursor.nearest? p test ('\r' :: before) xs = none := by
        have hfail := htorn _ (.of_return hc.inText)
        rcases after_return htext hc.inText with rfl | ⟨more, rfl⟩
        · simp [Cursor.nearest?, hfail]
        · simp [Cursor.nearest?, hfail, hn]
      have hbare : Cursor.nearest? p test (Text.bare before) (Text.bare xs) =
          if test ⟨before, '\r' :: xs⟩ then some (Cursor.bare ⟨before, '\r' :: xs⟩) else none := by
        rw [← hsame]
        rcases after_return htext hc.inText with rfl | ⟨more, rfl⟩
        · rfl
        · rw [bare_feed, Cursor.nearest?, hn]
          rfl
      rw [bare_return, hbare, Cursor.nearest?, hr, hstop]
      split
      · rfl
      · rfl
    · rw [Cursor.bare, bare_cons hx] at hsame
      have hrest := ih (.next hc.inText hx)
      rw [bare_cons hx] at hrest
      rw [bare_cons hx, Cursor.nearest?, Cursor.nearest?, hsame]
      split
      · rw [Option.map_some, Cursor.bare, bare_cons hx]
      · split
        · exact hrest
        · rfl

/-- A test that fails between a return and its line feed passes at the same place, if
there are returns on the way and no line feed. -/
theorem agrees_nearest :
    Agrees (Whole text) (·.text = text) Eq (nearest p test) (nearest p test) := by
  rintro ⟨before, after⟩ hc
  show List.Forall₂ _ (goTo (Cursor.nearest? p test (Text.bare before) (Text.bare after)))
    (goTo (Cursor.nearest? p test before after))
  rw [nearest?_bare htext hr hn htest htorn hc]
  cases hd : Cursor.nearest? p test before after with
  | none => exact .nil
  | some d =>
    obtain ⟨hin, hle⟩ := text_nearest? hd
    exact .cons ⟨rfl, rfl, hle, hin.trans hc.inText⟩ .nil

end Nearest

/-! ## Searching -/

/-- A scanner reads on from neither a place nor its like. -/
def IsDead (s : Scanner α) (c : Cursor) : Prop :=
  s c.bare = [] ∧ s c = []

theorem Agrees.dead_or_head {s : Scanner α} {V : α → α → Prop} (hs : Agrees P Q V s s)
    {c : Cursor} (hc : P c) :
    IsDead s c ∨ ∃ a a' d, (s c.bare).head? = some (a, d.bare) ∧ (s c).head? = some (a', d) ∧
      V a a' ∧ d.after.length ≤ c.after.length ∧ Q d := by
  have hways := hs c hc
  unfold IsDead
  generalize s c.bare = ways at hways ⊢
  generalize s c = ways' at hways ⊢
  cases hways with
  | nil => exact .inl ⟨rfl, rfl⟩
  | @cons r r' _ _ hr _ =>
    refine .inr ⟨r.1, r'.1, r'.2, ?_, rfl, hr.value, hr.onward, hr.reached⟩
    rw [List.head?_cons, ← hr.place]

section FindAll

variable {text : List Char} (htext : PairedSoFar text) {s : Scanner α} {V : α → α → Prop}

include htext

/-- What is found at the next places goes together if what is found at all later whole
places does. -/
theorem forall₂_tail (htorn : ∀ c, Torn text c → s c = []) {c : Cursor} (hc : c.text = text)
    (hlater : ∀ d, Whole text d → d.after.length < c.after.length →
      List.Forall₂ V (s.allFrom 0 (placesFrom d.bare)) (s.allFrom 0 (placesFrom d))) :
    List.Forall₂ V (s.allFrom 0 (placesFrom c.bare).tail) (s.allFrom 0 (placesFrom c).tail) := by
  rcases c with ⟨before, after⟩
  cases after with
  | nil => exact .nil
  | cons x xs =>
    by_cases hx : x = '\r'
    · subst hx
      have hparts : Torn text ⟨'\r' :: before, xs⟩ := .of_return hc
      show List.Forall₂ V _ (s.allFrom 0 (placesFrom ⟨'\r' :: before, xs⟩))
      rw [allFrom_of_nil (htorn _ hparts)]
      rcases after_return htext hc with rfl | ⟨more, rfl⟩
      · exact .nil
      · exact hlater ⟨'\n' :: '\r' :: before, more⟩ (.next hparts.inText (by decide))
          (by simp only [List.length_cons]; omega)
    · have hnext := hlater ⟨x :: before, xs⟩ (.next hc hx) (by simp)
      rw [Cursor.bare, bare_cons hx] at hnext ⊢
      exact hnext

omit htext in
/-- A search that stops at a place and has to go on at a later one gets on in the bare text
too: it does not stop and go on at one place. -/
theorem length_bare_lt {c d : Cursor} (hc : c.text = text) (hd : d.text = text)
    (hlt : d.after.length < c.after.length) (hne : s c.bare ≠ [])
    (hstop : Whole text d ∨ IsDead s d) : d.bare.after.length < c.bare.after.length := by
  obtain ⟨passed, hafter, hbefore⟩ := exists_passed (hd.trans hc.symm) (Nat.le_of_lt hlt)
  have hpassed : Text.bare passed ≠ [] := by
    rcases hstop with hwhole | hdead
    · rcases List.eq_nil_or_concat passed with rfl | ⟨init, x, rfl⟩
      · simp [hafter] at hlt
      · have hx : x ≠ '\r' := by
          rintro rfl
          exact hwhole.apart (by simp [hbefore])
        simp [bare_append, bare_cons hx]
    · intro hnil
      have hsame : c.bare = d.bare := by
        rw [Cursor.bare, Cursor.bare, hafter, hbefore, bare_append, bare_append, bare_reverse, hnil]
        rfl
      rw [hsame] at hne
      exact hne hdead.1
  show (Text.bare d.after).length < (Text.bare c.after).length
  rw [hafter, bare_append, List.length_append]
  have hpos := List.length_pos_iff.mpr hpassed
  omega

/-- A scanner that agrees with itself finds the same, if it finds nothing between a return
and its line feed, and if what it finds ends at a whole place or where it finds nothing. -/
theorem forall₂_findAll (hs : Agrees (Whole text) Q V s s)
    (hQ : ∀ c, Q c → c.text = text ∧ (Whole text c ∨ IsDead s c))
    (htorn : ∀ c, Torn text c → s c = []) :
    List.Forall₂ V (s.findAll (bare text)) (s.findAll text) := by
  have hfrom : ∀ len (c : Cursor), c.after.length = len → c.text = text →
      Whole text c ∨ IsDead s c →
      List.Forall₂ V (s.allFrom 0 (placesFrom c.bare)) (s.allFrom 0 (placesFrom c)) := by
    intro len
    induction len using Nat.strongRecOn with
    | _ len ih =>
      rintro c rfl hin hc
      have htail := forall₂_tail htext htorn hin fun d hd hlt => ih _ hlt d rfl hd.inText (.inl hd)
      have hcases := hc.elim (fun h => hs.dead_or_head h) .inl
      rcases hcases with ⟨hbare, hnone⟩ | ⟨a, a', d, hbare, hhead, hV, hle, hd⟩
      · rw [allFrom_of_nil hbare, allFrom_of_nil hnone]
        exact htail
      · obtain ⟨hdin, hstop⟩ := hQ d hd
        rcases Nat.lt_or_eq_of_le hle with hlt | heq
        · have hltBare := length_bare_lt hin hdin hlt (by intro h; simp [h] at hbare) hstop
          rw [allFrom_of_head hhead (hdin.trans hin.symm) hlt,
            allFrom_of_head hbare (by rw [Cursor.text_bare, Cursor.text_bare, hdin, hin]) hltBare]
          exact .cons hV (ih _ hlt d rfl hdin hstop)
        · obtain rfl := eq_of_length_after (hdin.trans hin.symm) heq
          rw [allFrom_of_head_self hhead, allFrom_of_head_self hbare]
          exact .cons hV htail
  exact hfrom _ ⟨[], text⟩ rfl rfl (.inl ⟨rfl, by simp⟩)

theorem occurs_bare (hs : Agrees (Whole text) (Whole text) V s s)
    (htorn : ∀ c, Torn text c → s c = []) : s.occurs (bare text) = s.occurs text := by
  have hfound := forall₂_findAll htext hs (fun c hc => ⟨hc.inText, .inl hc⟩) htorn
  have hnone : s.findAll (bare text) = [] ↔ s.findAll text = [] := by
    rw [← List.length_eq_zero_iff, ← List.length_eq_zero_iff, hfound.length_eq]
  rw [findAll_eq_nil_iff, findAll_eq_nil_iff] at hnone
  cases h : s.occurs text with
  | false => exact hnone.mpr h
  | true =>
    rw [← Bool.not_eq_false, hnone, h]
    exact Bool.noConfusion

end FindAll

end BigO.Scan.Scanner
