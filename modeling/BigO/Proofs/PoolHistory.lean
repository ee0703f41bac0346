-- The history of a pool. A step only ever adds at the end of what the pool holds, so
-- each pool of a history tells all the steps before it; and a dominant candidate gives
-- way to a later one only if that ranks above it.
import BigO.Proofs.EvidenceTable

namespace BigO

/-! ## The dominant candidate of two parts -/

theorem Candidate.better_assoc (a b c : Candidate) :
    (a.better b).better c = a.better (b.better c) := by
  unfold Candidate.better
  by_cases hab : a.growth.rank < b.growth.rank <;>
    by_cases hbc : b.growth.rank < c.growth.rank <;> simp [hab, hbc] <;> omega

/-- The dominant candidate of two lists put together is the one of the dominant two. -/
theorem dominant_append {xs ys : List Candidate} (hxs : xs ≠ []) (hys : ys ≠ []) :
    dominant (xs ++ ys) = dominant [dominant xs, dominant ys] := by
  induction ys using List.reverseRecOn with
  | nil => exact absurd rfl hys
  | append_singleton ys c ih =>
    by_cases hnil : ys = []
    · subst hnil
      exact dominant_snoc hxs c
    · have hne : xs ++ ys ≠ [] := by simp [hxs]
      rw [← List.append_assoc, dominant_snoc hne, ih hnil, dominant_snoc hnil]
      exact Candidate.better_assoc ..

namespace Pool

/-! ## What a step tells -/

/-- The candidate that a step brings. -/
def Step.candidate? : Step → Option Candidate
  | .add g c _ => some ⟨g, c⟩
  | .note _ => none
  | .tag _ => none

/-- The reason that a step brings. -/
def Step.reason? : Step → Option String
  | .add _ _ r => some r
  | .note r => some r
  | .tag _ => none

/-- The tag that a step uses. -/
def Step.name? : Step → Option String
  | .add _ _ _ => none
  | .note _ => none
  | .tag n => some n

theorem candidates_step (p : Pool) (s : Step) :
    (p.step s).candidates = p.candidates ++ s.candidate?.toList := by
  cases s with
  | add g c r => rfl
  | note r => simp [step, note, Step.candidate?]
  | tag n =>
    simp only [step, tag, Step.candidate?]
    split <;> simp

theorem why_step (p : Pool) (s : Step) : (p.step s).why = p.why ++ s.reason?.toList := by
  cases s with
  | add g c r => rfl
  | note r => rfl
  | tag n =>
    simp only [step, tag, Step.reason?]
    split <;> simp

theorem tags_step_of_none {p : Pool} {s : Step} (h : s.name? = none) :
    (p.step s).tags = p.tags := by
  cases s with
  | add g c r => rfl
  | note r => rfl
  | tag n => cases h

/-- A tag is put at the end if it is new. -/
theorem tags_step_of_some {p : Pool} {s : Step} {n : String} (h : s.name? = some n) :
    (p.step s).tags = if n ∈ p.tags then p.tags else p.tags ++ [n] := by
  cases s with
  | add g c r => cases h
  | note r => cases h
  | tag m =>
    obtain rfl := Option.some.inj h
    simp only [step, tag]
    split <;> rfl

theorem prefix_tags_step (p : Pool) (s : Step) : p.tags <+: (p.step s).tags := by
  cases h : s.name? with
  | none => simp [tags_step_of_none h]
  | some n =>
    rw [tags_step_of_some h]
    split
    · exact List.prefix_refl _
    · exact List.prefix_append ..

/-! ## One step -/

/-- What one step does to a pool. -/
structure Extends (p : Pool) (s : Step) (q : Pool) : Prop where
  candidates : p.candidates <+: q.candidates
  why : p.why <+: q.why
  tags : p.tags <+: q.tags
  rank : p.candidates ≠ [] → p.dominant.growth.rank ≤ q.dominant.growth.rank
  replaced : p.candidates ≠ [] → q.dominant ≠ p.dominant →
    s.candidate? = some q.dominant ∧ p.dominant.growth.rank < q.dominant.growth.rank

/-- The candidate of a step is dominant only if it ranks above the one that was. -/
theorem dominant_step {p : Pool} (hne : p.candidates ≠ []) (s : Step) :
    (p.step s).dominant = p.dominant ∨ s.candidate? = some (p.step s).dominant ∧
      p.dominant.growth.rank < (p.step s).dominant.growth.rank := by
  unfold dominant
  rw [candidates_step]
  cases hc : s.candidate? with
  | none => exact .inl (by simp)
  | some c =>
    rw [Option.toList_some, dominant_snoc hne, Candidate.better]
    split
    · rename_i hlt
      exact .inr ⟨rfl, hlt⟩
    · exact .inl rfl

theorem extends_step (p : Pool) (s : Step) : p.Extends s (p.step s) where
  candidates := candidates_step p s ▸ List.prefix_append ..
  why := why_step p s ▸ List.prefix_append ..
  tags := prefix_tags_step p s
  rank hne := by
    rcases dominant_step hne s with heq | ⟨-, hlt⟩
    · exact heq ▸ Int.le_refl _
    · exact Int.le_of_lt hlt
  replaced hne hother := (dominant_step hne s).resolve_left hother

/-! ## Many steps -/

/-- What a pool holds after some steps on a pool `p`. -/
structure Holds (p : Pool) (steps : List Step) (q : Pool) : Prop where
  candidates : q.candidates = p.candidates ++ steps.filterMap Step.candidate?
  why : q.why = p.why ++ steps.filterMap Step.reason?
  tags : q.tags = (p.tags ++ steps.filterMap Step.name?).eraseDups
  distinct : q.tags.Nodup

theorem eraseDups_snoc (names : List String) (n : String) :
    (names ++ [n]).eraseDups = if n ∈ names then names.eraseDups else names.eraseDups ++ [n] := by
  rw [List.eraseDups_append]
  split
  · rename_i hmem
    simp [List.removeAll, hmem]
  · rename_i hnew
    simp [List.removeAll, hnew, List.eraseDups_cons]

theorem eraseDups_of_nodup {names : List String} (h : names.Nodup) : names.eraseDups = names := by
  induction names using List.reverseRecOn with
  | nil => rfl
  | append_singleton names n ih =>
    obtain ⟨hnames, -, hnew⟩ := List.nodup_append.mp h
    have hn : n ∉ names := fun hmem => hnew n hmem n (List.mem_singleton_self n) rfl
    rw [eraseDups_snoc, if_neg hn, ih hnames]

theorem holds_nil {p : Pool} (hp : p.tags.Nodup) : p.Holds [] p where
  candidates := by simp
  why := by simp
  tags := by simp [eraseDups_of_nodup hp]
  distinct := hp

theorem Holds.step {p q : Pool} {steps : List Step} (h : p.Holds steps q) (s : Step) :
    p.Holds (steps ++ [s]) (q.step s) where
  candidates := by
    rw [candidates_step, h.candidates, List.filterMap_append]
    cases hc : s.candidate? <;> simp [hc]
  why := by
    rw [why_step, h.why, List.filterMap_append]
    cases hr : s.reason? <;> simp [hr]
  tags := by
    rw [List.filterMap_append, ← List.append_assoc]
    cases hn : s.name? with
    | none => simp [tags_step_of_none hn, hn, h.tags]
    | some n =>
      have hused : [s].filterMap Step.name? = [n] := by simp [hn]
      rw [tags_step_of_some hn, hused, eraseDups_snoc, h.tags]
      simp only [List.mem_eraseDups]
  distinct := by
    cases hn : s.name? with
    | none =>
      rw [tags_step_of_none hn]
      exact h.distinct
    | some n =>
      rw [tags_step_of_some hn]
      split
      · exact h.distinct
      · rename_i hnew
        refine List.nodup_append.mpr ⟨h.distinct, by simp, ?_⟩
        intro a ha b hb hab
        rw [hab, List.mem_singleton.mp hb] at ha
        exact hnew ha

/-! ## Histories -/

/-- The pool after some steps. -/
def after (p : Pool) (steps : List Step) : Pool :=
  steps.foldl step p

theorem holds_after {p : Pool} (hp : p.tags.Nodup) (steps : List Step) :
    p.Holds steps (p.after steps) := by
  induction steps using List.reverseRecOn with
  | nil => exact holds_nil hp
  | append_singleton steps s ih =>
    unfold after at ih ⊢
    rw [List.foldl_append]
    exact ih.step s

/-- A pool and the pools after each of its steps. -/
def history (p : Pool) (steps : List Step) : List Pool :=
  p :: p.states steps

theorem length_history (p : Pool) (steps : List Step) :
    (p.history steps).length = steps.length + 1 := by
  induction steps generalizing p with
  | nil => rfl
  | cons s steps ih =>
    have hrest := ih (p.step s)
    simp only [history, states, List.length_cons] at hrest ⊢
    omega

theorem getElem?_history (p : Pool) {steps : List Step} {k : Nat} (hk : k ≤ steps.length) :
    (p.history steps)[k]? = some (p.after (steps.take k)) := by
  induction steps generalizing p k with
  | nil =>
    obtain rfl := Nat.le_zero.mp hk
    rfl
  | cons s steps ih =>
    cases k with
    | zero => rfl
    | succ k => exact ih (p.step s) (Nat.le_of_succ_le_succ hk)

/-- The pool's answer: unknown while it holds no candidate, and then the first of the greatest. -/
structure IsLed (p : Pool) : Prop where
  unknown : p.candidates = [] → p.dominant = ⟨.unknown, .percent 25⟩
  first : p.candidates ≠ [] → IsFirstGreatest p.candidates p.dominant

theorem isLed (p : Pool) : p.IsLed where
  unknown h := by
    unfold dominant
    rw [h]
    rfl
  first h := dominant_isFirstGreatest h

/-- What the history of a pool tells: each pool of it holds what the steps before it brought,
is led by the first of its greatest candidates, and is only extended by the next step. -/
structure OnlyGrows (p : Pool) (steps : List Step) : Prop where
  length : (p.history steps).length = steps.length + 1
  holds : ∀ k q, (p.history steps)[k]? = some q → p.Holds (steps.take k) q
  led : ∀ q ∈ p.history steps, q.IsLed
  extended : ∀ k q s, (p.history steps)[k]? = some q → steps[k]? = some s →
    ∃ r, (p.history steps)[k + 1]? = some r ∧ q.Extends s r

/-- For every pool whose tags are distinct and every list of steps, the history only grows.
And the dominant candidate of two lists together is that of the dominant two. -/
theorem history_only_grows (p : Pool) (hp : p.tags.Nodup) (steps : List Step) :
    p.OnlyGrows steps ∧
      ∀ xs ys, xs ≠ [] → ys ≠ [] →
        BigO.dominant (xs ++ ys) = BigO.dominant [BigO.dominant xs, BigO.dominant ys] := by
  have hat : ∀ k q, (p.history steps)[k]? = some q → q = p.after (steps.take k) := by
    intro k q hq
    have hk := (List.getElem?_eq_some_iff.mp hq).1
    rw [length_history] at hk
    rw [getElem?_history p (by omega)] at hq
    exact (Option.some.inj hq).symm
  refine ⟨⟨length_history p steps, ?_, fun q _ => isLed q, ?_⟩, ?_⟩
  · intro k q hq
    rw [hat k q hq]
    exact holds_after hp _
  · intro k q s hq hs
    have hlt : k < steps.length := (List.getElem?_eq_some_iff.mp hs).1
    have hnext : p.after (steps.take (k + 1)) = q.step s := by
      rw [hat k q hq]
      unfold after
      rw [List.take_add_one, hs, List.foldl_append]
      rfl
    exact ⟨_, getElem?_history p hlt, hnext ▸ extends_step q s⟩
  · intro xs ys hxs hys
    exact dominant_append hxs hys

/-- Two candidates of one class with a tag used twice, and then one of a higher class. -/
def mixedSteps : List Step :=
  [.tag "sort", .add .linear (.percent 60) "a loop", .note "a call", .tag "recursion",
    .tag "sort", .add .linear (.percent 52) "a recursion", .add .quadratic (.percent 70) "a nest"]

theorem history_only_grows_mixedSteps :
    OnlyGrows { why := ["a preamble"] } mixedSteps ∧
      (after { why := ["a preamble"] } mixedSteps).tags = ["sort", "recursion"] ∧
      (after {} (mixedSteps.take 1)).dominant = ⟨.unknown, .percent 25⟩ ∧
      (after {} (mixedSteps.take 6)).dominant = ⟨.linear, .percent 60⟩ ∧
      (after {} mixedSteps).dominant = ⟨.quadratic, .percent 70⟩ :=
  ⟨(history_only_grows _ List.nodup_nil mixedSteps).1, by decide, by decide, by decide, by decide⟩

end Pool

end BigO
