-- The pool of an analysis, said at once: which candidates and reasons the signals
-- give, in which order, and which tags. The class that dominates is constant only if
-- every candidate is.
import BigO.Evidence

namespace BigO

open BigO.Loop (Factor)

/-! ## Classes -/

/-- Every class but the unknown one has its rank from zero on. -/
theorem Growth.rank_nonneg {g : Growth} (h : g ≠ .unknown) : 0 ≤ g.rank := by
  cases g <;> first | exact absurd rfl h | decide

theorem Nest.growth_ne_unknown (factors : List Factor) : Nest.growth factors ≠ .unknown := by
  unfold Nest.growth
  split
  · split <;> simp
  · split <;> simp
  · simp
  · simp

/-- A nest is constant if all its loops are. -/
theorem Nest.growth_eq_constant_iff (factors : List Factor) :
    Nest.growth factors = .constant ↔ ∀ f ∈ factors, f = .constant := by
  have hlinear : Nest.degree factors = 0 ↔ .linear ∉ factors := List.count_eq_zero
  have hlog : Nest.hasLogarithm factors = false ↔ .logarithmic ∉ factors := by
    simp [Nest.hasLogarithm]
  have hconstant : (∀ f ∈ factors, f = .constant) ↔
      Nest.degree factors = 0 ∧ Nest.hasLogarithm factors = false := by
    rw [hlinear, hlog]
    constructor
    · intro h
      refine ⟨fun hmem => ?_, fun hmem => ?_⟩
      · cases h _ hmem
      · cases h _ hmem
    · rintro ⟨h1, h2⟩ f hf
      cases f with
      | constant => rfl
      | logarithmic => exact absurd hf h2
      | linear => exact absurd hf h1
  rw [hconstant]
  unfold Nest.growth
  split
  · rename_i hdegree
    cases hhas : Nest.hasLogarithm factors <;> simp [hdegree]
  · rename_i hdegree
    split <;> simp [hdegree]
  · rename_i hdegree
    simp [hdegree]
  · rename_i hdegree _ _
    exact iff_of_false (by simp) fun h => hdegree h.1

/-! ## Dominance -/

/-- What keeps one of two all along keeps one of them all. -/
theorem foldl_mem_cons {α : Type} {f : α → α → α} (h : ∀ a b, f a b = a ∨ f a b = b)
    (xs : List α) (a : α) : xs.foldl f a ∈ a :: xs := by
  induction xs generalizing a with
  | nil => exact List.mem_singleton_self a
  | cons b xs ih =>
    rw [List.foldl_cons]
    rcases List.mem_cons.mp (ih (f a b)) with hmem | hmem
    · rw [hmem]
      rcases h a b with hab | hab
      · rw [hab]
        exact List.mem_cons_self ..
      · rw [hab]
        exact List.mem_cons_of_mem _ (List.mem_cons_self ..)
    · exact List.mem_cons_of_mem _ (List.mem_cons_of_mem _ hmem)

theorem Candidate.better_eq (best c : Candidate) :
    best.better c = best ∨ best.better c = c := by
  unfold Candidate.better
  split
  · exact .inr rfl
  · exact .inl rfl

theorem Candidate.rank_le_better (best c : Candidate) :
    best.growth.rank ≤ (best.better c).growth.rank ∧
      c.growth.rank ≤ (best.better c).growth.rank := by
  unfold Candidate.better
  split <;> omega

/-- The dominant candidate is one of those there are. -/
theorem dominant_mem {cs : List Candidate} (h : cs ≠ []) : dominant cs ∈ cs := by
  cases cs with
  | nil => exact absurd rfl h
  | cons c cs => exact foldl_mem_cons Candidate.better_eq cs c

/-- What never ranks below either of two never ranks below any of them all. -/
theorem rank_le_foldl {α : Type} (rank : α → Int) {f : α → α → α}
    (h : ∀ a b, rank a ≤ rank (f a b) ∧ rank b ≤ rank (f a b)) (xs : List α) (a : α) :
    ∀ c ∈ a :: xs, rank c ≤ rank (xs.foldl f a) := by
  induction xs generalizing a with
  | nil =>
    intro c hc
    rw [List.mem_singleton.mp hc]
    exact Int.le_refl _
  | cons d xs ih =>
    intro c hc
    have hbest := ih (f a d) _ (List.mem_cons_self ..)
    rw [List.foldl_cons]
    rcases List.mem_cons.mp hc with rfl | hc
    · exact Int.le_trans (h c d).1 hbest
    · rcases List.mem_cons.mp hc with rfl | hc
      · exact Int.le_trans (h a c).2 hbest
      · exact ih _ c (List.mem_cons_of_mem _ hc)

/-- No candidate ranks above the dominant one. -/
theorem rank_le_dominant {cs : List Candidate} {c : Candidate} (hc : c ∈ cs) :
    c.growth.rank ≤ (dominant cs).growth.rank := by
  cases cs with
  | nil => cases hc
  | cons d cs =>
    exact rank_le_foldl (fun c : Candidate => c.growth.rank) Candidate.rank_le_better cs d c hc

/-- Among candidates of known class the dominant one is constant if all of them are. -/
theorem dominant_eq_constant_iff {cs : List Candidate} (hne : cs ≠ [])
    (hknown : ∀ c ∈ cs, c.growth ≠ .unknown) :
    (dominant cs).growth = .constant ↔ ∀ c ∈ cs, c.growth = .constant := by
  constructor
  · intro hdominant c hc
    have hle := rank_le_dominant hc
    have hnonneg := Growth.rank_nonneg (hknown c hc)
    rw [hdominant] at hle
    exact Growth.rank_injective (Int.le_antisymm hle hnonneg)
  · intro hall
    exact hall _ (dominant_mem hne)

/-! ## Recursive functions -/

theorem Growth.worse_eq (a b : Growth) : a.worse b = a ∨ a.worse b = b := by
  unfold Growth.worse
  split
  · exact .inr rfl
  · exact .inl rfl

theorem worstRecursion?_eq_none_iff {signals : List Recursion.Signal} :
    worstRecursion? signals = none ↔ signals = [] := by
  cases signals <;> simp [worstRecursion?]

/-- The worst class of recursive functions is that of one of them. -/
theorem exists_hint_of_worstRecursion? {signals : List Recursion.Signal} {worst : Growth}
    (h : worstRecursion? signals = some worst) : ∃ s ∈ signals, s.hint.growth = worst := by
  cases signals with
  | nil => cases h
  | cons s ss =>
    simp only [worstRecursion?, Option.some.injEq] at h
    have hmem := foldl_mem_cons Growth.worse_eq (ss.map (·.hint.growth)) s.hint.growth
    rw [h, ← List.map_cons (f := fun r : Recursion.Signal => r.hint.growth)] at hmem
    obtain ⟨r, hr, hgrowth⟩ := List.mem_map.mp hmem
    exact ⟨r, hr, hgrowth⟩

/-! ## The pool -/

namespace Pool

/-- The pool with candidates and their reasons. -/
def addAll (p : Pool) (evidence : List (Candidate × String)) : Pool :=
  { p with
    candidates := p.candidates ++ evidence.map (·.1)
    why := p.why ++ evidence.map (·.2) }

/-- The pool with tags that it did not have. -/
def tagAll (p : Pool) (names : List String) : Pool :=
  { p with tags := p.tags ++ names }

end Pool

namespace Signals

variable (s : Signals)

/-- What the loops show. -/
def loopEvidence (h : s.Showable) (tier : Tier) : List (Candidate × String) :=
  if s.factors = [] then []
  else [(⟨Nest.growth s.factors, s.loopConfidence tier⟩, s.loopReason h)]

/-- What a progression shows. -/
def progressionEvidence (tier : Tier) : List (Candidate × String) :=
  if s.progresses then [(⟨.logarithmic, tier.progression⟩, Reason.progression)] else []

/-- What calls that sort show. -/
def sortEvidence (tier : Tier) : List (Candidate × String) :=
  if s.sorts = [] then [] else [(⟨.linearithmic, tier.sort⟩, Reason.sort s)]

/-- What calls that sort show beside loops. -/
def sortBesideLoopEvidence (tier : Tier) : List (Candidate × String) :=
  if s.sorts ≠ [] ∧ 0 < s.loops then
    [(⟨.linearithmic, tier.sortBesideLoop⟩, Reason.sortBesideLoop)]
  else []

/-- What recursive functions show. -/
def recursionEvidence (tier : Tier) : List (Candidate × String) :=
  match worstRecursion? s.recursion with
  | none => []
  | some worst =>
    let confidence := if worst = .linear then tier.straightRecursion else tier.branchingRecursion
    [(⟨worst, confidence⟩, Reason.recursion s.recursion worst)]

/-- All that the signals show, in order. -/
def evidence (h : s.Showable) (tier : Tier) : List (Candidate × String) :=
  s.loopEvidence h tier ++ s.progressionEvidence tier ++ s.sortEvidence tier ++
    s.sortBesideLoopEvidence tier ++ s.recursionEvidence tier

def sortTag : List String := if s.sorts = [] then [] else ["sort"]

def recursionTag : List String := if s.recursion = [] then [] else ["recursion"]

def libraryTag : List String := if s.libraryCalls = [] then [] else ["library-ops"]

/-- The remark on library operations, if there are any. -/
def libraryRemark : List String :=
  if s.libraryCalls = [] then [] else [Reason.libraryCalls s.libraryCalls]

variable {s}

theorem sortTag_sublist : s.sortTag.Sublist ["sort"] := by
  unfold sortTag
  split <;> simp

theorem recursionTag_sublist : s.recursionTag.Sublist ["recursion"] := by
  unfold recursionTag
  split <;> simp

theorem libraryTag_sublist : s.libraryTag.Sublist ["library-ops"] := by
  unfold libraryTag
  split <;> simp

theorem addLoops_eq (h : s.Showable) (tier : Tier) (p : Pool) :
    s.addLoops h tier p = p.addAll (s.loopEvidence h tier) := by
  unfold addLoops loopEvidence
  split <;> simp [Pool.addAll, Pool.add]

theorem addProgression_eq (tier : Tier) (p : Pool) :
    s.addProgression tier p = p.addAll (s.progressionEvidence tier) := by
  unfold addProgression progressionEvidence
  split <;> simp [Pool.addAll, Pool.add]

theorem addSort_eq (tier : Tier) {p : Pool} (hp : "sort" ∉ p.tags) :
    s.addSort tier p = (p.tagAll s.sortTag).addAll (s.sortEvidence tier) := by
  unfold addSort sortTag sortEvidence
  split <;> simp [Pool.addAll, Pool.tagAll, Pool.add, Pool.tag, hp]

theorem addSortBesideLoop_eq (tier : Tier) (p : Pool) :
    s.addSortBesideLoop tier p = p.addAll (s.sortBesideLoopEvidence tier) := by
  unfold addSortBesideLoop sortBesideLoopEvidence
  split <;> simp [Pool.addAll, Pool.add]

theorem addRecursion_eq (tier : Tier) {p : Pool} (hp : "recursion" ∉ p.tags) :
    s.addRecursion tier p = (p.tagAll s.recursionTag).addAll (s.recursionEvidence tier) := by
  unfold addRecursion recursionTag recursionEvidence
  cases hworst : worstRecursion? s.recursion with
  | none =>
    have hnone := worstRecursion?_eq_none_iff.mp hworst
    simp [Pool.addAll, Pool.tagAll, hnone]
  | some worst =>
    have hsome : s.recursion ≠ [] := by
      intro hnil
      rw [worstRecursion?_eq_none_iff.mpr hnil] at hworst
      cases hworst
    simp [Pool.addAll, Pool.tagAll, Pool.add, Pool.tag, hp, hsome]

theorem noteLibraryCalls_eq {p : Pool} (hp : "library-ops" ∉ p.tags) :
    s.noteLibraryCalls p =
      { p.tagAll s.libraryTag with why := p.why ++ s.libraryRemark } := by
  unfold noteLibraryCalls libraryTag libraryRemark
  split <;> simp [Pool.tagAll, Pool.note, Pool.tag, hp]

/-- The pool that the signals give. -/
theorem pool_eq (h : s.Showable) (tier : Tier) (notes : List String) :
    s.pool h tier notes =
      { candidates := if s.evidence h tier = [] then [⟨.constant, tier.nothing⟩]
          else (s.evidence h tier).map (·.1)
        tags := s.sortTag ++ s.recursionTag ++ s.libraryTag
        why := notes ++ (s.evidence h tier).map (·.2) ++ s.libraryRemark ++
          if s.evidence h tier = [] then [Reason.nothing] else [] } := by
  have hnew1 : "recursion" ∉ s.sortTag :=
    fun hmem => absurd (sortTag_sublist.subset hmem) (by decide)
  have hnew2 : "library-ops" ∉ s.sortTag :=
    fun hmem => absurd (sortTag_sublist.subset hmem) (by decide)
  have hnew3 : "library-ops" ∉ s.recursionTag :=
    fun hmem => absurd (recursionTag_sublist.subset hmem) (by decide)
  unfold pool
  rw [addLoops_eq, addProgression_eq, addSort_eq, addSortBesideLoop_eq, addRecursion_eq,
    noteLibraryCalls_eq]
  · unfold addNothing
    have hall : s.loopEvidence h tier ++ (s.progressionEvidence tier ++ (s.sortEvidence tier ++
        (s.sortBesideLoopEvidence tier ++ s.recursionEvidence tier))) = s.evidence h tier := by
      simp only [evidence, List.append_assoc]
    simp only [Pool.addAll, Pool.tagAll, List.nil_append, List.append_assoc, ← List.map_append]
    rw [hall]
    by_cases hnone : s.evidence h tier = []
    · simp [hnone, Pool.add]
    · simp [hnone]
  · simp [Pool.addAll, Pool.tagAll, hnew2, hnew3]
  · simp [Pool.addAll, Pool.tagAll, hnew1]
  · simp [Pool.addAll]

theorem tags_pool (h : s.Showable) (tier : Tier) (notes : List String) :
    (s.pool h tier notes).tags = s.sortTag ++ s.recursionTag ++ s.libraryTag := by
  rw [pool_eq]

/-- A pool is never without a reason. -/
theorem why_pool_ne_nil (h : s.Showable) (tier : Tier) (notes : List String) :
    (s.pool h tier notes).why ≠ [] := by
  rw [pool_eq]
  by_cases hnone : s.evidence h tier = []
  · simp [hnone]
  · simp [hnone]

/-! ## The classes of the candidates -/

/-- Whatever the signals show has a class that is known. -/
theorem growth_ne_unknown_of_mem_evidence (h : s.Showable) (tier : Tier) :
    ∀ w ∈ s.evidence h tier, w.1.growth ≠ .unknown := by
  simp only [evidence, List.forall_mem_append]
  refine ⟨⟨⟨⟨?_, ?_⟩, ?_⟩, ?_⟩, ?_⟩
  · unfold loopEvidence
    split <;> simp [Nest.growth_ne_unknown]
  · unfold progressionEvidence
    split <;> simp
  · unfold sortEvidence
    split <;> simp
  · unfold sortBesideLoopEvidence
    split <;> simp
  · unfold recursionEvidence
    cases hworst : worstRecursion? s.recursion with
    | none => simp
    | some worst =>
      obtain ⟨r, -, rfl⟩ := exists_hint_of_worstRecursion? hworst
      cases hhint : r.hint <;> simp [Recursion.Hint.growth]

/-- All of it is constant just if there is nothing but loops with constant factors. -/
theorem evidence_constant_iff (h : s.Showable) (tier : Tier) :
    (∀ w ∈ s.evidence h tier, w.1.growth = .constant) ↔
      s.sorts = [] ∧ s.recursion = [] ∧ s.progresses = false ∧
        ∀ f ∈ s.factors, f = .constant := by
  have hloops : (∀ w ∈ s.loopEvidence h tier, w.1.growth = .constant) ↔
      ∀ f ∈ s.factors, f = .constant := by
    unfold loopEvidence
    split
    · rename_i hnone
      simp [hnone]
    · simp [Nest.growth_eq_constant_iff]
  have hprogression : (∀ w ∈ s.progressionEvidence tier, w.1.growth = .constant) ↔
      s.progresses = false := by
    unfold progressionEvidence
    split <;> simp_all
  have hsort : (∀ w ∈ s.sortEvidence tier, w.1.growth = .constant) ↔ s.sorts = [] := by
    unfold sortEvidence
    split <;> simp_all
  have hbeside : s.sorts = [] →
      ∀ w ∈ s.sortBesideLoopEvidence tier, w.1.growth = .constant := by
    intro hnone
    simp [sortBesideLoopEvidence, hnone]
  have hrecursion : (∀ w ∈ s.recursionEvidence tier, w.1.growth = .constant) ↔
      s.recursion = [] := by
    rw [← worstRecursion?_eq_none_iff]
    unfold recursionEvidence
    cases hworst : worstRecursion? s.recursion with
    | none => simp
    | some worst =>
      obtain ⟨r, -, rfl⟩ := exists_hint_of_worstRecursion? hworst
      cases hhint : r.hint <;> simp [Recursion.Hint.growth]
  simp only [evidence, List.forall_mem_append, hloops, hprogression, hsort, hrecursion]
  constructor
  · rintro ⟨⟨⟨⟨hl, hp⟩, hs⟩, -⟩, hr⟩
    exact ⟨hs, hr, hp, hl⟩
  · rintro ⟨hs, hr, hp, hl⟩
    exact ⟨⟨⟨⟨hl, hp⟩, hs⟩, hbeside hs⟩, hr⟩

theorem candidates_pool_ne_nil (h : s.Showable) (tier : Tier) (notes : List String) :
    (s.pool h tier notes).candidates ≠ [] := by
  rw [pool_eq]
  by_cases hnone : s.evidence h tier = []
  · simp [hnone]
  · simp [hnone]

/-- A property of the constant class and of all that the signals show is one of all
the candidates. -/
theorem forall_mem_candidates_pool {motive : Growth → Prop} (hconstant : motive .constant)
    (h : s.Showable) (tier : Tier) (notes : List String) :
    (∀ c ∈ (s.pool h tier notes).candidates, motive c.growth) ↔
      ∀ w ∈ s.evidence h tier, motive w.1.growth := by
  rw [pool_eq]
  by_cases hnone : s.evidence h tier = []
  · simp [hnone, hconstant]
  · simp [hnone]

theorem growth_ne_unknown_of_mem_candidates (h : s.Showable) (tier : Tier) (notes : List String) :
    ∀ c ∈ (s.pool h tier notes).candidates, c.growth ≠ .unknown :=
  (forall_mem_candidates_pool (motive := (· ≠ .unknown)) (by decide) h tier notes).mpr
    (growth_ne_unknown_of_mem_evidence h tier)

/-- The class of the estimate is known. -/
theorem growth_estimate_ne_unknown (h : s.Showable) (tier : Tier) (notes : List String) :
    (s.estimate h tier notes).time.growth ≠ .unknown :=
  growth_ne_unknown_of_mem_candidates h tier notes _
    (dominant_mem (candidates_pool_ne_nil h tier notes))

/-- The estimate is constant just if nothing but loops with constant factors was seen. -/
theorem growth_estimate_eq_constant_iff (h : s.Showable) (tier : Tier) (notes : List String) :
    (s.estimate h tier notes).time.growth = .constant ↔
      s.sorts = [] ∧ s.recursion = [] ∧ s.progresses = false ∧
        ∀ f ∈ s.factors, f = .constant := by
  rw [← evidence_constant_iff h tier,
    ← forall_mem_candidates_pool (motive := (· = .constant)) rfl h tier notes]
  exact dominant_eq_constant_iff (candidates_pool_ne_nil h tier notes)
    (growth_ne_unknown_of_mem_candidates h tier notes)

end Signals

end BigO
