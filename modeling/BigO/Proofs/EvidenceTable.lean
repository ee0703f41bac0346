-- An estimate, read off a table: one row for each kind of evidence, with what makes
-- it count, its candidate and its reason. The rows that count give the candidates and
-- the reasons in their order, and the first candidate of the highest rank is the answer.
import BigO.Proofs.Assembly
import Mathlib.Data.List.Induction

namespace BigO

/-! ## The first of the greatest -/

/-- The candidate is in the list, all before it rank below it, and none after it
ranks above it. -/
def IsFirstGreatest (cs : List Candidate) (c : Candidate) : Prop :=
  ∃ before after, cs = before ++ c :: after ∧
    (∀ b ∈ before, b.growth.rank < c.growth.rank) ∧
    ∀ a ∈ after, a.growth.rank ≤ c.growth.rank

theorem IsFirstGreatest.rank_le {cs : List Candidate} {w c : Candidate}
    (h : IsFirstGreatest cs w) (hc : c ∈ cs) : c.growth.rank ≤ w.growth.rank := by
  obtain ⟨before, after, rfl, hbefore, hafter⟩ := h
  rcases List.mem_append.mp hc with hc | hc
  · exact Int.le_of_lt (hbefore c hc)
  · rcases List.mem_cons.mp hc with rfl | hc
    · exact Int.le_refl _
    · exact hafter c hc

/-- One more candidate: it is the first of the greatest only if it ranks above the one
that was. -/
theorem IsFirstGreatest.snoc {cs : List Candidate} {w : Candidate} (h : IsFirstGreatest cs w)
    (c : Candidate) : IsFirstGreatest (cs ++ [c]) (w.better c) := by
  have hall : ∀ b ∈ cs, b.growth.rank ≤ w.growth.rank := fun b hb => h.rank_le hb
  unfold Candidate.better
  split
  · rename_i hlt
    refine ⟨cs, [], rfl, ?_, by simp⟩
    intro b hb
    exact Int.lt_of_le_of_lt (hall b hb) hlt
  · rename_i hle
    obtain ⟨before, after, rfl, hbefore, hafter⟩ := h
    refine ⟨before, after ++ [c], by simp, hbefore, ?_⟩
    intro a ha
    rcases List.mem_append.mp ha with ha | ha
    · exact hafter a ha
    · rw [List.mem_singleton.mp ha]
      exact Int.not_lt.mp hle

theorem dominant_snoc {cs : List Candidate} (hne : cs ≠ []) (c : Candidate) :
    dominant (cs ++ [c]) = (dominant cs).better c := by
  cases cs with
  | nil => exact absurd rfl hne
  | cons b cs => simp [dominant]

/-- The dominant candidate is the first of the greatest. -/
theorem dominant_isFirstGreatest {cs : List Candidate} (hne : cs ≠ []) :
    IsFirstGreatest cs (dominant cs) := by
  induction cs using List.reverseRecOn with
  | nil => exact absurd rfl hne
  | append_singleton cs c ih =>
    by_cases hcs : cs = []
    · subst hcs
      exact ⟨[], [], rfl, by simp, by simp⟩
    · rw [dominant_snoc hcs]
      exact (ih hcs).snoc c

/-! ## The worst of the recursive functions -/

/-- The class of the worst hint among recursive functions. -/
def worstGrowth (signals : List Recursion.Signal) : Growth :=
  if ∃ s ∈ signals, s.hint = .factorial then .factorial
  else if ∃ s ∈ signals, s.hint = .exponential then .exponential
  else .linear

theorem Growth.rank_le_worse (a b : Growth) :
    a.rank ≤ (a.worse b).rank ∧ b.rank ≤ (a.worse b).rank := by
  unfold Growth.worse
  split <;> omega

theorem rank_le_worstRecursion? {signals : List Recursion.Signal} {worst : Growth}
    (h : worstRecursion? signals = some worst) :
    ∀ s ∈ signals, s.hint.growth.rank ≤ worst.rank := by
  cases signals with
  | nil => cases h
  | cons s ss =>
    simp only [worstRecursion?, Option.some.injEq] at h
    subst h
    intro r hr
    refine rank_le_foldl Growth.rank Growth.rank_le_worse _ _ _ ?_
    rw [← List.map_cons (f := fun r : Recursion.Signal => r.hint.growth)]
    exact List.mem_map_of_mem hr

/-- Where there are recursive functions, the worst class is that of the worst hint. -/
theorem worstRecursion?_eq {signals : List Recursion.Signal} (hne : signals ≠ []) :
    worstRecursion? signals = some (worstGrowth signals) := by
  obtain ⟨worst, hworst⟩ : ∃ worst, worstRecursion? signals = some worst := by
    rw [← Option.ne_none_iff_exists']
    exact fun hnone => hne (worstRecursion?_eq_none_iff.mp hnone)
  obtain ⟨r, hr, rfl⟩ := exists_hint_of_worstRecursion? hworst
  have hle := rank_le_worstRecursion? hworst
  rw [hworst, Option.some.injEq]
  -- a hint above that of `r` would be one that its rank bounds
  have habove : ∀ {hint : Recursion.Hint}, r.hint.growth.rank < hint.growth.rank →
      ¬ ∃ s ∈ signals, s.hint = hint := by
    rintro hint hlt ⟨s, hs, rfl⟩
    exact absurd (hle s hs) (Int.not_le.mpr hlt)
  unfold worstGrowth
  cases hhint : r.hint with
  | factorial => rw [if_pos ⟨r, hr, hhint⟩]; rfl
  | exponential =>
    rw [if_neg (habove (by rw [hhint]; decide)), if_pos ⟨r, hr, hhint⟩]
    rfl
  | linear =>
    rw [if_neg (habove (by rw [hhint]; decide)), if_neg (habove (by rw [hhint]; decide))]
    rfl

/-! ## The table -/

/-- A kind of evidence: whether it is there, the candidate it adds, and the reason. -/
structure EvidenceRow where
  fires : Bool
  candidate : Candidate
  reason : String
deriving DecidableEq

namespace Signals

variable (s : Signals)

/-- The kinds of evidence of a class, in the order they count. -/
def table (h : s.Showable) (tier : Tier) : List EvidenceRow := [
  { fires := s.factors ≠ []
    candidate := ⟨Nest.growth s.factors,
      if s.factors.length = 1 then tier.oneLoop else tier.nest⟩
    reason := s.loopReason h },
  { fires := s.progresses
    candidate := ⟨.logarithmic, tier.progression⟩
    reason := Reason.progression },
  { fires := s.sorts ≠ []
    candidate := ⟨.linearithmic, tier.sort⟩
    reason := Reason.sort s },
  { fires := s.sorts ≠ [] ∧ 0 < s.loops
    candidate := ⟨.linearithmic, tier.sortBesideLoop⟩
    reason := Reason.sortBesideLoop },
  { fires := s.recursion ≠ []
    candidate := ⟨worstGrowth s.recursion,
      if worstGrowth s.recursion = .linear then tier.straightRecursion
      else tier.branchingRecursion⟩
    reason := Reason.recursion s.recursion (worstGrowth s.recursion) }]

/-- The rows that count. -/
def fired (h : s.Showable) (tier : Tier) : List EvidenceRow :=
  (s.table h tier).filter (·.fires)

/-- The tags, each with whether there is what it stands for. -/
def tagTable : List (String × Bool) := [
  ("sort", s.sorts ≠ []), ("recursion", s.recursion ≠ []), ("library-ops", s.libraryCalls ≠ [])]

variable {s}

theorem recursionEvidence_eq (tier : Tier) :
    s.recursionEvidence tier = if s.recursion = [] then [] else
      [(⟨worstGrowth s.recursion,
        if worstGrowth s.recursion = .linear then tier.straightRecursion
        else tier.branchingRecursion⟩,
        Reason.recursion s.recursion (worstGrowth s.recursion))] := by
  unfold recursionEvidence
  by_cases hnone : s.recursion = []
  · rw [worstRecursion?_eq_none_iff.mpr hnone, if_pos hnone]
  · rw [worstRecursion?_eq hnone, if_neg hnone]

/-- The evidence is what the rows that count give. -/
theorem evidence_eq_fired (h : s.Showable) (tier : Tier) :
    s.evidence h tier = (s.fired h tier).map fun row => (row.candidate, row.reason) := by
  have hrow : ∀ (p : Prop) [Decidable p] (row : EvidenceRow) (rows : List EvidenceRow),
      row.fires = decide p →
      ((row :: rows).filter (·.fires)).map (fun r => (r.candidate, r.reason)) =
        (if p then [(row.candidate, row.reason)] else []) ++
          (rows.filter (·.fires)).map fun r => (r.candidate, r.reason) := by
    intro p _ row rows hfires
    by_cases hp : p <;> simp [hfires, hp]
  unfold fired table
  rw [hrow (s.factors ≠ []) _ _ rfl, hrow (s.progresses = true) _ _ (by simp),
    hrow (s.sorts ≠ []) _ _ rfl, hrow (s.sorts ≠ [] ∧ 0 < s.loops) _ _ rfl,
    hrow (s.recursion ≠ []) _ _ rfl]
  unfold evidence loopEvidence progressionEvidence sortEvidence sortBesideLoopEvidence
  rw [recursionEvidence_eq]
  simp only [ne_eq, ite_not, List.filter_nil, List.map_nil, List.append_nil, List.append_assoc]
  rfl

theorem tags_eq_tagTable :
    s.sortTag ++ s.recursionTag ++ s.libraryTag = (s.tagTable.filter (·.2)).map (·.1) := by
  unfold sortTag recursionTag libraryTag tagTable
  by_cases hsort : s.sorts = [] <;> by_cases hrec : s.recursion = [] <;>
    by_cases hlib : s.libraryCalls = [] <;> simp [hsort, hrec, hlib]

/-- The tags of an estimate are those that apply. -/
theorem mem_tags_estimate_iff (h : s.Showable) (tier : Tier) (notes : List String)
    (name : String) :
    name ∈ (s.estimate h tier notes).tags ↔ (name, true) ∈ s.tagTable := by
  have htags : (s.estimate h tier notes).tags = (s.tagTable.filter (·.2)).map (·.1) :=
    (tags_pool h tier notes).trans tags_eq_tagTable
  rw [htags]
  simp

/-! ## The law -/

/-- Signals whose lone loop, if they have one, has a bound to show give an estimate.
It has their loops and their depth; of the candidates of the rows that count, or the
constant one if none does, it has the first of the highest rank; its reasons are those
of the rows after the preamble, then the remark on library operations, and the remark
that nothing was seen just if no row counts; and its tags are those that apply. -/
theorem estimate_by_table (h : s.Showable) (tier : Tier) (preamble : List String) :
    ∃ e, s.estimate? tier preamble = some e ∧
      e.loops = s.loops ∧ e.depth = s.depth ∧
      IsFirstGreatest
        (if s.fired h tier = [] then [⟨.constant, tier.nothing⟩]
          else (s.fired h tier).map (·.candidate)) e.time ∧
      e.why = preamble ++ (s.fired h tier).map (·.reason) ++
        (if s.libraryCalls = [] then [] else [Reason.libraryCalls s.libraryCalls]) ++
        (if s.fired h tier = [] then [Reason.nothing] else []) ∧
      e.tags = (s.tagTable.filter (·.2)).map (·.1) := by
  have hcandidates : (s.pool h tier preamble).candidates =
      if s.fired h tier = [] then [⟨.constant, tier.nothing⟩]
      else (s.fired h tier).map (·.candidate) := by
    rw [pool_eq]
    simp only [evidence_eq_fired, List.map_eq_nil_iff, List.map_map]
    rfl
  refine ⟨s.estimate h tier preamble, dif_pos h, rfl, rfl, ?_, ?_, ?_⟩
  · rw [← hcandidates]
    exact dominant_isFirstGreatest (candidates_pool_ne_nil h tier preamble)
  · show (s.pool h tier preamble).why = _
    rw [pool_eq]
    simp only [evidence_eq_fired, List.map_eq_nil_iff, List.map_map]
    rfl
  · rw [← tags_eq_tagTable]
    exact tags_pool h tier preamble

/-- Signals of every kind: the loops, the sort and the sort beside loops all come to the
same class. -/
def ofEveryKind : Signals where
  language := "python"
  loops := 3
  depth := 2
  bounds := ["n", "log(n)"]
  factors := [.linear, .logarithmic]
  progresses := true
  sorts := ["xs.sort()"]
  libraryCalls := ["set(xs)"]
  recursion := [⟨"f", 1, .linear⟩]

theorem showable_ofEveryKind : ofEveryKind.Showable := by decide

/-- All five rows count, and the first of the three that tie is the answer. -/
theorem estimate_by_table_ofEveryKind :
    ofEveryKind.Showable ∧ ∃ e, ofEveryKind.estimate? .structural ["seen"] = some e ∧
      e.loops = 3 ∧ e.depth = 2 ∧
      IsFirstGreatest [⟨.linearithmic, Tier.structural.nest⟩,
        ⟨.logarithmic, Tier.structural.progression⟩, ⟨.linearithmic, Tier.structural.sort⟩,
        ⟨.linearithmic, Tier.structural.sortBesideLoop⟩,
        ⟨.linear, Tier.structural.straightRecursion⟩] e.time ∧
      e.why.length = 7 ∧ e.tags = ["sort", "recursion", "library-ops"] := by
  obtain ⟨e, he, hloops, hdepth, htime, hwhy, htags⟩ :=
    estimate_by_table showable_ofEveryKind .structural ["seen"]
  refine ⟨showable_ofEveryKind, e, he, hloops, hdepth, htime, ?_, ?_⟩
  · rw [hwhy]
    decide
  · rw [htags]
    decide

end Signals

end BigO
