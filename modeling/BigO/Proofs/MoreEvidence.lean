-- More evidence never lowers an estimate. Whatever signals show is outranked by
-- something that signals with more in them show, and the class of an estimate is the
-- least that none of its evidence outranks. How sure one is of each kind of evidence
-- makes no difference but to the confidence that is told.
import BigO.Proofs.EvidenceTable
import Mathlib.Data.List.Perm.Subperm

namespace BigO

open BigO.Loop (Factor)

/-! ## Nests -/

/-- The rank of a nest. A linear factor counts for two and a logarithm for one, but from
two linear factors on only their number counts, up to three. -/
theorem Nest.rank_growth (factors : List Factor) :
    (Nest.growth factors).rank =
      if 2 ≤ Nest.degree factors then min (Nest.degree factors + 2 : Int) 5
      else 2 * Nest.degree factors + (Nest.hasLogarithm factors).toNat := by
  unfold Nest.growth
  rcases hdegree : Nest.degree factors with _ | _ | _ | d
  · cases Nest.hasLogarithm factors <;> rfl
  · cases Nest.hasLogarithm factors <;> rfl
  · rfl
  · have hcubic : Growth.cubic.rank = 5 := rfl
    have htwo : 2 ≤ d + 1 + 1 + 1 := by omega
    rw [if_pos htwo]
    simp only [hcubic]
    omega

/-- A nest with all the factors of another, in any order, ranks no lower. -/
theorem Nest.rank_growth_mono {a b : List Factor} (h : a.Subperm b) :
    (Nest.growth a).rank ≤ (Nest.growth b).rank := by
  have hdegree : Nest.degree a ≤ Nest.degree b := h.count_le .linear
  have hlog : (Nest.hasLogarithm a).toNat ≤ (Nest.hasLogarithm b).toNat := by
    by_cases ha : Nest.hasLogarithm a = true
    · have hb : Nest.hasLogarithm b = true :=
        List.contains_iff_mem.mpr (h.subset (List.contains_iff_mem.mp ha))
      exact Nat.le_of_eq (by rw [ha, hb])
    · rw [Bool.not_eq_true] at ha
      rw [ha]
      exact Nat.zero_le _
  have hone := Bool.toNat_le (Nest.hasLogarithm a)
  rw [Nest.rank_growth, Nest.rank_growth]
  split <;> split <;> omega

/-! ## Evidence -/

theorem rank_dominant_le_iff {cs : List Candidate} (hne : cs ≠ []) (k : Int) :
    (dominant cs).growth.rank ≤ k ↔ ∀ c ∈ cs, c.growth.rank ≤ k := by
  constructor
  · intro hle c hc
    exact Int.le_trans (rank_le_dominant hc) hle
  · intro hall
    exact hall _ (dominant_mem hne)

/-- Whatever is in the one list is outranked, or equalled, by something in the other. -/
def Outranked (xs ys : List (Candidate × String)) : Prop :=
  ∀ w ∈ xs, ∃ v ∈ ys, w.1.growth.rank ≤ v.1.growth.rank

theorem Outranked.append_left {xs xs' ys : List (Candidate × String)} (h : Outranked xs ys)
    (h' : Outranked xs' ys) : Outranked (xs ++ xs') ys := by
  intro w hw
  rcases List.mem_append.mp hw with hw | hw
  · exact h w hw
  · exact h' w hw

theorem Outranked.trans_subset {xs ys zs : List (Candidate × String)} (h : Outranked xs ys)
    (hsub : ys ⊆ zs) : Outranked xs zs := by
  intro w hw
  obtain ⟨v, hv, hle⟩ := h w hw
  exact ⟨v, hsub hv, hle⟩

namespace Signals

/-- The signals show no more than others: each of their factors is one of the others', in
whatever order, and where they have a progression, a call that sorts or a hint of a
recursive function, so have the others. -/
structure Within (s t : Signals) : Prop where
  factors : s.factors.Subperm t.factors
  progresses : s.progresses = true → t.progresses = true
  sorts : s.sorts ≠ [] → t.sorts ≠ []
  hints : s.recursion.map (·.hint) ⊆ t.recursion.map (·.hint)

theorem Within.refl (s : Signals) : s.Within s where
  factors := .refl _
  progresses := id
  sorts := id
  hints := List.Subset.refl _

/-- From the constant class on, an estimate ranks no higher than all of its evidence. -/
theorem rank_estimate_le_iff {s : Signals} (h : s.Showable) (tier : Tier) (notes : List String)
    {k : Int} (hk : 0 ≤ k) :
    (s.estimate h tier notes).time.growth.rank ≤ k ↔
      ∀ w ∈ s.evidence h tier, w.1.growth.rank ≤ k := by
  rw [← forall_mem_candidates_pool (motive := (·.rank ≤ k)) hk h tier notes]
  exact rank_dominant_le_iff (candidates_pool_ne_nil h tier notes) k

theorem rank_le_estimate {s : Signals} (h : s.Showable) (tier : Tier) (notes : List String)
    {w : Candidate × String} (hw : w ∈ s.evidence h tier) :
    w.1.growth.rank ≤ (s.estimate h tier notes).time.growth.rank :=
  (rank_estimate_le_iff h tier notes
    (Growth.rank_nonneg (growth_estimate_ne_unknown h tier notes))).mp (Int.le_refl _) w hw

section Kinds

variable {s t : Signals} (hst : s.Within t)

include hst

theorem Within.loopEvidence (hs : s.Showable) (ht : t.Showable) (tier tier' : Tier) :
    Outranked (s.loopEvidence hs tier) (t.loopEvidence ht tier') := by
  unfold Signals.loopEvidence
  by_cases hnone : s.factors = []
  · simp [hnone, Outranked]
  · have hsome : t.factors ≠ [] := by
      intro hnil
      have hsub := hst.factors.subset
      rw [hnil, List.subset_nil] at hsub
      exact hnone hsub
    rw [if_neg hnone, if_neg hsome]
    intro w hw
    rw [List.mem_singleton.mp hw]
    exact ⟨_, List.mem_singleton_self _, Nest.rank_growth_mono hst.factors⟩

theorem Within.progressionEvidence (tier tier' : Tier) :
    Outranked (s.progressionEvidence tier) (t.progressionEvidence tier') := by
  unfold Signals.progressionEvidence
  by_cases hs : s.progresses = true
  · rw [if_pos hs, if_pos (hst.progresses hs)]
    intro w hw
    rw [List.mem_singleton.mp hw]
    exact ⟨_, List.mem_singleton_self _, Int.le_refl _⟩
  · simp [hs, Outranked]

/-- A call that sorts outranks whatever sorting shows, beside loops too. -/
theorem Within.sortEvidence (tier tier' : Tier) :
    Outranked (s.sortEvidence tier ++ s.sortBesideLoopEvidence tier) (t.sortEvidence tier') := by
  by_cases hs : s.sorts = []
  · simp [Signals.sortEvidence, Signals.sortBesideLoopEvidence, hs, Outranked]
  · have hsort : t.sortEvidence tier' = [(⟨.linearithmic, tier'.sort⟩, Reason.sort t)] :=
      if_neg (hst.sorts hs)
    have hgrowth : ∀ w ∈ s.sortEvidence tier ++ s.sortBesideLoopEvidence tier,
        w.1.growth = .linearithmic := by
      unfold Signals.sortEvidence Signals.sortBesideLoopEvidence
      rw [if_neg hs]
      split <;> simp
    rw [hsort]
    intro w hw
    exact ⟨_, List.mem_singleton_self _, Int.le_of_eq (congrArg Growth.rank (hgrowth w hw))⟩

theorem Within.recursionEvidence (tier tier' : Tier) :
    Outranked (s.recursionEvidence tier) (t.recursionEvidence tier') := by
  unfold Signals.recursionEvidence
  cases hworst : worstRecursion? s.recursion with
  | none => simp [Outranked]
  | some worst =>
    -- the worst function of the one has its hint among the functions of the other
    obtain ⟨r, hr, rfl⟩ := exists_hint_of_worstRecursion? hworst
    obtain ⟨r', hr', hhint⟩ := List.mem_map.mp (hst.hints (List.mem_map_of_mem hr))
    cases hworst' : worstRecursion? t.recursion with
    | none =>
      rw [worstRecursion?_eq_none_iff.mp hworst'] at hr'
      cases hr'
    | some worst' =>
      have hle := rank_le_worstRecursion? hworst' r' hr'
      rw [hhint] at hle
      intro w hw
      rw [List.mem_singleton.mp hw]
      exact ⟨_, List.mem_singleton_self _, hle⟩

/-- Kind by kind, what the signals show is outranked. -/
theorem Within.evidence (hs : s.Showable) (ht : t.Showable) (tier tier' : Tier) :
    Outranked (s.evidence hs tier) (t.evidence ht tier') := by
  have hloops : Outranked (s.loopEvidence hs tier) (t.evidence ht tier') :=
    (hst.loopEvidence hs ht tier tier').trans_subset fun v hv => by simp [Signals.evidence, hv]
  have hprogression : Outranked (s.progressionEvidence tier) (t.evidence ht tier') :=
    (hst.progressionEvidence tier tier').trans_subset fun v hv => by simp [Signals.evidence, hv]
  have hsort : Outranked (s.sortEvidence tier ++ s.sortBesideLoopEvidence tier)
      (t.evidence ht tier') :=
    (hst.sortEvidence tier tier').trans_subset fun v hv => by simp [Signals.evidence, hv]
  have hrecursion : Outranked (s.recursionEvidence tier) (t.evidence ht tier') :=
    (hst.recursionEvidence tier tier').trans_subset fun v hv => by simp [Signals.evidence, hv]
  have hall : s.evidence hs tier =
      s.loopEvidence hs tier ++ s.progressionEvidence tier ++
        (s.sortEvidence tier ++ s.sortBesideLoopEvidence tier) ++ s.recursionEvidence tier := by
    simp only [Signals.evidence, List.append_assoc]
  rw [hall]
  exact ((hloops.append_left hprogression).append_left hsort).append_left hrecursion

/-- Signals with more in them come to no lower a class, whatever is thought of each kind
of evidence. -/
theorem Within.rank_estimate_le (hs : s.Showable) (ht : t.Showable) (tier tier' : Tier)
    (notes notes' : List String) :
    (s.estimate hs tier notes).time.growth.rank ≤
      (t.estimate ht tier' notes').time.growth.rank := by
  rw [rank_estimate_le_iff hs tier notes
    (Growth.rank_nonneg (growth_estimate_ne_unknown ht tier' notes'))]
  intro w hw
  obtain ⟨v, hv, hle⟩ := hst.evidence hs ht tier tier' w hw
  exact Int.le_trans hle (rank_le_estimate ht tier' notes' hv)

end Kinds

/-! ## Confidence -/

/-- The reasons for what the signals show do not depend on how sure one is of them. -/
theorem map_reason_evidence {s : Signals} (h : s.Showable) (tier tier' : Tier) :
    (s.evidence h tier).map (·.2) = (s.evidence h tier').map (·.2) := by
  have hloops : (s.loopEvidence h tier).map (·.2) = (s.loopEvidence h tier').map (·.2) := by
    unfold Signals.loopEvidence
    split <;> rfl
  have hprogression :
      (s.progressionEvidence tier).map (·.2) = (s.progressionEvidence tier').map (·.2) := by
    unfold Signals.progressionEvidence
    split <;> rfl
  have hsort : (s.sortEvidence tier).map (·.2) = (s.sortEvidence tier').map (·.2) := by
    unfold Signals.sortEvidence
    split <;> rfl
  have hbeside :
      (s.sortBesideLoopEvidence tier).map (·.2) = (s.sortBesideLoopEvidence tier').map (·.2) := by
    unfold Signals.sortBesideLoopEvidence
    split <;> rfl
  have hrecursion :
      (s.recursionEvidence tier).map (·.2) = (s.recursionEvidence tier').map (·.2) := by
    unfold Signals.recursionEvidence
    split <;> rfl
  simp only [Signals.evidence, List.map_append, hloops, hprogression, hsort, hbeside, hrecursion]

theorem why_pool_tier {s : Signals} (h : s.Showable) (tier tier' : Tier) (notes : List String) :
    (s.pool h tier notes).why = (s.pool h tier' notes).why := by
  have hreasons := map_reason_evidence h tier tier'
  have hnone : s.evidence h tier = [] ↔ s.evidence h tier' = [] := by
    rw [← List.map_eq_nil_iff (f := (·.2)), hreasons, List.map_eq_nil_iff]
  rw [pool_eq, pool_eq]
  simp only [hreasons, hnone]

end Signals

/-- The estimates say the same, but for the confidence in it. -/
structure Estimate.SameButConfidence (e f : Estimate) : Prop where
  loops : e.loops = f.loops
  depth : e.depth = f.depth
  tags : e.tags = f.tags
  growth : e.time.growth = f.time.growth
  why : e.why = f.why

namespace Signals

/-- The signals outrank themselves at any tiers, so the class is the same at all of them. -/
theorem sameButConfidence_estimate {s : Signals} (h : s.Showable) (tier tier' : Tier)
    (notes : List String) :
    (s.estimate h tier notes).SameButConfidence (s.estimate h tier' notes) where
  loops := rfl
  depth := rfl
  tags := (tags_pool h tier notes).trans (tags_pool h tier' notes).symm
  growth := Growth.rank_injective (Int.le_antisymm
    ((Within.refl s).rank_estimate_le h h tier tier' notes notes)
    ((Within.refl s).rank_estimate_le h h tier' tier notes notes))
  why := why_pool_tier h tier tier' notes

theorem estimate?_eq_some_iff {s : Signals} {tier : Tier} {notes : List String} {e : Estimate} :
    s.estimate? tier notes = some e ↔ ∃ h : s.Showable, s.estimate h tier notes = e := by
  unfold estimate?
  split
  · rename_i h
    simp [h]
  · rename_i h
    simp [h]

/-! ## The law -/

/-- If all that some signals show is within others, and both give an estimate, then that
of the others ranks no lower, at any tiers and after any remarks. And the same signals
after the same remarks give an estimate at all tiers or at none, and nothing in it
depends on the tier but its confidence. -/
theorem estimates_rise_with_evidence :
    (∀ {s t : Signals} {tier tier' : Tier} {notes notes' : List String} {e f : Estimate},
      s.Within t → s.estimate? tier notes = some e → t.estimate? tier' notes' = some f →
      e.time.growth.rank ≤ f.time.growth.rank) ∧
    ∀ (s : Signals) (tier tier' : Tier) (notes : List String),
      Option.Rel Estimate.SameButConfidence (s.estimate? tier notes) (s.estimate? tier' notes) := by
  refine ⟨?_, ?_⟩
  · intro s t tier tier' notes notes' e f hst he hf
    obtain ⟨hs, rfl⟩ := estimate?_eq_some_iff.mp he
    obtain ⟨ht, rfl⟩ := estimate?_eq_some_iff.mp hf
    exact hst.rank_estimate_le hs ht tier tier' notes notes'
  · intro s tier tier' notes
    unfold estimate?
    split
    · rename_i h
      exact .some (sameButConfidence_estimate h tier tier' notes)
    · exact .none

/-- A progression inside a linear loop, beside a function that calls itself twice. -/
def fewLoops : Signals where
  language := "c"
  loops := 2
  depth := 2
  bounds := ["n", "m"]
  factors := [.linear, .logarithmic]
  progresses := true
  recursion := [⟨"f", 2, .exponential⟩]

/-- The factors in another order and one more of them, a worse function beside one like
that of before, and no loops counted. -/
def moreLoops : Signals where
  language := "java"
  bounds := []
  factors := [.logarithmic, .constant, .linear]
  progresses := true
  sorts := ["qsort(a)"]
  recursion := [⟨"g", 1, .factorial⟩, ⟨"h", 3, .exponential⟩]

theorem fewLoops_within_moreLoops : fewLoops.Within moreLoops where
  factors := by decide
  progresses := by decide
  sorts := by decide
  hints := by decide

theorem estimates_rise_from_fewLoops_to_moreLoops :
    fewLoops.Within moreLoops ∧ ∃ e f, fewLoops.estimate? .structural [] = some e ∧
      moreLoops.estimate? .lexical ["seen"] = some f ∧
      e.time.growth.rank ≤ f.time.growth.rank ∧ e.time.growth ≠ f.time.growth := by
  refine ⟨fewLoops_within_moreLoops, _, _, rfl, rfl, ?_, by decide⟩
  exact estimates_rise_with_evidence.1 fewLoops_within_moreLoops rfl rfl

end Signals

end BigO
