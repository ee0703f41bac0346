-- Snippets are for show. Signals that differ in nothing but the snippets of what they
-- hold come to the same estimate, but for the texts of the two reasons that tell of
-- them; so the length that snippets are cut to decides nothing.
import BigO.Proofs.Assembly
import BigO.Proofs.Preorder
import BigO.Proofs.TreeOrText
import Mathlib.Data.List.Forall2

namespace BigO

open BigO.Grammar BigO.Tree

/-! ## Signals that differ in their snippets -/

/-- The signals are the same but for the snippets of sorts and of library operations,
and there are some in the one just if there are in the other. -/
structure Signals.SameButSnippets (s t : Signals) : Prop where
  rest : t = { s with sorts := t.sorts, libraryCalls := t.libraryCalls }
  sorts : s.sorts = [] ↔ t.sorts = []
  libraryCalls : s.libraryCalls = [] ↔ t.libraryCalls = []

/-- The reasons are the same, or both tell of calls that sort, or both of library
operations. -/
inductive Reason.SameButSnippets : String → String → Prop
  | same (reason : String) : SameButSnippets reason reason
  | sort {s t : Signals} : s.language = t.language →
      SameButSnippets (Reason.sort s) (Reason.sort t)
  | libraryCalls (ops ops' : List String) :
      SameButSnippets (Reason.libraryCalls ops) (Reason.libraryCalls ops')

theorem Reason.sameButSnippets_refl (reasons : List String) :
    List.Forall₂ Reason.SameButSnippets reasons reasons :=
  List.forall₂_same.mpr fun reason _ => .same reason

/-- The same candidate for the same reason, but for the snippets. -/
def SameEvidence (w v : Candidate × String) : Prop :=
  w.1 = v.1 ∧ Reason.SameButSnippets w.2 v.2

theorem sameEvidence_refl (evidence : List (Candidate × String)) :
    List.Forall₂ SameEvidence evidence evidence :=
  List.forall₂_same.mpr fun w _ => ⟨rfl, .same w.2⟩

namespace Signals

variable {s t : Signals}

/-- Row by row, the evidence is the same but for the snippets. -/
theorem SameButSnippets.evidence (h : s.SameButSnippets t) (hs : s.Showable) (ht : t.Showable)
    (tier : Tier) : List.Forall₂ SameEvidence (s.evidence hs tier) (t.evidence ht tier) := by
  obtain ⟨hrest, hsorts, -⟩ := h
  have hloops : s.loopEvidence hs tier = t.loopEvidence ht tier := by
    generalize t.sorts = sorts, t.libraryCalls = ops at hrest
    subst hrest
    rfl
  have hprogression : s.progressionEvidence tier = t.progressionEvidence tier := by
    rw [progressionEvidence, progressionEvidence, hrest]
  have hsort : List.Forall₂ SameEvidence (s.sortEvidence tier) (t.sortEvidence tier) := by
    unfold sortEvidence
    by_cases hnone : s.sorts = []
    · rw [if_pos hnone, if_pos (hsorts.mp hnone)]
      exact .nil
    · rw [if_neg hnone, if_neg fun hnil => hnone (hsorts.mpr hnil)]
      exact .cons ⟨rfl, .sort (by rw [hrest])⟩ .nil
  have hbeside : s.sortBesideLoopEvidence tier = t.sortBesideLoopEvidence tier := by
    have hloop : t.loops = s.loops := by rw [hrest]
    unfold sortBesideLoopEvidence
    simp only [ne_eq, hsorts, hloop]
  have hrecursion : s.recursionEvidence tier = t.recursionEvidence tier := by
    rw [recursionEvidence, recursionEvidence, hrest]
  unfold Signals.evidence
  rw [hloops, hprogression, hbeside, hrecursion]
  refine List.rel_append (List.rel_append (List.rel_append ?_ hsort) ?_) ?_
  · exact sameEvidence_refl _
  · exact sameEvidence_refl _
  · exact sameEvidence_refl _

end Signals

/-! ## Estimates that differ in their snippets -/

/-- The estimates are the same but for the texts of the reasons that tell of snippets. -/
structure Estimate.SameButSnippets (e f : Estimate) : Prop where
  loops : e.loops = f.loops
  depth : e.depth = f.depth
  tags : e.tags = f.tags
  time : e.time = f.time
  why : List.Forall₂ Reason.SameButSnippets e.why f.why

theorem Estimate.SameButSnippets.refl (e : Estimate) : e.SameButSnippets e :=
  ⟨rfl, rfl, rfl, rfl, Reason.sameButSnippets_refl e.why⟩

theorem Estimate.SameButSnippets.withNotes {e f : Estimate} (h : e.SameButSnippets f)
    (notes : List String) : (e.withNotes notes).SameButSnippets (f.withNotes notes) where
  loops := h.loops
  depth := h.depth
  tags := h.tags
  time := h.time
  why := List.rel_append (Reason.sameButSnippets_refl notes) h.why

/-- Signals that differ in their snippets give estimates that do no more. -/
theorem Signals.SameButSnippets.estimate {s t : Signals} (h : s.SameButSnippets t)
    (hs : s.Showable) (ht : t.Showable) (tier : Tier) (notes : List String) :
    (s.estimate hs tier notes).SameButSnippets (t.estimate ht tier notes) := by
  have hevidence := h.evidence hs ht tier
  have hcandidates : (s.evidence hs tier).map (·.1) = (t.evidence ht tier).map (·.1) := by
    rw [← List.forall₂_eq_eq_eq, List.forall₂_map_left_iff, List.forall₂_map_right_iff]
    exact hevidence.imp fun _ _ hw => hw.1
  have hreasons : List.Forall₂ Reason.SameButSnippets
      ((s.evidence hs tier).map (·.2)) ((t.evidence ht tier).map (·.2)) := by
    rw [List.forall₂_map_left_iff, List.forall₂_map_right_iff]
    exact hevidence.imp fun _ _ hw => hw.2
  have hnone : s.evidence hs tier = [] ↔ t.evidence ht tier = [] := by
    rw [← List.length_eq_zero_iff, ← List.length_eq_zero_iff, hevidence.length_eq]
  have hremark : List.Forall₂ Reason.SameButSnippets s.libraryRemark t.libraryRemark := by
    unfold Signals.libraryRemark
    by_cases hops : s.libraryCalls = []
    · rw [if_pos hops, if_pos (h.libraryCalls.mp hops)]
      exact .nil
    · rw [if_neg hops, if_neg fun hnil => hops (h.libraryCalls.mpr hnil)]
      exact .cons (.libraryCalls _ _) .nil
  obtain ⟨hrest, hsorts, hops⟩ := h
  refine ⟨?_, ?_, ?_, ?_, ?_⟩
  · show s.loops = t.loops
    rw [hrest]
  · show s.depth = t.depth
    rw [hrest]
  · show (s.pool hs tier notes).tags = (t.pool ht tier notes).tags
    have hrecursion : t.recursion = s.recursion := by rw [hrest]
    simp only [Signals.tags_pool, Signals.sortTag, Signals.recursionTag, Signals.libraryTag, hsorts,
      hops, hrecursion]
  · show dominant (s.pool hs tier notes).candidates = dominant (t.pool ht tier notes).candidates
    simp only [Signals.pool_eq, hnone, hcandidates]
  · show List.Forall₂ _ (s.pool hs tier notes).why (t.pool ht tier notes).why
    simp only [Signals.pool_eq, hnone]
    refine List.rel_append (List.rel_append (List.rel_append ?_ hreasons) hremark) ?_
    · exact Reason.sameButSnippets_refl _
    · exact Reason.sameButSnippets_refl _

/-! ## Outlines cut at two lengths -/

/-- Each of some nodes leaves a snippet, whatever is cut from it. -/
theorem snippets_eq_nil_iff (limit : Int) (ns : List Node) :
    (ns.map (snippet limit)).eraseDups = [] ↔ ns = [] := by
  cases ns with
  | nil => simp
  | cons n ns => simp [List.eraseDups_cons]

/-- The signals of a tree at two lengths of snippets. What is cut may come to one text,
even to none, but there is a snippet of it. -/
theorem sameButSnippets_outline (lang : Language) (limit limit' : Int) (root : Node) :
    (Tree.outline lang limit root).signals.SameButSnippets
      (Tree.outline lang limit' root).signals := by
  have hloops : (Tree.outline lang limit' root).loops = (Tree.outline lang limit root).loops := by
    rw [loops_outline, loops_outline]
  have hrecursion :
      (Tree.outline lang limit' root).recursion = (Tree.outline lang limit root).recursion := by
    rw [recursion_outline, recursion_outline]
  refine ⟨?_, ?_, ?_⟩
  · simp only [Outline.signals, language_outline, hloops, hrecursion]
  · show (Tree.outline lang limit root).sorts = [] ↔ (Tree.outline lang limit' root).sorts = []
    simp only [sorts_outline, snippets_eq_nil_iff]
  · show (Tree.outline lang limit root).libraryCalls = [] ↔
      (Tree.outline lang limit' root).libraryCalls = []
    simp only [libraryCalls_outline, snippets_eq_nil_iff]

/-! ## The usual analyzer at two lengths -/

section Lengths

variable {settings : Settings} {p : Provider} {lang : Language} {text : String}

theorem usesTree_unique {root root' : Node} (h : UsesTree settings p lang text root)
    (h' : UsesTree settings p lang text root') : root = root' := by
  obtain ⟨hp, hparse, -⟩ := h
  obtain ⟨hp', hparse', -⟩ := h'
  cases hp.symm.trans hp'
  cases hparse.symm.trans hparse'
  rfl

theorem givesUp_unique {m m' : String} (h : GivesUp settings p lang text m)
    (h' : GivesUp settings p lang text m') : m = m' := by
  cases h <;> cases h' <;> grind [Fault.says_iff]

/-- The usual analyzer has one estimate to give. -/
theorem gives_unique {e f : Estimate} (he : Gives settings p lang text e)
    (hf : Gives settings p lang text f) : e = f := by
  cases he with
  | tree huse =>
    cases hf with
    | tree huse' => rw [usesTree_unique huse huse']
    | text hgive => exact absurd hgive (not_givesUp_of_usesTree huse _)
  | text hgive =>
    cases hf with
    | tree huse => exact absurd hgive (not_givesUp_of_usesTree huse _)
    | text hgive' => rw [givesUp_unique hgive hgive']

/-- Whether a tree is used does not depend on the length of snippets. -/
theorem UsesTree.atLength {root : Node} (h : UsesTree settings p lang text root) (limit : Int) :
    UsesTree { settings with snippetLength := limit } p lang text root := by
  obtain ⟨hp, hparse, hgood⟩ := h
  exact .intro hp hparse hgood

theorem GivesUp.atLength {m : String} (h : GivesUp settings p lang text m) (limit : Int) :
    GivesUp { settings with snippetLength := limit } p lang text m := by
  cases h with
  | missing hp => exact .missing hp
  | grammar hp hsays => exact .grammar hp hsays
  | reported hp hparse => exact .reported hp hparse
  | parse hp hparse hother hsays => exact .parse hp hparse hother hsays
  | treeErrors hp hparse herror hfall => exact .treeErrors hp hparse herror hfall

theorem Gives.atLength {e : Estimate} (h : Gives settings p lang text e) (limit : Int) :
    ∃ f, Gives { settings with snippetLength := limit } p lang text f ∧ e.SameButSnippets f := by
  cases h with
  | tree huse =>
    refine ⟨_, .tree (huse.atLength limit), ?_⟩
    exact (sameButSnippets_outline lang _ limit _).estimate _ _ _ _
  | text hgive => exact ⟨_, .text (hgive.atLength limit), .refl _⟩

end Lengths

/-- Two usual analyzers whose settings differ in the length of snippets, after the same
calls: their estimates for a source have the same loops, depth, tags, class and
confidence, and as many reasons. Reason by reason they say the same, but for what the
one on calls that sort and the one on library operations tell of snippets. -/
theorem run_at_two_lengths (settings : Settings) (limit : Int) (p : Provider)
    (earlier : List (Option String × Option String)) (source tag : Option String) :
    let run := fun settings' : Settings =>
      (((Analyzer.standard settings' { provider := p }).afterCalls earlier).run source tag).1
    let e := run settings
    let f := run { settings with snippetLength := limit }
    e.loops = f.loops ∧ e.depth = f.depth ∧ e.tags = f.tags ∧ e.time = f.time ∧
      e.why.length = f.why.length ∧ List.Forall₂ Reason.SameButSnippets e.why f.why := by
  intro run e f
  have hgives : ∀ settings', ∃ d, Gives settings' p (Language.ofTag tag) (source.getD "") d ∧
      run settings' = d.withNotes (tagNotes tag) := by
    intro settings'
    obtain ⟨⟨d, hd, hrun⟩, -⟩ := run_of_isUsual
      (isUsual_afterCalls (isUsual_standard settings' p) earlier) source tag
    exact ⟨d, hd, hrun tag rfl⟩
  obtain ⟨d, hd, he⟩ := hgives settings
  obtain ⟨d', hd', hf⟩ := hgives { settings with snippetLength := limit }
  have hsame : e.SameButSnippets f := by
    obtain ⟨d'', hd'', hsame⟩ := hd.atLength limit
    rw [gives_unique hd'' hd'] at hsame
    show (run settings).SameButSnippets (run { settings with snippetLength := limit })
    rw [he, hf]
    exact hsame.withNotes (tagNotes tag)
  exact ⟨hsame.loops, hsame.depth, hsame.tags, hsame.time, hsame.why.length_eq, hsame.why⟩

end BigO
