-- Every answer is well formed, whatever the source, the tag, the settings and the
-- parsers are: it has a class and a reason, its depth fits its loops, its tags come in
-- order, and it is constant only where nothing was seen that grows.
import BigO.Proofs.Assembly
import BigO.Proofs.DeepestNest
import BigO.Proofs.TreeOrText

namespace BigO

open BigO.Grammar BigO.Tree

/-! ## Signals that fit together -/

/-- The chains are as long as the nest is deep, and it is no deeper than there are loops. -/
structure Signals.Consistent (s : Signals) : Prop where
  bounds : (s.bounds.length : Int) = s.depth
  factors : (s.factors.length : Int) = s.depth
  depth_le : s.depth ≤ s.loops
  depth_eq_zero : s.depth = 0 ↔ s.loops = 0

theorem Signals.Consistent.showable {s : Signals} (h : s.Consistent) : s.Showable :=
  Signals.showable_of_length_eq (Int.ofNat_inj.mp (h.bounds.trans h.factors.symm))

/-! ## The text -/

namespace Loop

/-- What holds of a reader between lines: the chain is as long as the nest is deep, no
stack was higher, and each loop has made it deeper by one at most. -/
structure Reader.Tallied (r : Reader) : Prop where
  chain : r.nesting.chain.length = r.nesting.depth
  stack : r.stack.length ≤ r.nesting.depth
  depth_le : r.nesting.depth ≤ r.nesting.loops
  depth_pos : 0 < r.nesting.loops → 0 < r.nesting.depth

theorem tallied_enter (lang : Language) {r : Reader} (h : r.Tallied) (line : List Char)
    (level : Nat) : (r.enter lang line level).Tallied := by
  unfold Reader.enter
  by_cases hopen : lang.opensLoop line = true
  · obtain ⟨hchain, hstack, hle, -⟩ := h
    rw [if_pos hopen]
    refine ⟨?_, ?_, ?_, ?_⟩
    · simp only [Nesting.record]
      split
      · simp only [List.length_reverse, List.length_cons] at *
        omega
      · simp only [List.length_cons] at *
        omega
    · simp only [Nesting.record]
      omega
    · simp only [Nesting.record, List.length_cons]
      omega
    · intro _
      simp only [Nesting.record, List.length_cons]
      omega
  · rw [if_neg hopen]
    exact h

/-- Loops that end leave the stack lower, and the rest as it is. -/
theorem tallied_drop {r : Reader} (h : r.Tallied) (ended : OpenLoop → Bool) :
    { r with stack := r.stack.dropWhile ended }.Tallied where
  chain := h.chain
  stack := Nat.le_trans (List.dropWhile_sublist ended).length_le h.stack
  depth_le := h.depth_le
  depth_pos := h.depth_pos

theorem tallied_braces {r : Reader} (h : r.Tallied) (braces : Nat) :
    { r with braces := braces }.Tallied :=
  ⟨h.chain, h.stack, h.depth_le, h.depth_pos⟩

theorem tallied_step {lang : Language} {r : Reader} (h : r.Tallied) (line : List Char) :
    (r.step lang line).Tallied := by
  unfold Reader.step
  split
  · exact h
  · split
    · unfold Reader.braceLine
      exact tallied_braces (tallied_enter lang (tallied_braces (tallied_drop h _) _) _ _) _
    · unfold Reader.indentLine
      exact tallied_enter lang (tallied_drop h _) _ _

theorem tallied_foldl {lang : Language} (ls : List (List Char)) {r : Reader} (h : r.Tallied) :
    (ls.foldl (Reader.step lang) r).Tallied := by
  induction ls generalizing r with
  | nil => exact h
  | cons line ls ih => exact ih (tallied_step h line)

end Loop

theorem consistent_lexical (lang : Language) (source : String) :
    (Lexical.signals lang source).Consistent := by
  have h : (((Text.lines (lang.withoutComments source.toList)).foldl
      (Loop.Reader.step lang) {}) : Loop.Reader).Tallied :=
    Loop.tallied_foldl _ ⟨rfl, Nat.le_refl 0, Nat.le_refl 0, id⟩
  obtain ⟨hchain, -, hle, hpos⟩ := h
  refine ⟨?_, ?_, ?_, ?_⟩
  · simp only [Lexical.signals, Lexical.strippedSignals, Loop.nesting, List.length_map, hchain]
  · simp only [Lexical.signals, Lexical.strippedSignals, Loop.nesting, List.length_map, hchain]
  · simp only [Lexical.signals, Lexical.strippedSignals, Loop.nesting]
    omega
  · simp only [Lexical.signals, Lexical.strippedSignals, Loop.nesting]
    omega

/-! ## The tree -/

theorem consistent_outline (lang : Language) (limit : Int) (root : Node) :
    (Tree.outline lang limit root).signals.Consistent := by
  have hcount := countsUp_outline lang limit root
  have hgreatest := hcount.greatest
  rw [← loops_outline_eq_located lang root limit] at hgreatest
  have hlength : (Tree.outline lang limit root).loops.length = (locatedLoops lang root).length := by
    rw [loops_outline_eq_located, List.length_map]
  have hle := hcount.length_le
  have hzero := hcount.eq_zero_iff
  rw [← List.length_eq_zero_iff] at hzero
  refine ⟨?_, ?_, ?_, ?_⟩
  · simp only [Outline.signals, List.length_map, hgreatest]
  · simp only [Outline.signals, List.length_map, hgreatest]
  · simp only [Outline.signals]
    omega
  · simp only [Outline.signals]
    omega

/-! ## Answers -/

/-- An answer is made from signals: a lone loop among them has a bound to show, and the
answer is their estimate, but for remarks before its reasons. -/
def Estimate.MadeFrom (s : Signals) (tier : Tier) (e : Estimate) : Prop :=
  ∃ remarks e₀ notes, s.estimate? tier remarks = some e₀ ∧ e = e₀.withNotes notes

/-- What an answer from some signals always shows. The tags come in one order, each of
them at most once. -/
structure Estimate.WellFormed (s : Signals) (e : Estimate) : Prop where
  known : e.time.growth ≠ .unknown
  explained : e.why ≠ []
  depth_nonneg : 0 ≤ e.depth
  depth_le : e.depth ≤ e.loops
  depth_eq_zero : e.depth = 0 ↔ e.loops = 0
  tags : e.tags.Sublist ["sort", "recursion", "library-ops"]
  constant_iff : e.time.growth = .constant ↔
    s.sorts = [] ∧ s.recursion = [] ∧ s.progresses = false ∧ ∀ f ∈ s.factors, f = .constant

theorem madeFrom_estimate {s : Signals} (h : s.Showable) (tier : Tier) (remarks : List String) :
    (s.estimate h tier remarks).MadeFrom s tier :=
  ⟨remarks, s.estimate h tier remarks, [], dif_pos h, rfl⟩

theorem Estimate.MadeFrom.withNotes {s : Signals} {tier : Tier} {e : Estimate}
    (h : e.MadeFrom s tier) (notes : List String) : (e.withNotes notes).MadeFrom s tier := by
  obtain ⟨remarks, e₀, before, hsome, rfl⟩ := h
  refine ⟨remarks, e₀, notes ++ before, hsome, ?_⟩
  simp [Estimate.withNotes]

theorem tags_pool_sublist {s : Signals} (h : s.Showable) (tier : Tier) (notes : List String) :
    (s.pool h tier notes).tags.Sublist ["sort", "recursion", "library-ops"] := by
  rw [Signals.tags_pool]
  exact (Signals.sortTag_sublist.append Signals.recursionTag_sublist).append
    Signals.libraryTag_sublist

/-- An answer from signals that fit together is well formed. -/
theorem wellFormed_of_madeFrom {s : Signals} {tier : Tier} {e : Estimate} (hs : s.Consistent)
    (he : e.MadeFrom s tier) : e.WellFormed s := by
  obtain ⟨remarks, e₀, notes, hsome, rfl⟩ := he
  unfold Signals.estimate? at hsome
  rw [dif_pos hs.showable, Option.some.injEq] at hsome
  subst hsome
  have hdepth : 0 ≤ s.depth := by
    have := hs.factors
    omega
  exact {
    known := Signals.growth_estimate_ne_unknown hs.showable tier remarks
    explained := fun hnil => Signals.why_pool_ne_nil hs.showable tier remarks
      (List.append_eq_nil_iff.mp hnil).2
    depth_nonneg := hdepth
    depth_le := hs.depth_le
    depth_eq_zero := hs.depth_eq_zero
    tags := tags_pool_sublist hs.showable tier remarks
    constant_iff := Signals.growth_estimate_eq_constant_iff hs.showable tier remarks }

/-- Without library operations among the signals there is no tag for them. -/
theorem tags_of_madeFrom {s : Signals} {tier : Tier} {e : Estimate} (he : e.MadeFrom s tier)
    (hs : s.libraryCalls = []) : "library-ops" ∉ e.tags := by
  obtain ⟨remarks, e₀, notes, hsome, rfl⟩ := he
  unfold Signals.estimate? at hsome
  split at hsome
  · rename_i h
    rw [Option.some.injEq] at hsome
    subst hsome
    have hnone : s.libraryTag = [] := if_pos hs
    have hsub : (s.pool h tier remarks).tags.Sublist ["sort", "recursion"] := by
      rw [Signals.tags_pool, hnone, List.append_nil]
      exact Signals.sortTag_sublist.append Signals.recursionTag_sublist
    exact fun hmem => absurd (hsub.subset hmem) (by decide)
  · cases hsome

/-! ## The law -/

/-- The signals that the usual analyzer goes by: those of the tree that is used, or
those of the text where no tree is. -/
inductive GoesBy (settings : Settings) (p : Provider) (lang : Language) (text : String) :
    Signals → Tier → Prop
  | tree {root : Node} :
      UsesTree settings p lang text root →
      GoesBy settings p lang text
        (Tree.outline lang settings.snippetLength root).signals .structural
  | text :
      (∀ root, ¬ UsesTree settings p lang text root) →
      GoesBy settings p lang text (Lexical.signals lang text) .lexical

theorem GoesBy.consistent {settings : Settings} {p : Provider} {lang : Language} {text : String}
    {s : Signals} {tier : Tier} (h : GoesBy settings p lang text s tier) : s.Consistent := by
  cases h with
  | tree _ => exact consistent_outline _ _ _
  | text _ => exact consistent_lexical _ _

theorem exists_goesBy {settings : Settings} {p : Provider} {a : Analyzer}
    (h : IsUsual settings p a) (source tag : Option String) :
    ∃ s tier, GoesBy settings p (Language.ofTag tag) (source.getD "") s tier ∧
      (a.run source tag).1.MadeFrom s tier := by
  obtain ⟨⟨e, hgives, hrun⟩, -⟩ := run_of_isUsual h source tag
  rw [hrun tag rfl]
  cases hgives with
  | tree huse =>
    refine ⟨_, _, .tree huse, ?_⟩
    exact (madeFrom_estimate _ _ _).withNotes _
  | text hgive =>
    refine ⟨_, _, .text fun root huse => not_givesUp_of_usesTree huse _ hgive, ?_⟩
    exact ((madeFrom_estimate _ _ _).withNotes _).withNotes _

theorem madeFrom_byText (source tag : Option String) :
    (Analyzer.byText source tag).MadeFrom
      (Lexical.signals (Language.ofTag tag) (source.getD "")) .lexical :=
  (madeFrom_estimate _ _ _).withNotes _

/-- The answer by the text alone, and that of the usual analyzer after any calls before:
each is made from the signals it goes by, which have a bound and a factor for each
level of the depth; and each is well formed. Where the text was gone by there is no
tag for library operations. -/
theorem answers_wellFormed (settings : Settings) (p : Provider)
    (earlier : List (Option String × Option String)) (source tag : Option String) :
    let a := (Analyzer.standard settings { provider := p }).afterCalls earlier
    let lang := Language.ofTag tag
    let text := source.getD ""
    (let s := Lexical.signals lang text
      let e := Analyzer.byText source tag
      s.Consistent ∧ e.MadeFrom s .lexical ∧ e.WellFormed s ∧ "library-ops" ∉ e.tags) ∧
    ∃ s tier, GoesBy settings p lang text s tier ∧
      let e := (a.run source tag).1
      s.Consistent ∧ e.MadeFrom s tier ∧ e.WellFormed s ∧
        ((∀ root, ¬ UsesTree settings p lang text root) → "library-ops" ∉ e.tags) := by
  intro a lang text
  have hmade := madeFrom_byText source tag
  have hconsistent := consistent_lexical lang text
  refine ⟨⟨hconsistent, hmade, wellFormed_of_madeFrom hconsistent hmade, ?_⟩, ?_⟩
  · exact tags_of_madeFrom hmade rfl
  · have husual : IsUsual settings p a := isUsual_afterCalls (isUsual_standard settings p) earlier
    obtain ⟨s, tier, hgoes, hrun⟩ := exists_goesBy husual source tag
    have hconsistent := hgoes.consistent
    refine ⟨s, tier, hgoes, hconsistent, hrun, wellFormed_of_madeFrom hconsistent hrun, ?_⟩
    intro hnone
    cases hgoes with
    | tree huse => exact absurd huse (hnone _)
    | text _ => exact tags_of_madeFrom hrun rfl

end BigO
