-- The usual analyzer reads the parse tree or the text, never a mixture. Which
-- one it is depends on the provider of parsers, the source and the settings
-- alone: not on what was analysed before, for a parser that has been loaded is
-- the one that would be loaded again, and a load that failed is tried again.
import BigO.Proofs.Fallback

namespace BigO

open BigO.Grammar BigO.Tree

/-! ## The library -/

/-- Whatever stands in a library is what its provider gives. -/
structure Grammar.Library.Settled (p : Provider) (lib : Library) : Prop where
  provider : lib.provider = p
  loads : ∀ language id, lib.cache.standing? language = some id →
    ∃ parser, lib.cache.outcome? id = some (.ok parser) ∧ p.load language = .ok parser

theorem settled_fresh (p : Provider) : ({ provider := p } : Library).Settled p where
  provider := rfl
  loads := by simp [Cache.standing?]

/-- A settled library gives what its provider gives, and stays settled. -/
theorem parser_of_settled {p : Provider} {lib : Library} (h : lib.Settled p) (language : String) :
    (lib.parser language).1 = p.load language ∧ (lib.parser language).2.Settled p := by
  cases hid : lib.cache.standing? language with
  | some id =>
    obtain ⟨parser, hok, hload⟩ := h.loads language id hid
    rw [Library.parser_of_standing hid hok, hload]
    exact ⟨rfl, h⟩
  | none =>
    obtain ⟨hparser, hprovider, n, hcache⟩ := Library.parser_of_none hid
    rw [h.provider] at hparser hprovider hcache
    refine ⟨hparser, hprovider, ?_⟩
    intro m id hm
    rw [hcache, Cache.standing?_loaded] at hm
    rw [hcache]
    split at hm
    · rename_i heq
      subst heq
      cases hload : p.load m with
      | error f => simp [hload, Except.toOption] at hm
      | ok parser =>
        rw [hload] at hm
        obtain rfl := Option.some.inj hm
        exact ⟨parser, Cache.outcome?_loaded_self lib.cache 0 n m (.ok parser), rfl⟩
    · obtain ⟨parser, hok, hload⟩ := h.loads m id hm
      exact ⟨parser, Cache.outcome?_loaded hok 0 n language _, hload⟩

/-! ## Tree or failure -/

/-- The tree of a source that the analysis goes by: the parser is there, it gives
this tree, and the tree has no errors or the settings put up with them. -/
inductive UsesTree (settings : Settings) (p : Provider) (lang : Language) (text : String) :
    Node → Prop
  | intro {parser : Parser} {root : Node} :
      p lang.name = .ok parser → parser.parse text = .ok root →
      (root.hasError = false ∨ settings.fallbackOnErrors = false) →
      UsesTree settings p lang text root

/-- The message of the failure for which the tree is given up. -/
inductive GivesUp (settings : Settings) (p : Provider) (lang : Language) (text : String) :
    String → Prop
  | missing {cause : String} :
      p lang.name = .error (.notImported cause) →
      GivesUp settings p lang text
        "tree-sitter not available. Install with: pip install tree-sitter tree-sitter-language-pack"
  | grammar {fault : Fault} {said : String} :
      p lang.name = .error (.noGrammar fault) → fault.Says said →
      GivesUp settings p lang text
        ("Failed to initialize tree-sitter for " ++ lang.name ++ ": " ++ said)
  /-- A failure that the parser itself reports is told as it is. -/
  | reported {parser : Parser} {f : Failure} :
      p lang.name = .ok parser → parser.parse text = .error (.known f) →
      GivesUp settings p lang text f.message
  | parse {parser : Parser} {fault : Fault} {said : String} :
      p lang.name = .ok parser → parser.parse text = .error fault → (∀ f, fault ≠ .known f) →
      fault.Says said →
      GivesUp settings p lang text
        ("Tree-sitter parse failed for " ++ lang.name ++ ": " ++ said)
  | treeErrors {parser : Parser} {root : Node} :
      p lang.name = .ok parser → parser.parse text = .ok root → root.hasError = true →
      settings.fallbackOnErrors = true →
      GivesUp settings p lang text
        ("Source has syntax errors for the " ++ lang.name ++ " grammar")

variable {settings : Settings} {p : Provider} {lang : Language} {text : String}

/-- A tree is not both used and given up. -/
theorem not_givesUp_of_usesTree {root : Node} (h : UsesTree settings p lang text root)
    (m : String) : ¬ GivesUp settings p lang text m := by
  obtain ⟨hp, hparse, hgood⟩ := h
  intro hm
  cases hm with
  | missing h => simp [hp] at h
  | grammar h _ => simp [hp] at h
  | reported h he =>
    cases hp.symm.trans h
    simp [hparse] at he
  | parse h he _ _ =>
    cases hp.symm.trans h
    simp [hparse] at he
  | treeErrors h he herr hfall =>
    cases hp.symm.trans h
    cases hparse.symm.trans he
    rcases hgood with hgood | hgood
    · exact absurd (herr.symm.trans hgood) (by decide)
    · exact absurd (hfall.symm.trans hgood) (by decide)

/-- The structural estimate of a library that gives what a provider would: by the tree
that is used, or a failure with the message for which it is given up. -/
theorem structural_estimate_cases (settings : Settings) (lang : Language) (text : String)
    {lib : Library} (hparser : (lib.parser lang.name).1 = p.load lang.name) :
    (∃ root, UsesTree settings p lang text root ∧
      (Structural.estimate settings lib lang text).1 =
        .ok (Structural.estimateOf (Tree.outline lang settings.snippetLength root))) ∨
    (∃ f : Failure, GivesUp settings p lang text f.message ∧
      (Structural.estimate settings lib lang text).1 = .error (.known f)) := by
  unfold Structural.estimate Structural.outline
  rcases hres : lib.parser lang.name with ⟨r, lib'⟩
  rw [hres] at hparser
  cases hp : p lang.name with
  | error fault =>
    obtain rfl : r = .error (fault.failure lang.name) := hparser.trans (Provider.load_of_error hp)
    cases fault with
    | notImported cause => exact .inr ⟨_, .missing hp, rfl⟩
    | noGrammar fault => exact .inr ⟨_, .grammar hp fault.says_text, rfl⟩
  | ok parser =>
    obtain rfl : r = .ok parser := hparser.trans (Provider.load_of_ok hp)
    simp only [Structural.tree]
    cases hparse : parser.parse text with
    | error fault =>
      cases fault with
      | known f => exact .inr ⟨f, .reported hp hparse, rfl⟩
      | foreign k m =>
        exact .inr ⟨_, .parse hp hparse (by simp) (Fault.says_text _), rfl⟩
      | other t w => exact .inr ⟨_, .parse hp hparse (by simp) (Fault.says_text _), rfl⟩
    | ok root =>
      simp only [Except.bind, Structural.outlineOf]
      by_cases hbad : (settings.fallbackOnErrors && root.hasError) = true
      · rw [if_pos hbad]
        simp only [Bool.and_eq_true] at hbad
        exact .inr ⟨_, .treeErrors hp hparse hbad.2 hbad.1, rfl⟩
      · rw [if_neg hbad]
        simp only [Bool.and_eq_true, not_and, Bool.not_eq_true] at hbad
        refine .inl ⟨root, .intro hp hparse ?_, rfl⟩
        cases hf : settings.fallbackOnErrors with
        | true => exact .inl (hbad hf)
        | false => exact .inr rfl

/-- A structural estimate does to a library what the load of a parser does. -/
theorem structural_estimate_library (settings : Settings) (lib : Library) (lang : Language)
    (text : String) :
    (Structural.estimate settings lib lang text).2 = (lib.parser lang.name).2 := by
  unfold Structural.estimate Structural.outline
  rcases lib.parser lang.name with ⟨r, lib'⟩
  cases r <;> rfl

/-! ## The usual analyzer -/

/-- The usual analyzer at some time: its library is settled, and its backends may
have been asked any number of times. -/
def IsUsual (settings : Settings) (p : Provider) (a : Analyzer) : Prop :=
  ∃ lib n k, lib.Settled p ∧ a = ⟨settings,
    [{ Backend.structural settings lib with calls := n }, { Backend.lexical with calls := k }]⟩

theorem isUsual_standard (settings : Settings) (p : Provider) :
    IsUsual settings p (Analyzer.standard settings { provider := p }) :=
  ⟨{ provider := p }, 0, 0, settled_fresh p, rfl⟩

/-- Every language has its profile. -/
theorem hasProfile_name (lang : Language) : Backend.hasProfile lang.name = true := by
  cases lang <;> decide

/-- What the usual analyzer gives before its remarks: the estimate by the tree, or
the estimate by the text with the failure told before its reasons. -/
inductive Gives (settings : Settings) (p : Provider) (lang : Language) (text : String) :
    Estimate → Prop
  | tree {root : Node} :
      UsesTree settings p lang text root →
      Gives settings p lang text
        (Structural.estimateOf (Tree.outline lang settings.snippetLength root))
  | text {m : String} :
      GivesUp settings p lang text m →
      Gives settings p lang text ((Lexical.estimate lang text).withNotes [fallbackRemark m])

/-- The round of the usual analyzer: the structural backend, and the lexical one if
that failed. -/
theorem askInTurn_usual (settings : Settings) (lib : Library) (n k : Nat) (lang : Language)
    (text : String) :
    let s := Structural.estimate settings lib lang text
    let structural : Backend := { Backend.structural settings s.2 with calls := n + 1 }
    askInTurn lang text none [{ Backend.structural settings lib with calls := n },
        { Backend.lexical with calls := k }] =
      match s.1 with
      | .ok e => ⟨some e, none, [structural, { Backend.lexical with calls := k }]⟩
      | .error f => ⟨some (Lexical.estimate lang text), some f.note,
          [structural, { Backend.lexical with calls := k + 1 }]⟩ := by
  intro s structural
  simp only [askInTurn, Backend.structural, Backend.lexical, hasProfile_name, if_true, Backend.ask,
    s, structural]
  cases (Structural.estimate settings lib lang text).1 <;> rfl

/-- One call of the usual analyzer. What it gives depends on the tag only by its
language and by the remark on it. -/
theorem run_of_isUsual {a : Analyzer} (h : IsUsual settings p a) (source tag : Option String) :
    (∃ e, Gives settings p (Language.ofTag tag) (source.getD "") e ∧
      ∀ tag', Language.ofTag tag' = Language.ofTag tag →
        (a.run source tag').1 = e.withNotes (tagNotes tag')) ∧
    IsUsual settings p (a.run source tag).2 := by
  obtain ⟨lib, n, k, hlib, rfl⟩ := h
  have hround := askInTurn_usual settings lib n k (Language.ofTag tag) (source.getD "")
  have hlib' :
      (Structural.estimate settings lib (Language.ofTag tag) (source.getD "")).2.Settled p := by
    rw [structural_estimate_library]
    exact (parser_of_settled hlib _).2
  rcases structural_estimate_cases settings (Language.ofTag tag) (source.getD "")
      (parser_of_settled hlib _).1 with
    ⟨root, huse, hok⟩ | ⟨f, hgive, herr⟩
  · simp only [hok] at hround
    refine ⟨⟨_, .tree huse, ?_⟩, ?_⟩
    · intro tag' htag
      simp [Analyzer.run, Analyzer.textOf, htag, hround, Round.conclude]
    · simp only [Analyzer.run, Analyzer.textOf, hround]
      exact ⟨_, n + 1, k, hlib', rfl⟩
  · simp only [herr] at hround
    refine ⟨⟨_, .text hgive, ?_⟩, ?_⟩
    · intro tag' htag
      simp [Analyzer.run, Analyzer.textOf, htag, hround, Round.conclude, Estimate.withNotes,
        Fault.note]
    · simp only [Analyzer.run, Analyzer.textOf, hround]
      exact ⟨_, n + 1, k + 1, hlib', rfl⟩

/-- The analyzer after some calls, one after the other. -/
def Analyzer.afterCalls (a : Analyzer) (calls : List (Option String × Option String)) : Analyzer :=
  calls.foldl (fun a call => (a.run call.1 call.2).2) a

theorem isUsual_afterCalls {a : Analyzer} (h : IsUsual settings p a)
    (calls : List (Option String × Option String)) : IsUsual settings p (a.afterCalls calls) := by
  induction calls generalizing a with
  | nil => exact h
  | cons call calls ih => exact ih (run_of_isUsual h call.1 call.2).2

/-! ## The law -/

/-- The usual analyzer goes by the tree or by the text, one of the two and never
both, whatever was analysed before. By the tree, the estimate is that of the outline,
after a remark that a tree was read. By the text, it is the estimate by the text alone
with one more remark, right after the one on the tag, that tells why. Two tags for one
language make no difference but for the remark on the tag. -/
theorem run_standard_by_tree_or_text (settings : Settings) (p : Provider)
    (earlier : List (Option String × Option String)) (source tag : Option String) :
    let a := (Analyzer.standard settings { provider := p }).afterCalls earlier
    let lang := Language.ofTag tag
    let text := source.getD ""
    let r := (a.run source tag).1
    ReadAs tag lang ∧
    ∃ onTag, TagRemarks tag onTag ∧
    ((∃ root e, UsesTree settings p lang text root ∧ (∀ m, ¬ GivesUp settings p lang text m) ∧
        (Tree.outline lang settings.snippetLength root).signals.estimate? .structural
          ["Used Tree-sitter CST parsing with language adapters and normalized IR extraction."] =
            some e ∧
        r = { e with why := onTag ++ e.why }) ∨
      (∃ m, GivesUp settings p lang text m ∧ (∀ root, ¬ UsesTree settings p lang text root) ∧
        ∃ reasons, (Analyzer.byText source tag).why = onTag ++ reasons ∧
          r = { Analyzer.byText source tag with
            why := onTag ++
              ("Tree-sitter unavailable; fell back to heuristic analysis. (" ++ m ++ ")") ::
              reasons })) ∧
    ∀ tag', ReadAs tag' lang →
      ∃ (e : Estimate) (onTag' : List String), TagRemarks tag' onTag' ∧
        r = { e with why := onTag ++ e.why } ∧
        (a.run source tag').1 = { e with why := onTag' ++ e.why } := by
  intro a lang text r
  have husual : IsUsual settings p a := isUsual_afterCalls (isUsual_standard settings p) earlier
  obtain ⟨⟨e, hgives, hrun⟩, -⟩ := run_of_isUsual husual source tag
  have hr : r = e.withNotes (tagNotes tag) := hrun tag rfl
  refine ⟨readAs_ofTag tag, tagNotes tag, tagRemarks_tagNotes tag, ?_, fun tag' htag =>
    ⟨e, tagNotes tag', tagRemarks_tagNotes tag', hr, hrun tag' (readAs_iff.mp htag)⟩⟩
  cases hgives with
  | tree huse =>
    exact .inl ⟨_, _, huse, not_givesUp_of_usesTree huse, Structural.estimate?_outline _, hr⟩
  | text hgive =>
    refine .inr ⟨_, hgive, fun root huse => not_givesUp_of_usesTree huse _ hgive,
      (Lexical.estimate lang text).why, rfl, ?_⟩
    rw [hr]
    simp [Estimate.withNotes, Analyzer.byText, Analyzer.textOf, fallbackRemark_eq, lang, text]

/-- A provider that lacks the grammar of all languages but one. -/
def javaOnly : Provider := fun language =>
  if language = "java" then .ok ⟨fun _ => .ok { kind := "program" }⟩
  else .error (.noGrammar (.foreign .key (some language)))

/-- Two tags for one language, whose grammar is not there. -/
theorem run_standard_by_tree_or_text_javaOnly :
    let a := (Analyzer.standard {} { provider := javaOnly }).afterCalls [(some "x", some "java")]
    ∃ e : Estimate, ∃ reasons,
      e.why = ("Tree-sitter unavailable; fell back to heuristic analysis. " ++
        "(Failed to initialize tree-sitter for python: 'python')") :: reasons ∧
      (a.run (some "x") (some "rust")).1 = { e with
        why := "Language 'rust' is not supported; analysed as python." :: e.why } ∧
      (a.run (some "x") (some "PY")).1 = e := by
  intro a
  have hlang : Language.ofTag (some "rust") = .python := by decide +kernel
  obtain ⟨-, onTag, htag, hrun, hother⟩ :=
    run_standard_by_tree_or_text {} javaOnly [(some "x", some "java")] (some "x") (some "rust")
  obtain ⟨e, onTag', htag', hr, hr'⟩ := hother (some "PY") (readAs_iff.mpr (by decide +kernel))
  rw [hlang] at hrun
  have hrust : ¬ IsSupported (some "rust") := by
    rw [← isKnownTag_iff]
    decide +kernel
  have hpy : IsSupported (some "PY") := (isKnownTag_iff _).mp (by decide +kernel)
  cases htag with
  | supported h => exact absurd h hrust
  | unsupported =>
    cases htag' with
    | unsupported h => exact absurd hpy h
    | supported =>
      rcases hrun with ⟨root, _, ⟨hp, -, -⟩, -⟩ | ⟨m, hgive, -, reasons, -, htext⟩
      · cases hp
      · have hwhy := List.cons.inj (congrArg Estimate.why (hr.symm.trans htext))
        cases hgive with
        | grammar hp hsays =>
          cases hp
          cases hsays with
          | key => exact ⟨e, reasons, hwhy.2, hr, hr'⟩
          | foreign _ hkind => exact absurd rfl hkind
        | missing hp => cases hp
        | reported hp => cases hp
        | parse hp => cases hp
        | treeErrors hp => cases hp

end BigO
