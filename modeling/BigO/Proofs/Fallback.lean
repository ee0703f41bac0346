-- The laws of asking in turn. The first backend that supports the language and
-- gives an estimate decides, whatever the others would have said; the first
-- failure before it is told once; and nobody is asked after it.
import BigO.Analyzer

namespace BigO

/-! ## What one backend says -/

namespace Backend

/-- The estimate of a backend, if it supports the language and does not fail. -/
def estimate? (b : Backend) (lang : Language) (text : String) : Option Estimate :=
  if b.supports lang.name then (b.ask lang text).1.toOption else none

/-- The fault of a backend, if it supports the language and fails. -/
def fault? (b : Backend) (lang : Language) (text : String) : Option Fault :=
  if b.supports lang.name then
    match (b.ask lang text).1 with
    | .ok _ => none
    | .error f => some f
  else none

/-- A backend once its turn is over. -/
def afterTurn (b : Backend) (lang : Language) (text : String) : Backend :=
  if b.supports lang.name then (b.ask lang text).2 else b

/-- How often a backend has been asked once its turn is over. -/
def callsAfterTurn (b : Backend) (lang : Language) : Nat :=
  if b.supports lang.name then b.calls + 1 else b.calls

/-- Asking counts, however the backend comes to its answer. -/
theorem calls_ask (b : Backend) (lang : Language) (text : String) :
    (b.ask lang text).2.calls = b.calls + 1 := by
  unfold ask
  split <;> rfl

/-- Who gives an estimate supports the language. -/
theorem supports_of_estimate {b : Backend} {lang : Language} {text : String} {e : Estimate}
    (h : b.estimate? lang text = some e) : b.supports lang.name = true := by
  unfold estimate? at h
  split at h
  · assumption
  · cases h

/-- Who gives no estimate fails, if it supports the language. -/
theorem fault?_eq_none_iff {b : Backend} {lang : Language} {text : String}
    (h : b.estimate? lang text = none) :
    b.fault? lang text = none ↔ b.supports lang.name = false := by
  unfold fault?
  unfold estimate? at h
  split
  · rename_i hs
    rw [if_pos hs] at h
    cases ha : (b.ask lang text).1 with
    | ok e => simp [ha, Except.toOption] at h
    | error f => simp [hs]
  · rename_i hs
    simp [hs]

theorem calls_afterTurn (b : Backend) (lang : Language) (text : String) :
    (b.afterTurn lang text).calls = b.callsAfterTurn lang := by
  unfold afterTurn callsAfterTurn
  split
  · exact calls_ask b lang text
  · rfl

end Backend

/-! ## One turn -/

section Turns

variable {lang : Language} {text : String} {failure : Option String} {b : Backend}
  {bs : List Backend}

/-- An estimate ends the round. -/
theorem askInTurn_of_estimate {e : Estimate} (h : b.estimate? lang text = some e) :
    askInTurn lang text failure (b :: bs) = ⟨some e, failure, b.afterTurn lang text :: bs⟩ := by
  unfold Backend.estimate? at h
  split at h
  · rename_i hs
    simp only [askInTurn, Backend.afterTurn, hs, if_true]
    rcases ha : b.ask lang text with ⟨_ | e', b'⟩
    · simp [ha, Except.toOption] at h
    · simp [ha, Except.toOption] at h
      simp [h]
  · cases h

/-- Without an estimate the round goes on, and the failure that was told first stays. -/
theorem askInTurn_of_no_estimate (h : b.estimate? lang text = none) :
    askInTurn lang text failure (b :: bs) =
      let r := askInTurn lang text (failure.or ((b.fault? lang text).map (·.note))) bs
      { r with backends := b.afterTurn lang text :: r.backends } := by
  unfold Backend.estimate? at h
  split at h
  · rename_i hs
    simp only [askInTurn, Backend.afterTurn, Backend.fault?, hs, if_true]
    rcases ha : b.ask lang text with ⟨f | e, b'⟩
    · simp
    · simp [ha, Except.toOption] at h
  · rename_i hs
    simp [askInTurn, Backend.afterTurn, Backend.fault?, hs]

/-! ## A whole round -/

/-- The fault of the first backend that supports the language and fails. -/
def firstFault? (lang : Language) (text : String) (bs : List Backend) : Option Fault :=
  bs.findSome? (·.fault? lang text)

theorem firstFault?_cons (lang : Language) (text : String) (b : Backend) (bs : List Backend) :
    firstFault? lang text (b :: bs) = (b.fault? lang text).or (firstFault? lang text bs) := by
  unfold firstFault?
  cases hb : b.fault? lang text <;> simp [hb]

/-- Where nobody gives an estimate, there is no fault just if nobody was asked. -/
theorem firstFault?_eq_none_iff (h : ∀ b ∈ bs, b.estimate? lang text = none) :
    firstFault? lang text bs = none ↔ ∀ b ∈ bs, b.supports lang.name = false := by
  unfold firstFault?
  rw [List.findSome?_eq_none_iff]
  exact forall₂_congr fun b hb => Backend.fault?_eq_none_iff (h b hb)

/-- A round with a winner. -/
theorem askInTurn_winner {before rest : List Backend} {winner : Backend} {e : Estimate}
    (hbefore : ∀ b ∈ before, b.estimate? lang text = none)
    (hwinner : winner.estimate? lang text = some e) :
    askInTurn lang text failure (before ++ winner :: rest) =
      ⟨some e, failure.or ((firstFault? lang text before).map (·.note)),
        before.map (·.afterTurn lang text) ++ winner.afterTurn lang text :: rest⟩ := by
  induction before generalizing failure with
  | nil => simp [askInTurn_of_estimate hwinner, firstFault?]
  | cons b before ih =>
    have hb := hbefore b (by simp)
    have hrest : ∀ c ∈ before, c.estimate? lang text = none :=
      fun c hc => hbefore c (by simp [hc])
    rw [List.cons_append, askInTurn_of_no_estimate hb, ih hrest, firstFault?_cons, Option.map_or]
    simp [Option.or_assoc]

/-- A round without one. -/
theorem askInTurn_no_winner (h : ∀ b ∈ bs, b.estimate? lang text = none) :
    askInTurn lang text failure bs =
      ⟨none, failure.or ((firstFault? lang text bs).map (·.note)),
        bs.map (·.afterTurn lang text)⟩ := by
  induction bs generalizing failure with
  | nil => simp [askInTurn, firstFault?]
  | cons b bs ih =>
    have hb := h b (by simp)
    have hrest : ∀ c ∈ bs, c.estimate? lang text = none := fun c hc => h c (by simp [hc])
    rw [askInTurn_of_no_estimate hb, ih hrest, firstFault?_cons, Option.map_or]
    simp [Option.or_assoc]

end Turns

/-! ## The order -/

/-- Backends in the order they are asked: those that were registered, none before
one of a higher priority, and those of one priority as they were registered. -/
structure IsAskingOrder (registered order : List Backend) : Prop where
  perm : order.Perm registered
  descending : order.Pairwise fun a b => b.priority ≤ a.priority
  stable : ∀ p, order.filter (·.priority = p) = registered.filter (·.priority = p)

theorem priority_trans (a b c : Backend) (hab : decide (b.priority ≤ a.priority) = true)
    (hbc : decide (c.priority ≤ b.priority) = true) : decide (c.priority ≤ a.priority) = true := by
  simp only [decide_eq_true_eq] at hab hbc ⊢
  omega

theorem priority_total (a b : Backend) :
    (decide (b.priority ≤ a.priority) || decide (a.priority ≤ b.priority)) = true := by
  simp only [Bool.or_eq_true, decide_eq_true_eq]
  omega

theorem pairwise_inOrder (bs : List Backend) :
    (Analyzer.inOrder bs).Pairwise fun a b => b.priority ≤ a.priority := by
  have h := List.pairwise_mergeSort priority_trans priority_total bs
  exact h.imp (by simp)

/-- Those of one priority keep their order: they are in order already, so sorting
keeps them as a sublist, and it loses none of them. -/
theorem filter_inOrder (bs : List Backend) (p : Int) :
    (Analyzer.inOrder bs).filter (·.priority = p) = bs.filter (·.priority = p) := by
  have hpair : (bs.filter (·.priority = p)).Pairwise
      fun a b => decide (b.priority ≤ a.priority) = true := by
    apply List.pairwise_of_forall_mem_list
    intro a ha b hb
    simp only [List.mem_filter, decide_eq_true_eq] at ha hb ⊢
    omega
  have hsub : (bs.filter (·.priority = p)).Sublist (Analyzer.inOrder bs) :=
    List.sublist_mergeSort priority_trans priority_total hpair List.filter_sublist
  have hsub' : (bs.filter (·.priority = p)).Sublist
      ((Analyzer.inOrder bs).filter (·.priority = p)) := by
    simpa using hsub.filter (fun b => decide (b.priority = p))
  have hperm := (List.mergeSort_perm bs fun a b => decide (b.priority ≤ a.priority)).filter
    (fun b => decide (b.priority = p))
  exact (hsub'.eq_of_length hperm.length_eq.symm).symm

theorem inOrder_isAskingOrder (bs : List Backend) : IsAskingOrder bs (Analyzer.inOrder bs) where
  perm := List.mergeSort_perm bs _
  descending := pairwise_inOrder bs
  stable := filter_inOrder bs

/-! ## What is told of a failure -/

/-- What stands before the reasons of an estimate, by the first fault before it: nothing,
or one notice that tells the fault. -/
inductive Notice : Option Fault → List String → Prop
  | silent : Notice none []
  | told {f : Fault} {text : String} : f.Told text →
      Notice (some f)
        ["Tree-sitter unavailable; fell back to heuristic analysis. (" ++ text ++ ")"]

theorem notice_fallbackRemark (fault : Option Fault) :
    Notice fault ((fault.map (·.note)).map fallbackRemark).toList := by
  cases fault with
  | none => exact .silent
  | some f => exact .told f.told_note

theorem Notice.eq_nil_iff {fault : Option Fault} {notice : List String}
    (h : Notice fault notice) : notice = [] ↔ fault = none := by
  cases h <;> simp

/-! ## The laws -/

/-- For every list of backends the analyzer gives an estimate, and there are two
ways to it. Either some backend is the first to give one: then that is the estimate,
but for the remarks before its reasons, on the tag and on the first failure before
the winner if there was one. Or none gives one: then the text decides, and the first
failure of all is told. Whoever supports the language has been asked once, up to
the winner, and nobody else has been. -/
theorem run_first_estimate_wins (settings : Settings) (registered : List Backend)
    (source tag : Option String) :
    let a := Analyzer.ofBackends settings registered
    let lang := Language.ofTag tag
    let text := source.getD ""
    let r := a.run source tag
    IsAskingOrder registered a.backends ∧ ReadAs tag lang ∧
    ∃ onTag, TagRemarks tag onTag ∧
    ((∃ before winner rest e onFailure, a.backends = before ++ winner :: rest ∧
        (∀ b ∈ before, b.estimate? lang text = none) ∧
        winner.estimate? lang text = some e ∧
        Notice (firstFault? lang text before) onFailure ∧
        (onFailure = [] ↔ ∀ b ∈ before, b.supports lang.name = false) ∧
        r.1 = { e with why := onTag ++ onFailure ++ e.why } ∧
        r.2.backends.map (·.calls) = before.map (·.callsAfterTurn lang) ++
          (winner.calls + 1) :: rest.map (·.calls)) ∨
      (∃ told, (∀ b ∈ a.backends, b.estimate? lang text = none) ∧
        ((told = "no backend" ∧ ∀ b ∈ a.backends, b.supports lang.name = false) ∨
          ∃ f, firstFault? lang text a.backends = some f ∧ f.Told told) ∧
        r.1 = { Lexical.estimate lang text with
          why := onTag ++
            ["Tree-sitter unavailable; fell back to heuristic analysis. (" ++ told ++ ")"] ++
            (Lexical.estimate lang text).why } ∧
        r.2.backends.map (·.calls) = a.backends.map (·.callsAfterTurn lang))) := by
  intro a lang text r
  refine ⟨inOrder_isAskingOrder registered, readAs_ofTag tag, tagNotes tag, tagRemarks_tagNotes tag,
    ?_⟩
  have hr : r = ((askInTurn lang text none a.backends).conclude lang text (tagNotes tag),
      { a with backends := (askInTurn lang text none a.backends).backends }) := rfl
  -- the winner is the first backend with an estimate, whatever order made it the first
  cases hfind : a.backends.findSome? (·.estimate? lang text) with
  | some e =>
    obtain ⟨before, winner, rest, hsplit, hwinner, hbefore⟩ := List.findSome?_eq_some_iff.mp hfind
    rw [hsplit, askInTurn_winner hbefore hwinner] at hr
    have hnotice := notice_fallbackRemark (firstFault? lang text before)
    refine Or.inl ⟨before, winner, rest, e, _, hsplit, hbefore, hwinner, hnotice, ?_, ?_, ?_⟩
    · rw [hnotice.eq_nil_iff, firstFault?_eq_none_iff hbefore]
    · simp [hr, Round.conclude, Estimate.withNotes]
    · have hsupports : winner.supports lang.name = true := Backend.supports_of_estimate hwinner
      simp [hr, Backend.calls_afterTurn, Backend.callsAfterTurn, hsupports]
  | none =>
    have hnone := List.findSome?_eq_none_iff.mp hfind
    rw [askInTurn_no_winner hnone] at hr
    refine Or.inr ⟨((firstFault? lang text a.backends).map (·.note)).getD "no backend", hnone,
      ?_, ?_, ?_⟩
    · cases hfault : firstFault? lang text a.backends with
      | none => exact .inl ⟨rfl, (firstFault?_eq_none_iff hnone).mp hfault⟩
      | some f => exact .inr ⟨f, rfl, f.told_note⟩
    · simp [hr, Round.conclude, Estimate.withNotes, fallbackRemark_eq]
    · simp [hr, Backend.calls_afterTurn]

/-- A backend whose parser breaks. -/
def brokenParse : Backend where
  name := "tree_sitter"
  priority := 50
  supports := Backend.hasProfile
  engine := .custom fun _ _ => .error (.foreign .key (some "tree"))

/-- A backend that finds a sort in every source. -/
def alwaysSort : Backend where
  name := "guess"
  priority := 20
  supports := fun _ => true
  engine := .custom fun _ _ => .ok
    { loops := 1, depth := 1, tags := ["sort"],
      time := { growth := .linearithmic, confidence := .percent 50 }, why := ["A guess."] }

/-- A tag that is not supported, a failure, an estimate, and a backend that is not asked. -/
theorem run_first_estimate_wins_brokenParse :
    let r := (Analyzer.ofBackends {} [brokenParse, alwaysSort, .lexical]).run
      (some "x") (some "rust")
    r.1 =
      { loops := 1, depth := 1, tags := ["sort"],
        time := { growth := .linearithmic, confidence := .percent 50 },
        why := ["Language 'rust' is not supported; analysed as python.",
          "Tree-sitter unavailable; fell back to heuristic analysis. (KeyError('tree'))",
          "A guess."] } ∧
    r.2.backends.map (·.calls) = [1, 1, 0] := by
  intro r
  obtain ⟨-, -, onTag, htag, hrun⟩ :=
    run_first_estimate_wins {} [brokenParse, alwaysSort, .lexical] (some "x") (some "rust")
  have horder : (Analyzer.ofBackends {} [brokenParse, alwaysSort, .lexical]).backends =
      [brokenParse, alwaysSort, .lexical] := List.mergeSort_of_pairwise (by decide)
  rw [horder] at hrun
  rcases hrun with
    ⟨before, winner, rest, e, onFailure, hsplit, hbefore, hwinner, hnotice, -, hr, hcalls⟩ |
    ⟨told, hnone, -⟩
  · have hfirst : before = [brokenParse] := by
      rcases before with _ | ⟨b, _ | ⟨b', before⟩⟩
      · obtain ⟨rfl, -⟩ := List.cons.inj hsplit
        cases hwinner
      · obtain ⟨rfl, -⟩ := List.cons.inj hsplit
        rfl
      · obtain ⟨-, hsplit⟩ := List.cons.inj hsplit
        obtain ⟨rfl, -⟩ := List.cons.inj hsplit
        cases hbefore alwaysSort (by simp)
    subst hfirst
    obtain ⟨rfl, rfl⟩ := List.cons.inj (List.cons.inj hsplit).2
    cases hwinner
    cases htag with
    | supported hrust =>
      rw [← isKnownTag_iff] at hrust
      exact absurd hrust (by decide +kernel)
    | unsupported =>
      cases hnotice with
      | told htold =>
        cases htold
        exact ⟨hr, hcalls⟩
  · cases hnone alwaysSort (by simp)

end BigO
