-- Which functions are told to call themselves: of the names that a text declares, those
-- that stand before a bracket at least twice, in the order of their first declarations.
-- Every declared name is a whole word, and one of the places before a bracket is its own.
import BigO.Proofs.ReturnedProducts
import BigO.Proofs.SignatureParts

namespace BigO.Recursion

open BigO.Text BigO.Scan BigO.Scan.Scanner

variable {lang : Language} {text : List Char}

/-! ## Declared names -/

/-- What the declaration of a name in a text tells of the name. -/
structure IsDeclaredName (lang : Language) (text : List Char) (s : Signature) : Prop where
  inText : s.start.text = text
  isName : IsName s.name
  whole : s.start.wordBefore = false ∧ ∃ stop, s.start.To s.name stop ∧ stop.wordAfter = false
  counted : 1 ≤ callCount s.name text
  uncontrolled : lang.profile.usesBraces = true → ∀ w ∈ controlWords, s.name ≠ w.toList

/-- Blanks and a bracket are no part of a word. -/
theorem wordAfter_of_gap {c : Cursor} {gap rest : List Char} (hc : c.after = gap ++ '(' :: rest)
    (hgap : Only isBlank gap) : c.wordAfter = false := by
  rw [Cursor.wordAfter, hc]
  cases gap with
  | nil => rfl
  | cons x xs => simp [isWord_of_isBlank (hgap x (List.mem_cons_self ..))]

/-- A name is called where it stands whole before a bracket. -/
theorem reads_call {f : List Char} {c d : Cursor} {gap rest : List Char} (hf : IsName f)
    (hto : c.To f d) (hbefore : c.wordBefore = false) (hd : d.after = gap ++ '(' :: rest)
    (hgap : Only isBlank gap) : (call f).reads c = true := by
  have hedge : c.atWordEdge = true := by
    obtain ⟨x, xs, rfl, hx, -⟩ := hf
    have hafter : c.wordAfter = true := by
      rw [Cursor.wordAfter, hto.ahead]
      exact isWord_of_isNameStart hx
    rw [Cursor.atWordEdge, hbefore, hafter]
    rfl
  obtain ⟨r, hr⟩ := reads_iff.mp (reads_char (after_pass hd hgap (by decide)))
  have hblanks : ((), Cursor.pass isBlank d.before d.after) ∈ blanks d := List.mem_singleton_self _
  refine reads_iff.mpr ⟨r, mem_bind.mpr ⟨((), c), mem_here.mpr ⟨hedge, rfl⟩, ?_⟩⟩
  exact mem_bind.mpr ⟨((), d), mem_exactly_iff.mpr hto, mem_bind.mpr ⟨_, hblanks, hr⟩⟩

theorem callCount_pos_of_reads {f : List Char} {c : Cursor} (hc : c.text = text)
    (h : (call f).reads c = true) : 1 ≤ callCount f text := by
  have hoccurs : (call f).occurs text = true := by
    obtain ⟨r, hr⟩ := reads_iff.mp h
    exact occurs_iff.mpr ⟨c, Cursor.mem_all.mpr hc, List.ne_nil_of_mem hr⟩
  refine List.length_pos_iff.mpr fun hnone => ?_
  rw [findAll_eq_nil_iff, hoccurs] at hnone
  exact absurd hnone (by decide)

theorem isDeclaredName_of_mem_declared {s : Signature} (h : s ∈ declared lang text) :
    IsDeclaredName lang text s := by
  obtain ⟨c, d, hc, scan, hscan, hhead⟩ := exists_matches_of_mem_declared h
  have hmem := List.mem_of_head? hhead
  have hdeclares := declares_of_mem hscan hmem
  obtain ⟨lead, hlead, -⟩ := hdeclares.lead
  obtain ⟨gap, more, hcalled, hgap⟩ := hdeclares.called
  have htext : s.start.text = text := hlead.text_eq.trans hc
  have hto : s.start.To s.name
      ⟨s.name.reverse ++ s.start.before, gap ++ '(' :: (more ++ d.after)⟩ :=
    ⟨by rw [hcalled.ahead]; simp, rfl⟩
  refine ⟨htext, hdeclares.isName, ⟨hdeclares.apart, _, hto, wordAfter_of_gap rfl hgap⟩, ?_, ?_⟩
  · exact callCount_pos_of_reads htext (reads_call hdeclares.isName hto hdeclares.apart rfl hgap)
  · exact fun hbraces => (declaresBlock_of_mem hbraces hscan hmem).uncontrolled

/-- The first name stands before the second one in the text. -/
def Precedes (s t : Signature) : Prop :=
  t.start.after.length < s.start.after.length

theorem pairwise_declared (lang : Language) (text : List Char) :
    (declared lang text).Pairwise Precedes := by
  have hfound : ∀ scan ∈ lang.profile.signatures, (scan.findAll text).Pairwise Precedes := by
    intro scan hscan
    exact ((finds_findAll (passes_signature hscan) text).pairwise (·.start.after.length)
      fun c s d h => (declares_of_mem hscan h).start_before).1
  have hone : ∃ scan, lang.profile.signatures = [scan] := by
    cases lang with
    | python => exact ⟨_, rfl⟩
    | java => exact ⟨_, rfl⟩
    | c => exact ⟨_, rfl⟩
  obtain ⟨scan, hscan⟩ := hone
  rw [declared, hscan, List.flatMap_singleton]
  exact hfound scan (hscan ▸ List.mem_singleton_self scan)

/-! ## First declarations -/

theorem firstOfEach_sublist (l : List Signature) : (firstOfEach l).Sublist l := by
  induction l with
  | nil => exact .slnil
  | cons s l ih => exact ((List.filter_sublist ..).trans ih).cons_cons s

theorem pairwise_name_firstOfEach (l : List Signature) :
    (firstOfEach l).Pairwise fun s t => s.name ≠ t.name := by
  induction l with
  | nil => exact .nil
  | cons s l ih =>
    refine .cons (fun t ht => ?_) (ih.sublist (List.filter_sublist ..))
    obtain ⟨-, hne⟩ := List.mem_filter.mp ht
    exact (bne_iff_ne.mp hne).symm

/-- The first declaration of each name is the one that a search for the name finds. -/
theorem mem_firstOfEach_iff {l : List Signature} {s : Signature} :
    s ∈ firstOfEach l ↔ l.find? (·.name == s.name) = some s := by
  induction l with
  | nil => simp [firstOfEach]
  | cons t l ih =>
    rw [firstOfEach, List.mem_cons, List.mem_filter, ih, List.find?_cons]
    cases hname : t.name == s.name with
    | true =>
      have hsame := eq_of_beq hname
      simp [hsame, eq_comm]
    | false =>
      have hne : t.name ≠ s.name := by simpa using hname
      have hst : s ≠ t := fun h => hne (h ▸ rfl)
      simp [hst, hne.symm]

/-! ## Reports -/

/-- The first declaration of a name in a text. -/
def firstDeclared? (lang : Language) (text f : List Char) : Option Signature :=
  (declared lang text).find? (·.name == f)

theorem of_firstDeclared? {f : List Char} {s : Signature}
    (h : firstDeclared? lang text f = some s) : s.name = f ∧ s ∈ declared lang text := by
  unfold firstDeclared? at h
  exact ⟨by simpa using List.find?_some h, List.mem_of_find?_eq_some h⟩

/-- How a function that is reported is judged: by the number of its calls and by its body. -/
structure IsJudged (g : Signal) (calls : Nat) (body : List Char) : Prop where
  selfCalls : g.selfCalls = calls - 1 ∧ 1 ≤ g.selfCalls
  factorial : g.hint = .factorial ↔ ReturnsProduct body
  exponential : g.hint = .exponential ↔ ¬ ReturnsProduct body ∧ 2 ≤ g.selfCalls
  linear : g.hint = .linear ↔ ¬ ReturnsProduct body ∧ g.selfCalls < 2

/-- The functions of a text that call themselves, as they are to be reported. -/
structure Reports (lang : Language) (text : List Char) (found : List Signal) : Prop where
  names : ∀ s ∈ declared lang text, IsDeclaredName lang text s
  onward : (declared lang text).Pairwise Precedes
  distinct : (found.map (·.function)).Nodup
  inOrder : found.Pairwise fun g h => ∀ s t, firstDeclared? lang text g.function.toList = some s →
    firstDeclared? lang text h.function.toList = some t → Precedes s t
  reported : ∀ f, (∃ g ∈ found, g.function.toList = f) ↔
    (∃ s ∈ declared lang text, s.name = f) ∧ 2 ≤ callCount f text
  judged : ∀ g ∈ found, ∃ s, firstDeclared? lang text g.function.toList = some s ∧
    IsJudged g (callCount s.name text) (body lang s.start.fromLineStart)

theorem hintOf_iff (selfCalls : Int) (body : List Char) :
    (hintOf selfCalls body = .factorial ↔ ReturnsProduct body) ∧
      (hintOf selfCalls body = .exponential ↔ ¬ ReturnsProduct body ∧ 2 ≤ selfCalls) ∧
      (hintOf selfCalls body = .linear ↔ ¬ ReturnsProduct body ∧ selfCalls < 2) := by
  rw [← returnsProduct_iff, hintOf]
  split
  · rename_i hproduct
    simp [hproduct]
  · rename_i hproduct
    split
    · rename_i htwo
      have hlinear : ¬ (¬ returnsProduct body = true ∧ selfCalls < 2) := by omega
      exact ⟨iff_of_false (by simp) hproduct, iff_of_true rfl ⟨hproduct, htwo⟩,
        iff_of_false (by simp) hlinear⟩
    · rename_i htwo
      have hexponential : ¬ (¬ returnsProduct body = true ∧ 2 ≤ selfCalls) := by omega
      exact ⟨iff_of_false (by simp) hproduct, iff_of_false (by simp) hexponential,
        iff_of_true rfl ⟨hproduct, by omega⟩⟩

/-- What the signal of a declared function says. -/
theorem signalOf?_eq_some_iff {s : Signature} (hs : s ∈ declared lang text) {g : Signal} :
    signalOf? lang text s = some g ↔ 2 ≤ callCount s.name text ∧
      g = ⟨String.ofList s.name, callCount s.name text - 1,
        hintOf (callCount s.name text - 1) (body lang s.start.fromLineStart)⟩ := by
  have hne : s.name ≠ [] := (isDeclaredName_of_mem_declared hs).isName.ne_nil
  rw [signalOf?, signal?]
  split
  · rename_i h
    have hfew : ¬ 2 ≤ callCount s.name text := by
      have hle := h.resolve_left hne
      omega
    simp [hfew]
  · rename_i h
    have hmany : 2 ≤ callCount s.name text := by
      have hgt := not_or.mp h
      omega
    simp [hmany, eq_comm]

theorem isJudged_of_signalOf? {s : Signature} (hs : s ∈ declared lang text) {g : Signal}
    (h : signalOf? lang text s = some g) :
    IsJudged g (callCount s.name text) (body lang s.start.fromLineStart) := by
  obtain ⟨hmany, rfl⟩ := (signalOf?_eq_some_iff hs).mp h
  obtain ⟨hfactorial, hexponential, hlinear⟩ := hintOf_iff (callCount s.name text - 1)
    (body lang s.start.fromLineStart)
  exact ⟨⟨rfl, by show (1 : Int) ≤ callCount s.name text - 1; omega⟩, hfactorial, hexponential,
    hlinear⟩

/-- A reported function is that of the first declaration of its name. -/
theorem mem_signals_iff {g : Signal} : g ∈ signals lang text ↔
    ∃ s, firstDeclared? lang text s.name = some s ∧ signalOf? lang text s = some g := by
  simp only [signals, List.mem_filterMap, mem_firstOfEach_iff, firstDeclared?]

theorem function_of_signalOf? {s : Signature} (hs : s ∈ declared lang text) {g : Signal}
    (h : signalOf? lang text s = some g) : g.function.toList = s.name := by
  obtain ⟨-, rfl⟩ := (signalOf?_eq_some_iff hs).mp h
  exact String.toList_ofList

/-- Of the first declarations, one stands before the next and has another name. -/
theorem pairwise_firstOfEach_declared (lang : Language) (text : List Char) :
    (firstOfEach (declared lang text)).Pairwise fun s t => s.name ≠ t.name ∧ Precedes s t :=
  (pairwise_name_firstOfEach _).and ((pairwise_declared lang text).sublist (firstOfEach_sublist _))

/-- What the reports say of any two of them, one before the other. -/
theorem pairwise_signals (lang : Language) (text : List Char) {R : Signal → Signal → Prop}
    (h : ∀ s t g g', firstDeclared? lang text s.name = some s →
      firstDeclared? lang text t.name = some t → s.name ≠ t.name → Precedes s t →
      g.function.toList = s.name → g'.function.toList = t.name → R g g') :
    (signals lang text).Pairwise R := by
  rw [signals, List.pairwise_filterMap]
  refine (pairwise_firstOfEach_declared lang text).imp_of_mem ?_
  rintro s t hs ht ⟨hne, hbefore⟩ g hg g' hg'
  have hfirst := mem_firstOfEach_iff.mp hs
  have hsecond := mem_firstOfEach_iff.mp ht
  exact h s t g g' hfirst hsecond hne hbefore
    (function_of_signalOf? (of_firstDeclared? hfirst).2 hg)
    (function_of_signalOf? (of_firstDeclared? hsecond).2 hg')

/-- The functions that are told to call themselves are the declared ones whose names stand
before a bracket at least twice. -/
theorem signals_report (lang : Language) (text : List Char) :
    Reports lang text (signals lang text) where
  names _ h := isDeclaredName_of_mem_declared h
  onward := pairwise_declared lang text
  distinct := by
    rw [List.Nodup, List.pairwise_map]
    refine pairwise_signals lang text fun s t g g' _ _ hne _ hg hg' hsame => hne ?_
    rw [← hg, ← hg', hsame]
  inOrder := by
    refine pairwise_signals lang text fun s t g g' hs ht _ hbefore hg hg' s' t' hs' ht' => ?_
    rw [hg, hs, Option.some.injEq] at hs'
    rw [hg', ht, Option.some.injEq] at ht'
    rwa [← hs', ← ht']
  reported f := by
    constructor
    · rintro ⟨g, hg, rfl⟩
      obtain ⟨s, hfirst, hsignal⟩ := mem_signals_iff.mp hg
      have hs := (of_firstDeclared? hfirst).2
      rw [function_of_signalOf? hs hsignal]
      exact ⟨⟨s, hs, rfl⟩, ((signalOf?_eq_some_iff hs).mp hsignal).1⟩
    · rintro ⟨⟨t, ht, rfl⟩, hmany⟩
      have hsome : (firstDeclared? lang text t.name).isSome = true :=
        List.find?_isSome.mpr ⟨t, ht, beq_self_eq_true t.name⟩
      obtain ⟨s, hfind⟩ := Option.isSome_iff_exists.mp hsome
      obtain ⟨hname, hs⟩ := of_firstDeclared? hfind
      have hsignal := (signalOf?_eq_some_iff hs).mpr ⟨hname ▸ hmany, rfl⟩
      refine ⟨_, mem_signals_iff.mpr ⟨s, ?_, hsignal⟩, ?_⟩
      · rw [hname]
        exact hfind
      · rw [function_of_signalOf? hs hsignal, hname]
  judged g hg := by
    obtain ⟨s, hfirst, hsignal⟩ := mem_signals_iff.mp hg
    have hs := (of_firstDeclared? hfirst).2
    refine ⟨s, ?_, isJudged_of_signalOf? hs hsignal⟩
    rw [function_of_signalOf? hs hsignal]
    exact hfirst

end BigO.Recursion
