-- Which function a product in a return calls. The name before the bracket is read off
-- the text, and nothing is asked of it: a product with a call of any function is taken for
-- factorial growth, whether or not the text declares it.
import BigO.Proofs.DeclaredNames
import Mathlib.Data.List.DropRight

namespace BigO.Recursion

open BigO.Text BigO.Scan BigO.Scan.Scanner

/-! ## Products and the functions they call -/

/-- A text that is written as a name with dots. -/
def IsDottedName (text : List Char) : Prop :=
  ∃ x xs, text = x :: xs ∧ isNameStart x = true ∧ Only isDotted xs

/-- A product with a call, from its star or the name it calls on. What is called is the word
before the bracket. -/
inductive IsProductOf (callee : List Char) : List Char → Prop where
  /-- `* g.f (`. -/
  | timesCall {gap path gap' : List Char} (hgap : Only isBlank gap)
      (hname : IsDottedName (path ++ callee)) (hcallee : Only isWord callee)
      (hpath : path.getLast?.any isWord = false) (hgap' : Only isBlank gap') :
      IsProductOf callee ('*' :: (gap ++ (path ++ (callee ++ (gap' ++ ['('])))))
  /-- `f (…) *`. -/
  | callTimes {gap inside gap' : List Char} {x : Char} (hx : x ∈ callee)
      (hname : isNameStart x = true) (hcallee : Only isWord callee) (hgap : Only isBlank gap)
      (hinside : Only inStatement inside) (hgap' : Only isBlank gap') :
      IsProductOf callee (callee ++ (gap ++ '(' :: (inside ++ ')' :: (gap' ++ ['*']))))

/-- Further on in the statement stands a product that calls `callee`, with no word cut in two. -/
def HasProductOf (callee statement : List Char) : Prop :=
  ∃ skipped product after, statement = skipped ++ (product ++ after) ∧ Only inStatement skipped ∧
    IsProductOf callee product ∧
    (skipped.getLast?.any isWord = false ∨ product.head?.any isWord = false)

/-- A return of the text has a product that calls `callee`. -/
def MultipliesBy (callee body : List Char) : Prop :=
  ∃ before statement, body = before ++ ("return".toList ++ statement) ∧
    before.getLast?.any isWord = false ∧ statement.head?.any isWord = false ∧
    HasProductOf callee statement

theorem inStatement_of_isWord {x : Char} (h : isWord x = true) : inStatement x = true := by
  unfold inStatement
  rw [Bool.and_eq_true, bne_iff_ne, bne_iff_ne]
  constructor
  · rintro rfl
    exact absurd h (by decide)
  · rintro rfl
    exact absurd h (by decide)

/-- A text is cut before the word at its end, if it ends in one. -/
theorem exists_last_word (text : List Char) :
    ∃ path last, text = path ++ last ∧ path.getLast?.any isWord = false ∧ Only isWord last := by
  refine ⟨text.rdropWhile isWord, text.rtakeWhile isWord,
    (List.rdropWhile_append_rtakeWhile ..).symm, ?_, fun x hx => List.mem_rtakeWhile_imp hx⟩
  by_cases hnil : text.rdropWhile isWord = []
  · simp [hnil]
  · have hlast := List.rdropWhile_last_not isWord text hnil
    simpa [List.getLast?_eq_some_getLast hnil] using hlast

/-- Whatever product there is calls some function. -/
theorem exists_hasProductOf {skipped product : List Char} (hskipped : Only inStatement skipped)
    (hproduct : IsProduct product) (after : List Char) :
    ∃ callee, HasProductOf callee (skipped ++ (product ++ after)) := by
  cases hproduct with
  | @timesCall gap name gap' x hgap hx hname hgap' =>
    obtain ⟨path, callee, hsplit, hpath, hcallee⟩ := exists_last_word (x :: name)
    refine ⟨callee, skipped, _, after, ?_, hskipped,
      .timesCall hgap ⟨x, name, hsplit.symm, hx, hname⟩ hcallee hpath hgap', .inr rfl⟩
    have hjoin : x :: (name ++ (gap' ++ ['('])) = path ++ (callee ++ (gap' ++ ['('])) := by
      rw [← List.cons_append, hsplit, List.append_assoc]
    rw [hjoin]
  | @callTimes name gap inside gap' x hx hname hgap hinside hgap' =>
    -- the name may be the end of a longer word, which starts in what was skipped
    obtain ⟨path, start, rfl, hpath, hstart⟩ := exists_last_word skipped
    have hcallee : Only isWord (start ++ x :: name) :=
      hstart.append (List.forall_mem_cons.mpr ⟨isWord_of_isNameStart hx, hname⟩)
    refine ⟨start ++ x :: name, path, _, after, ?_, (List.forall_mem_append.mp hskipped).1,
      .callTimes (by simp) hx hcallee hgap hinside hgap', .inl hpath⟩
    simp

theorem HasProductOf.exists_product {callee statement : List Char}
    (h : HasProductOf callee statement) :
    ∃ skipped product after, statement = skipped ++ (product ++ after) ∧ Only inStatement skipped ∧
      IsProduct product := by
  obtain ⟨skipped, product, after, rfl, hskipped, hproduct, -⟩ := h
  cases hproduct with
  | @timesCall gap path gap' hgap hname _ _ hgap' =>
    obtain ⟨x, xs, hsplit, hx, hxs⟩ := hname
    refine ⟨skipped, _, after, ?_, hskipped, .timesCall hgap hx hxs hgap'⟩
    have hjoin : path ++ (callee ++ (gap' ++ ['('])) = x :: (xs ++ (gap' ++ ['('])) := by
      rw [← List.append_assoc, hsplit, List.cons_append]
    rw [hjoin]
  | @callTimes gap inside gap' x hmem hx hcallee hgap hinside hgap' =>
    obtain ⟨start, name, rfl⟩ := List.append_of_mem hmem
    obtain ⟨hstart, hname⟩ := List.forall_mem_append.mp hcallee
    refine ⟨skipped ++ start, _, after, ?_, hskipped.append fun y hy =>
      inStatement_of_isWord (hstart y hy),
      .callTimes hx (List.forall_mem_cons.mp hname).2 hgap hinside hgap'⟩
    simp

/-- A return has a product of a call just if there is a function that the product calls. -/
theorem returnsProduct_iff_multipliesBy {body : List Char} :
    ReturnsProduct body ↔ ∃ callee, MultipliesBy callee body := by
  constructor
  · rintro ⟨before, skipped, product, after, hbody, hbefore, hafter, hskipped, hproduct⟩
    obtain ⟨callee, hcallee⟩ := exists_hasProductOf hskipped hproduct after
    exact ⟨callee, before, _, hbody, hbefore, hafter, hcallee⟩
  · rintro ⟨callee, before, statement, hbody, hbefore, hafter, hcallee⟩
    obtain ⟨skipped, product, after, rfl, hskipped, hproduct⟩ := hcallee.exists_product
    exact ⟨before, skipped, product, after, hbody, hbefore, hafter, hskipped, hproduct⟩

/-! ## Hints -/

/-- For every language, every text and every function that is reported: its hint is factorial
just if a return in the body at its first declaration has a product with a call of some
function, whichever that is, and goes by the number of calls if there is none. If all the
functions that such products call are declared in the text, then the hint is factorial just
if one of the declared functions is called so. -/
theorem factorial_by_any_call (lang : Language) (text : List Char) (g : Signal)
    (hg : g ∈ signals lang text) :
    ∃ s, firstDeclared? lang text g.function.toList = some s ∧
      let b := body lang s.start.fromLineStart
      (g.hint = .factorial ↔ ∃ callee, MultipliesBy callee b) ∧
        (g.hint ≠ .factorial → g.hint = if 2 ≤ g.selfCalls then .exponential else .linear) ∧
        ((∀ callee, MultipliesBy callee b → ∃ t ∈ declared lang text, t.name = callee) →
          (g.hint = .factorial ↔ ∃ t ∈ declared lang text, MultipliesBy t.name b)) := by
  obtain ⟨s, hfirst, hsignal⟩ := mem_signals_iff.mp hg
  have hs := (of_firstDeclared? hfirst).2
  have hjudged := isJudged_of_signalOf? hs hsignal
  rw [← function_of_signalOf? hs hsignal] at hfirst
  have hfactorial : g.hint = .factorial ↔
      ∃ callee, MultipliesBy callee (body lang s.start.fromLineStart) :=
    hjudged.factorial.trans returnsProduct_iff_multipliesBy
  refine ⟨s, hfirst, hfactorial, ?_, ?_⟩
  · intro hnot
    have hnone : ¬ ReturnsProduct (body lang s.start.fromLineStart) := mt hjudged.factorial.mpr hnot
    split
    · rename_i htwo
      exact hjudged.exponential.mpr ⟨hnone, htwo⟩
    · rename_i htwo
      exact hjudged.linear.mpr ⟨hnone, by omega⟩
  · intro hdeclared
    rw [hfactorial]
    constructor
    · rintro ⟨callee, hcallee⟩
      obtain ⟨t, ht, rfl⟩ := hdeclared callee hcallee
      exact ⟨t, ht, hcallee⟩
    · rintro ⟨t, -, ht⟩
      exact ⟨t.name, ht⟩

/-- A function that multiplies by its own result. -/
def descending : List Char :=
  "def fact(n):\n    return n * fact(n - 1)\n".toList

theorem factorial_by_any_call_descending :
    (⟨"fact", 1, .factorial⟩ : Signal) ∈ signals .python descending ∧
      ∃ callee, MultipliesBy callee descending := by
  have hmem : (⟨"fact", 1, .factorial⟩ : Signal) ∈ signals .python descending := by
    decide +kernel
  have hbody : (firstDeclared? .python descending "fact".toList).map
      (fun s => body .python s.start.fromLineStart) = some descending := by decide +kernel
  obtain ⟨s, hfirst, hfactorial, -⟩ := factorial_by_any_call .python descending _ hmem
  rw [hfirst, Option.map_some, Option.some.injEq] at hbody
  exact ⟨hmem, hbody ▸ hfactorial.mp rfl⟩

/-! ## A call of a function that is not declared -/

/-- In a product there is a star, and what is called stands behind it, or else a bracket is
closed in front of it. -/
theorem MultipliesBy.exists_star {callee body : List Char} (h : MultipliesBy callee body) :
    ∃ c ∈ Cursor.all body, c.after.head? = some '*' ∧
      (callee <:+: c.after ∨ (trimStart c.before).head? = some ')') := by
  obtain ⟨before, _, rfl, -, -, skipped, product, after, rfl, -, hproduct, -⟩ := h
  cases hproduct with
  | @timesCall gap path gap' _ _ _ _ _ =>
    refine ⟨⟨(before ++ ("return".toList ++ skipped)).reverse,
      '*' :: (gap ++ (path ++ (callee ++ (gap' ++ '(' :: after))))⟩, ?_, rfl, .inl ?_⟩
    · simp [Cursor.mem_all, Cursor.text]
    · exact ⟨'*' :: (gap ++ path), gap' ++ '(' :: after, by simp⟩
  | @callTimes gap inside gap' _ _ _ _ _ _ hgap' =>
    refine ⟨⟨(before ++ ("return".toList ++ (skipped ++ (callee ++ (gap ++ '(' ::
      (inside ++ ')' :: gap')))))).reverse, '*' :: after⟩, ?_, rfl, .inr ?_⟩
    · simp [Cursor.mem_all, Cursor.text]
    · have hblank : ∀ x ∈ gap'.reverse, isBlank x = true := fun x hx =>
        hgap' x (List.mem_reverse.mp hx)
      simp only [List.reverse_append, List.reverse_cons, List.append_assoc, trimStart]
      rw [List.dropWhile_append_of_pos hblank]
      rfl

/-- A function whose only product is with a call of another one, which is not declared. -/
def besideAbs : List Char :=
  "def f(n):\n    return f(n - 1) + 2 * abs(n)\n".toList

/-- It is not so that where the hint is factorial one of the declared functions is called in a
product: here the only one that is called so is not declared. -/
theorem undeclared_call_counts :
    (⟨"f", 1, .factorial⟩ : Signal) ∈ signals .python besideAbs ∧
      ¬ ∀ lang text, ∀ g ∈ signals lang text, g.hint = .factorial →
        ∃ s, firstDeclared? lang text g.function.toList = some s ∧
          ∃ t ∈ declared lang text, MultipliesBy t.name (body lang s.start.fromLineStart) := by
  have hmem : (⟨"f", 1, .factorial⟩ : Signal) ∈ signals .python besideAbs := by decide +kernel
  have hbody : (firstDeclared? .python besideAbs "f".toList).map
      (fun s => body .python s.start.fromLineStart) = some besideAbs := by decide +kernel
  have hnames : ∀ t ∈ (declared .python besideAbs).map (·.name), t = "f".toList := by
    decide +kernel
  refine ⟨hmem, fun hclaim => ?_⟩
  obtain ⟨s, hfirst, t, ht, hmultiplies⟩ := hclaim .python besideAbs _ hmem rfl
  rw [hfirst, Option.map_some, Option.some.injEq] at hbody
  rw [hbody, hnames t.name (List.mem_map_of_mem ht)] at hmultiplies
  have hstar : ¬ ∃ c ∈ Cursor.all besideAbs, c.after.head? = some '*' ∧
      ("f".toList <:+: c.after ∨ (trimStart c.before).head? = some ')') := by decide +kernel
  exact hstar hmultiplies.exists_star

end BigO.Recursion
