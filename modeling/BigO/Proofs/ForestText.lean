-- The signals that the text of a forest gives. Besides its loops the text has
-- nothing to show: no comments, no call that sorts, no function.
import BigO.Lexical
import BigO.Proofs.ForestLines
import BigO.Proofs.SortCalls
import BigO.Proofs.Undeclared

/-! ## Texts without comments -/

namespace BigO.Comments

theorem dropBlocks_of_notMem {x : Char} {text : List Char} (h : x ∉ text)
    (opening closing : List Char) : dropBlocks (x :: opening) closing 0 text = text := by
  induction text with
  | nil => rfl
  | cons c cs ih =>
    rw [List.mem_cons, not_or] at h
    have hx : (x :: opening).isPrefixOf (c :: cs) = false := by
      simp [List.isPrefixOf, h.1]
    rw [dropBlocks, blockLength?, hx, if_neg (by decide)]
    simp only
    rw [ih h.2]

theorem cutLines_of_notMem {x : Char} {text : List Char} (h : x ∉ text) (mark : List Char) :
    cutLines (x :: mark) false text = text := by
  induction text with
  | nil => rfl
  | cons c cs ih =>
    rw [List.mem_cons, not_or] at h
    have hx : (x :: mark).isPrefixOf (c :: cs) = false := by
      simp [List.isPrefixOf, h.1]
    rw [cutLines, hx, ih h.2]
    simp

/-- A mark that does not stand in a text at all: not even its first character does. -/
def Absent (mark text : List Char) : Prop :=
  ∃ x rest, mark = x :: rest ∧ x ∉ text

/-- A text without the marks of any comment stays as it is. -/
theorem strip_of_absent {style : CommentStyle} {text : List Char}
    (hblocks : ∀ marks ∈ style.blocks, Absent marks.1 text) (hline : Absent style.line text) :
    strip style text = text := by
  have hfold : ∀ blocks : List (List Char × List Char), (∀ marks ∈ blocks, Absent marks.1 text) →
      blocks.foldl (fun t marks => dropBlocks marks.1 marks.2 0 t) text = text := by
    intro blocks h
    induction blocks with
    | nil => rfl
    | cons marks blocks ih =>
      obtain ⟨x, rest, hx, hmem⟩ := h marks (List.mem_cons_self ..)
      rw [List.foldl_cons, hx, dropBlocks_of_notMem hmem]
      exact ih fun m hm => h m (List.mem_cons_of_mem _ hm)
  have hsweep : sweep style text = text := by
    obtain ⟨x, rest, hx, hmem⟩ := hline
    rw [sweep, hfold _ hblocks, hx, cutLines_of_notMem hmem]
  unfold strip
  cases text.length with
  | zero => rfl
  | succ n => simp [settle, hsweep]

end BigO.Comments

/-! ## Lines of the text -/

namespace BigO.Text

theorem mem_joinLines {x : Char} {ls : List (List Char)} (h : x ∈ joinLines ls) :
    x = '\n' ∨ ∃ l ∈ ls, x ∈ l := by
  induction ls with
  | nil => simp [joinLines] at h
  | cons l ls ih =>
    cases ls with
    | nil => exact .inr ⟨l, List.mem_cons_self .., h⟩
    | cons m ms =>
      rw [joinLines, List.mem_append, List.mem_cons] at h
      rcases h with h | h | h
      · exact .inr ⟨l, List.mem_cons_self .., h⟩
      · exact .inl h
      · rcases ih h with h | ⟨k, hk, hx⟩
        · exact .inl h
        · exact .inr ⟨k, List.mem_cons_of_mem _ hk, hx⟩

end BigO.Text

namespace BigO.Loop.Forest

open BigO.Text BigO.Scan BigO.Scan.Scanner

/-- A line of a forest without its margin. -/
inductive IsPart (lang : Language) : List Char → Prop
  | header (b : Bound) : IsPart lang (header lang b)
  | closing : IsPart lang (closing lang)

theorem IsPart.solid {lang : Language} {part : List Char} (h : IsPart lang part) : Solid part := by
  cases h with
  | header b => exact solid_header lang b
  | closing => exact solid_closing lang

theorem exists_part_of_mem_lines {lang : Language} {unit level : Nat} {f : Forest}
    {line : List Char} (h : line ∈ f.lines lang unit level) :
    ∃ n part, IsPart lang part ∧ line = List.replicate n ' ' ++ part := by
  induction f generalizing level with
  | empty => simp [lines] at h
  | loop b inner rest ihi ihr =>
    rw [lines, List.mem_cons, List.mem_append, List.mem_append] at h
    rcases h with rfl | (h | h) | h
    · exact ⟨_, _, .header b, rfl⟩
    · exact ihi h
    · unfold closingLines at h
      split at h
      · rw [List.mem_singleton] at h
        exact ⟨_, _, .closing, h⟩
      · split at h
        · rw [List.mem_singleton] at h
          exact ⟨_, _, .closing, h⟩
        · simp at h
    · exact ihr h

/-- What all lines of a forest are made of, but for the bounds. -/
def fixedText (lang : Language) : List Char :=
  ' ' :: (headerStart lang ++ headerEnd lang ++ closing lang)

theorem notMem_of_mem_lines {lang : Language} {x : Char} (hx : isTokenChar x = false)
    (hfixed : x ∉ fixedText lang) {unit level : Nat} {f : Forest} {line : List Char}
    (hline : line ∈ f.lines lang unit level) : x ∉ line := by
  obtain ⟨n, part, hpart, rfl⟩ := exists_part_of_mem_lines hline
  simp only [fixedText, List.mem_cons, List.mem_append, not_or] at hfixed
  obtain ⟨hspace, ⟨hstart, hend⟩, hclosing⟩ := hfixed
  rw [List.mem_append, not_or]
  refine ⟨fun h => hspace (List.mem_replicate.mp h).2, ?_⟩
  cases hpart with
  | header b =>
    rw [header, List.mem_append, List.mem_append, not_or, not_or]
    exact ⟨hstart, b.notMem hx, hend⟩
  | closing => exact hclosing

theorem notMem_source {lang : Language} {x : Char} (hx : isTokenChar x = false)
    (hfixed : x ∉ '\n' :: fixedText lang) (unit : Nat) (f : Forest) : x ∉ f.source lang unit := by
  rw [List.mem_cons, not_or] at hfixed
  intro h
  rcases mem_joinLines h with h | ⟨line, hline, hmem⟩
  · exact hfixed.1 h
  · exact notMem_of_mem_lines hx hfixed.2 hline hmem

theorem lines_source {lang : Language} {unit : Nat} {f : Forest} (hf : f ≠ empty) :
    Text.lines (f.source lang unit) = f.lines lang unit 0 := by
  refine lines_joinLines ?_ ?_
  · cases f with
    | empty => exact absurd rfl hf
    | loop b inner rest => simp [lines]
  · intro l hl
    refine notMem_of_mem_lines (by decide) ?_ hl
    cases lang <;> decide

/-- The text of a forest has no comments. -/
theorem withoutComments_source (lang : Language) (unit : Nat) (f : Forest) :
    lang.withoutComments (f.source lang unit) = f.source lang unit := by
  unfold Language.withoutComments
  cases lang with
  | python =>
    refine Comments.strip_of_absent ?_ ⟨'#', [], rfl, notMem_source (by decide) (by decide) unit f⟩
    intro marks hmarks
    rcases List.mem_cons.mp hmarks with rfl | hmarks
    · exact ⟨'"', _, rfl, notMem_source (by decide) (by decide) unit f⟩
    · rw [List.mem_singleton.mp hmarks]
      exact ⟨'\'', _, rfl, notMem_source (by decide) (by decide) unit f⟩
  | java | c =>
    refine Comments.strip_of_absent ?_ ⟨'/', _, rfl, notMem_source (by decide) (by decide) unit f⟩
    intro marks hmarks
    rw [List.mem_singleton.mp hmarks]
    exact ⟨'/', _, rfl, notMem_source (by decide) (by decide) unit f⟩

/-! ## Calls that sort -/

/-- Every opening bracket stands, but for blanks, right after an `e` or an `r`.
The nearest character behind that is no blank is given. -/
def opensAfter (last : Char) : List Char → Bool
  | [] => true
  | c :: cs =>
    if isBlank c then opensAfter last cs
    else (c != '(' || last == 'e' || last == 'r') && opensAfter c cs

/-- So it is whatever stands before the text. -/
def Guarded (text : List Char) : Prop :=
  ∀ last, opensAfter last text = true

theorem guarded_of_notMem {text : List Char} (h : '(' ∉ text) : Guarded text := by
  induction text with
  | nil => exact fun _ => rfl
  | cons c cs ih =>
    rw [List.mem_cons, not_or] at h
    intro last
    rw [opensAfter]
    split
    · exact ih h.2 last
    · rw [ih h.2 c, Bool.and_true, bne_iff_ne.mpr (Ne.symm h.1)]
      rfl

theorem opensAfter_append {last : Char} {a b : List Char} (ha : opensAfter last a = true)
    (hb : Guarded b) : opensAfter last (a ++ b) = true := by
  induction a generalizing last with
  | nil => exact hb last
  | cons c cs ih =>
    rw [List.cons_append]
    rw [opensAfter] at ha ⊢
    split
    · rw [if_pos ‹_›] at ha
      exact ih ha
    · rw [if_neg ‹_›, Bool.and_eq_true] at ha
      rw [ha.1, ih ha.2]
      rfl

theorem Guarded.append {a b : List Char} (ha : Guarded a) (hb : Guarded b) : Guarded (a ++ b) :=
  fun last => opensAfter_append (ha last) hb

theorem guarded_joinLines {ls : List (List Char)} (h : ∀ l ∈ ls, Guarded l) :
    Guarded (joinLines ls) := by
  induction ls with
  | nil => exact fun _ => rfl
  | cons l ls ih =>
    cases ls with
    | nil => exact h l (List.mem_cons_self ..)
    | cons m ms =>
      have hrest := ih fun k hk => h k (List.mem_cons_of_mem _ hk)
      have hfeed : Guarded ['\n'] := guarded_of_notMem (by decide)
      exact (h l (List.mem_cons_self ..)).append (hfeed.append hrest)

/-- In a text of a forest brackets open only after `range` and `for`. -/
theorem guarded_source (lang : Language) (unit : Nat) (f : Forest) :
    Guarded (f.source lang unit) := by
  refine guarded_joinLines fun l hl => ?_
  obtain ⟨n, part, hpart, rfl⟩ := exists_part_of_mem_lines hl
  refine Guarded.append (guarded_of_notMem fun h => ?_) ?_
  · exact absurd (List.mem_replicate.mp h).2 (by decide)
  cases hpart with
  | closing => exact guarded_of_notMem (by cases lang <;> decide)
  | header b =>
    have hend : '(' ∉ headerEnd lang := by cases lang <;> decide
    have hrest : Guarded (b.text ++ headerEnd lang) :=
      (guarded_of_notMem (b.notMem (by decide))).append (guarded_of_notMem hend)
    refine fun last => opensAfter_append ?_ hrest
    cases lang <;> rfl

theorem exists_opensAfter_of_append {last : Char} {a b : List Char}
    (h : opensAfter last (a ++ b) = true) : ∃ c, opensAfter c b = true := by
  induction a generalizing last with
  | nil => exact ⟨last, h⟩
  | cons c cs ih =>
    rw [List.cons_append, opensAfter] at h
    split at h
    · exact ih h
    · rw [Bool.and_eq_true] at h
      exact ih h.2

theorem opensAfter_bracket {last : Char} {blanks after : List Char}
    (hblanks : ∀ x ∈ blanks, isBlank x = true)
    (h : opensAfter last (blanks ++ '(' :: after) = true) : last = 'e' ∨ last = 'r' := by
  induction blanks with
  | nil =>
    have hbracket : isBlank '(' = false := by decide
    rw [List.nil_append, opensAfter, hbracket, if_neg (by decide), Bool.and_eq_true] at h
    simpa using h.1
  | cons x xs ih =>
    rw [List.cons_append, opensAfter, if_pos (hblanks x (List.mem_cons_self ..))] at h
    exact ih (fun y hy => hblanks y (List.mem_cons_of_mem _ hy)) h

theorem not_hasCall_of_guarded {text : List Char} (hguard : Guarded text) (hdot : '.' ∉ text) :
    ¬ HasCall text := by
  rintro (h | ⟨before, c, blanks, after, rfl, hblanks, hc, he, hr⟩)
  · exact hdot h
  · obtain ⟨last, hlast⟩ := exists_opensAfter_of_append (hguard 'e')
    rw [opensAfter, hc, if_neg (by decide), Bool.and_eq_true] at hlast
    rcases opensAfter_bracket hblanks hlast.2 with h | h
    · exact he h
    · exact hr h

theorem not_hasCall_source (lang : Language) (unit : Nat) (f : Forest) :
    ¬ HasCall (f.source lang unit) := by
  refine not_hasCall_of_guarded (guarded_source lang unit f) (notMem_source (by decide) ?_ unit f)
  cases lang <;> decide

theorem sorts_source (lang : Language) (unit : Nat) (f : Forest) :
    Lexical.sorts lang (f.source lang unit) = [] := by
  have hsort : ∀ l ∈ Text.lines (f.source lang unit), lang.isSortLine l = false := by
    intro l hl
    have hcall : ¬ HasCall l := by
      intro h
      exact not_hasCall_source lang unit f (h.of_isInfix (infix_of_mem_lines hl))
    rw [Language.isSortLine, List.any_eq_false]
    intro s hs
    rw [not_occurs_sortCall hcall (List.mem_append_left _ hs)]
    decide
  rw [Lexical.sorts, List.map_eq_nil_iff, List.filter_eq_nil_iff]
  intro l hl
  rw [hsort l hl]
  decide

/-! ## Functions -/

/-- Past the margin of a line stands what the line is made of. -/
theorem exists_part_afterMargin {lang : Language} {unit : Nat} {f : Forest} (hf : f ≠ empty)
    {c : Cursor} (hc : c ∈ Cursor.all (f.source lang unit)) (hstart : c.atLineStart = true) :
    ∃ part rest, IsPart lang part ∧ Recursion.afterMargin c = part ++ rest := by
  obtain ⟨l, hl, rest, hrest⟩ := exists_line_of_atLineStart hc hstart
  rw [lines_source hf] at hl
  obtain ⟨n, part, hpart, rfl⟩ := exists_part_of_mem_lines hl
  refine ⟨part, rest, hpart, ?_⟩
  have hblank : ∀ x ∈ List.replicate n ' ', Recursion.isInLineBlank x = true := by
    intro x hx
    rw [(List.mem_replicate.mp hx).2]
    decide
  have hfirst : ∃ x xs, part = x :: xs ∧ Recursion.isInLineBlank x = false := by
    cases hpart with
    | header b => cases lang <;> exact ⟨_, _, rfl, by decide⟩
    | closing => cases lang <;> exact ⟨_, _, rfl, by decide⟩
  obtain ⟨x, xs, rfl, hx⟩ := hfirst
  rw [Recursion.afterMargin, ← hrest, List.append_assoc, List.dropWhile_append_of_pos hblank,
    List.cons_append, List.dropWhile_cons_of_neg (by simp [hx])]

/-- No line of a forest declares a function. -/
theorem signature_eq_nil {lang : Language} {unit : Nat} {f : Forest} (hf : f ≠ empty) {c : Cursor}
    (hc : c ∈ Cursor.all (f.source lang unit)) {s : Scanner Recursion.Signature}
    (hs : s ∈ lang.profile.signatures) : s c = [] := by
  have hpart := exists_part_afterMargin hf hc
  have hblock : lang ≠ .python → c.atLineStart = true →
      Recursion.OpensOrCloses (Recursion.afterMargin c) := by
    intro hlang hstart
    obtain ⟨part, rest, hpart, hafter⟩ := hpart hstart
    rw [hafter]
    cases hpart with
    | header b =>
      left
      cases lang with
      | python => exact absurd rfl hlang
      | java | c => exact ⟨_, rfl⟩
    | closing =>
      right
      cases lang with
      | python => exact absurd rfl hlang
      | java | c => exact ⟨_, rfl⟩
  cases lang with
  | python =>
    rw [List.mem_singleton.mp hs]
    refine Recursion.defSignature_eq_nil fun hstart => ?_
    obtain ⟨part, rest, hpart, hafter⟩ := hpart hstart
    rw [hafter]
    cases hpart with
    | header b => exact .inl rfl
    | closing => exact .inr rfl
  | java =>
    rw [List.mem_singleton.mp hs]
    exact Recursion.methodSignature_eq_nil (hblock (by decide))
  | c =>
    rw [List.mem_singleton.mp hs]
    exact Recursion.blockSignature_eq_nil (hblock (by decide))

theorem recursion_source (lang : Language) (unit : Nat) (f : Forest) :
    Recursion.signals lang (f.source lang unit) = [] := by
  cases f with
  | empty => cases lang <;> rfl
  | loop b inner rest =>
    have hdeclared : Recursion.declared lang ((loop b inner rest).source lang unit) = [] := by
      rw [Recursion.declared, List.flatMap_eq_nil_iff]
      intro s hs
      exact findAll_eq_nil fun c hc => signature_eq_nil (by simp) hc hs
    rw [Recursion.signals, hdeclared]
    rfl

/-! ## Signals -/

theorem nesting_source {lang : Language} {unit : Nat}
    (hunit : 0 < unit ∨ lang.profile.usesBraces = true) (f : Forest) :
    nesting lang (f.source lang unit) =
      { loops := f.count
        depth := f.height
        chain := f.path (opened lang unit) 0
        progresses := false } := by
  have hlines : (Text.lines (f.source lang unit)).foldl (Reader.step lang) {} =
      (f.lines lang unit 0).foldl (Reader.step lang) {} := by
    cases f with
    | empty => rfl
    | loop b inner rest => rw [lines_source (by simp)]
  have hstart : Steady lang 0 {} := by
    refine ⟨?_, rfl, Nat.le_refl 0⟩
    unfold bracesAt
    split <;> rfl
  have hsees := sees_lines hunit f 0 {} hstart
  rw [nesting, hlines]
  generalize (f.lines lang unit 0).foldl (Reader.step lang) {} = r at hsees ⊢
  obtain ⟨stack, braces, loops, depth, chain, progresses⟩ := r
  have hloops : loops = 0 + f.count := hsees.loops
  have hchain : chain = f.path (opened lang unit) 0 := hsees.chain.trans (longer_nil_left _)
  have hdepth : depth = chain.length := hsees.steady.depth
  have hprogresses : progresses = false := hsees.progresses
  rw [Nat.zero_add] at hloops
  rw [hchain, length_path] at hdepth
  subst hloops hchain hdepth hprogresses
  rfl

/-- The text of a forest gives the loops of the forest and nothing else. -/
theorem signals_source {lang : Language} {unit : Nat}
    (hunit : 0 < unit ∨ lang.profile.usesBraces = true) (f : Forest) :
    Lexical.signals lang (String.ofList (f.source lang unit)) =
      { language := lang.name
        loops := f.count
        depth := f.height
        bounds := f.deepest.map fun b => String.ofList b.text
        factors := f.deepest.map Bound.factor } := by
  have hbounds : (f.path (opened lang unit) 0).map (·.bound) =
      f.deepest.map fun b => String.ofList b.text := by
    refine map_path (fun level b => ?_) 0 f
    rfl
  have hfactors : (f.path (opened lang unit) 0).map (·.factor) = f.deepest.map Bound.factor := by
    refine map_path (fun level b => ?_) 0 f
    simp [opened, OpenLoop.factor, Bound.factor]
  rw [Lexical.signals, String.toList_ofList, withoutComments_source, Lexical.strippedSignals,
    nesting_source hunit, sorts_source, recursion_source, hbounds, hfactors]

end BigO.Loop.Forest
