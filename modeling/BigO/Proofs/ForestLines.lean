-- The line reader on the lines of a forest. It counts the loops, its chain is
-- the way to the first of the deepest ones, and when it is through, the loops
-- that were open around the forest are open still.
import BigO.Proofs.Header

namespace BigO.Loop

open BigO.Text

/-! ## Lines with a margin -/

theorem isBlankText_margin {part : List Char} (hpart : Solid part) (n : Nat) :
    isBlankText (List.replicate n ' ' ++ part) = false := by
  have hfirst := hpart.first
  cases part with
  | nil => exact absurd hfirst (by simp)
  | cons c cs =>
    have hc : isBlank c = false := by simpa using hfirst
    simp [isBlankText, hc]

theorem trim_margin {part : List Char} (hpart : Solid part) (n : Nat) :
    trim (List.replicate n ' ' ++ part) = part := by
  have hblank : ∀ c ∈ List.replicate n ' ', isBlank c = true := by
    intro c hc
    rw [(List.mem_replicate.mp hc).2]
    decide
  have hnil : ∀ c ∈ ([] : List Char), isBlank c = true := by simp
  simpa using hpart.trim hblank hnil

theorem indentWidth_margin {part : List Char} (hpart : Solid part) (n : Nat) :
    indentWidth (List.replicate n ' ' ++ part) = n := by
  have hblank : ∀ c ∈ List.replicate n ' ', isBlank c = true := by
    intro c hc
    rw [(List.mem_replicate.mp hc).2]
    decide
  have hfirst := hpart.first
  unfold indentWidth
  rw [List.takeWhile_append_of_pos hblank]
  cases part with
  | nil => exact absurd hfirst (by simp)
  | cons c cs =>
    have hc : ¬ isBlank c = true := by simpa using hfirst
    rw [List.takeWhile_cons_of_neg hc]
    simp

/-! ## Levels -/

namespace Forest

/-- The number of braces open around a loop. -/
def bracesAt (lang : Language) (level : Nat) : Nat :=
  if lang.profile.usesBraces then level else 0

/-- The level that the reader gives a loop. -/
def mark (lang : Language) (unit level : Nat) : Nat :=
  if lang.profile.usesBraces then level + 1 else unit * level

/-- The open loop that the reader makes of a header. -/
def opened (lang : Language) (unit level : Nat) (b : Bound) : OpenLoop :=
  ⟨mark lang unit level, String.ofList b.text, false⟩

theorem mark_lt {lang : Language} {unit : Nat} (hunit : 0 < unit ∨ lang.profile.usesBraces = true)
    (level : Nat) : mark lang unit level < mark lang unit (level + 1) := by
  unfold mark
  split
  · omega
  · rename_i hbraces
    rcases hunit with hunit | hunit
    · rw [Nat.mul_add]
      omega
    · exact absurd hunit hbraces

end Forest

/-- The open loops of a stack that stay open when a loop opens at a level. -/
def under (level : Nat) (stack : List OpenLoop) : List OpenLoop :=
  stack.dropWhile (level ≤ ·.level)

theorem under_under {m n : Nat} (h : m ≤ n) (stack : List OpenLoop) :
    under m (under n stack) = under m stack := by
  induction stack with
  | nil => rfl
  | cons l ls ih =>
    unfold under at ih ⊢
    by_cases hn : n ≤ l.level
    · rw [List.dropWhile_cons_of_pos (by simpa using hn), ih,
        List.dropWhile_cons_of_pos (by simpa using Nat.le_trans h hn)]
    · rw [List.dropWhile_cons_of_neg (by simpa using hn)]

theorem under_cons_of_le {level : Nat} {l : OpenLoop} (h : level ≤ l.level)
    (stack : List OpenLoop) : under level (l :: stack) = under level stack :=
  List.dropWhile_cons_of_pos (by simpa using h)

theorem under_cons_of_lt {level : Nat} {l : OpenLoop} (h : l.level < level)
    (stack : List OpenLoop) : under level (l :: stack) = l :: stack :=
  List.dropWhile_cons_of_neg (by simpa using h)

theorem length_under_le (level : Nat) (stack : List OpenLoop) :
    (under level stack).length ≤ stack.length :=
  (List.dropWhile_sublist _).length_le

/-! ## One line -/

theorem enter_of_opensLoop {lang : Language} {line : List Char} (h : lang.opensLoop line = true)
    (r : Reader) (level : Nat) :
    r.enter lang line level =
      { r with
        stack := openLoop lang line level :: r.stack
        nesting := r.nesting.record (openLoop lang line level :: r.stack)
          (openLoop lang line level) } :=
  if_pos h

theorem enter_of_not_opensLoop {lang : Language} {line : List Char}
    (h : lang.opensLoop line = false) (r : Reader) (level : Nat) : r.enter lang line level = r :=
  if_neg (by simp [h])

namespace Forest

theorem solid_closing (lang : Language) : Solid (closing lang) := by
  cases lang <;> constructor <;> decide

theorem openLoop_header (lang : Language) (unit level : Nat) (b : Bound) :
    openLoop lang (header lang b) (mark lang unit level) = opened lang unit level b := by
  simp [openLoop, opened, loopBound_header, not_scales_header]

theorem count_header (lang : Language) (b : Bound) {x : Char} (hx : isTokenChar x = false) :
    (header lang b).count x = (headerStart lang ++ headerEnd lang).count x := by
  have hbound : b.text.count x = 0 := List.count_eq_zero.mpr (b.notMem hx)
  rw [header, List.count_append, List.count_append, List.count_append, hbound]
  omega

/-- A header closes no brace and opens one. -/
theorem braces_header {lang : Language} (hlang : lang.profile.usesBraces = true) (b : Bound) :
    (header lang b).count '}' = 0 ∧ (header lang b).count '{' = 1 := by
  rw [count_header lang b (by decide), count_header lang b (by decide)]
  cases lang with
  | python => exact absurd hlang (by decide)
  | java | c => decide

theorem braces_closing {lang : Language} (hlang : lang.profile.usesBraces = true) :
    (closing lang).count '}' = 1 ∧ (closing lang).count '{' = 0 := by
  cases lang with
  | python => exact absurd hlang (by decide)
  | java | c => decide

/-- A header opens its loop on what stays open under it. -/
theorem step_header {lang : Language} {unit level : Nat} {r : Reader}
    (hr : r.braces = bracesAt lang level) (b : Bound) :
    r.step lang (margin unit level ++ header lang b) =
      { stack := opened lang unit level b :: under (mark lang unit level) r.stack
        braces := bracesAt lang (level + 1)
        nesting := r.nesting.record
          (opened lang unit level b :: under (mark lang unit level) r.stack)
          (opened lang unit level b) } := by
  have hsolid := solid_header lang b
  have hopens := opensLoop_header lang b
  have hloop := openLoop_header lang unit level b
  unfold Reader.step margin
  rw [isBlankText_margin hsolid, trim_margin hsolid, indentWidth_margin hsolid]
  cases hbraces : lang.profile.usesBraces with
  | false =>
    simp only [mark, bracesAt, hbraces, Bool.false_eq_true, if_false] at hr hloop ⊢
    rw [Reader.indentLine, enter_of_opensLoop hopens, hloop, hr]
    rfl
  | true =>
    obtain ⟨hclose, hopen⟩ := braces_header hbraces b
    simp only [mark, bracesAt, hbraces, Bool.false_eq_true, if_true, if_false] at hr hloop ⊢
    rw [Reader.braceLine, hclose, hopen, hr, Nat.sub_zero, enter_of_opensLoop hopens, hloop]
    rfl

/-- The closing line of a language only takes loops off the stack. -/
theorem step_closing {lang : Language} (r : Reader) (n : Nat) :
    r.step lang (List.replicate n ' ' ++ closing lang) =
      if lang.profile.usesBraces then
        { r with stack := under (r.braces - 1 + 1) r.stack, braces := r.braces - 1 }
      else { r with stack := under n r.stack } := by
  have hsolid := solid_closing lang
  have hopens := not_opensLoop_closing lang
  unfold Reader.step
  rw [isBlankText_margin hsolid, trim_margin hsolid, indentWidth_margin hsolid]
  cases hbraces : lang.profile.usesBraces with
  | false =>
    simp only [Bool.false_eq_true, if_false]
    rw [Reader.indentLine, enter_of_not_opensLoop hopens]
    rfl
  | true =>
    obtain ⟨hclose, hopen⟩ := braces_closing hbraces
    simp only [Bool.false_eq_true, if_true, if_false]
    rw [Reader.braceLine, hclose, hopen, enter_of_not_opensLoop hopens]
    rfl

/-- The lines after the loops inside a loop leave what is open around it. -/
theorem foldl_step_closingLines {lang : Language} {unit level : Nat} {r : Reader}
    (hunit : 0 < unit ∨ lang.profile.usesBraces = true)
    (hr : r.braces = bracesAt lang (level + 1)) (inner : Forest) :
    ∃ stack, (closingLines lang unit level inner).foldl (Reader.step lang) r =
        { r with stack := stack, braces := bracesAt lang level } ∧
      stack.length ≤ r.stack.length ∧
      ∀ m ≤ mark lang unit level, under m stack = under m r.stack := by
  have hlt := mark_lt hunit level
  cases hbraces : lang.profile.usesBraces with
  | true =>
    simp only [closingLines, margin, mark, bracesAt, hbraces, if_true] at hr hlt ⊢
    refine ⟨under (level + 1) r.stack, ?_, length_under_le _ _, fun m hm => under_under hm _⟩
    rw [List.foldl_cons, List.foldl_nil, step_closing, if_pos hbraces, hr, Nat.add_sub_cancel]
  | false =>
    simp only [closingLines, margin, mark, bracesAt, hbraces, Bool.false_eq_true, if_false]
      at hr hlt ⊢
    cases inner with
    | loop b f g =>
      refine ⟨r.stack, ?_, Nat.le_refl _, fun m _ => rfl⟩
      rw [← hr]
      rfl
    | empty =>
      refine ⟨under (unit * (level + 1)) r.stack, ?_, length_under_le _ _, ?_⟩
      · rw [List.foldl_cons, List.foldl_nil, step_closing, if_neg (by simp [hbraces]), ← hr]
      · intro m hm
        exact under_under (by omega) _

/-! ## All the lines -/

/-- The reader is between two lines of a forest: the braces around it are
open, and the chain is as long as any stack has been. -/
structure Steady (lang : Language) (level : Nat) (r : Reader) : Prop where
  braces : r.braces = bracesAt lang level
  depth : r.nesting.depth = r.nesting.chain.length
  height : r.stack.length ≤ r.nesting.chain.length

/-- What the reader has seen between two states: the loops of a forest. -/
structure Sees (lang : Language) (unit level : Nat) (f : Forest) (r s : Reader) : Prop where
  steady : Steady lang level s
  loops : s.nesting.loops = r.nesting.loops + f.count
  progresses : s.nesting.progresses = r.nesting.progresses
  chain : s.nesting.chain = longer r.nesting.chain
    ((under (mark lang unit level) r.stack).reverse ++ f.path (opened lang unit) level)
  around : ∀ m ≤ mark lang unit level, under m s.stack = under m r.stack

theorem record_eq {n : Nesting} (hn : n.depth = n.chain.length) (stack : List OpenLoop)
    {l : OpenLoop} (hl : l.progresses = false) :
    n.record stack l =
      { loops := n.loops + 1
        depth := (longer n.chain stack.reverse).length
        chain := longer n.chain stack.reverse
        progresses := n.progresses } := by
  rw [Nesting.record, length_longer, hl, hn]
  simp [longer]

/-- Opening a loop keeps the reader steady, one level further in. -/
theorem steady_header {lang : Language} {level : Nat} {r : Reader} (hr : Steady lang level r)
    (unit : Nat) (b : Bound) :
    Steady lang (level + 1) (r.step lang (margin unit level ++ header lang b)) := by
  rw [step_header hr.braces, record_eq hr.depth _ rfl]
  refine ⟨rfl, rfl, ?_⟩
  rw [length_longer, List.length_reverse]
  exact Nat.le_max_right _ _

/-- Reading the lines of a forest shows its loops, from any state. -/
theorem sees_lines {lang : Language} {unit : Nat}
    (hunit : 0 < unit ∨ lang.profile.usesBraces = true) (f : Forest) :
    ∀ (level : Nat) (r : Reader), Steady lang level r →
      Sees lang unit level f r ((f.lines lang unit level).foldl (Reader.step lang) r) := by
  induction f with
  | empty =>
    intro level r hr
    refine ⟨hr, rfl, rfl, ?_, fun m _ => rfl⟩
    have hheight := Nat.le_trans (length_under_le (mark lang unit level) r.stack) hr.height
    rw [path, List.append_nil, longer_eq_left (by rwa [List.length_reverse])]
    rfl
  | loop b inner rest ihi ihr =>
    intro level r hr
    -- the header, the inner loops one level down, the closing lines, then the loops after it
    have hlt := mark_lt hunit level
    have hinner := ihi (level + 1) _ (steady_header hr unit b)
    obtain ⟨stack, hclosing, hlength, hstack⟩ :=
      foldl_step_closingLines hunit hinner.steady.braces inner
    rw [lines, List.foldl_cons, List.foldl_append, List.foldl_append, hclosing]
    rw [step_header hr.braces, record_eq hr.depth _ rfl] at hinner hlength hstack ⊢
    generalize hs : (inner.lines lang unit (level + 1)).foldl (Reader.step lang) _ = s
      at hinner hlength hstack ⊢
    have hrest := ihr level { s with stack := stack, braces := bracesAt lang level }
      ⟨rfl, hinner.steady.depth, Nat.le_trans hlength hinner.steady.height⟩
    -- the loop itself is gone from what is open at its own level or below
    have haround : ∀ m ≤ mark lang unit level, under m stack = under m r.stack := by
      intro m hm
      rw [hstack m hm, hinner.around m (by omega)]
      rw [under_cons_of_le (by simpa [opened] using hm), under_under hm]
    refine ⟨hrest.steady, ?_, ?_, ?_, ?_⟩
    · rw [hrest.loops, hinner.loops, count]
      simp only
      omega
    · rw [hrest.progresses, hinner.progresses]
    · rw [hrest.chain, hinner.chain, path]
      simp only
      rw [haround _ (Nat.le_refl _), under_cons_of_lt (by simpa [opened] using hlt),
        List.reverse_cons, longer_nest]
    · intro m hm
      rw [hrest.around m hm]
      exact haround m hm

end Forest

end BigO.Loop
