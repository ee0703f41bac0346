-- Texts one after the other. A second text that starts at the top level ends with its
-- first line all that the first has left open. From there on it is read as it is alone,
-- and the loops of the first are only noted beside its own.
import BigO.Proofs.Enclosing
import BigO.Proofs.Places
import Mathlib.Data.List.TakeWhile

namespace BigO.Loop

open BigO.Text BigO.Loop.Enclosure

/-! ## Nestings one after the other -/

/-- What one text shows and then another: the loops of both, and the deeper of the two
nests, which is the first one's if they are as deep. -/
def Nesting.followedBy (m n : Nesting) : Nesting where
  loops := m.loops + n.loops
  depth := max m.depth n.depth
  chain := if n.depth ≤ m.depth then m.chain else n.chain
  progresses := m.progresses || n.progresses

theorem Nesting.followedBy_empty (m : Nesting) : m.followedBy {} = m := by
  simp [Nesting.followedBy]

/-- A loop of the second text is noted on the two together as it is on the second alone. -/
theorem Nesting.record_followedBy (m n : Nesting) (stack : List OpenLoop) (loop : OpenLoop) :
    (m.followedBy n).record stack loop = m.followedBy (n.record stack loop) := by
  have hchain : (if max m.depth n.depth < stack.length then stack.reverse
        else if n.depth ≤ m.depth then m.chain else n.chain) =
      if max n.depth stack.length ≤ m.depth then m.chain
        else if n.depth < stack.length then stack.reverse else n.chain := by
    by_cases hmn : n.depth ≤ m.depth
    · by_cases hstack : m.depth < stack.length
      · rw [if_pos (by omega), if_neg (by omega), if_pos (by omega)]
      · rw [if_neg (by omega), if_pos hmn, if_pos (by omega)]
    · by_cases hstack : n.depth < stack.length
      · rw [if_pos (by omega), if_neg (by omega), if_pos hstack]
      · rw [if_neg (by omega), if_neg hmn, if_neg (by omega), if_neg hstack]
  unfold Nesting.followedBy Nesting.record
  rw [Nesting.mk.injEq]
  exact ⟨Nat.add_assoc _ _ _, Nat.max_assoc _ _ _, hchain, Bool.or_assoc _ _ _⟩

/-! ## What was noted before -/

/-- The reader, had it noted something before it started. -/
def Reader.after (m : Nesting) (r : Reader) : Reader :=
  { r with nesting := m.followedBy r.nesting }

section After

variable (lang : Language) (m : Nesting)

/-- A line does to a reader what it does whatever was noted before. -/
theorem Reader.step_after (r : Reader) (line : List Char) :
    (r.after m).step lang line = (r.step lang line).after m := by
  unfold Reader.step
  split
  · rfl
  · split
    · unfold Reader.braceLine Reader.enter
      split
      · simp only [Reader.after, Nesting.record_followedBy]
        rfl
      · rfl
    · unfold Reader.indentLine Reader.enter
      split
      · simp only [Reader.after, Nesting.record_followedBy]
      · rfl

theorem Reader.foldl_step_after (ls : List (List Char)) (r : Reader) :
    ls.foldl (Reader.step lang) (r.after m) = (ls.foldl (Reader.step lang) r).after m := by
  induction ls generalizing r with
  | nil => rfl
  | cons line ls ih => rw [List.foldl_cons, List.foldl_cons, Reader.step_after, ih]

end After

/-! ## The top level -/

/-- The reader once it has read a text. -/
def readerAfter (lang : Language) (text : List Char) : Reader :=
  (lines text).foldl (Reader.step lang) {}

/-- The second text starts at the top level after the first: where braces count, the first
leaves none open, and elsewhere the first line of the second that is not blank, if there
is one, is not indented. -/
def StartsAtTop (lang : Language) (first second : List Char) : Prop :=
  if lang.profile.usesBraces then (readerAfter lang first).braces = 0
  else ∀ line ∈ (writtenLines second).head?, indentWidth line = 0

/-- Where braces count, the levels of loops start at one. -/
theorem level_pos_of_mem_stack {lang : Language} (hlang : lang.profile.usesBraces = true)
    (text : List Char) : ∀ l ∈ (readerAfter lang text).stack, 0 < l.level := by
  intro l hl
  rw [readerAfter, (hasRead_lines lang text).stack, List.mem_reverse] at hl
  obtain ⟨j, -, rfl⟩ := List.mem_map.mp hl
  simp [loopAt, levelAt, hlang]

theorem Reader.braces_step {lang : Language} (hlang : lang.profile.usesBraces = false)
    (r : Reader) (line : List Char) : (r.step lang line).braces = r.braces := by
  unfold Reader.step
  split
  · rfl
  · rw [if_neg (by simp [hlang])]
    unfold Reader.indentLine Reader.enter
    split <;> rfl

/-- Where braces do not count, none are open. -/
theorem braces_readerAfter {lang : Language} (hlang : lang.profile.usesBraces = false)
    (text : List Char) : (readerAfter lang text).braces = 0 := by
  have hfold : ∀ (ls : List (List Char)) (r : Reader),
      (ls.foldl (Reader.step lang) r).braces = r.braces := by
    intro ls
    induction ls with
    | nil => exact fun _ => rfl
    | cons line ls ih =>
      intro r
      rw [List.foldl_cons, ih, Reader.braces_step hlang]
  exact hfold (lines text) {}

/-- The first line of a text that starts at the top level ends all that is open. -/
theorem step_of_startsAtTop {lang : Language} {first second line : List Char}
    {rest : List (List Char)} (h : StartsAtTop lang first second)
    (hsecond : writtenLines second = line :: rest) :
    (readerAfter lang first).step lang line =
      Reader.step lang { readerAfter lang first with stack := [] } line := by
  have hmem : line ∈ writtenLines second := by simp [hsecond]
  have hline : isBlankText line = false := not_isBlankText_of_mem_writtenLines hmem
  unfold StartsAtTop at h
  unfold Reader.step
  simp only [hline, Bool.false_eq_true, if_false]
  cases hlang : lang.profile.usesBraces with
  | true =>
    rw [if_pos hlang] at h
    have hended : (readerAfter lang first).stack.dropWhile
        ((readerAfter lang first).braces - (trim line).count '}' < ·.level) = [] := by
      rw [List.dropWhile_eq_nil_iff]
      intro l hl
      have hlevel := level_pos_of_mem_stack hlang first l hl
      simp only [decide_eq_true_eq]
      omega
    simp only [if_true, Reader.braceLine]
    rw [hended, List.dropWhile_nil]
  | false =>
    rw [if_neg (by simp [hlang])] at h
    have hindent : indentWidth line = 0 := h line (by simp [hsecond])
    have hended : (readerAfter lang first).stack.dropWhile (indentWidth line ≤ ·.level) = [] := by
      rw [List.dropWhile_eq_nil_iff]
      intro l _
      simp [hindent]
    simp only [Bool.false_eq_true, if_false, Reader.indentLine]
    rw [hended, List.dropWhile_nil]

theorem braces_of_startsAtTop {lang : Language} {first second : List Char}
    (h : StartsAtTop lang first second) : (readerAfter lang first).braces = 0 := by
  cases hlang : lang.profile.usesBraces with
  | true =>
    unfold StartsAtTop at h
    rwa [if_pos hlang] at h
  | false => exact braces_readerAfter hlang first

/-! ## The law -/

/-- For every language and two texts of which the second starts at the top level: read one
after the other they show the loops of both, a progression if either does, and the deeper
nest of the two, with its chain; where they are as deep the first one's chain stays. -/
theorem nesting_of_two_texts (lang : Language) (first second : List Char)
    (h : StartsAtTop lang first second) :
    nesting lang (first ++ '\n' :: second) =
      (nesting lang first).followedBy (nesting lang second) := by
  have hread : nesting lang (first ++ '\n' :: second) =
      ((writtenLines second).foldl (Reader.step lang) (readerAfter lang first)).nesting := by
    rw [nesting, lines_append_cons, List.foldl_append, foldl_writtenLines]
    rfl
  have hsecond : nesting lang second =
      ((writtenLines second).foldl (Reader.step lang) {}).nesting := by
    rw [foldl_writtenLines]
    rfl
  rw [hread, hsecond]
  cases hlines : writtenLines second with
  | nil => exact (Nesting.followedBy_empty _).symm
  | cons line rest =>
    have hfresh : { readerAfter lang first with stack := [] } =
        Reader.after (nesting lang first) {} := by
      rw [Reader.after, Nesting.followedBy_empty, ← braces_of_startsAtTop h]
      rfl
    rw [List.foldl_cons, step_of_startsAtTop h hlines, hfresh, ← List.foldl_cons,
      Reader.foldl_step_after]
    rfl

/-- A loop of one line that is left open, after a brace that closes nothing. -/
def leftOpen : List Char :=
  "for (int i = 0; i < n; i++) \x7b\n\x7d\x7d\nwhile (k < 9) k *= 3;".toList

/-- A nest of two loops, the first of them on a line that closes a brace too many. -/
def deeperNest : List Char :=
  "\n\x7d for (int j = 0; j < m; j++) \x7b\n  while (j < 8) \x7b".toList

/-- A nest that is left open. -/
def leftIndented : List Char := "while k < n:\n\tfor x in range(3):".toList

/-- Blank lines, and then a loop at the margin. -/
def atTheMargin : List Char := "\n  \nfor y in range(9):\n pass".toList

theorem nesting_of_two_texts_leftOpen :
    (StartsAtTop .java leftOpen deeperNest ∧
      nesting .java (leftOpen ++ '\n' :: deeperNest) =
        ⟨4, 2, [⟨1, "m", false⟩, ⟨2, "8", false⟩], true⟩) ∧
    (StartsAtTop .python leftIndented atTheMargin ∧
      nesting .python (leftIndented ++ '\n' :: atTheMargin) =
        ⟨3, 2, [⟨0, "n", false⟩, ⟨1, "3", false⟩], false⟩) := by
  have hbraces : StartsAtTop .java leftOpen deeperNest := by
    show (readerAfter .java leftOpen).braces = 0
    decide +kernel
  have hindent : StartsAtTop .python leftIndented atTheMargin := by
    show ∀ line ∈ (writtenLines atTheMargin).head?, indentWidth line = 0
    decide +kernel
  refine ⟨⟨hbraces, ?_⟩, hindent, ?_⟩
  · rw [nesting_of_two_texts .java leftOpen deeperNest hbraces]
    decide +kernel
  · rw [nesting_of_two_texts .python leftIndented atTheMargin hindent]
    decide +kernel

end BigO.Loop
