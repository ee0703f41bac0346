-- What an indented body takes of a text, line by line. Lines that go together, the first one
-- indented to some width and the others deeper, are taken all or none; so a body takes the
-- same of what stands around them, whatever lines they are.
import BigO.Proofs.BareBodies
import Mathlib.Data.List.TakeWhile

namespace BigO.Text

/-! ## Lines before and after -/

/-- Lines in a row, each with the line feed before it. -/
def feedLines (ls : List (List Char)) : List Char :=
  ls.flatMap ('\n' :: ·)

theorem feedLines_append (ls ms : List (List Char)) :
    feedLines (ls ++ ms) = feedLines ls ++ feedLines ms :=
  List.flatMap_append

theorem joinLines_cons (l : List Char) (ls : List (List Char)) :
    joinLines (l :: ls) = l ++ feedLines ls := by
  induction ls generalizing l with
  | nil => simp [joinLines, feedLines]
  | cons m ls ih => rw [joinLines, ih, feedLines, feedLines, List.flatMap_cons, List.cons_append]

theorem joinLines_lines_append (text : List Char) (ls : List (List Char)) :
    joinLines (lines text ++ ls) = text ++ feedLines ls := by
  obtain ⟨l, more, hlines⟩ := List.exists_cons_of_ne_nil (lines_ne_nil text)
  have hjoin := joinLines_lines text
  rw [hlines, joinLines_cons] at hjoin
  rw [hlines, List.cons_append, joinLines_cons, feedLines_append, ← List.append_assoc, hjoin]

/-- A line starts after the text. -/
def EndsLine (text : List Char) : Prop :=
  text = [] ∨ text.getLast? = some '\n'

/-- The lines of a text after which a line starts are lines of the whole. -/
theorem EndsLine.exists_lines {above : List Char} (h : EndsLine above) : ∃ ls,
    (∀ text, lines (above ++ text) = ls ++ lines text) ∧
      ∀ text ms, joinLines (ls ++ (lines text ++ ms)) = above ++ (text ++ feedLines ms) := by
  rcases h with rfl | hlast
  · exact ⟨[], fun text => rfl, joinLines_lines_append⟩
  · obtain ⟨first, rfl⟩ := List.getLast?_eq_some_iff.mp hlast
    refine ⟨lines first, fun text => ?_, fun text ms => ?_⟩
    · rw [List.append_assoc]
      exact lines_append_cons first text
    · obtain ⟨l, more, hlines⟩ := List.exists_cons_of_ne_nil (lines_ne_nil text)
      have hfeed : feedLines (lines text ++ ms) = '\n' :: joinLines (lines text ++ ms) := by
        rw [hlines, List.cons_append, joinLines_cons]
        rfl
      rw [joinLines_lines_append, hfeed, joinLines_lines_append, List.append_assoc]
      rfl

/-- So are the lines of a text that starts with a line feed. -/
theorem exists_lines_append {below : List Char} (h : below.head?.all (· == '\n') = true) :
    ∃ ls, ∀ text, lines (text ++ below) = lines text ++ ls := by
  cases below with
  | nil => exact ⟨[], fun text => by simp⟩
  | cons x xs =>
    obtain rfl : x = '\n' := by simpa using h
    exact ⟨lines xs, fun text => lines_append_cons text xs⟩

/-- A text that is not blank is indented as far as its start. -/
theorem indentWidth_append {a : List Char} (h : isBlankText a = false) (b : List Char) :
    isBlankText (a ++ b) = false ∧ indentWidth (a ++ b) = indentWidth a := by
  constructor
  · rw [isBlankText, List.all_append, ← isBlankText, h, Bool.false_and]
  · rw [indentWidth, indentWidth, List.takeWhile_append]
    split
    · rename_i hall
      have hsame := (List.takeWhile_prefix isBlank).eq_of_length hall
      rw [isBlankText, List.all_eq_true.mpr (List.takeWhile_eq_self_iff.mp hsame)] at h
      exact absurd h (by decide)
    · rfl

end BigO.Text

namespace BigO.Recursion

open BigO.Text

/-! ## Lines that go together -/

/-- The line is blank or indented more. -/
def isDeeper (width : Nat) (l : List Char) : Bool :=
  isBlankText l || decide (width < indentWidth l)

theorem isDeeper_iff {width : Nat} {l : List Char} :
    isDeeper width l = true ↔ isBlankText l = true ∨ width < indentWidth l := by
  rw [isDeeper, Bool.or_eq_true, decide_eq_true_iff]

theorem isDeeper_mono {width width' : Nat} (h : width ≤ width') {l : List Char}
    (hl : isDeeper width' l = true) : isDeeper width l = true := by
  rw [isDeeper_iff] at hl ⊢
  exact hl.imp_right (Nat.lt_of_le_of_lt h)

theorem indentedBody_of_lines {text header : List Char} {rest : List (List Char)}
    (h : lines text = header :: rest) :
    indentedBody text = joinLines (header :: rest.takeWhile (isDeeper (indentWidth header))) := by
  rw [indentedBody, h]
  rfl

/-- The first line is indented to the width and is not blank, and the others are deeper. -/
def IsHeaded (width : Nat) (text : List Char) : Prop :=
  ∃ header rest, lines text = header :: rest ∧ isBlankText header = false ∧
    indentWidth header = width ∧ ∀ l ∈ rest, isDeeper width l = true

section Bodies

variable {above below : List Char} (habove : EndsLine above)
  (hbelow : below.head?.all (· == '\n') = true)

include habove hbelow

/-- Whatever lines go together, a body ends before them, or it has them all and then always
the same of what is below them. -/
theorem indentedBody_of_headed (width : Nat) :
    (∃ body, ∀ text, IsHeaded width text → indentedBody (above ++ (text ++ below)) = body) ∨
      ∃ tail, ∀ text, IsHeaded width text →
        indentedBody (above ++ (text ++ below)) = above ++ (text ++ tail) := by
  obtain ⟨ls, hlines, hjoin⟩ := habove.exists_lines
  obtain ⟨ms, hmore⟩ := exists_lines_append hbelow
  have hall : ∀ text, lines (above ++ (text ++ below)) = ls ++ (lines text ++ ms) :=
    fun text => by rw [hlines, hmore]
  cases ls with
  | nil =>
    -- the first of the lines is the header
    refine .inr ⟨feedLines (ms.takeWhile (isDeeper width)), ?_⟩
    rintro text ⟨header, rest, htext, -, hwidth, hrest⟩
    have hcut : (rest ++ ms).takeWhile (isDeeper (indentWidth header)) =
        rest ++ ms.takeWhile (isDeeper width) := by
      rw [hwidth, List.takeWhile_append_of_pos hrest]
    have hfirst := hall text
    rw [htext, List.nil_append, List.cons_append] at hfirst
    rw [indentedBody_of_lines hfirst, hcut, ← hjoin text, htext]
    rfl
  | cons l ls =>
    simp only [List.cons_append] at hall hjoin
    by_cases hreach : (∀ k ∈ ls, isDeeper (indentWidth l) k = true) ∧ indentWidth l < width
    · refine .inr ⟨feedLines (ms.takeWhile (isDeeper (indentWidth l))), ?_⟩
      rintro text ⟨header, rest, htext, -, hwidth, hrest⟩
      have hheader : isDeeper (indentWidth l) header = true := by
        rw [isDeeper_iff, hwidth]
        exact .inr hreach.2
      have hdeeper : ∀ k ∈ lines text, isDeeper (indentWidth l) k = true := by
        rw [htext]
        exact List.forall_mem_cons.mpr
          ⟨hheader, fun k hk => isDeeper_mono (Nat.le_of_lt hreach.2) (hrest k hk)⟩
      rw [indentedBody_of_lines (hall text), List.takeWhile_append_of_pos hreach.1,
        List.takeWhile_append_of_pos hdeeper, hjoin]
    · refine .inl ⟨joinLines (l :: ls.takeWhile (isDeeper (indentWidth l))), ?_⟩
      rintro text ⟨header, rest, htext, hblank, hwidth, -⟩
      have hcut : (ls ++ (lines text ++ ms)).takeWhile (isDeeper (indentWidth l)) =
          ls.takeWhile (isDeeper (indentWidth l)) := by
        rw [List.takeWhile_append]
        split
        · rename_i hlength
          have hsame := (List.takeWhile_prefix _).eq_of_length hlength
          have hstop : isDeeper (indentWidth l) header = false := by
            rw [Bool.eq_false_iff, Ne, isDeeper_iff, hblank, hwidth]
            rintro (hnot | hlt)
            · exact absurd hnot (by decide)
            · exact hreach ⟨List.takeWhile_eq_self_iff.mp hsame, hlt⟩
          rw [hsame, htext, List.cons_append, List.takeWhile_cons_of_neg (by simp [hstop]),
            List.append_nil]
        · rfl
      rw [indentedBody_of_lines (hall text), hcut]

end Bodies

/-- A body that ends within its first lines ends before a line feed in them. -/
theorem indentedBody_of_shallow {text below header : List Char} {rest : List (List Char)}
    (hbelow : below.head?.all (· == '\n') = true) (htext : lines text = header :: rest)
    (hshallow : ∃ l ∈ rest, isDeeper (indentWidth header) l = false) :
    ∃ more, text = indentedBody (text ++ below) ++ '\n' :: more := by
  obtain ⟨ms, hmore⟩ := exists_lines_append hbelow
  have hall : lines (text ++ below) = header :: (rest ++ ms) := by
    rw [hmore, htext, List.cons_append]
  have hleft : rest.dropWhile (isDeeper (indentWidth header)) ≠ [] := by
    intro hnil
    obtain ⟨l, hl, hnot⟩ := hshallow
    rw [List.dropWhile_eq_nil_iff.mp hnil l hl] at hnot
    exact absurd hnot (by decide)
  have hcut : (rest ++ ms).takeWhile (isDeeper (indentWidth header)) =
      rest.takeWhile (isDeeper (indentWidth header)) := by
    rw [List.takeWhile_append, if_neg]
    intro hlength
    have hsame := (List.takeWhile_prefix _).eq_of_length hlength
    exact hleft (List.dropWhile_eq_nil_iff.mpr (List.takeWhile_eq_self_iff.mp hsame))
  obtain ⟨l, left, hl⟩ := List.exists_cons_of_ne_nil hleft
  refine ⟨l ++ feedLines left, ?_⟩
  have hjoin := joinLines_lines text
  rw [htext, ← List.takeWhile_append_dropWhile (p := isDeeper (indentWidth header)) (l := rest), hl,
    joinLines_cons, feedLines_append] at hjoin
  rw [indentedBody_of_lines hall, hcut, joinLines_cons, List.append_assoc]
  exact hjoin.symm

end BigO.Recursion
