-- Lines. A text is cut at every line feed and at no other line break, so the
-- lines joined again by line feeds give the text back.

namespace BigO.Text

/-- The lines of a text. A text that ends in a line feed has an empty last line. -/
def lines : List Char → List (List Char)
  | [] => [[]]
  | c :: cs =>
    if c = '\n' then
      [] :: lines cs
    else
      match lines cs with
      | [] => [[c]]
      | l :: ls => (c :: l) :: ls

/-- The lines with a line feed between any two of them. -/
def joinLines : List (List Char) → List Char
  | [] => []
  | [l] => l
  | l :: m :: ls => l ++ '\n' :: joinLines (m :: ls)

def firstLine (text : List Char) : List Char :=
  text.takeWhile (· != '\n')

/-! ## Laws -/

theorem lines_ne_nil (text : List Char) : lines text ≠ [] := by
  cases text with
  | nil => simp [lines]
  | cons c cs =>
    simp only [lines]
    split
    · simp
    · split <;> simp

theorem joinLines_cons_cons (c : Char) (l : List Char) (ls : List (List Char)) :
    joinLines ((c :: l) :: ls) = c :: joinLines (l :: ls) := by
  cases ls <;> simp [joinLines]

theorem joinLines_lines (text : List Char) : joinLines (lines text) = text := by
  induction text with
  | nil => simp [lines, joinLines]
  | cons c cs ih =>
    simp only [lines]
    split
    · rename_i h
      subst h
      cases hl : lines cs with
      | nil => exact absurd hl (lines_ne_nil cs)
      | cons l ls =>
        rw [hl] at ih
        simp [joinLines, ih]
    · split
      · rename_i hl
        exact absurd hl (lines_ne_nil cs)
      · rename_i l ls hl
        rw [hl] at ih
        rw [joinLines_cons_cons, ih]

theorem lines_no_break (text : List Char) : ∀ l ∈ lines text, '\n' ∉ l := by
  induction text with
  | nil => simp [lines]
  | cons c cs ih =>
    simp only [lines]
    split
    · simpa using ih
    · rename_i hc
      split
      · rename_i hl
        exact absurd hl (lines_ne_nil cs)
      · rename_i l ls hl
        rw [hl] at ih
        intro m hm
        rcases List.mem_cons.mp hm with rfl | hm
        · have := ih l (List.mem_cons_self ..)
          simp [this, Ne.symm hc]
        · exact ih m (List.mem_cons_of_mem _ hm)

end BigO.Text
