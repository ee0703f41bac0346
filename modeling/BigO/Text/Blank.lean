-- White space, and the cuts that go by it: the two ends of a text trimmed,
-- and the width of the blank at its start.
import BigO.Text.Ranges

namespace BigO.Text

/-- The white space beyond ASCII: the next line and no-break space, and the
spaces and separators of the other blocks. -/
def blankRanges : List CodeRange := [
  ⟨0x85, 0x85⟩, ⟨0xA0, 0xA0⟩, ⟨0x1680, 0x1680⟩, ⟨0x2000, 0x200A⟩, ⟨0x2028, 0x2029⟩,
  ⟨0x202F, 0x202F⟩, ⟨0x205F, 0x205F⟩, ⟨0x3000, 0x3000⟩]

/-- A blank or separator of the ASCII block. -/
def isAsciiBlank (c : Char) : Bool :=
  c == ' ' || CodeRange.holds ⟨0x9, 0xD⟩ c || CodeRange.holds ⟨0x1C, 0x1F⟩ c

/-- A white space character, line breaks included. -/
def isBlank (c : Char) : Bool :=
  if c.toNat < 0x80 then isAsciiBlank c else inRanges blankRanges c

def trimStart (text : List Char) : List Char :=
  text.dropWhile isBlank

def trimEnd (text : List Char) : List Char :=
  (text.reverse.dropWhile isBlank).reverse

def trim (text : List Char) : List Char :=
  trimEnd (trimStart text)

/-- The number of blank characters at the start. -/
def indentWidth (text : List Char) : Nat :=
  (text.takeWhile isBlank).length

/-- A text that holds nothing but blanks. -/
def isBlankText (text : List Char) : Bool :=
  text.all isBlank

/-! ## Laws -/

theorem trimStart_eq_nil_iff (text : List Char) :
    trimStart text = [] ↔ isBlankText text = true := by
  induction text with
  | nil => simp [trimStart, isBlankText]
  | cons c cs ih =>
    simp only [trimStart, isBlankText, List.dropWhile_cons, List.all_cons, Bool.and_eq_true] at ih ⊢
    by_cases h : isBlank c = true
    · simp [h, ih]
    · simp [h]

end BigO.Text
