-- Whole numbers as people write them: blanks around them, a sign, digits of
-- any script, and single underscores between digits.
import BigO.Text.Blank
import BigO.Text.Digit

namespace BigO.Text

/-- Why a text is no whole number. -/
inductive IntegerError where
  | malformed
  | tooLong (digits : Nat)
deriving DecidableEq, Repr

/-- The most digits that are read. -/
def maxDigits : Nat := 4300

/-- White space that may stand around a number: all but the four separators of
the ASCII block. -/
def isNumberBlank (c : Char) : Bool :=
  isBlank c && !(0x1C ≤ c.toNat && c.toNat ≤ 0x1F)

/-- A run of digits with single underscores between them. `gap` says that the
next character has to be a digit. Gives the number of digits, their value and
the text after them. -/
def digitRun (gap : Bool) (count value : Nat) : List Char → Option (Nat × Nat × List Char)
  | [] => if gap then none else some (count, value, [])
  | c :: cs =>
    match digitValue? c with
    | some d => digitRun false (count + 1) (value * 10 + d) cs
    | none =>
      if gap then none
      else if c = '_' then digitRun true count value cs
      else some (count, value, c :: cs)

/-- A number without a sign, and blanks after it. -/
def readUnsigned (text : List Char) : Except IntegerError Nat :=
  match digitRun true 0 0 text with
  | none => .error .malformed
  | some (count, value, rest) =>
    if maxDigits < count then .error (.tooLong count)
    else if rest.all isNumberBlank then .ok value
    else .error .malformed

/-- The whole number that a text stands for. -/
def readInteger (text : List Char) : Except IntegerError Int :=
  match text.dropWhile isNumberBlank with
  | '-' :: cs => (readUnsigned cs).map fun n => -n
  | '+' :: cs => (readUnsigned cs).map fun n => n
  | cs => (readUnsigned cs).map fun n => n

end BigO.Text
