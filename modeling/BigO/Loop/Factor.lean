-- What one loop multiplies the work by, and how a bound and a progression
-- tell it: a plain number is constant, a bound that speaks of a logarithm or
-- a variable that is scaled by a number is logarithmic, and all else is linear.
import BigO.Scan.Scanner
import BigO.Text.Digit
import BigO.Text.LetterCase

namespace BigO.Loop

open BigO.Text BigO.Scan BigO.Scan.Scanner

/-- What one loop multiplies the work by. -/
inductive Factor where
  | constant
  | logarithmic
  | linear
deriving DecidableEq, Repr

def Factor.label : Factor → String
  | .constant => "constant"
  | .logarithmic => "log n"
  | .linear => "n"

/-! ## Bounds -/

/-- A word that begins with `log`, or the word `ln`, in either case. -/
def logarithmWord : Scanner Unit :=
  oneOf [
    do wordEdge; folded foldCase "log",
    do wordEdge; folded foldCase "ln"; wordEdge]

/-- The factor that a bound gives (`classify_bound`). -/
def factorOfBound (bound : List Char) : Factor :=
  let clean := trim bound
  if clean = [] then .linear
  else if clean.all isDigit then .constant
  else if logarithmWord.occurs clean then .logarithmic
  else .linear

/-! ## Progressions -/

/-- An assignment that scales or shifts by a number: `*= 2`. -/
def scaledAssignment : Scanner Unit := do
  oneOf (["*=", "//=", "/=", ">>=", "<<="].map literal)
  blanks
  one isDigit

/-- A variable set to itself scaled or shifted by a number: `k = k * 2`. -/
def scaledSelf : Scanner Unit := do
  wordEdge
  let v ← name
  blanks
  char '='
  blanks
  exactly v.text
  blanks
  oneOf (["*", "//", "/", ">>", "<<"].map literal)
  blanks
  one isDigit

/-- The text scales a variable by a number (`has_log_progression`). -/
def scales (text : List Char) : Bool :=
  (either scaledAssignment scaledSelf).occurs text

end BigO.Loop
