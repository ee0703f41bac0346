-- Calls by name, as they stand in a source: a whole word or a method, then an
-- opening bracket.
import BigO.Scan.Scanner
import BigO.Text.LetterCase

namespace BigO

open BigO.Text BigO.Scan BigO.Scan.Scanner

/-- A whole word and an opening bracket. -/
def callOf (w : String) : Scanner Unit := do
  wordEdge
  literal w
  blanks
  char '('

/-- A method called on something. -/
def methodCallOf (w : String) : Scanner Unit := do
  char '.'
  literal w
  blanks
  char '('

/-- A whole word and an opening bracket, in either case. -/
def anyCaseCallOf (w : String) : Scanner Unit := do
  wordEdge
  folded foldCase w
  blanks
  char '('

/-- A method called on something, in either case. -/
def anyCaseMethodCallOf (w : String) : Scanner Unit := do
  char '.'
  folded foldCase w
  blanks
  char '('

/-- A whole word in either case. -/
def anyCaseWord (w : String) : Scanner Unit := do
  wordEdge
  folded foldCase w
  wordEdge

/-- Something taken from a module. -/
def memberOf (w : String) : Scanner Unit := do
  wordEdge
  literal w
  char '.'

end BigO
