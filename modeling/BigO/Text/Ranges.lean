-- Tables of code points. A property of characters is a list of closed ranges,
-- and a character has the property when one of the ranges holds it.

namespace BigO.Text

/-- A closed range of code points. -/
structure CodeRange where
  first : Nat
  last : Nat

/-- The range holds the character, its two ends included. -/
def CodeRange.holds (r : CodeRange) (c : Char) : Bool :=
  r.first ≤ c.toNat && c.toNat ≤ r.last

/-- Some range of the table holds the character. -/
def inRanges (table : List CodeRange) (c : Char) : Bool :=
  table.any (·.holds c)

end BigO.Text
