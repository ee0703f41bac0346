-- Classes of growth, ranked by which one dominates, and the class that a nest
-- of loops belongs to.
import BigO.Loop.Factor

namespace BigO

open BigO.Loop (Factor)

/-- The classes of growth, slowest first but for the unknown. -/
inductive Growth where
  | unknown
  | constant
  | logarithmic
  | linear
  | linearithmic
  | quadratic
  | cubic
  | exponential
  | factorial
deriving DecidableEq, Repr

namespace Growth

/-- The rank by which classes dominate each other. -/
def rank : Growth → Int
  | .unknown => -1
  | .constant => 0
  | .logarithmic => 1
  | .linear => 2
  | .linearithmic => 3
  | .quadratic => 4
  | .cubic => 5
  | .exponential => 6
  | .factorial => 7

def label : Growth → String
  | .unknown => "O(?)"
  | .constant => "O(1)"
  | .logarithmic => "O(log n)"
  | .linear => "O(n)"
  | .linearithmic => "O(n log n)"
  | .quadratic => "O(n^2)"
  | .cubic => "O(n^3)"
  | .exponential => "O(2^n)"
  | .factorial => "O(n!)"

/-- Of two classes with one rank there is only one. -/
theorem rank_injective {a b : Growth} (h : a.rank = b.rank) : a = b := by
  revert h
  cases a <;> cases b <;> decide

end Growth

/-! ## Nests -/

namespace Nest

/-- The number of linear factors of a nest. -/
def degree (factors : List Factor) : Nat :=
  factors.count .linear

/-- The nest has a logarithmic factor. -/
def hasLogarithm (factors : List Factor) : Bool :=
  factors.contains .logarithmic

/-- The factors of a nest, as written: constants are left out, any number of logarithms is one, and linear factors
make a power (`normalize_factors`). -/
def terms (factors : List Factor) : List String :=
  (if hasLogarithm factors then ["log n"] else []) ++
    match degree factors with
    | 0 => []
    | 1 => ["n"]
    | k + 2 => [s!"n^{k + 2}"]

/-- The product of the factors with the power first, or one (`expression_for`). -/
def expression (factors : List Factor) : String :=
  match terms factors with
  | [] => "1"
  | ts => " ".intercalate ts.reverse

/-- The class of a nest (`class_for_factors`). A power is at most cubic, and a logarithm counts only beside at most
one linear factor. -/
def growth (factors : List Factor) : Growth :=
  match degree factors with
  | 0 => if hasLogarithm factors then .logarithmic else .constant
  | 1 => if hasLogarithm factors then .linearithmic else .linear
  | 2 => .quadratic
  | _ => .cubic

end Nest

end BigO
