-- Estimates, and the candidate that dominates the others: the one of the
-- highest rank, and among those the one that came first.
import BigO.Confidence
import BigO.Growth
import BigO.Recursion.Signal

namespace BigO

/-- A class of growth and the confidence in it. -/
structure Candidate where
  growth : Growth
  confidence : Confidence
deriving DecidableEq, Repr

structure Estimate where
  loops : Int
  depth : Int
  tags : List String
  time : Candidate
  why : List String
deriving DecidableEq, Repr

/-- The estimate with remarks before its reasons. -/
def Estimate.withNotes (e : Estimate) (notes : List String) : Estimate :=
  { e with why := notes ++ e.why }

/-! ## Dominance -/

/-- The candidate where there is none. -/
def Candidate.unknown : Candidate := ⟨.unknown, .percent 25⟩

/-- A candidate takes the place of the best so far only with a higher rank. -/
def Candidate.better (best c : Candidate) : Candidate :=
  if best.growth.rank < c.growth.rank then c else best

/-- The candidate of the highest rank, and of several the earliest (`pick_dominant`). -/
def dominant : List Candidate → Candidate
  | [] => .unknown
  | c :: cs => cs.foldl Candidate.better c

/-- Of two classes, the one of the higher rank. -/
def Growth.worse (a b : Growth) : Growth :=
  if a.rank < b.rank then b else a

def Recursion.Hint.growth : Recursion.Hint → Growth
  | .linear => .linear
  | .exponential => .exponential
  | .factorial => .factorial

/-- The worst class among recursive functions, if there are any (`recursion_class`). -/
def worstRecursion? : List Recursion.Signal → Option Growth
  | [] => none
  | s :: ss => some ((ss.map (·.hint.growth)).foldl Growth.worse s.hint.growth)

end BigO
