-- What an analysis has seen, in the one form that both ways of reading a
-- source end in.
import BigO.Loop.Factor
import BigO.Recursion.Signal

namespace BigO

open BigO.Loop (Factor)

/-- What an analysis has seen. The two chains run along the deepest nest of
loops: its bounds as they are shown, and its factors. -/
structure Signals where
  language : String
  loops : Int := 0
  depth : Int := 0
  bounds : List String := []
  factors : List Factor := []
  progresses : Bool := false
  sorts : List String := []
  libraryCalls : List String := []
  recursion : List Recursion.Signal := []
deriving DecidableEq, Repr

/-- A lone loop has a bound to show. -/
def Signals.Showable (s : Signals) : Prop :=
  s.factors.length = 1 → s.bounds ≠ []

instance (s : Signals) : Decidable s.Showable := by
  unfold Signals.Showable
  infer_instance

/-- A bound for every factor is enough to show them. -/
theorem Signals.showable_of_length_eq {s : Signals}
    (h : s.bounds.length = s.factors.length) : s.Showable := by
  intro h1 h2
  rw [h1, h2] at h
  exact absurd h (by decide)

end BigO
