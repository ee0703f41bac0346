-- The pool that an estimate is drawn from: candidates with their reasons, in the
-- order their evidence is met. Nothing that is in a pool ever leaves it.
import BigO.Estimate

namespace BigO

/-- Candidates, tags and reasons, each in the order they came. -/
structure Pool where
  candidates : List Candidate := []
  tags : List String := []
  why : List String := []
deriving DecidableEq, Repr

namespace Pool

def add (p : Pool) (growth : Growth) (confidence : Confidence) (reason : String) : Pool :=
  { p with candidates := p.candidates ++ [⟨growth, confidence⟩], why := p.why ++ [reason] }

def note (p : Pool) (reason : String) : Pool :=
  { p with why := p.why ++ [reason] }

/-- A tag, if it is not there yet. -/
def tag (p : Pool) (name : String) : Pool :=
  if name ∈ p.tags then p else { p with tags := p.tags ++ [name] }

def dominant (p : Pool) : Candidate :=
  BigO.dominant p.candidates

inductive Step where
  | add (growth : Growth) (confidence : Confidence) (reason : String)
  | note (reason : String)
  | tag (name : String)

def step (p : Pool) : Step → Pool
  | .add g c r => p.add g c r
  | .note r => p.note r
  | .tag n => p.tag n

def states (p : Pool) : List Step → List Pool
  | [] => []
  | s :: ss => p.step s :: (p.step s).states ss

end Pool

end BigO
