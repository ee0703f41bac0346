-- From signals to an estimate. Each kind of evidence adds a candidate and the
-- reason for it; the reasons of all of them are kept, not those of the winner
-- alone.
import BigO.Pool
import BigO.Signals

namespace BigO

open BigO.Loop (Factor)

/-! ## Reasons -/

namespace Reason

def oneLoop (bound : String) (factors : List Factor) : String :=
  s!"Detected loop bounded by {bound}, " ++
    s!"normalized to O({Nest.expression factors}) -> {(Nest.growth factors).label}."

def nest (s : Signals) : String :=
  let bounds := " * ".intercalate s.bounds
  s!"Detected {s.loops} loop(s) nested {s.depth} deep with bounds {bounds}, " ++
    s!"normalized to O({Nest.expression s.factors}) -> {(Nest.growth s.factors).label}."

def progression : String :=
  "Detected multiplicative/divisive loop progression, suggesting logarithmic behaviour."

def sort (s : Signals) : String :=
  s!"Detected {s.sorts.length} sorting call(s) in {s.language} (often O(n log n))."

def sortBesideLoop : String :=
  "Sort + loop combination preserved as canonical O(n log n). " ++
    "(Worst-case composition may exceed this heuristic.)"

def recursiveFunction (r : Recursion.Signal) : String :=
  s!"{r.function} ({r.hint.label}, {r.selfCalls} self-call(s))"

/-- Recursive functions and their worst class. -/
def recursion (signals : List Recursion.Signal) (worst : Growth) : String :=
  let names := ", ".intercalate (signals.map recursiveFunction)
  s!"Detected recursion in {names}, mapped to canonical {worst.label}."

/-- Library operations, of which the first two are shown. -/
def libraryCalls (ops : List String) : String :=
  let shown := "; ".intercalate (ops.take 2)
  s!"Detected {ops.length} library operation pattern(s): {shown}."

def nothing : String :=
  "No loops, recursion, or sort operations detected (simple heuristics)."

end Reason

/-! ## Evidence -/

namespace Signals

def loopReason (s : Signals) (h : s.Showable) : String :=
  if h1 : s.factors.length = 1 then
    Reason.oneLoop (s.bounds.head (h h1)) s.factors
  else
    Reason.nest s

def loopConfidence (s : Signals) (tier : Tier) : Confidence :=
  if s.factors.length = 1 then tier.oneLoop else tier.nest

def addLoops (s : Signals) (h : s.Showable) (tier : Tier) (p : Pool) : Pool :=
  if s.factors = [] then p
  else p.add (Nest.growth s.factors) (s.loopConfidence tier) (s.loopReason h)

def addProgression (s : Signals) (tier : Tier) (p : Pool) : Pool :=
  if s.progresses then p.add .logarithmic tier.progression Reason.progression else p

def addSort (s : Signals) (tier : Tier) (p : Pool) : Pool :=
  if s.sorts = [] then p
  else (p.tag "sort").add .linearithmic tier.sort (Reason.sort s)

def addSortBesideLoop (s : Signals) (tier : Tier) (p : Pool) : Pool :=
  if s.sorts ≠ [] ∧ 0 < s.loops then
    p.add .linearithmic tier.sortBesideLoop Reason.sortBesideLoop
  else p

def addRecursion (s : Signals) (tier : Tier) (p : Pool) : Pool :=
  match worstRecursion? s.recursion with
  | none => p
  | some worst =>
    let confidence := if worst = .linear then tier.straightRecursion else tier.branchingRecursion
    (p.tag "recursion").add worst confidence (Reason.recursion s.recursion worst)

/-- The pool with the library operations, which are no evidence of a class. -/
def noteLibraryCalls (s : Signals) (p : Pool) : Pool :=
  if s.libraryCalls = [] then p
  else (p.tag "library-ops").note (Reason.libraryCalls s.libraryCalls)

/-- The pool with the constant class, where there is no other candidate. -/
def addNothing (tier : Tier) (p : Pool) : Pool :=
  if p.candidates = [] then p.add .constant tier.nothing Reason.nothing else p

/-- All the evidence, in order, after some remarks. -/
def pool (s : Signals) (h : s.Showable) (tier : Tier) (notes : List String) : Pool :=
  addNothing tier <| s.noteLibraryCalls <| s.addRecursion tier <| s.addSortBesideLoop tier <|
    s.addSort tier <| s.addProgression tier <| s.addLoops h tier { why := notes }

/-- The estimate that the signals give (`assess`). -/
def estimate (s : Signals) (h : s.Showable) (tier : Tier) (notes : List String) : Estimate :=
  let p := s.pool h tier notes
  { loops := s.loops, depth := s.depth, tags := p.tags, time := p.dominant, why := p.why }

/-- The estimate that the signals give, if a lone loop has a bound to show. -/
def estimate? (s : Signals) (tier : Tier) (notes : List String) : Option Estimate :=
  if h : s.Showable then some (s.estimate h tier notes) else none

end Signals

end BigO
