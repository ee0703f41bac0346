-- The longest nest among the loops of an outline. The tree is gone by then: a
-- loop lies inside those before it that are not as deep.
import BigO.Signals
import BigO.Tree.Outline

namespace BigO.Tree

open BigO.Loop

/-- The loops of a stack, outermost first, that stand above a depth. Depths
count from one; from zero down they count from the innermost loop. -/
def above (depth : Int) (stack : List TreeLoop) : List TreeLoop :=
  if 1 ≤ depth then stack.take (depth - 1).toNat
  else stack.take (stack.length - (1 - depth).toNat)

/-- The open loops once a loop is met, and the longest nest so far. Only a longer
nest takes its place. -/
def nestStep (s : List TreeLoop × List TreeLoop) (loop : TreeLoop) :
    List TreeLoop × List TreeLoop :=
  let stack := above loop.depth s.1 ++ [loop]
  (stack, if s.2.length < stack.length then stack else s.2)

/-- The first of the longest nests in a list of loops in source order (`deepest_chain`). -/
def longestNest (loops : List TreeLoop) : List TreeLoop :=
  (loops.foldl nestStep ([], [])).2

/-- The greatest depth of a list of loops, zero if there are none. -/
def greatestDepth : List TreeLoop → Int
  | [] => 0
  | l :: ls => ls.foldl (fun d m => max d m.depth) l.depth

def TreeLoop.label (l : TreeLoop) : String :=
  s!"{l.kind.label} ({l.factor.label})"

/-- The signals of an outline (`signals_from_ir`). -/
def Outline.signals (o : Outline) : Signals :=
  let nest := longestNest o.loops
  { language := o.language
    loops := o.loops.length
    depth := greatestDepth o.loops
    bounds := nest.map (·.label)
    factors := nest.map (·.factor)
    progresses := o.loops.any (·.progresses)
    sorts := o.sorts
    libraryCalls := o.libraryCalls
    recursion := o.recursion }

/-- Every loop of the nest has its bound. -/
theorem Outline.signals_showable (o : Outline) : o.signals.Showable :=
  Signals.showable_of_length_eq (by simp [Outline.signals])

end BigO.Tree
