-- Loop nesting, read line by line. The lines that are not blank are taken in
-- order with a stack of the loops that are still open; a loop is as deep as
-- the stack is high once it is on it. In a language with braces the number of
-- braces open sets the level of a line, elsewhere its indentation does.
import BigO.Language
import BigO.Loop.Factor
import BigO.Text.Lines

namespace BigO.Loop

open BigO.Text

/-- A loop that is open at some line. -/
structure OpenLoop where
  level : Nat
  bound : String
  progresses : Bool
deriving DecidableEq, Repr

/-- The factor of an open loop. A progression on its line wins over its bound. -/
def OpenLoop.factor (l : OpenLoop) : Factor :=
  if l.progresses then .logarithmic else factorOfBound l.bound.toList

/-- What the lines read so far have shown. The chain is the first of the
deepest nests, outermost loop first. -/
structure Nesting where
  loops : Nat := 0
  depth : Nat := 0
  chain : List OpenLoop := []
  progresses : Bool := false
deriving DecidableEq, Repr

/-- The state of the reader between lines: the open loops, innermost first, the
braces open, and what has been shown. -/
structure Reader where
  stack : List OpenLoop := []
  braces : Nat := 0
  nesting : Nesting := {}
deriving DecidableEq, Repr

/-- The loop that a line opens at a level. -/
def openLoop (lang : Language) (line : List Char) (level : Nat) : OpenLoop where
  level := level
  bound := String.ofList (lang.loopBound line)
  progresses := BigO.Loop.scales line

/-- What has been shown once a loop is on top of a stack. Only a stack higher
than any before takes the place of the chain. -/
def Nesting.record (n : Nesting) (stack : List OpenLoop) (loop : OpenLoop) : Nesting where
  loops := n.loops + 1
  progresses := n.progresses || loop.progresses
  depth := max n.depth stack.length
  chain := if n.depth < stack.length then stack.reverse else n.chain

/-- The reader with the loop of a line opened, if the line opens one. -/
def Reader.enter (lang : Language) (r : Reader) (line : List Char) (level : Nat) : Reader :=
  if lang.opensLoop line then
    let loop := openLoop lang line level
    let stack := loop :: r.stack
    { r with stack := stack, nesting := r.nesting.record stack loop }
  else
    r

/-- One line of a language with braces. What it closes counts before its loop,
and what it opens after. -/
def Reader.braceLine (lang : Language) (r : Reader) (line : List Char) : Reader :=
  let closed := r.braces - line.count '}'
  let stack := r.stack.dropWhile (closed < ·.level)
  let entered := { r with stack := stack, braces := closed }.enter lang line (closed + 1)
  { entered with braces := entered.braces + line.count '{' }

/-- One line of a language without braces. -/
def Reader.indentLine (lang : Language) (r : Reader) (line : List Char) (indent : Nat) : Reader :=
  let stack := r.stack.dropWhile (indent ≤ ·.level)
  { r with stack := stack }.enter lang line indent

/-- One line. A blank line says nothing. -/
def Reader.step (lang : Language) (r : Reader) (line : List Char) : Reader :=
  if isBlankText line then r
  else if lang.profile.usesBraces then r.braceLine lang (trim line)
  else r.indentLine lang (trim line) (indentWidth line)

/-- The nesting of the loops of a text without comments (`scan`). -/
def nesting (lang : Language) (text : List Char) : Nesting :=
  ((lines text).foldl (Reader.step lang) {}).nesting

end BigO.Loop
