-- Where a loop header says how far it runs. A rule finds either the arguments
-- of a counting call, of which the upper end is the bound, or the right side
-- of the comparison that keeps the loop going.
import BigO.Loop.Arguments
import BigO.Scan.Scanner

namespace BigO.Loop

open BigO.Text BigO.Scan BigO.Scan.Scanner

/-- A way to find the bound in a loop header. -/
inductive BoundRule where
  /-- What follows the opening bracket of a counting call. -/
  | call (rest : Scanner Span)
  /-- The right side of a comparison. -/
  | limit (side : Scanner Span)

/-- The upper end among the arguments of a counting call: the second of several,
or the only one. -/
def upperEnd? : List (List Char) → Option (List Char)
  | [] => none
  | [stop] => some stop
  | _ :: stop :: _ => some stop

/-- The bound that a rule finds in a header, at the rule's first match. -/
def BoundRule.bound? (rule : BoundRule) (header : List Char) : Option (List Char) :=
  match rule with
  | .call rest => (rest.find? header).bind fun s => (arguments? s.text).bind upperEnd?
  | .limit side =>
    (side.find? header).bind fun s => if trim s.text = [] then none else some (trim s.text)

/-! ## The rules -/

/-- Any character of the line. -/
def inLine (c : Char) : Bool := c != '\n'

/-- Less than, or at most. -/
def lessThan : Scanner Unit := do
  char '<'
  optional (char '=')

/-- `for v in range(…`: what follows the bracket on its line. -/
def rangeCall : Scanner Span := do
  word "for"
  fewSome inLine
  wordEdge
  literal "in"
  runSome isBlank
  literal "range"
  blanks
  char '('
  captured (run inLine)

/-- The condition of an indented loop ends here, or after the blanks here: at a
colon, an `and`, an `or`, or the end of the text. -/
def endsHeader (c : Cursor) : Bool :=
  let d := Cursor.pass isBlank c.before c.after
  d.after.head? == some ':' || (word "and").reads d || (word "or").reads d || d.atTextEnd

/-- `while a < b:`, up to the end of the condition. -/
def whileLimit : Scanner Span := do
  word "while"
  run (· != '<')
  lessThan
  many isBlank
  captured do
    one inLine
    nearest inLine endsHeader

/-- `for (…; a < b; …`, up to the second semicolon. -/
def clauseLimit : Scanner Span := do
  wordEdge
  literal "for"
  blanks
  char '('
  run (· != ';')
  char ';'
  few (· != ';')
  lessThan
  let limit ← captured (runSome (· != ';'))
  char ';'
  pure limit

/-- Any character of a condition in brackets. -/
def inCondition (c : Char) : Bool := c != ';' && c != ')'

/-- A condition in brackets ends here, or after the blanks here: at the closing
one, or at a logical sign. -/
def endsCondition (c : Cursor) : Bool :=
  match trimStart c.after with
  | ')' :: _ => true
  | '&' :: '&' :: _ => true
  | '|' :: '|' :: _ => true
  | _ => false

/-- `while (a < b`, up to the end of the condition. -/
def conditionLimit : Scanner Span := do
  wordEdge
  literal "while"
  blanks
  char '('
  few (· != ';')
  lessThan
  many isBlank
  captured do
    one inCondition
    nearest inCondition endsCondition

/-- The bound of a loop header by the first rule that finds one. -/
def bound? (rules : List BoundRule) (header : List Char) : Option (List Char) :=
  rules.findSome? (·.bound? (trim header))

/-- The bound of a loop whose header shows none. -/
def defaultBound : List Char := ['n']

end BigO.Loop
