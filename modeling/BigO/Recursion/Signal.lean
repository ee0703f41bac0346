-- Recursion, seen from the text alone. A function is taken to call itself as
-- often as its name stands before a bracket, less once for its declaration;
-- a product with a call in a return is taken for factorial growth.
import BigO.Language
import BigO.Text.Lines

namespace BigO.Recursion

open BigO.Text BigO.Scan BigO.Scan.Scanner

/-- What the calls of a function to itself suggest. -/
inductive Hint where
  | linear
  | exponential
  | factorial
deriving DecidableEq, Repr

def Hint.label : Hint → String
  | .linear => "linear"
  | .exponential => "exponential"
  | .factorial => "factorial"

/-- A function that calls itself. -/
structure Signal where
  function : String
  selfCalls : Int
  hint : Hint
deriving DecidableEq, Repr

/-! ## Calls -/

/-- A name before a bracket, at a word edge. -/
def call (f : List Char) : Scanner Unit := do
  wordEdge
  exactly f
  blanks
  char '('

/-- How often a name stands before a bracket, its declaration included (`count_calls`). -/
def callCount (f text : List Char) : Nat :=
  ((call f).findAll text).length

/-! ## Products in returns -/

/-- Any character of a statement. -/
def inStatement (c : Char) : Bool :=
  c != ';' && c != '\n'

/-- A product whose right side is a call. -/
def timesCall : Scanner Unit := do
  char '*'
  blanks
  one isNameStart
  run fun c => isWord c || c == '.'
  blanks
  char '('

/-- A bracket closes here, and a product follows. -/
def closesBeforeTimes (c : Cursor) : Bool :=
  match c.after with
  | ')' :: cs => (trimStart cs).head? == some '*'
  | _ => false

/-- A call, up to a product whose left side ends in a bracket that may close it. -/
def callTimes : Scanner Unit := do
  one isNameStart
  run isWord
  blanks
  char '('
  nearest inStatement closesBeforeTimes

/-- On to the nearest product of a call in the statement. -/
def product : Scanner Unit :=
  nearest inStatement (either timesCall callTimes).reads

/-- A return to the end of its statement. The value is the place after the word,
from which every later return in the statement can be reached too. -/
def returned : Scanner Cursor := do
  word "return"
  let c ← place
  run inStatement
  pure c

/-- Some return has a product of a call in its statement. -/
def returnsProduct (body : List Char) : Bool :=
  (returned.findAll body).any product.reads

/-! ## Signals -/

/-- The hint of a function with this many calls to itself and this body. -/
def hintOf (selfCalls : Int) (body : List Char) : Hint :=
  if returnsProduct body then .factorial
  else if 2 ≤ selfCalls then .exponential
  else .linear

/-- The signal of a name that stands before a bracket `occurrences` times (`classify_recursion`). One of them is the
declaration; without another there is no recursion. -/
def signal? (f : List Char) (occurrences : Int) (body : List Char) : Option Signal :=
  if f = [] ∨ occurrences ≤ 1 then none
  else some ⟨String.ofList f, occurrences - 1, hintOf (occurrences - 1) body⟩

/-! ## Bodies -/

/-- A header line and the lines after it that are blank or indented more. -/
def indentedBody (text : List Char) : List Char :=
  match lines text with
  | [] => []
  | header :: rest =>
    joinLines (header ::
      rest.takeWhile fun l => isBlankText l || indentWidth header < indentWidth l)

/-- The text up to the brace that closes the first one opened, `depth` braces
deep. Closing braces before the first opening one are passed over. -/
def blockFrom (depth : Nat) : List Char → Option (List Char)
  | [] => none
  | c :: cs =>
    if c = '{' then (blockFrom (depth + 1) cs).map (c :: ·)
    else if c = '}' then
      match depth with
      | 0 => (blockFrom 0 cs).map (c :: ·)
      | 1 => some [c]
      | d + 2 => (blockFrom (d + 1) cs).map (c :: ·)
    else (blockFrom depth cs).map (c :: ·)

/-- The text through its first block, all of it if the block is not closed, and
its first line if there is no block. -/
def blockBody (text : List Char) : List Char :=
  if '{' ∈ text then (blockFrom 0 text).getD text else firstLine text

/-- The source of the function whose signature the text starts with (`function_body`). -/
def body (lang : Language) (text : List Char) : List Char :=
  if lang.profile.usesBraces then blockBody text else indentedBody text

/-! ## Declared functions -/

/-- The functions that a text declares, in order. -/
def declared (lang : Language) (text : List Char) : List Signature :=
  lang.profile.signatures.flatMap (·.findAll text)

/-- The name of the first function that a text declares, or nothing (`function_name`). -/
def firstName (lang : Language) (text : List Char) : List Char :=
  match lang.profile.signatures.findSome? (·.find? text) with
  | some s => s.name
  | none => []

/-- The signal of a declared function, judged by all of the text and by its body
from the start of the line its name is on. -/
def signalOf? (lang : Language) (text : List Char) (s : Signature) : Option Signal :=
  signal? s.name (callCount s.name text) (body lang s.start.fromLineStart)

def firstOfEach : List Signature → List Signature
  | [] => []
  | s :: rest => s :: (firstOfEach rest).filter (·.name != s.name)

/-- The functions of a text without comments that call themselves (`detect_recursion`). -/
def signals (lang : Language) (text : List Char) : List Signal :=
  (firstOfEach (declared lang text)).filterMap (signalOf? lang text)

end BigO.Recursion
