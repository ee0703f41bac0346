-- Where a text declares a function. A signature starts a line; what stands
-- before the name and after it differs from language to language.
import BigO.Scan.Scanner

namespace BigO.Recursion

open BigO.Text BigO.Scan BigO.Scan.Scanner

/-- A declared function: the place of its name, and the name. -/
structure Signature where
  start : Cursor
  name : List Char

/-- A space or a tab. -/
def isInLineBlank (c : Char) : Bool :=
  c == ' ' || c == '\t'

/-- The start of a line and the blank at its start. -/
def margin : Scanner Unit := do
  here Cursor.atLineStart
  run isInLineBlank

/-- A name and its place. -/
def named : Scanner Signature := do
  let s ← name
  pure ⟨s.start, s.text⟩

/-! ## Indented functions -/

/-- `def name(`, perhaps with `async` before it. -/
def defSignature : Scanner Signature := do
  margin
  optional do
    literal "async"
    runSome isBlank
  literal "def"
  runSome isBlank
  let s ← named
  blanks
  char '('
  pure s

/-! ## Functions with a block -/

/-- Words that stand before a bracket and declare nothing. -/
def controlWords : List String :=
  ["if", "else", "for", "while", "do", "switch", "case", "catch", "return", "new", "sizeof",
    "throw"]

/-- A name that is no control word. -/
def plainName : Scanner Signature := do
  notAhead do
    oneOf (controlWords.map literal)
    wordEdge
  named

def parameters : Scanner Unit := do
  blanks
  char '('
  many fun c => c != ';' && c != '{' && c != '}'
  char ')'
  blanks

/-- What may stand between the angle brackets of a type. -/
def isTypeArgument (c : Char) : Bool :=
  c != ';' && c != '{' && c != '}' && c != '(' && c != ')' && c != '=' && c != '\n'

/-- Type arguments in angle brackets, as far as will do. -/
def typeArguments : Scanner Unit := do
  char '<'
  many isTypeArgument
  char '>'

/-- The words that may come before the type of a method. -/
def modifiers : List String :=
  ["public", "private", "protected", "static", "final", "synchronized", "native", "abstract",
    "default", "strictfp"]

/-- A dotted type name, its type arguments and its array brackets. -/
def typeName : Scanner Unit := do
  runSome fun c => isWord c || c == '.' || c == '?'
  optional do
    blanks
    typeArguments
  repeated do
    blanks
    char '['
    blanks
    char ']'

/-- The list of what a method throws. -/
def throwsClause : Scanner Unit := do
  literal "throws"
  one isBlank
  runSome fun c => isWord c || isBlank c || c == ',' || c == '.'

/-- A method with its block: modifiers, type parameters, a type, and the name. -/
def methodSignature : Scanner Signature := do
  margin
  repeated do
    oneOf (modifiers.map literal)
    runSome isBlank
  optional do
    typeArguments
    blanks
  typeName
  runSome isBlank
  let s ← plainName
  parameters
  optional throwsClause
  char '{'
  pure s

/-- One word or star of a declaration, before the name. -/
def declarationPart : Scanner Unit :=
  either
    (do
      one isNameStart
      run isWord
      runSome isInLineBlank)
    (do
      char '*'
      run isInLineBlank)

/-- A function with its block: words and stars, and the name. -/
def blockSignature : Scanner Signature := do
  margin
  declarationPart
  repeated declarationPart
  run (· == '*')
  let s ← plainName
  parameters
  char '{'
  pure s

end BigO.Recursion
