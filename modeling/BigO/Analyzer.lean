-- The analyzer. It asks its backends one after the other, the highest priority
-- first, and takes the first estimate; a backend that fails is passed over and
-- the rationale says so. If none is left the text alone decides.
import BigO.Language.Tag
import BigO.Lexical
import BigO.Structural

namespace BigO

open BigO.Grammar (Library)

/-! ## Backends -/

/-- How a backend comes to its estimate. -/
inductive Engine where
  /-- By the text alone. -/
  | lexical
  /-- By a parse tree. -/
  | structural (settings : Settings) (grammars : Library)
  /-- By a rule of its own. -/
  | custom (rule : Language → String → Except Fault Estimate)

/-- One way to analyse a source, and how often it was asked. -/
structure Backend where
  name : String
  priority : Int
  supports : String → Bool
  engine : Engine
  calls : Nat := 0

namespace Backend

def hasProfile (language : String) : Bool :=
  (Language.ofName? language).isSome

def lexical : Backend where
  name := "lexical"
  priority := 10
  supports := hasProfile
  engine := .lexical

def structural (settings : Settings) (grammars : Library) : Backend where
  name := "tree_sitter"
  priority := 50
  supports := hasProfile
  engine := .structural settings grammars

/-- What a backend says of a source, and the backend afterwards. -/
def ask (b : Backend) (lang : Language) (source : String) : Except Fault Estimate × Backend :=
  match b.engine with
  | .lexical => (.ok (Lexical.estimate lang source), { b with calls := b.calls + 1 })
  | .structural settings grammars =>
    let (r, grammars) := Structural.estimate settings grammars lang source
    (r, { b with engine := .structural settings grammars, calls := b.calls + 1 })
  | .custom rule => (rule lang source, { b with calls := b.calls + 1 })

def grammars? (b : Backend) : Option Library :=
  match b.engine with
  | .structural _ grammars => some grammars
  | _ => none

/-- The backend with another provider of parsers. What it has loaded it keeps. -/
def withProvider (b : Backend) (p : Grammar.Provider) : Backend :=
  match b.engine with
  | .structural settings grammars =>
    { b with engine := .structural settings { grammars with provider := p } }
  | _ => b

end Backend

/-! ## Asking in turn -/

/-- What asking backends in turn has come to: an estimate, unless none gave one,
what the first of those that failed said, and the backends afterwards. -/
structure Round where
  estimate : Option Estimate
  failure : Option String
  backends : List Backend

/-- Backends asked in turn until one gives an estimate. Those that do not support
the language are not asked. -/
def askInTurn (lang : Language) (source : String) (failure : Option String) :
    List Backend → Round
  | [] => ⟨none, failure, []⟩
  | b :: bs =>
    if b.supports lang.name then
      match b.ask lang source with
      | (.ok e, b') => ⟨some e, failure, b' :: bs⟩
      | (.error f, b') =>
        let r := askInTurn lang source (failure.or (some f.note)) bs
        { r with backends := b' :: r.backends }
    else
      let r := askInTurn lang source failure bs
      { r with backends := b :: r.backends }

/-- What the rationale says when a backend failed. -/
def fallbackRemark (failure : String) : String :=
  s!"Tree-sitter unavailable; fell back to heuristic analysis. ({failure})"

theorem fallbackRemark_eq (failure : String) : fallbackRemark failure =
    "Tree-sitter unavailable; fell back to heuristic analysis. (" ++ failure ++ ")" := rfl

/-- The estimate of a round, after the remarks on the tag and on a failure. -/
def Round.conclude (r : Round) (lang : Language) (source : String) (notes : List String) :
    Estimate :=
  match r.estimate with
  | some e => e.withNotes (notes ++ (r.failure.map fallbackRemark).toList)
  | none =>
    (Lexical.estimate lang source).withNotes
      (notes ++ [fallbackRemark (r.failure.getD "no backend")])

/-! ## The analyzer -/

/-- Backends in the order they are asked, and the settings they were made with. -/
structure Analyzer where
  settings : Settings
  backends : List Backend

namespace Analyzer

/-- The highest priority first, and backends of one priority in the order given. -/
def inOrder (backends : List Backend) : List Backend :=
  backends.mergeSort fun a b => b.priority ≤ a.priority

/-- An analyzer of given backends. -/
def ofBackends (settings : Settings) (backends : List Backend) : Analyzer :=
  ⟨settings, inOrder backends⟩

/-- The usual analyzer: the parse tree first, then the text. -/
def standard (settings : Settings) (grammars : Library) : Analyzer :=
  ⟨settings, [.structural settings grammars, .lexical]⟩

/-- The text of a source. No source at all is an empty one. -/
def textOf (source : Option String) : String :=
  source.getD ""

def byText (source tag : Option String) : Estimate :=
  (Lexical.estimate (Language.ofTag tag) (textOf source)).withNotes (tagNotes tag)

/-- The estimate by the best backend that gives one, and the analyzer afterwards. -/
def run (a : Analyzer) (source tag : Option String) : Estimate × Analyzer :=
  let lang := Language.ofTag tag
  let r := askInTurn lang (textOf source) none a.backends
  (r.conclude lang (textOf source) (tagNotes tag), { a with backends := r.backends })

/-- The estimates for several sources, one after the other, each with the analyzer
after it. -/
def runAll (a : Analyzer) : List (Option String × Option String) → List (Estimate × Analyzer)
  | [] => []
  | (source, tag) :: rest =>
    let r := a.run source tag
    r :: r.2.runAll rest

def grammars (a : Analyzer) : Library :=
  (a.backends.findSome? (·.grammars?)).getD {}

end Analyzer

end BigO
