-- What can go wrong: the failures that the analysis knows by kind, and those
-- of a parser library that it only passes on.
import BigO.Text.Quoted

namespace BigO

/-! ## Known failures -/

/-- The kinds of failure that are known. -/
inductive FailureKind where
  | parserUnavailable
  | grammarLoad
  | parseFailed
  | configuration
deriving DecidableEq, Repr

inductive Severity where
  | low
  | medium
  | high
deriving DecidableEq, Repr

def Severity.label : Severity → String
  | .low => "low"
  | .medium => "medium"
  | .high => "high"

namespace FailureKind

def code : FailureKind → Nat
  | .parseFailed => 3002
  | .parserUnavailable => 3003
  | .grammarLoad => 3004
  | .configuration => 4001

def severity : FailureKind → Severity
  | .parseFailed => .low
  | .parserUnavailable => .low
  | .grammarLoad => .medium
  | .configuration => .high

end FailureKind

/-- A value that is told with a failure. A number is `digits / 10 ^ places`. -/
inductive Detail where
  | null
  | flag (b : Bool)
  | number (digits : Int) (places : Nat)
  | text (s : String)
  | list (ds : List Detail)
  | entries (ds : List (String × Detail))

/-- What was going on when something failed. -/
structure FailureContext where
  operation : Option String := none
  language : Option String := none
  component : Option String := none
  details : List (String × Detail) := []

/-- A known failure: what it is, what the log says, what the user is told, what
was going on, and the text of what caused it. -/
structure Failure where
  kind : FailureKind
  message : String
  userMessage : String
  context : FailureContext := {}
  cause : Option String := none

namespace Failure

/-- One line of the report, if there is anything to put on it. -/
def reportLine (label : String) (value : Option String) : List String :=
  match value with
  | none => []
  | some v => if v = "" then [] else [s!"   {label}: {v}"]

def report (f : Failure) : String :=
  "\n".intercalate <|
    [s!"[Error] {f.userMessage}", s!"   Code: {f.kind.code}"]
      ++ reportLine "Operation" f.context.operation
      ++ reportLine "Language" f.context.language
      ++ reportLine "Component" f.context.component

/-- No parser is installed. -/
def parserUnavailable (message : String) (language cause : Option String) : Failure where
  kind := .parserUnavailable
  message := message
  userMessage := "Structural parser is not installed."
  context := { operation := some "load_parser", language := language }
  cause := cause

/-- How a grammar is named to the user. -/
def grammarLabel : Option String → String
  | none => "requested"
  | some l => if l = "" then "requested" else l

/-- A grammar could not be fetched or built. -/
def grammarLoad (message : String) (language cause : Option String) : Failure where
  kind := .grammarLoad
  message := message
  userMessage := s!"Could not load the {grammarLabel language} grammar."
  context := { operation := some "load_grammar", language := language }
  cause := cause

/-- A parse failed, or gave a tree with errors in it. -/
def parseFailed (message : String) (language cause : Option String) : Failure where
  kind := .parseFailed
  message := message
  userMessage := "Source could not be parsed."
  context := { operation := some "parse", language := language }
  cause := cause

/-- What the user is told of a bad setting when nothing better is known. -/
def configurationMessage (told : Option String) : String :=
  match told with
  | none => "Configuration error occurred."
  | some m => if m = "" then "Configuration error occurred." else m

/-- A setting is not as it should be. -/
def configuration (message : String) (told : Option String) (context : FailureContext)
    (cause : Option String) : Failure where
  kind := .configuration
  message := message
  userMessage := configurationMessage told
  context := context
  cause := cause

end Failure

/-! ## Faults -/

inductive ForeignKind where
  | runtime
  | value
  | key
  | os
  | lookup
  | type
deriving DecidableEq, Repr

def ForeignKind.label : ForeignKind → String
  | .runtime => "RuntimeError"
  | .value => "ValueError"
  | .key => "KeyError"
  | .os => "OSError"
  | .lookup => "LookupError"
  | .type => "TypeError"

/-- Anything that can go wrong: a known failure, a fault from outside with or
without a message, or a fault of some other kind, of which only its text and how
it is written out are known. -/
inductive Fault where
  | known (f : Failure)
  | foreign (kind : ForeignKind) (message : Option String)
  | other (text written : String)

namespace Fault

/-- The text of a fault. A missing key is told in quotes. -/
def text : Fault → String
  | .known f => f.message
  | .foreign _ none => ""
  | .foreign .key (some m) => Text.quote m
  | .foreign _ (some m) => m
  | .other text _ => text

/-- A fault as the rationale tells it: a known failure by its message, any other
as it is written out. -/
def note : Fault → String
  | .known f => f.message
  | .foreign k none => s!"{k.label}()"
  | .foreign k (some m) => s!"{k.label}({Text.quote m})"
  | .other _ written => written

/-! ## What a fault says -/

/-- What a fault says of itself. -/
inductive Says : Fault → String → Prop
  | known (f : Failure) : Says (.known f) f.message
  | silent (kind : ForeignKind) : Says (.foreign kind none) ""
  | key (message : String) : Says (.foreign .key (some message)) (Text.quote message)
  | foreign {kind : ForeignKind} (message : String) : kind ≠ .key →
      Says (.foreign kind (some message)) message
  | other (text written : String) : Says (.other text written) text

theorem says_iff (f : Fault) (s : String) : f.Says s ↔ s = f.text := by
  constructor
  · intro h
    cases h with
    | known f => rfl
    | silent kind => rfl
    | key message => rfl
    | foreign message hkind => simp [text]
    | other text written => rfl
  · rintro rfl
    cases f with
    | known f => exact .known f
    | other text written => exact .other text written
    | foreign kind message =>
      cases message with
      | none => exact .silent kind
      | some message =>
        by_cases hkind : kind = .key
        · subst hkind
          exact .key message
        · have htext : (Fault.foreign kind (some message)).text = message := by simp [text]
          rw [htext]
          exact .foreign message hkind

theorem says_text (f : Fault) : f.Says f.text :=
  (says_iff f f.text).mpr rfl

/-- What the rationale says of a fault. -/
inductive Told : Fault → String → Prop
  | known (f : Failure) : Told (.known f) f.message
  | silent (kind : ForeignKind) : Told (.foreign kind none) (kind.label ++ "()")
  | foreign (kind : ForeignKind) (message : String) :
      Told (.foreign kind (some message)) (kind.label ++ "(" ++ Text.quote message ++ ")")
  | other (text written : String) : Told (.other text written) written

theorem told_note (f : Fault) : f.Told f.note := by
  cases f with
  | known f => exact .known f
  | other text written => exact .other text written
  | foreign kind message =>
    cases message with
    | none => exact .silent kind
    | some message => exact .foreign kind message

end Fault

end BigO
