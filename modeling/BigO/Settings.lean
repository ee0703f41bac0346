-- Settings, read from the environment. A variable that is unset or blank
-- leaves its default; the first of the others that is not valid is reported.
import BigO.Failure
import BigO.Text.Integer
import BigO.Text.LetterCase

namespace BigO

open BigO.Text

/-- What settings are read from: the variables that are set, and the fault that the logger
finds with the name of a level, if it finds one. -/
structure Environment where
  get? : String → Option String
  levelFault? : String → Option String

namespace Environment

instance : CoeFun Environment fun _ => String → Option String := ⟨get?⟩

/-- The names of the levels that a logger has, unless others are added. -/
def usualLevels : List String :=
  ["TRACE", "DEBUG", "INFO", "SUCCESS", "WARNING", "ERROR", "CRITICAL"]

/-- The environment of a list of variables, with the usual levels. Of two variables with
one name the first counts. -/
def ofList (pairs : List (String × String)) : Environment where
  get? name := pairs.lookup name
  levelFault? level :=
    if level ∈ usualLevels then none else some s!"Level '{level}' does not exist"

end Environment

/-- What can be set. -/
structure Settings where
  snippetLength : Int := 120
  fallbackOnErrors : Bool := true
  logLevel : String := "WARNING"
deriving DecidableEq, Repr

namespace Settings

/-! ## The variables -/

/-- The length that snippets are cut to. -/
def lengthVariable : String := "ASYMPTOTE_SNIPPET_MAX_LENGTH"

/-- Whether a tree with errors is given up. -/
def fallbackVariable : String := "ASYMPTOTE_FALLBACK_ON_SYNTAX_ERROR"

/-- How much is logged. -/
def levelVariable : String := "ASYMPTOTE_LOG_LEVEL"

/-- Whether everything is logged. -/
def debugVariable : String := "DEBUG"

/-- The value of a variable, if there is more to it than blanks. -/
def value? (env : Environment) (name : String) : Option String :=
  (env name).filter fun raw => !isBlankText raw.toList

/-- What was going on when a variable was found not valid. -/
def contextOf (name raw : String) : FailureContext :=
  { operation := some "load_config", details := [(name, .text raw)] }

/-! ## The length -/

/-- Why a text is no number, as the log tells it. -/
def integerCause (raw : String) : IntegerError → String
  | .malformed =>
    "invalid literal for int() with base 10: " ++ String.ofList ((quoted raw.toList).take 200)
  | .tooLong n =>
    s!"Exceeds the limit ({maxDigits} digits) for integer string conversion: " ++
      s!"value has {n} digits; use sys.set_int_max_str_digits() to increase the limit"

def notInteger (name raw : String) (e : IntegerError) : Failure :=
  .configuration s!"{name} must be an integer, got {quote raw}" none (contextOf name raw)
    (some (integerCause raw e))

def notPositive (name : String) (n : Int) : Failure :=
  .configuration s!"{name} must be positive, got {n}" none {} none

def readLength (name raw : String) : Except Failure Int :=
  match readInteger raw.toList with
  | .error e => .error (notInteger name raw e)
  | .ok n => if n ≤ 0 then .error (notPositive name n) else .ok n

/-! ## The flag -/

def yesWords : List String := ["1", "true", "yes", "on"]

def noWords : List String := ["0", "false", "no", "off"]

/-- The flag that a value sets, whatever its case and the blanks around it. -/
def readFlag (name raw : String) : Except Failure Bool :=
  let word := String.ofList (toLower (trim raw.toList))
  if word ∈ yesWords then .ok true
  else if word ∈ noWords then .ok false
  else
    .error (.configuration s!"{name} must be a boolean, got {quote raw}" none
      (contextOf name raw) none)

/-! ## The level -/

/-- The level that a value sets, whatever its case and the blanks around it, unless a
fault is found with its name. -/
def readLevel (fault? : String → Option String) (name raw : String) : Except Failure String :=
  let level := String.ofList (toUpper (trim raw.toList))
  match fault? level with
  | none => .ok level
  | some cause =>
    .error (.configuration s!"{name} must be a loguru level name, got {quote raw}"
      (some s!"Unknown log level {quote raw} in {name}.") (contextOf name raw) (some cause))

/-! ## All of them -/

/-- The debug variable is set. Its case does not count, blanks around it do. -/
def isDebug (env : Environment) : Bool :=
  toLower ((env debugVariable).getD "").toList == "true".toList

/-- A variable read by a reader, or its default. -/
def read {α : Type} (env : Environment) (name : String)
    (reader : String → String → Except Failure α) (fallback : α) : Except Failure α :=
  match value? env name with
  | none => .ok fallback
  | some raw => reader name raw

/-- The settings of an environment, or the first failure among its variables. -/
def ofEnvironment (env : Environment) : Except Failure Settings := do
  let length ← read env lengthVariable readLength 120
  let fallback ← read env fallbackVariable readFlag true
  let level ← read env levelVariable (readLevel env.levelFault?)
    (if isDebug env then "DEBUG" else "WARNING")
  pure { snippetLength := length, fallbackOnErrors := fallback, logLevel := level }

/-- The settings of an environment, all of them default if one is not valid. -/
def ofEnvironmentOrDefault (env : Environment) : Settings :=
  match ofEnvironment env with
  | .ok s => s
  | .error _ => {}

end Settings

end BigO
