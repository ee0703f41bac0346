-- What the arguments ask for. Options are written in full; the latest of
-- several counts, and a request for help counts before anything is checked.
import BigO.CommandLine.Help

namespace BigO.CommandLine

open BigO.Text

/-- What the options of `analyse` ask for. -/
structure Request where
  source : String := "-"
  language : String := autoTag
  structural : Bool := true
  json : Bool := false
deriving DecidableEq, Repr

inductive Command where
  | print (text : String)
  | analyse (r : Request)
  /-- The source is named by a text that can be no name of a file. -/
  | unnameable
  | misuse
deriving DecidableEq, Repr

/-- Everything that the arguments of `analyse` give, before it is checked. -/
structure Given where
  help : Bool := false
  languages : List String := []
  structural : Bool := true
  json : Bool := false
  positional : List String := []
deriving DecidableEq, Repr

/-- An argument that is an option: a dash and something after it. -/
def isOption (arg : String) : Bool :=
  match arg.toList with
  | '-' :: _ :: _ => true
  | _ => false

/-- The value after the equals sign of a long option with a value. -/
def valueOf? (option arg : String) : Option String :=
  let mark := (option ++ "=").toList
  if mark.isPrefixOf arg.toList then some (String.ofList (arg.toList.drop mark.length)) else none

/-- The arguments of `analyse`, in order. The latest of several options counts. -/
def readAnalyse (g : Given) : List String → Option Given
  | [] => some g
  | "--" :: rest => some { g with positional := g.positional ++ rest }
  | "--help" :: rest => readAnalyse { g with help := true } rest
  | "--json" :: rest => readAnalyse { g with json := true } rest
  | "--structural" :: rest => readAnalyse { g with structural := true } rest
  | "--heuristic" :: rest => readAnalyse { g with structural := false } rest
  | "--lang" :: value :: rest => readAnalyse { g with languages := g.languages ++ [value] } rest
  | "-l" :: value :: rest => readAnalyse { g with languages := g.languages ++ [value] } rest
  | arg :: rest =>
    match valueOf? "--lang" arg with
    | some value => readAnalyse { g with languages := g.languages ++ [value] } rest
    | none =>
      match arg.toList with
      | '-' :: 'l' :: c :: cs =>
        readAnalyse { g with languages := g.languages ++ [String.ofList (c :: cs)] } rest
      | _ =>
        if isOption arg then none
        else readAnalyse { g with positional := g.positional ++ [arg] } rest

/-- The values that `--lang` takes. -/
def choices : List String := autoTag :: Language.all.map (·.name)

/-- The choice that a value stands for, whatever its case. -/
def choice? (value : String) : Option String :=
  choices.find? fun c => toLower c.toList == toLower value.toList

/-- A file can have this name, if need be in another folder. -/
def isName (source : String) : Bool :=
  !source.toList.contains '\x00'

/-- The request that the arguments of `analyse` make. Help comes before any
check, and the name of the source is looked at before anything after it. -/
def Given.command (g : Given) : Command :=
  if g.help then .print analyseHelpText
  else
    match (g.languages.getLast?.getD autoTag |> choice?), g.positional with
    | none, _ => .misuse
    | some l, [] => .analyse { language := l, structural := g.structural, json := g.json }
    | some l, s :: rest =>
      if !isName s then .unnameable
      else if rest != [] then .misuse
      else .analyse { source := s, language := l, structural := g.structural, json := g.json }

def analyseCommand (args : List String) : Command :=
  match readAnalyse {} args with
  | some g => g.command
  | none => .misuse

/-- The arguments of `languages`: whether help was asked for, and what is left. -/
def readLanguages (help : Bool) (positional : List String) :
    List String → Option (Bool × List String)
  | [] => some (help, positional)
  | "--" :: rest => some (help, positional ++ rest)
  | "--help" :: rest => readLanguages true positional rest
  | arg :: rest => if isOption arg then none else readLanguages help (positional ++ [arg]) rest

/-- What the arguments of `languages` ask for. -/
def languagesCommand (args : List String) : Command :=
  match readLanguages false [] args with
  | some (true, _) => .print languagesHelpText
  | some (false, []) => .print languagesText
  | _ => .misuse

/-- The options before the command: the first text that one asks for, and the
arguments from the command on. -/
def readGlobal (shown : Option String) : List String → Option (Option String × List String)
  | [] => some (shown, [])
  | "--" :: rest => some (shown, rest)
  | "--version" :: rest => readGlobal (shown.or (some versionText)) rest
  | "--help" :: rest => readGlobal (shown.or (some helpText)) rest
  | arg :: rest => if isOption arg then none else some (shown, arg :: rest)

/-- Arguments that start with no known command. Options among them are read once
more, for they may ask for a text. -/
def unknownCommand (args : List String) : Command :=
  match readGlobal none args with
  | some (some text, _) => .print text
  | _ => .misuse

/-- What a command line asks for. -/
def Command.ofArguments (args : List String) : Command :=
  match readGlobal none args with
  | none => .misuse
  | some (some text, _) => .print text
  | some (none, []) => .print helpText
  | some (none, "analyse" :: rest) => analyseCommand rest
  | some (none, "languages" :: rest) => languagesCommand rest
  | some (none, rest) => unknownCommand rest

end BigO.CommandLine
