-- The command line: what a run can see of the world, and how it ends. Wrong
-- usage is found before the settings are read, and bad settings before the
-- source is.
import BigO.CommandLine.Arguments
import BigO.CommandLine.Disk
import BigO.CommandLine.Report
import BigO.Session
import BigO.Text.Terminal
import BigO.Text.Utf8

namespace BigO.CommandLine

open BigO.Text

/-- What a run can see of the world. -/
structure World where
  input : List UInt8 := []
  file? : String → Option (List UInt8)
  environment : Environment
  provider : Grammar.Provider

inductive Outcome where
  | printed (text : String)
  | failed (text : String)
  | undecodable
  | unnameable
  | misuse
deriving DecidableEq, Repr

/-- Every line break is a line feed. -/
def lineFeeds : List Char → List Char
  | [] => []
  | '\r' :: '\n' :: cs => '\n' :: lineFeeds cs
  | c :: cs => (if c = '\r' then '\n' else c) :: lineFeeds cs

/-- The bytes of the source, from a file or from the input. -/
def World.source? (w : World) (name : String) : Option (List UInt8) :=
  if name = "-" then some w.input else w.file? name

def estimate (w : World) (r : Request) (settings : Settings) (source : String) : Estimate :=
  if r.structural then
    ((Analyzer.standard settings { provider := w.provider }).run (some source)
      (some r.language)).1
  else Analyzer.byText (some source) (some r.language)

/-- What a request for an analysis comes to. The source is analysed as it is, and
whatever is printed is plain. -/
def analyse (w : World) (r : Request) : Outcome :=
  match w.source? r.source with
  | none => .misuse
  | some bytes =>
    match Settings.ofEnvironment w.environment with
    | .error f => .failed (plain s!"Error: {f.report}\n")
    | .ok settings =>
      match decode? bytes with
      | none => .undecodable
      | some text =>
        let e := estimate w r settings (String.ofList (lineFeeds text))
        .printed (plain (if r.json then jsonReport e else report r.language e))

/-- What a command line comes to. -/
def run (w : World) (args : List String) : Outcome :=
  match Command.ofArguments args with
  | .print text => .printed text
  | .unnameable => .unnameable
  | .misuse => .misuse
  | .analyse r => analyse w r

end BigO.CommandLine
