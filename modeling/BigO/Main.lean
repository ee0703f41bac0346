-- The program: arguments, input, files and environment in, a report out.
import BigO.CommandLine

namespace BigO.CommandLine

/-- The contents of a file, if it can be read. -/
def readFile? (name : String) : IO (Option (List UInt8)) := do
  try
    return some (← IO.FS.readBinFile name).toList
  catch _ =>
    return none

partial def readInput (stream : IO.FS.Stream) (acc : ByteArray) : IO ByteArray := do
  let chunk ← stream.read 65536
  if chunk.isEmpty then
    return acc
  readInput stream (acc ++ chunk)

/-- The variables that settings are read from. -/
def readEnvironment : IO Environment := do
  let names := [Settings.lengthVariable, Settings.fallbackVariable, Settings.levelVariable,
    Settings.debugVariable]
  let found ← names.filterMapM fun name => do
    return (← IO.getEnv name).map (name, ·)
  return .ofList found

/-- The world as a request sees it. -/
def readWorld (r : Request) : IO World := do
  let input ← if r.source = "-" then readInput (← IO.getStdin) .empty else pure .empty
  let file ← if r.source = "-" then pure none else readFile? r.source
  return {
    input := input.toList
    file? := fun name => if name = r.source then file else none
    environment := ← readEnvironment
    provider := .unimportable "No module named 'tree_sitter_language_pack'" }

/-- Prints how a run ended and gives the exit code. -/
def conclude : Outcome → IO UInt32
  | .printed text => do
    IO.print text
    return 0
  | .failed text => do
    IO.eprint text
    return 1
  | .undecodable => do
    IO.eprintln "Error: the source is not UTF-8."
    return 1
  | .unnameable => do
    IO.eprintln "Error: the source has no possible name."
    return 1
  | .misuse => do
    IO.eprint helpText
    return 2

def program (args : List String) : IO UInt32 := do
  match Command.ofArguments args with
  | .print text => conclude (.printed text)
  | .unnameable => conclude .unnameable
  | .misuse => conclude .misuse
  | .analyse r => conclude (analyse (← readWorld r) r)

end BigO.CommandLine

def main (args : List String) : IO UInt32 :=
  BigO.CommandLine.program args
