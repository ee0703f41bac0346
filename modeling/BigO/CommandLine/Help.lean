-- The texts that the program prints about itself.
import BigO.Language.Tag

namespace BigO.CommandLine

/-- What `--version` prints. -/
def versionText : String := "Asymptote v0.1.0\n"

/-- Lines, each with a line feed at its end. -/
def unlines (ls : List String) : String :=
  String.join (ls.map (· ++ "\n"))

def helpText : String :=
  unlines [
    "Usage: cli [OPTIONS] [COMMAND] [ARGS]...",
    "",
    "  Asymptote - Big-O estimation for code snippets.",
    "",
    "Options:",
    "  --version  Show the version and exit.",
    "  --help     Show this message and exit.",
    "",
    "Commands:",
    "  analyse    Estimate the time complexity of SOURCE (a file, or - for stdin).",
    "  languages  List supported language tags."]

def analyseHelpText : String :=
  unlines [
    "Usage: cli analyse [OPTIONS] [SOURCE]",
    "",
    "  Estimate the time complexity of SOURCE (a file, or - for stdin).",
    "",
    "Options:",
    "  -l, --lang [auto|python|java|c]",
    "                                  Source language (auto means python).",
    "                                  [default: auto]",
    "  --structural / --heuristic      Try a tree-sitter parse first, or use text",
    "                                  heuristics only.  [default: structural]",
    "  --json                          Print the result as JSON.",
    "  --help                          Show this message and exit."]

def languagesHelpText : String :=
  unlines [
    "Usage: cli languages [OPTIONS]",
    "",
    "  List supported language tags.",
    "",
    "Options:",
    "  --help  Show this message and exit."]

/-- What `languages` prints: every language, with a remark on the default one. -/
def languagesText : String :=
  unlines (Language.all.map fun l =>
    if l = Language.fallback then s!"{l.name}  (default for {autoTag})" else l.name)

end BigO.CommandLine
