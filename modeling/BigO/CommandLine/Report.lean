-- The two reports of an estimate, one for people and one for programs.
import BigO.CommandLine.Help
import BigO.Estimate
import BigO.Text.Quoted

namespace BigO.CommandLine

open BigO.Text

/-- One labelled line of the report. -/
def reportLines (language : String) (e : Estimate) : List String :=
  [s!"Language:        {language}",
    s!"Time complexity: {e.time.growth.label}",
    s!"Confidence:      {e.time.confidence.percentText}%",
    s!"Loops:           {e.loops} (max depth {e.depth})"]
  ++ (if e.tags = [] then [] else ["Tags:            " ++ ", ".intercalate e.tags])
  ++ (if e.why = [] then [] else "Why:" :: e.why.map fun reason => s!"  - {reason}")

/-- The estimate for people. -/
def report (language : String) (e : Estimate) : String :=
  unlines (reportLines language e)

/-- A character of a string in the other report. Beyond the printable part of
ASCII it is written by its number, in two halves where one is not enough. -/
def escaped (c : Char) : List Char :=
  let n := c.toNat
  if c = '"' || c = '\\' then ['\\', c]
  else if c = '\n' then ['\\', 'n']
  else if c = '\r' then ['\\', 'r']
  else if c = '\t' then ['\\', 't']
  else if n = 0x8 then ['\\', 'b']
  else if n = 0xC then ['\\', 'f']
  else if 0x20 ≤ n && n < 0x7F then [c]
  else if n < 0x10000 then '\\' :: 'u' :: hex 4 n
  else
    '\\' :: 'u' :: hex 4 (0xD800 + (n - 0x10000) / 0x400)
      ++ '\\' :: 'u' :: hex 4 (0xDC00 + (n - 0x10000) % 0x400)

/-- A string in double quotes. -/
def jsonString (s : String) : String :=
  String.ofList ('"' :: s.toList.flatMap escaped ++ ['"'])

/-- A list of strings, one to a line. -/
def jsonStrings (ss : List String) : String :=
  if ss = [] then "[]"
  else "[\n" ++ ",\n".intercalate (ss.map fun s => "    " ++ jsonString s) ++ "\n  ]"

/-- The estimate for programs. -/
def jsonReport (e : Estimate) : String :=
  "\x7b\n" ++
  "  \"loops\": \x7b\n" ++
  s!"    \"count\": {e.loops},\n" ++
  s!"    \"maxDepth\": {e.depth}\n" ++
  "  \x7d,\n" ++
  "  \"tags\": " ++ jsonStrings e.tags ++ ",\n" ++
  "  \"time\": \x7b\n" ++
  "    \"bigO\": " ++ jsonString e.time.growth.label ++ ",\n" ++
  s!"    \"confidence\": {e.time.confidence.text}\n" ++
  "  \x7d,\n" ++
  "  \"why\": " ++ jsonStrings e.why ++ "\n" ++
  "\x7d\n"

end BigO.CommandLine
