-- The analysis of a source by its parse tree. It fails where there is no parser,
-- where the parse fails, and where the tree has errors in it and the settings
-- do not put up with them.
import BigO.Evidence
import BigO.Grammar.Provider
import BigO.Settings
import BigO.Tree.Nest

namespace BigO.Structural

open BigO.Tree BigO.Grammar

/-- What the rationale says first when a parse tree was read. -/
def remark : String :=
  "Used Tree-sitter CST parsing with language adapters and normalized IR extraction."

/-- The tree of a source. A failure that is known is passed on as it is, any
other fault becomes a failed parse. -/
def tree (p : Parser) (lang : Language) (source : String) : Except Failure Node :=
  match p.parse source with
  | .ok root => .ok root
  | .error (.known f) => .error f
  | .error fault =>
    .error (.parseFailed s!"Tree-sitter parse failed for {lang.name}: {fault.text}"
      (some lang.name) (some fault.text))

/-- The outline of a tree, which is given up for its errors if the settings say so. -/
def outlineOf (settings : Settings) (lang : Language) (root : Node) : Except Failure Outline :=
  if settings.fallbackOnErrors && root.hasError then
    .error (.parseFailed s!"Source has syntax errors for the {lang.name} grammar"
      (some lang.name) none)
  else
    .ok (Tree.outline lang settings.snippetLength root)

/-- The outline of a source, and the parsers loaded by then. -/
def outline (settings : Settings) (lib : Library) (lang : Language) (source : String) :
    Except Fault Outline × Library :=
  match lib.parser lang.name with
  | (.error f, lib) => (.error (.known f), lib)
  | (.ok p, lib) =>
    (((tree p lang source).bind (outlineOf settings lang)).mapError .known, lib)

def estimateOf (o : Outline) : Estimate :=
  o.signals.estimate o.signals_showable .structural [remark]

theorem estimate?_outline (o : Outline) : o.signals.estimate? .structural
    ["Used Tree-sitter CST parsing with language adapters and normalized IR extraction."] =
      some (estimateOf o) :=
  dif_pos o.signals_showable

/-- The estimate for a source, and the parsers loaded by then. -/
def estimate (settings : Settings) (lib : Library) (lang : Language) (source : String) :
    Except Fault Estimate × Library :=
  let (o, lib) := outline settings lib lang source
  (o.map estimateOf, lib)

end BigO.Structural
