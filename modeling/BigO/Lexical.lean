-- The analysis of a source by its text alone. It works for any text.
import BigO.Evidence
import BigO.Loop.Nesting

namespace BigO.Lexical

open BigO.Text

/-- The lines that hold a call that sorts, trimmed. -/
def sorts (lang : Language) (text : List Char) : List String :=
  ((lines text).filter lang.isSortLine).map fun l => String.ofList (trim l)

/-- The signals of a text without comments. -/
def strippedSignals (lang : Language) (text : List Char) : Signals :=
  let nesting := Loop.nesting lang text
  { language := lang.name
    loops := nesting.loops
    depth := nesting.depth
    bounds := nesting.chain.map (·.bound)
    factors := nesting.chain.map (·.factor)
    progresses := nesting.progresses
    sorts := sorts lang text
    recursion := Recursion.signals lang text }

/-- The signals of a source. -/
def signals (lang : Language) (source : String) : Signals :=
  strippedSignals lang (lang.withoutComments source.toList)

/-- Every loop on the chain has its bound. -/
theorem signals_showable (lang : Language) (source : String) : (signals lang source).Showable :=
  Signals.showable_of_length_eq (by simp [signals, strippedSignals])

def estimate (lang : Language) (source : String) : Estimate :=
  (signals lang source).estimate (signals_showable lang source) .lexical []

end BigO.Lexical
