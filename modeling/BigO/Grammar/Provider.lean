-- Where parsers come from, and the parsers that have been loaded. Loading fails
-- where what parsers need cannot be imported or the grammar is at fault.
import BigO.Failure
import BigO.Grammar.Fetch
import BigO.Tree.Node

namespace BigO.Grammar

open BigO.Tree (Node)

/-- A parser: the tree of a source, or what went wrong. -/
structure Parser where
  parse : String → Except Fault Node

/-! ## Providers -/

/-- Why a language has no parser. -/
inductive LoadFault where
  /-- What parsers need cannot be imported, for the cause that the import gives. -/
  | notImported (cause : String)
  /-- The grammar of the language cannot be fetched or built. -/
  | noGrammar (fault : Fault)

def LoadFault.failure (language : String) : LoadFault → Failure
  | .notImported cause =>
    .parserUnavailable
      ("tree-sitter not available. Install with: pip install tree-sitter " ++
        "tree-sitter-language-pack")
      (some language) (some cause)
  | .noGrammar fault =>
    .grammarLoad s!"Failed to initialize tree-sitter for {language}: {fault.text}"
      (some language) (some fault.text)

/-- Where parsers come from: for each language a parser, or why there is none. -/
def Provider : Type := String → Except LoadFault Parser

namespace Provider

/-- Nothing is imported, whatever the language. -/
def unimportable (cause : String) : Provider :=
  fun _ => .error (.notImported cause)

/-- The provider while a module is barred from import. -/
def missing (name : String) : Provider :=
  .unimportable s!"import of {name} halted; None in sys.modules"

def uninstalled : Provider := .missing "tree_sitter_language_pack"

/-- Every grammar has the same fault. -/
def broken (fault : Fault) : Provider :=
  fun _ => .error (.noGrammar fault)

/-- One parser for every language. -/
def working (parser : Parser) : Provider :=
  fun _ => .ok parser

/-- The parser of a language from a provider (`load_tree_sitter_parser`). -/
def load (p : Provider) (language : String) : Except Failure Parser :=
  (p language).mapError (·.failure language)

theorem load_of_ok {p : Provider} {language : String} {parser : Parser}
    (h : p language = .ok parser) : p.load language = .ok parser := by
  rw [load, h]
  rfl

theorem load_of_error {p : Provider} {language : String} {fault : LoadFault}
    (h : p language = .error fault) : p.load language = .error (fault.failure language) := by
  rw [load, h]
  rfl

end Provider

/-! ## What has been loaded -/

/-- A provider and the parsers loaded so far. A parser stays as it was loaded
when the provider changes. Loads are carried through one by one, so that none is
under way, and none was cancelled. -/
structure Library where
  provider : Provider := .uninstalled
  cache : Cache Parser Failure := {}
  ready : cache.AllReady := by exact BigO.Grammar.Cache.allReady_empty

namespace Library

/-- The parser of a language, loaded if it is not there yet. -/
def parser (lib : Library) (language : String) : Except Failure Parser × Library :=
  let loader : Cache.Loader Parser Failure := fun l _ => lib.provider.load l
  let fetched := lib.cache.fetch loader 0 language
  (fetched.1.outcome? fetched.2 |>.get (lib.ready.isSome_fetch loader 0 language),
    { lib with cache := fetched.1, ready := lib.ready.fetch loader 0 language })

variable {lib : Library} {language : String}

/-- A parser that is there is given as it is. -/
theorem parser_of_standing {id : Nat} {p : Parser} (hid : lib.cache.standing? language = some id)
    (hok : lib.cache.outcome? id = some (.ok p)) : lib.parser language = (.ok p, lib) := by
  have hfetch : lib.cache.fetch (fun l _ => lib.provider.load l) 0 language = (lib.cache, id) :=
    Cache.fetch_of_outcome _ hid hok
  simp only [parser, hfetch, hok, Option.get_some]

/-- One that is not there is asked of the provider, and kept. -/
theorem parser_of_none (hnone : lib.cache.standing? language = none) :
    (lib.parser language).1 = lib.provider.load language ∧
      (lib.parser language).2.provider = lib.provider ∧
      ∃ n, (lib.parser language).2.cache =
        lib.cache.loaded 0 n language (lib.provider.load language) := by
  obtain ⟨n, hfetch⟩ := Cache.fetch_of_none (fun l _ => lib.provider.load l) 0 hnone
  simp only [parser, hfetch, Cache.outcome?_loaded_self, Option.get_some]
  exact ⟨trivial, trivial, n, rfl⟩

end Library

end BigO.Grammar
