-- A session over a whole run. Whatever the environment and the provider become,
-- the settings are those of the first step that needed the analyzer, and the
-- parser of a language is the one of the first call that could load it. Until
-- then every call tries again with the provider of its own time.
import BigO.Proofs.SessionHistory

namespace BigO

open BigO.Grammar

namespace Session

variable {env : Environment} {p : Provider} {steps : List Step} {x : Step} {lib : Library}

/-! ## The analyzer of a session -/

variable {s : Session}

theorem holds_nil (p : Provider) : Holds p [] {} where
  orderly := Cache.orderly_empty 0
  stands := by simp [firstParser?]
  absent := by simp [Cache.standing?]
  count := rfl

/-- What a step gives after a history, with the settings of the session. A structural call
for a language that is loaded by then goes by the first parser of the language, any other
tells why its own provider gave none and goes by the text. -/
inductive Told (settings : Settings) (p : Provider) (before : List Step) : Step → Reply → Prop
  | setEnvironment {env : Environment} : Told settings p before (.setEnvironment env) .done
  | setProvider {q : Provider} : Told settings p before (.setProvider q) .done
  | inspect :
      Told settings p before .inspect (.analyzer settings ["tree_sitter", "lexical"])
  | inspectCache {languages : List String} :
      languages.Pairwise (· < ·) →
      (∀ name, name ∈ languages ↔
        ∃ lang, Language.name lang = name ∧ (firstParser? p before lang).isSome = true) →
      Told settings p before .inspectCache (.cache languages (missingCalls p before))
  | byText {source tag : Option String} :
      Told settings p before (.byText source tag) (.estimate (Analyzer.byText source tag))
  | loaded {source tag : Option String} {parser : Parser} {e : Estimate} :
      firstParser? p (before ++ [.run source tag]) (Language.ofTag tag) = some parser →
      Gives settings (.working parser) (Language.ofTag tag) (source.getD "") e →
      Told settings p before (.run source tag) (.estimate (e.withNotes (tagNotes tag)))
  | retried {source tag : Option String} {f : Failure} :
      firstParser? p (before ++ [.run source tag]) (Language.ofTag tag) = none →
      (providerAfter p before).load (Language.ofTag tag).name = .error f →
      Told settings p before (.run source tag)
        (.estimate ((Lexical.estimate (Language.ofTag tag) (source.getD "")).withNotes
          (tagNotes tag ++ [fallbackRemark f.message])))

end Session

end BigO
