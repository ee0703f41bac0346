-- A session: the one analyzer that everybody shares. It is made when it is
-- first needed, with the settings of that moment, and stays until a reset.
import BigO.Analyzer

namespace BigO

open BigO.Grammar (Provider)

/-- The environment and the provider as they are now, and the analyzer once
there is one. -/
structure Session where
  environment : Environment
  provider : Provider
  analyzer : Option Analyzer := none

namespace Session

/-- The shared analyzer, made if there is none yet. -/
def shared (s : Session) : Analyzer × Session :=
  match s.analyzer with
  | some a => (a, s)
  | none =>
    let a := Analyzer.standard (Settings.ofEnvironmentOrDefault s.environment)
      { provider := s.provider }
    (a, { s with analyzer := some a })

inductive Step where
  | setEnvironment (env : Environment)
  | setProvider (p : Provider)
  | reset
  | inspect
  | inspectCache
  | byText (source tag : Option String)
  | run (source tag : Option String)

inductive Reply where
  | done
  | analyzer (settings : Settings) (backends : List String)
  | cache (languages : List String) (loads : Nat)
  | estimate (e : Estimate)

/-- One step of a session. -/
def step (s : Session) : Step → Reply × Session
  | .setEnvironment env => (.done, { s with environment := env })
  | .setProvider p =>
    (.done, { s with
      provider := p
      analyzer := s.analyzer.map fun a =>
        { a with backends := a.backends.map (·.withProvider p) } })
  | .reset => (.done, { s with analyzer := none })
  | .inspect =>
    let (a, s) := s.shared
    (.analyzer a.settings (a.backends.map (·.name)), s)
  | .inspectCache =>
    let grammars := (s.analyzer.map Analyzer.grammars).getD {}
    (.cache grammars.cache.languages grammars.cache.loadCount, s)
  | .byText source tag =>
    (.estimate (Analyzer.byText source tag), s.shared.2)
  | .run source tag =>
    let (a, s) := s.shared
    let (e, a) := a.run source tag
    (.estimate e, { s with analyzer := some a })

def replies (s : Session) : List Step → List Reply
  | [] => []
  | x :: xs =>
    let (r, s) := s.step x
    r :: s.replies xs

end Session

end BigO
