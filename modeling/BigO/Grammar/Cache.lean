-- The cache of parsers, one load at a time for each language. A request joins
-- the load that stands for its language or starts one; a load that fails takes
-- its language out of the cache, so that the next request tries again.
--
-- Loads run on event loops. A load that is still under way on another loop can
-- never end for the one who asks, so a new one takes its place. A load that was
-- cancelled has ended and keeps its place.

namespace BigO.Grammar

variable {α ε : Type}

/-- Where a load stands. -/
inductive Phase (α ε : Type) where
  | waiting
  | running
  | ready (parser : α)
  | failed (error : ε)
  | cancelled

/-- The load has ended, one way or another. -/
def Phase.isOver : Phase α ε → Bool
  | .waiting => false
  | .running => false
  | _ => true

/-- What those who wait for a load are given, once it has ended. -/
def Phase.outcome? : Phase α ε → Option (Except ε α)
  | .ready p => some (.ok p)
  | .failed e => some (.error e)
  | _ => none

/-- One load: for which language, on which event loop, and where it stands.
`nth` counts the loads of its language that have begun, this one included, and
is zero while it waits. -/
structure Load (α ε : Type) where
  language : String
  loop : Nat
  nth : Nat := 0
  phase : Phase α ε := .waiting

/-- A cache: every load there ever was, oldest first, and for each language the
load that stands for it. -/
structure Cache (α ε : Type) where
  loads : List (Load α ε) := []
  entries : List (String × Nat) := []

namespace Cache

/-! ## Views -/

/-- The load that stands for a language, by its number. -/
def standing? (c : Cache α ε) (language : String) : Option Nat :=
  c.entries.lookup language

def phase? (c : Cache α ε) (id : Nat) : Option (Phase α ε) :=
  (c.loads[id]?).map (·.phase)

/-- What those who wait for a load are given, once there is one and it has ended. -/
def outcome? (c : Cache α ε) (id : Nat) : Option (Except ε α) :=
  (c.phase? id).bind Phase.outcome?

/-- The number of loads of a language that have begun. -/
def begun (c : Cache α ε) (language : String) : Nat :=
  c.loads.countP fun l => l.language == language && l.nth != 0

def loadCount (c : Cache α ε) : Nat :=
  c.loads.countP (·.nth != 0)

/-- The languages of which a load has begun, in order, each with the number of
its loads that have. -/
def begunByLanguage (c : Cache α ε) : List (String × Nat) :=
  let named := (c.loads.filter (·.nth != 0)).map (·.language)
  (named.eraseDups.mergeSort (· ≤ ·)).map fun l => (l, c.begun l)

/-- The load with this number has given a parser. -/
def isReady (c : Cache α ε) (id : Nat) : Bool :=
  match c.phase? id with
  | some (.ready _) => true
  | _ => false

/-- The languages whose parser is there, in order. -/
def languages (c : Cache α ε) : List String :=
  ((c.entries.filter fun e => c.isReady e.2).map (·.1)).mergeSort (· ≤ ·)

/-! ## Events -/

/-- The load with this number changed. -/
def update (c : Cache α ε) (id : Nat) (f : Load α ε → Load α ε) : Cache α ε :=
  { c with loads := c.loads.modify id f }

/-- The language without a load that stands for it. -/
def evict (c : Cache α ε) (language : String) : Cache α ε :=
  { c with entries := c.entries.filter (·.1 != language) }

/-- A new load that stands for its language, and its number. -/
def install (c : Cache α ε) (loop : Nat) (language : String) : Cache α ε × Nat :=
  let id := c.loads.length
  ({ loads := c.loads ++ [{ language := language, loop := loop }],
     entries := (language, id) :: (c.evict language).entries }, id)

/-- A request on a loop may join this load: it is over, or it is on the same loop. -/
def isJoinable (loop : Nat) (l : Load α ε) : Bool :=
  l.phase.isOver || l.loop == loop

/-- A request for a language on a loop, and the number of the load that it
joined or started. -/
def request (c : Cache α ε) (loop : Nat) (language : String) : Cache α ε × Nat :=
  match c.standing? language with
  | none => c.install loop language
  | some id => if (c.loads[id]?).any (isJoinable loop) then (c, id) else c.install loop language

/-- A load that waits begins. -/
def begin (c : Cache α ε) (id : Nat) : Cache α ε :=
  c.update id fun l =>
    match l.phase with
    | .waiting => { l with phase := .running, nth := c.begun l.language + 1 }
    | _ => l

/-- A load that runs ends. If it failed, its language is out of the cache,
whichever load stands for it by then. -/
def finish (c : Cache α ε) (id : Nat) (outcome : Except ε α) : Cache α ε :=
  match c.loads[id]? with
  | none => c
  | some l =>
    match l.phase with
    | .running =>
      match outcome with
      | .ok p => c.update id ({ · with phase := .ready p })
      | .error e => (c.update id ({ · with phase := .failed e })).evict l.language
    | _ => c

/-- A load that is not over is cancelled. It stays where it is. -/
def cancel (c : Cache α ε) (id : Nat) : Cache α ε :=
  c.update id fun l => if l.phase.isOver then l else { l with phase := .cancelled }

/-- No load stands for any language. -/
def clear (c : Cache α ε) : Cache α ε :=
  { c with entries := [] }

/-- One thing that happens to a cache. -/
inductive Event (α ε : Type) where
  | request (loop : Nat) (language : String)
  | begin (id : Nat)
  | finish (id : Nat) (outcome : Except ε α)
  | cancel (id : Nat)
  | clear

def step (c : Cache α ε) : Event α ε → Cache α ε
  | .request loop language => (c.request loop language).1
  | .begin id => c.begin id
  | .finish id outcome => c.finish id outcome
  | .cancel id => c.cancel id
  | .clear => c.clear

/-- The cache after a run of events, in any order they may come. -/
def after (c : Cache α ε) (events : List (Event α ε)) : Cache α ε :=
  events.foldl step c

/-! ## Runs -/

/-- What a load comes to, by its language and how many loads of that have begun. -/
def Loader (α ε : Type) : Type := String → Nat → Except ε α

/-- Requests for several languages on one loop, and the loads they wait for. -/
def requestAll (c : Cache α ε) (loop : Nat) : List String → Cache α ε × List Nat
  | [] => (c, [])
  | l :: ls =>
    let (c, id) := c.request loop l
    let (c, ids) := c.requestAll loop ls
    (c, id :: ids)

/-- A load is carried through, if it has not ended. -/
def carryOut (loader : Loader α ε) (c : Cache α ε) (id : Nat) : Cache α ε :=
  match c.loads[id]? with
  | none => c
  | some l => if l.phase.isOver then c else c.finish id (loader l.language l.nth)

/-- A request for one language, its load carried through. Gives the load that the
request waited for. -/
def fetch (loader : Loader α ε) (c : Cache α ε) (loop : Nat) (language : String) :
    Cache α ε × Nat :=
  let (c, id) := c.request loop language
  (carryOut loader (c.begin id) id, id)

/-- Requests for several languages at once, each load carried through. Gives the
loads that the requests waited for. -/
def fetchAll (loader : Loader α ε) (c : Cache α ε) (loop : Nat) (languages : List String) :
    Cache α ε × List Nat :=
  let (c, ids) := c.requestAll loop languages
  let c := ids.foldl begin c
  (ids.foldl (carryOut loader) c, ids)

theorem fetchAll_singleton (loader : Loader α ε) (c : Cache α ε) (loop : Nat)
    (language : String) : c.fetchAll loader loop [language] =
      ((c.fetch loader loop language).1, [(c.fetch loader loop language).2]) := rfl

/-- A request for one language whose load has begun and not ended. -/
def fetchBegun (c : Cache α ε) (loop : Nat) (language : String) : Cache α ε × Nat :=
  let (c, id) := c.request loop language
  (c.begin id, id)

/-! ## Errands -/

/-- What is done with a cache, each time on a loop of its own. -/
inductive Errand where
  /-- Requests at once. -/
  | get (languages : List String)
  /-- Everything is forgotten. -/
  | clear
  /-- A request that is cancelled while its load is under way. -/
  | cancel (language : String)
  /-- A request whose loop ends while its load is under way. -/
  | abandon (language : String)

/-- What an errand gives: where the loads stand that it waited for. -/
inductive Reply (α ε : Type) where
  | nothing
  | one (phase : Phase α ε)
  | all (phases : List (Phase α ε))

/-- Where a load stands, taken to wait if there is no such load. -/
def phaseOf (c : Cache α ε) (id : Nat) : Phase α ε :=
  (c.phase? id).getD .waiting

/-- An errand on a loop. -/
def run (loader : Loader α ε) (loop : Nat) (c : Cache α ε) : Errand → Cache α ε × Reply α ε
  | .get languages =>
    let (c, ids) := c.fetchAll loader loop languages
    (c, .all (ids.map c.phaseOf))
  | .clear => (c.clear, .nothing)
  | .cancel language =>
    let (c, id) := c.fetchBegun loop language
    let c := c.cancel id
    (c, .one (c.phaseOf id))
  | .abandon language =>
    let (c, id) := c.fetchBegun loop language
    (c, .one (c.phaseOf id))

/-- Errands one after the other, the first on the given loop and each of the
others on the next one. Gives the cache and the reply after each. -/
def runAll (loader : Loader α ε) (loop : Nat) (c : Cache α ε) :
    List Errand → List (Cache α ε × Reply α ε)
  | [] => []
  | e :: es =>
    let r := c.run loader loop e
    r :: r.1.runAll loader (loop + 1) es

end Cache

end BigO.Grammar
