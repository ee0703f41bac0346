-- The history of a session: what its steps so far say of the environment, the
-- provider and the parsers, without a look at the session itself. The cache
-- holds what the history says, for a structural call does to the one what it
-- does to the other.
import BigO.Proofs.SingleFlight
import BigO.Proofs.TreeOrText
import BigO.Session

namespace BigO

open BigO.Grammar

/-! ## A language that is not there -/

namespace Grammar.Cache

variable {α ε : Type} {c : Cache α ε} {loop : Nat} {language : String}

/-- A language that nothing stands for is fetched by a request, a beginning and an end. -/
theorem fetch_eq_after (loader : Loader α ε) (loop : Nat)
    (hnone : c.standing? language = none) :
    ∃ n, (c.fetch loader loop language).1 =
      c.after [.request loop language, .begin c.loads.length,
        .finish c.loads.length (loader language n)] := by
  have hnew : (c.install loop language).1.loads[c.loads.length]? =
      some { language := language, loop := loop } := by simp
  have hid : (c.install loop language).2 = c.loads.length := rfl
  refine ⟨(c.install loop language).1.begun language + 1, ?_⟩
  simp only [fetch, request_of_none hnone, hid, after_cons, after_nil, step, carryOut]
  rw [Cache.begin, update_eq_put hnew, getElem?_put_self hnew]
  rfl

theorem orderly_fetch (h : Orderly loop c) (loader : Loader α ε)
    (hnone : c.standing? language = none) :
    Orderly loop (c.fetch loader loop language).1 := by
  obtain ⟨n, hn⟩ := fetch_eq_after loader loop hnone
  rw [hn]
  apply orderly_after h
  simp [Event.IsPlain]

/-- It counts as one load, however that ends. -/
theorem loadCount_fetch (h : Orderly loop c) (loader : Loader α ε)
    (hnone : c.standing? language = none) :
    (c.fetch loader loop language).1.loadCount = c.loadCount + 1 := by
  obtain ⟨n, hn⟩ := fetch_eq_after loader loop hnone
  rw [hn, loadCount_after h (by simp [Event.IsPlain])]
  congr 1
  simp [beginnings, begins?, step, request_of_none hnone, phase?_install]

end Grammar.Cache

/-! ## The history of a session -/

namespace Session

/-- The session after some steps. -/
def after (s : Session) (steps : List Step) : Session :=
  steps.foldl (fun s x => (s.step x).2) s

/-- The language of a structural call. -/
def Step.language? : Step → Option Language
  | .run _ tag => some (Language.ofTag tag)
  | _ => none

def providerAfter (p : Provider) (steps : List Step) : Provider :=
  steps.foldl (fun p x => match x with
    | .setProvider q => q
    | _ => p) p

/-- The parser that a step loads for a language, if it is a structural call for the
language and the provider of its time gives one. -/
def parserAt? (p : Provider) (steps : List Step) (lang : Language) (i : Nat) : Option Parser :=
  if steps[i]?.bind Step.language? = some lang then
    ((providerAfter p (steps.take i)).load lang.name).toOption
  else none

/-- The parser of the first structural call for a language that could load one. -/
def firstParser? (p : Provider) (steps : List Step) (lang : Language) : Option Parser :=
  ((List.range steps.length).filterMap (parserAt? p steps lang)).head?

/-- The number of structural calls for languages that no call before them had loaded. -/
def missingCalls (p : Provider) (steps : List Step) : Nat :=
  (List.range steps.length).countP fun i =>
    (steps[i]?.bind Step.language?).any fun lang => (firstParser? p (steps.take i) lang).isNone

variable {env : Environment} {p : Provider} {steps : List Step} {x : Step}

theorem parserAt?_append {i : Nat} (hi : i < steps.length) (later : List Step) (lang : Language) :
    parserAt? p (steps ++ later) lang i = parserAt? p steps lang i := by
  unfold parserAt?
  rw [List.getElem?_append_left hi, List.take_append_of_le_length (Nat.le_of_lt hi)]

theorem firstParser?_snoc (p : Provider) (steps : List Step) (x : Step) (lang : Language) :
    firstParser? p (steps ++ [x]) lang = (firstParser? p steps lang).or
      (if x.language? = some lang then ((providerAfter p steps).load lang.name).toOption
        else none) := by
  unfold firstParser?
  have hold : (List.range steps.length).filterMap (parserAt? p (steps ++ [x]) lang) =
      (List.range steps.length).filterMap (parserAt? p steps lang) := by
    apply List.filterMap_congr
    intro i hi
    exact parserAt?_append (List.mem_range.mp hi) [x] lang
  have hnew : parserAt? p (steps ++ [x]) lang steps.length =
      if x.language? = some lang then ((providerAfter p steps).load lang.name).toOption
        else none := by
    simp [parserAt?]
  rw [List.length_append, List.length_singleton, List.range_succ, List.filterMap_append,
    List.head?_append, hold, ← hnew]
  cases h : parserAt? p (steps ++ [x]) lang steps.length <;> simp [h]

theorem missingCalls_snoc (p : Provider) (steps : List Step) (x : Step) :
    missingCalls p (steps ++ [x]) = missingCalls p steps +
      if x.language?.any fun lang => (firstParser? p steps lang).isNone then 1 else 0 := by
  unfold missingCalls
  rw [List.length_append, List.length_singleton, List.range_succ, List.countP_append]
  congr 1
  · apply List.countP_congr
    intro i hi
    have hlt := List.mem_range.mp hi
    rw [List.getElem?_append_left hlt, List.take_append_of_le_length (Nat.le_of_lt hlt)]
  · simp [List.countP_cons]

/-! ## The cache holds what the history says -/

/-- The cache holds what the history says: of each language that was loaded the first
parser, of no other language anything, and it has counted the calls that found nothing. -/
structure Holds (p : Provider) (steps : List Step) (c : Cache Parser Failure) : Prop where
  orderly : c.Orderly 0
  stands : ∀ lang parser, firstParser? p steps lang = some parser →
    ∃ id, c.standing? lang.name = some id ∧ c.outcome? id = some (.ok parser)
  absent : ∀ language, (∀ lang, language = Language.name lang → firstParser? p steps lang = none) →
    c.standing? language = none
  count : c.loadCount = missingCalls p steps

/-- A step that is no structural call, or one for a language that is there, leaves what
the history says of the cache. -/
theorem Holds.snoc {c : Cache Parser Failure} (h : Holds p steps c)
    (hx : ∀ lang, x.language? = some lang → (firstParser? p steps lang).isSome = true) :
    Holds p (steps ++ [x]) c := by
  have hfirst : ∀ lang, firstParser? p (steps ++ [x]) lang = firstParser? p steps lang := by
    intro lang
    rw [firstParser?_snoc]
    by_cases hlang : x.language? = some lang
    · obtain ⟨parser, hp⟩ := Option.isSome_iff_exists.mp (hx lang hlang)
      rw [hp, Option.some_or]
    · rw [if_neg hlang, Option.or_none]
  refine ⟨h.orderly, ?_, ?_, ?_⟩
  · intro lang parser hp
    exact h.stands lang parser (by rw [← hfirst, hp])
  · intro language hl
    exact h.absent language fun lang hlang => by rw [← hfirst, hl lang hlang]
  · rw [h.count, missingCalls_snoc]
    cases hlang : x.language? with
    | none => rfl
    | some lang =>
      obtain ⟨parser, hp⟩ := Option.isSome_iff_exists.mp (hx lang hlang)
      simp [hp]

/-- After a call for a language that was not there, its parser is what the provider of
that time gave. -/
theorem firstParser?_call {lang : Language} (hp : firstParser? p steps lang = none)
    (hx : x.language? = some lang) (l : Language) :
    firstParser? p (steps ++ [x]) l =
      if l = lang then ((providerAfter p steps).load lang.name).toOption
      else firstParser? p steps l := by
  rw [firstParser?_snoc, hx]
  by_cases hl : l = lang
  · simp [hl, hp]
  · simp [hl, Ne.symm hl]

/-- The cache after the load of a language that was not there holds what the history says
after the call. -/
theorem Holds.load {c : Cache Parser Failure} {lang : Language} {n : Nat}
    (h : Holds p steps c) (hp : firstParser? p steps lang = none) (hx : x.language? = some lang)
    {r : Except Failure Parser} (hr : (providerAfter p steps).load lang.name = r)
    (horderly : (c.loaded 0 n lang.name r).Orderly 0)
    (hcount : (c.loaded 0 n lang.name r).loadCount = c.loadCount + 1) :
    Holds p (steps ++ [x]) (c.loaded 0 n lang.name r) := by
  have hfirst := firstParser?_call hp hx
  rw [hr] at hfirst
  refine ⟨horderly, ?_, ?_, ?_⟩
  · intro l parser hl
    rw [hfirst] at hl
    by_cases heq : l = lang
    · subst heq
      rw [if_pos rfl] at hl
      cases r with
      | error f => cases hl
      | ok q =>
        cases hl
        refine ⟨c.loads.length, ?_, ?_⟩
        · simp [Cache.standing?_loaded, Except.toOption]
        · exact Cache.outcome?_loaded_self ..
    · rw [if_neg heq] at hl
      obtain ⟨id, hid, hok⟩ := h.stands l parser hl
      have hname : l.name ≠ lang.name := fun hn => heq (Language.name_injective hn)
      exact ⟨id, by rw [Cache.standing?_loaded, if_neg hname, hid],
        Cache.outcome?_loaded hok _ _ _ _⟩
  · intro language hl
    rw [Cache.standing?_loaded]
    by_cases heq : language = lang.name
    · have hload := hl lang heq
      rw [hfirst, if_pos rfl] at hload
      rw [if_pos heq, hload]
      rfl
    · rw [if_neg heq]
      apply h.absent
      intro l hname
      have hne : l ≠ lang := fun he => heq (by rw [hname, he])
      have := hl l hname
      rwa [hfirst, if_neg hne] at this
  · rw [hcount, h.count, missingCalls_snoc, hx]
    simp [hp]

variable {lib : Library}

theorem parser_of_some {lang : Language} {parser : Parser} (h : Holds p steps lib.cache)
    (hp : firstParser? p steps lang = some parser) : lib.parser lang.name = (.ok parser, lib) := by
  obtain ⟨id, hid, hok⟩ := h.stands lang parser hp
  exact Library.parser_of_standing hid hok

theorem standing?_of_none {lang : Language} (h : Holds p steps lib.cache)
    (hp : firstParser? p steps lang = none) : lib.cache.standing? lang.name = none :=
  h.absent _ fun l hl => by rw [← Language.name_injective hl, hp]

/-- A structural call does to the cache what it does to the history. -/
theorem Holds.call {lang : Language} (h : Holds p steps lib.cache)
    (hprovider : lib.provider = providerAfter p steps) (hx : x.language? = some lang) :
    Holds p (steps ++ [x]) (lib.parser lang.name).2.cache := by
  cases hp : firstParser? p steps lang with
  | some parser =>
    rw [parser_of_some h hp]
    apply h.snoc
    intro l hl
    rw [hx] at hl
    cases hl
    simp [hp]
  | none =>
    have hnone := standing?_of_none h hp
    have horderly : (lib.parser lang.name).2.cache.Orderly 0 :=
      Cache.orderly_fetch h.orderly (fun l _ => lib.provider.load l) hnone
    have hcount : (lib.parser lang.name).2.cache.loadCount = lib.cache.loadCount + 1 :=
      Cache.loadCount_fetch h.orderly (fun l _ => lib.provider.load l) hnone
    obtain ⟨-, -, n, hcache⟩ := Library.parser_of_none hnone
    rw [hcache] at horderly hcount ⊢
    exact h.load hp hx (by rw [hprovider]) horderly hcount

end Session

end BigO
