-- Loads that stop before their end. One that its loop has left behind is out of
-- the way: the next request for its language starts over. One that was cancelled
-- is not. It has ended, so every later request joins it and gets nothing, until
-- the cache is cleared or another load of the language fails.
import BigO.Proofs.SingleFlight

namespace BigO.Grammar.Cache

variable {α ε : Type} {c : Cache α ε} {e : Event α ε} {language : String} {id : Nat}
  {l : Load α ε}

/-! ## What takes a load out of its place -/

/-- The event leaves nothing to stand for a language: all is cleared, or a load of the
language fails, whichever of them it is. -/
def Evicts (c : Cache α ε) (language : String) : Event α ε → Prop
  | .clear => True
  | .finish j (.error _) => ∃ l, c.loads[j]? = some l ∧ l.language = language ∧ l.phase = .running
  | _ => False

theorem standing?_of_evicts (h : c.Evicts language e) : (c.step e).standing? language = none := by
  unfold Evicts at h
  split at h
  · rfl
  · obtain ⟨l, hl, rfl, hp⟩ := h
    exact standing?_finish_error hl hp
  · cases h

/-- A load keeps its place unless the event evicts it, or is a request that may not
join it. -/
theorem standing?_step (hid : c.standing? language = some id) (hl : c.loads[id]? = some l) :
    (c.step e).standing? language = some id ∨ c.Evicts language e ∨
      ∃ loop, e = .request loop language ∧ isJoinable loop l = false := by
  have hmove := move_step c e
  generalize c.step e = d at hmove ⊢
  cases hmove with
  | @start loop m hstart =>
    by_cases hm : language = m
    · subst hm
      exact .inr (.inr ⟨loop, rfl, hstart id l hid hl⟩)
    · rw [standing?_install, if_neg hm]
      exact .inl hid
  | @fail j k x hk hp =>
    rw [standing?_evict]
    by_cases hlang : language = k.language
    · exact .inr (.inl ⟨k, hk, hlang.symm, hp⟩)
    · rw [if_neg hlang]
      exact .inl hid
  | clear => exact .inr (.inl trivial)
  | join _ _ _ => exact .inl hid
  | begin _ _ => exact .inl hid
  | succeed _ _ => exact .inl hid
  | cancel _ _ => exact .inl hid
  | noBegin _ => exact .inl hid
  | noFinish _ => exact .inl hid
  | noCancel _ => exact .inl hid

/-- A load that has lost its place never has it again: a place is only given to a
new load. -/
theorem standing?_ne_step (hlt : id < c.loads.length) (hne : c.standing? language ≠ some id) :
    (c.step e).standing? language ≠ some id := by
  have hmove := move_step c e
  generalize c.step e = d at hmove ⊢
  cases hmove with
  | @start loop m _ =>
    rw [standing?_install]
    split
    · intro h
      cases h
      omega
    · exact hne
  | fail _ _ =>
    rw [standing?_evict]
    split
    · simp
    · exact hne
  | clear => simp [standing?, clear]
  | join _ _ _ => exact hne
  | begin _ _ => exact hne
  | succeed _ _ => exact hne
  | cancel _ _ => exact hne
  | noBegin _ => exact hne
  | noFinish _ => exact hne
  | noCancel _ => exact hne

theorem lt_of_loadLanguage? (h : c.loadLanguage? id = some language) : id < c.loads.length := by
  obtain ⟨l, hl, -⟩ := Option.map_eq_some_iff.mp h
  exact (List.getElem?_eq_some_iff.mp hl).1

theorem standing?_ne_after {m : String} (h : c.loadLanguage? id = some m)
    (hne : c.standing? language ≠ some id) (events : List (Event α ε)) :
    (c.after events).standing? language ≠ some id := by
  induction events generalizing c with
  | nil => exact hne
  | cons e events ih =>
    exact ih (loadLanguage?_step h) (standing?_ne_step (lt_of_loadLanguage? h) hne)

/-! ## How a load goes on -/

/-- A load as one event may leave it: its language and its loop stay, once it is over
so does where it stands, and while it is under way only its own end ends it. -/
structure GoesOn (e : Event α ε) (id : Nat) (l l' : Load α ε) : Prop where
  language : l'.language = l.language
  loop : l'.loop = l.loop
  ended : l.phase.isOver = true → l'.phase = l.phase
  underWay : l.phase.isOver = false → (∀ r, e ≠ .finish id r) → e ≠ .cancel id →
    l'.phase.isOver = false

theorem GoesOn.refl (e : Event α ε) (id : Nat) (l : Load α ε) : GoesOn e id l l :=
  ⟨rfl, rfl, fun _ => rfl, fun h _ _ => h⟩

theorem goesOn_put {j : Nat} {k k' : Load α ε} (hl : c.loads[id]? = some l)
    (hk : c.loads[j]? = some k) (hgoes : j = id → GoesOn e id k k') :
    ∃ l', (c.put j k').loads[id]? = some l' ∧ GoesOn e id l l' := by
  by_cases hj : j = id
  · subst hj
    rw [hl] at hk
    cases hk
    exact ⟨k', getElem?_put_self hl k', hgoes rfl⟩
  · exact ⟨l, by rw [getElem?_put_ne c hj, hl], .refl e id l⟩

theorem load_step (hl : c.loads[id]? = some l) :
    ∃ l', (c.step e).loads[id]? = some l' ∧ GoesOn e id l l' := by
  have hmove := move_step c e
  generalize c.step e = d at hmove ⊢
  cases hmove with
  | start _ => exact ⟨l, getElem?_install.mpr (.inl hl), .refl _ id l⟩
  | begin hk hp =>
    refine goesOn_put hl hk fun _ => ⟨rfl, rfl, ?_, fun _ _ _ => rfl⟩
    simp [hp, Phase.isOver]
  | succeed hk hp =>
    refine goesOn_put hl hk fun hj => ⟨rfl, rfl, ?_, fun _ h _ => absurd (by rw [hj]) (h _)⟩
    simp [hp, Phase.isOver]
  | fail hk hp =>
    rw [loads_evict]
    refine goesOn_put hl hk fun hj => ⟨rfl, rfl, ?_, fun _ h _ => absurd (by rw [hj]) (h _)⟩
    simp [hp, Phase.isOver]
  | cancel hk hp =>
    refine goesOn_put hl hk fun hj => ⟨rfl, rfl, ?_, fun _ _ h => absurd (by rw [hj]) h⟩
    simp [hp]
  | join _ _ _ => exact ⟨l, hl, .refl _ id l⟩
  | clear => exact ⟨l, hl, .refl _ id l⟩
  | noBegin _ => exact ⟨l, hl, .refl _ id l⟩
  | noFinish _ => exact ⟨l, hl, .refl _ id l⟩
  | noCancel _ => exact ⟨l, hl, .refl _ id l⟩

/-! ## Starting over -/

/-- A request starts over: it is answered by a load that was not there before, which
stands for the language from then on, and is given whatever that load ends with. -/
structure StartsOver (c : Cache α ε) (loop : Nat) (language : String) : Prop where
  number : (c.request loop language).2 = c.loads.length
  loads : (c.request loop language).1.loads = c.loads ++ [{ language := language, loop := loop }]
  stands : (c.request loop language).1.standing? language = some c.loads.length
  outcome : ∀ (events : List (Event α ε)) (r : Except ε α),
    ((c.request loop language).1.after events).outcome? c.loads.length = some r ↔
      ∃ before later, events = before ++ .finish c.loads.length r :: later ∧
        ((c.request loop language).1.after before).phase? c.loads.length = some .running
  open_end : ∀ r : Except ε α, ((c.request loop language).1.after
    [.begin c.loads.length, .finish c.loads.length r]).outcome? c.loads.length = some r

theorem startsOver_of_install {loop : Nat}
    (h : c.request loop language = c.install loop language) : StartsOver c loop language := by
  have hnew : (c.install loop language).1.loads[c.loads.length]? =
      some { language := language, loop := loop } := by simp
  refine ⟨by rw [h]; rfl, by rw [h]; rfl, ?_, ?_, ?_⟩
  · rw [h, standing?_install, if_pos rfl]
  · intro events r
    rw [h, outcome?_after, outcome?_of_getElem? hnew]
    simp [Phase.outcome?]
  · intro r
    rw [h, after_cons, after_cons, after_nil, outcome?_step]
    refine .inr ⟨rfl, ?_⟩
    simp only [step, Cache.begin]
    rw [update_eq_put hnew, phase?_put hnew, if_pos rfl]

theorem startsOver_of_none (h : c.standing? language = none) (loop : Nat) :
    StartsOver c loop language :=
  startsOver_of_install (request_of_none h loop)

/-- A load under way on another loop is in nobody's way. -/
theorem startsOver_of_underWay {loop : Nat} (hid : c.standing? language = some id)
    (hl : c.loads[id]? = some l) (hover : l.phase.isOver = false) (hloop : loop ≠ l.loop) :
    StartsOver c loop language := by
  apply startsOver_of_install
  have hjoin : isJoinable loop l = false := by simp [isJoinable, hover, Ne.symm hloop]
  simp [request, hid, hl, hjoin]

theorem request_of_over {loop : Nat} (hid : c.standing? language = some id)
    (hl : c.loads[id]? = some l) (hover : l.phase.isOver = true) :
    c.request loop language = (c, id) := by
  simp [request, hid, hl, isJoinable, hover]

/-- A request is answered by the load that stands for its language, or by a new one. -/
theorem request_number (c : Cache α ε) (loop : Nat) (language : String) :
    c.standing? language = some (c.request loop language).2 ∨
      (c.request loop language).2 = c.loads.length := by
  unfold request
  split
  · exact .inr rfl
  · rename_i id hid
    split
    · exact .inl hid
    · exact .inr rfl

/-! ## Runs -/

/-- While a load is under way and nobody asks for its language, it stands for it or
nothing does. -/
theorem left_behind {events : List (Event α ε)}
    (hstand : c.standing? l.language = some id ∨ c.standing? l.language = none)
    (hl : c.loads[id]? = some l) (hover : l.phase.isOver = false)
    (hend : ∀ r, Event.finish id r ∉ events) (hcancel : Event.cancel id ∉ events)
    (hreq : ∀ loop, Event.request loop l.language ∉ events) :
    ((c.after events).standing? l.language = some id ∨
        (c.after events).standing? l.language = none) ∧
      ∃ l', (c.after events).loads[id]? = some l' ∧ l'.loop = l.loop ∧
        l'.phase.isOver = false := by
  induction events generalizing c l with
  | nil => exact ⟨hstand, l, hl, rfl, hover⟩
  | cons e events ih =>
    have hother : ∀ loop, e ≠ .request loop l.language := by
      rintro loop rfl
      exact hreq loop (by simp)
    have hstand' : (c.step e).standing? l.language = some id ∨
        (c.step e).standing? l.language = none := by
      rcases hstand with hid | hnone
      · rcases standing?_step (e := e) hid hl with hid' | hev | ⟨loop, he, -⟩
        · exact .inl hid'
        · exact .inr (standing?_of_evicts hev)
        · exact absurd he (hother loop)
      · exact .inr (standing?_none_step hnone hother)
    obtain ⟨l', hl', hgoes⟩ := load_step (e := e) hl
    have hover' : l'.phase.isOver = false := by
      apply hgoes.underWay hover
      · rintro r rfl
        exact hend r (by simp)
      · rintro rfl
        exact hcancel (by simp)
    rw [← hgoes.language] at hstand' ⊢
    obtain ⟨hlast, l'', hl'', hloop, hover''⟩ := ih hstand' hl' hover'
      (fun r hr => hend r (by simp [hr])) (fun h => hcancel (by simp [h]))
      (fun loop hr => hreq loop (by rw [← hgoes.language]; simp [hr]))
    exact ⟨hlast, l'', hl'', hloop.trans hgoes.loop, hover''⟩

/-- Nothing in the run evicts what stands for a language. -/
def Spares (c : Cache α ε) (language : String) (events : List (Event α ε)) : Prop :=
  ∀ before e later, events = before ++ e :: later → ¬ (c.after before).Evicts language e

theorem Spares.tail {events : List (Event α ε)} (h : c.Spares language (e :: events)) :
    (c.step e).Spares language events := by
  intro before e' later hsplit
  exact h (e :: before) e' later (by rw [hsplit, List.cons_append])

/-- A load that is over and stands for its language does so until it is evicted, and
has ended as it had. -/
theorem over_stands {events : List (Event α ε)} (hid : c.standing? language = some id)
    (hl : c.loads[id]? = some l) (hover : l.phase.isOver = true)
    (hspare : c.Spares language events) :
    (c.after events).standing? language = some id ∧
      ∃ l', (c.after events).loads[id]? = some l' ∧ l'.phase = l.phase := by
  induction events generalizing c l with
  | nil => exact ⟨hid, l, hl, rfl⟩
  | cons e events ih =>
    obtain ⟨l', hl', hgoes⟩ := load_step (e := e) hl
    have hphase := hgoes.ended hover
    have hid' : (c.step e).standing? language = some id := by
      rcases standing?_step (e := e) hid hl with hid' | hev | ⟨loop, -, hjoin⟩
      · exact hid'
      · exact absurd hev (hspare [] e events rfl)
      · simp [isJoinable, hover] at hjoin
    obtain ⟨hlast, l'', hl'', hphase'⟩ := ih hid' hl' (by rw [hphase, hover]) hspare.tail
    exact ⟨hlast, l'', hl'', hphase'.trans hphase⟩

/-! ## The laws -/

/-- What becomes of the loads of a run that stopped before their end. -/
structure StoppedLoads (events : List (Event α ε)) : Prop where
  /-- A load that stood for its language when its loop ended with the load under way:
  the next request for the language, on any other loop, starts over. -/
  left_behind : ∀ before later id l, events = before ++ later →
    (after {} before).standing? l.language = some id → (after {} before).loads[id]? = some l →
    l.phase.isOver = false → (∀ r, .finish id r ∉ later) → .cancel id ∉ later →
    (∀ k, .request k l.language ∉ later) →
    ∀ loop ≠ l.loop, StartsOver (after {} events) loop l.language
  /-- A load that has lost its place, however it stopped, answers no request again. -/
  displaced : ∀ before later id l, events = before ++ later →
    (after {} before).loads[id]? = some l → (after {} before).standing? l.language ≠ some id →
    ∀ loop, ((after {} events).request loop l.language).2 ≠ id
  /-- A load that was cancelled in its place stays there. Every request joins it, on
  whichever loop, and is given nothing, as long as nothing evicts it. -/
  cancelled : ∀ before later id l, events = before ++ .cancel id :: later →
    (after {} before).standing? l.language = some id → (after {} before).loads[id]? = some l →
    l.phase.isOver = false → (after {} (before ++ [.cancel id])).Spares l.language later →
    ∀ loop, (after {} events).request loop l.language = (after {} events, id) ∧
      (after {} events).phase? id = some .cancelled
  /-- Once something has evicted it, the next request starts over. -/
  evicted : ∀ before e later language, events = before ++ e :: later →
    (after {} before).Evicts language e → (∀ k, .request k language ∉ later) →
    ∀ loop, StartsOver (after {} events) loop language

/-- After every run, on any loops, with any loads cancelled or left behind. -/
theorem stopped_loads (events : List (Event α ε)) : StoppedLoads events := by
  constructor
  case left_behind =>
    rintro before later id l rfl hid hl hover hend hcancel hreq loop hloop
    rw [after_append]
    obtain ⟨hstand, l', hl', hloop', hover'⟩ :=
      Cache.left_behind (.inl hid) hl hover hend hcancel hreq
    rcases hstand with hstand | hstand
    · exact startsOver_of_underWay hstand hl' hover' (by rw [hloop']; exact hloop)
    · exact startsOver_of_none hstand loop
  case displaced =>
    rintro before later id l rfl hl hne loop
    have hlang : (after ({} : Cache α ε) before).loadLanguage? id = some l.language := by
      simp [loadLanguage?, hl]
    have hne' := standing?_ne_after hlang hne later
    have hlt := lt_of_loadLanguage? (loadLanguage?_after hlang later)
    rw [after_append]
    rcases request_number ((after {} before).after later) loop l.language with h | h
    · intro heq
      rw [heq] at h
      exact hne' h
    · omega
  case cancelled =>
    rintro before later id l rfl hid hl hover hspare loop
    have hcancel : (after ({} : Cache α ε) (before ++ [.cancel id])).loads[id]? =
        some { l with phase := .cancelled } := by
      simp [after_append, step, Cache.cancel, update_eq_put hl, hover, getElem?_put_self hl]
    have hid' : (after ({} : Cache α ε) (before ++ [.cancel id])).standing? l.language =
        some id := by
      rw [after_append]
      exact hid
    obtain ⟨hstand, l', hl', hphase⟩ := over_stands hid' hcancel rfl hspare
    rw [← after_append, List.append_assoc, List.singleton_append] at hstand hl'
    refine ⟨request_of_over hstand hl' (by rw [hphase]; rfl), ?_⟩
    rw [phase?_of_getElem? hl', hphase]
  case evicted =>
    rintro before e later language rfl hev hreq loop
    apply startsOver_of_none
    rw [after_append, after_cons]
    exact standing?_none_after (standing?_of_evicts hev) hreq

/-- A load left behind on one loop, and one cancelled on another. -/
def stoppedRun : List (Event Nat String) :=
  [.request 0 "c", .begin 0, .request 1 "java", .begin 1, .cancel 1]

theorem stopped_loads_stoppedRun :
    StartsOver (after {} stoppedRun) 1 "c" ∧
      (after {} stoppedRun).request 2 "java" = (after {} stoppedRun, 1) :=
  ⟨(stopped_loads stoppedRun).left_behind stoppedRun [] 0 ⟨"c", 0, 1, .running⟩ rfl rfl rfl rfl
      (by simp) (by simp) (by simp) 1 (by decide),
    ((stopped_loads stoppedRun).cancelled
      [.request 0 "c", .begin 0, .request 1 "java", .begin 1] [] 1 ⟨"java", 1, 1, .running⟩
      rfl rfl rfl rfl (by simp [Spares]) 2).1⟩

/-- Not every load that was cancelled in its place makes way for the next request. -/
theorem not_startsOver_after_cancel :
    ¬ ∀ (events : List (Event Nat String)) (id : Nat) (l : Load Nat String) (loop : Nat),
      (after {} events).loads[id]? = some l → (after {} events).standing? l.language = some id →
      l.phase = .cancelled → StartsOver (after {} events) loop l.language := by
  intro h
  have hstart := h [.request 0 "python", .begin 0, .cancel 0] 0 ⟨"python", 0, 1, .cancelled⟩ 1
    rfl rfl rfl
  exact absurd hstart.number (by decide)

end BigO.Grammar.Cache
