-- What one event can do to a cache of parsers. Every way is a case of `Move`,
-- and every law of a run goes by these cases.
import BigO.Grammar.Fetch

namespace BigO.Grammar

variable {α ε : Type}

namespace Cache

/-! ## Loads -/

theorem getElem?_install {c : Cache α ε} {loop : Nat} {language : String} {id : Nat}
    {l : Load α ε} :
    (c.install loop language).1.loads[id]? = some l ↔
      c.loads[id]? = some l ∨
        (id = c.loads.length ∧ l = { language := language, loop := loop }) := by
  rw [loads_install, List.getElem?_append]
  by_cases hlt : id < c.loads.length
  · simp [hlt, Nat.ne_of_lt hlt]
  · rw [if_neg hlt, List.getElem?_eq_none (Nat.le_of_not_lt hlt)]
    by_cases heq : id = c.loads.length
    · simp [heq, eq_comm]
    · have : id - c.loads.length ≠ 0 := by omega
      simp [heq, this]

/-- A load is among those after a replacement if it is the new one, or was there
before under another number. -/
theorem mem_put {c : Cache α ε} {id : Nat} {l' m : Load α ε} (h : m ∈ (c.put id l').loads) :
    m ∈ c.loads ∨ m = l' :=
  List.mem_or_eq_of_mem_set h

theorem countP_put {c : Cache α ε} {id : Nat} {l : Load α ε} (h : c.loads[id]? = some l)
    (l' : Load α ε) (p : Load α ε → Bool) :
    (c.put id l').loads.countP p + (if p l then 1 else 0) =
      c.loads.countP p + (if p l' then 1 else 0) := by
  obtain ⟨hlt, hget⟩ := List.getElem?_eq_some_iff.mp h
  rw [put, List.countP_set hlt, hget]
  have hpos : p l = true → 0 < c.loads.countP p := fun hp =>
    List.countP_pos_iff.mpr ⟨l, List.mem_of_getElem? h, hp⟩
  by_cases hp : p l = true
  · have := hpos hp
    simp only [hp, if_true]
    omega
  · simp [hp]

/-! ## Moves -/

/-- What an event can do. -/
inductive Move (c : Cache α ε) : Event α ε → Cache α ε → Prop
  /-- No load that a request may join stands for its language, so it starts one. -/
  | start {loop : Nat} {language : String} :
      (∀ id l, c.standing? language = some id → c.loads[id]? = some l → isJoinable loop l = false) →
      Move c (.request loop language) (c.install loop language).1
  /-- A request joins the load that stands for its language. -/
  | join {loop : Nat} {language : String} {id : Nat} {l : Load α ε} :
      c.standing? language = some id → c.loads[id]? = some l → isJoinable loop l = true →
      Move c (.request loop language) c
  | begin {id : Nat} {l : Load α ε} :
      c.loads[id]? = some l → l.phase = .waiting →
      Move c (.begin id) (c.put id { l with phase := .running, nth := c.begun l.language + 1 })
  | succeed {id : Nat} {l : Load α ε} {p : α} :
      c.loads[id]? = some l → l.phase = .running →
      Move c (.finish id (.ok p)) (c.put id { l with phase := .ready p })
  /-- A load that fails takes its language out, whichever load stands for it. -/
  | fail {id : Nat} {l : Load α ε} {x : ε} :
      c.loads[id]? = some l → l.phase = .running →
      Move c (.finish id (.error x)) ((c.put id { l with phase := .failed x }).evict l.language)
  | cancel {id : Nat} {l : Load α ε} :
      c.loads[id]? = some l → l.phase.isOver = false →
      Move c (.cancel id) (c.put id { l with phase := .cancelled })
  | clear : Move c .clear c.clear
  /-- Only a load that waits can begin. -/
  | noBegin {id : Nat} :
      (∀ l, c.loads[id]? = some l → l.phase ≠ .waiting) → Move c (.begin id) c
  /-- Only a load that runs can end. -/
  | noFinish {id : Nat} {r : Except ε α} :
      (∀ l, c.loads[id]? = some l → l.phase ≠ .running) → Move c (.finish id r) c
  | noCancel {id : Nat} :
      (∀ l, c.loads[id]? = some l → l.phase.isOver = true) → Move c (.cancel id) c

theorem move_request (c : Cache α ε) (loop : Nat) (language : String) :
    Move c (.request loop language) (c.request loop language).1 := by
  unfold request
  split
  · rename_i hnone
    exact .start (by simp [hnone])
  · rename_i id hid
    split
    · rename_i hany
      cases hl : c.loads[id]? with
      | none => simp [hl] at hany
      | some l => exact .join hid hl (by simpa [hl] using hany)
    · rename_i hany
      refine .start fun id' l h1 h2 => ?_
      rw [hid] at h1
      cases h1
      simpa [h2] using hany

theorem move_begin (c : Cache α ε) (id : Nat) : Move c (.begin id) (c.begin id) := by
  by_cases h : ∃ l, c.loads[id]? = some l ∧ l.phase = .waiting
  · obtain ⟨l, hl, hp⟩ := h
    unfold Cache.begin
    rw [update_eq_put hl]
    simp only [hp]
    exact .begin hl hp
  · have hself : c.begin id = c := by
      apply update_eq_self
      intro l hl
      split
      · rename_i hp
        exact absurd ⟨l, hl, hp⟩ h
      · rfl
    rw [hself]
    exact .noBegin fun l hl hp => h ⟨l, hl, hp⟩

theorem move_finish (c : Cache α ε) (id : Nat) (r : Except ε α) :
    Move c (.finish id r) (c.finish id r) := by
  unfold finish
  split
  · rename_i hnone
    exact .noFinish (by simp [hnone])
  · rename_i l hl
    split
    · rename_i hp
      split
      · rw [update_eq_put hl]
        exact .succeed hl hp
      · rw [update_eq_put hl]
        exact .fail hl hp
    · rename_i hp
      refine .noFinish fun l' hl' => ?_
      rw [hl] at hl'
      cases hl'
      exact hp

theorem move_cancel (c : Cache α ε) (id : Nat) : Move c (.cancel id) (c.cancel id) := by
  by_cases h : ∃ l, c.loads[id]? = some l ∧ l.phase.isOver = false
  · obtain ⟨l, hl, hp⟩ := h
    unfold Cache.cancel
    rw [update_eq_put hl]
    simp only [hp, Bool.false_eq_true, if_false]
    exact .cancel hl hp
  · have hover : ∀ l, c.loads[id]? = some l → l.phase.isOver = true := by
      intro l hl
      cases hp : l.phase.isOver with
      | true => rfl
      | false => exact absurd ⟨l, hl, hp⟩ h
    have hself : c.cancel id = c := update_eq_self fun l hl => if_pos (hover l hl)
    rw [hself]
    exact .noCancel hover

/-- Every step is one of the moves. -/
theorem move_step (c : Cache α ε) (e : Event α ε) : Move c e (c.step e) := by
  cases e with
  | request loop language => exact move_request c loop language
  | begin id => exact move_begin c id
  | finish id r => exact move_finish c id r
  | cancel id => exact move_cancel c id
  | clear => exact .clear

/-! ## Runs -/

@[simp] theorem after_nil (c : Cache α ε) : c.after [] = c := rfl

@[simp] theorem after_cons (c : Cache α ε) (e : Event α ε) (events : List (Event α ε)) :
    c.after (e :: events) = (c.step e).after events := rfl

theorem after_append (c : Cache α ε) (before later : List (Event α ε)) :
    c.after (before ++ later) = (c.after before).after later := by
  simp [after]

/-! ## What a load comes to -/

/-- A load has come to something if it had before, or if it ran and ended with that
just now. -/
theorem outcome?_step (c : Cache α ε) (e : Event α ε) (id : Nat) (r : Except ε α) :
    (c.step e).outcome? id = some r ↔
      c.outcome? id = some r ∨ (e = .finish id r ∧ c.phase? id = some .running) := by
  have hmove := move_step c e
  generalize c.step e = d at hmove ⊢
  cases hmove with
  | start _ => simp [outcome?_install]
  | join _ _ _ => simp
  | clear => simp [outcome?, phase?, clear]
  | noBegin _ => simp
  | noCancel _ => simp
  | @begin j l hl hp =>
    rw [outcome?_put hl]
    by_cases hj : j = id
    · subst hj
      simp [outcome?_of_getElem? hl, hp, Phase.outcome?]
    · simp [hj]
  | @cancel j l hl hp =>
    rw [outcome?_put hl]
    by_cases hj : j = id
    · subst hj
      cases hphase : l.phase <;>
        simp_all [outcome?_of_getElem? hl, Phase.outcome?, Phase.isOver]
    · simp [hj]
  | @succeed j l p hl hp =>
    rw [outcome?_put hl]
    by_cases hj : j = id
    · subst hj
      simp [outcome?_of_getElem? hl, phase?_of_getElem? hl, hp, Phase.outcome?]
    · simp [hj]
  | @fail j l x hl hp =>
    have hput : ((c.put j { l with phase := .failed x }).evict l.language).outcome? id =
        (c.put j { l with phase := .failed x }).outcome? id := rfl
    rw [hput, outcome?_put hl]
    by_cases hj : j = id
    · subst hj
      simp [outcome?_of_getElem? hl, phase?_of_getElem? hl, hp, Phase.outcome?]
    · simp [hj]
  | @noFinish j r' hnot =>
    simp only [Event.finish.injEq]
    constructor
    · exact .inl
    · rintro (h | ⟨⟨rfl, rfl⟩, h⟩)
      · exact h
      · cases hl : c.loads[j]? with
        | none => simp [phase?, hl] at h
        | some l =>
          rw [phase?_of_getElem? hl] at h
          exact absurd (Option.some.inj h) (hnot l hl)

/-- What a load has come to is what it ended with in the course of the run, or
before it. -/
theorem outcome?_after (c : Cache α ε) (events : List (Event α ε)) (id : Nat) (r : Except ε α) :
    (c.after events).outcome? id = some r ↔
      c.outcome? id = some r ∨ ∃ before later, events = before ++ .finish id r :: later ∧
        (c.after before).phase? id = some .running := by
  induction events generalizing c with
  | nil => simp
  | cons e events ih =>
    rw [after_cons, ih, outcome?_step, or_assoc]
    apply or_congr_right
    constructor
    · rintro (⟨rfl, hrun⟩ | ⟨before, later, rfl, hrun⟩)
      · exact ⟨[], events, rfl, hrun⟩
      · exact ⟨e :: before, later, rfl, hrun⟩
    · rintro ⟨before, later, hsplit, hrun⟩
      cases before with
      | nil =>
        simp only [List.nil_append, List.cons.injEq] at hsplit
        exact .inl ⟨hsplit.1, hrun⟩
      | cons e' before =>
        simp only [List.cons_append, List.cons.injEq] at hsplit
        obtain ⟨rfl, rfl⟩ := hsplit
        exact .inr ⟨before, later, rfl, hrun⟩

theorem outcome?_keeps {c : Cache α ε} {id : Nat} {r : Except ε α} (h : c.outcome? id = some r)
    (events : List (Event α ε)) : (c.after events).outcome? id = some r :=
  (outcome?_after c events id r).mpr (.inl h)

/-! ## What a load is for -/

/-- The language that a load is for. -/
def loadLanguage? (c : Cache α ε) (id : Nat) : Option String :=
  (c.loads[id]?).map (·.language)

theorem loadLanguage?_put {c : Cache α ε} {id j : Nat} {l l' : Load α ε} {language : String}
    (h : c.loads[id]? = some l) (hlang : l'.language = l.language)
    (hj : c.loadLanguage? j = some language) :
    (c.put id l').loadLanguage? j = some language := by
  unfold loadLanguage? at hj ⊢
  by_cases hid : id = j
  · subst hid
    simpa [getElem?_put_self h, h, hlang] using hj
  · rwa [getElem?_put_ne c hid]

theorem loadLanguage?_step {c : Cache α ε} {e : Event α ε} {id : Nat} {language : String}
    (h : c.loadLanguage? id = some language) : (c.step e).loadLanguage? id = some language := by
  have hmove := move_step c e
  generalize c.step e = d at hmove ⊢
  cases hmove with
  | start _ =>
    obtain ⟨l, hl, hlang⟩ := Option.map_eq_some_iff.mp h
    exact Option.map_eq_some_iff.mpr ⟨l, getElem?_install.mpr (.inl hl), hlang⟩
  | begin hl _ => exact loadLanguage?_put hl rfl h
  | succeed hl _ => exact loadLanguage?_put hl rfl h
  | @fail j l x hl _ =>
    have hput : (c.put j { l with phase := .failed x }).loadLanguage? id = some language :=
      loadLanguage?_put hl rfl h
    exact hput
  | cancel hl _ => exact loadLanguage?_put hl rfl h
  | join _ _ _ => exact h
  | clear => exact h
  | noBegin _ => exact h
  | noFinish _ => exact h
  | noCancel _ => exact h

theorem loadLanguage?_after {c : Cache α ε} {id : Nat} {language : String}
    (h : c.loadLanguage? id = some language) (events : List (Event α ε)) :
    (c.after events).loadLanguage? id = some language := by
  induction events generalizing c with
  | nil => exact h
  | cons e events ih => exact ih (loadLanguage?_step h)

end Cache

end BigO.Grammar
