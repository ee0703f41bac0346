-- Loads that fail late. A failure evicts by language, not by load: it takes out the entry of
-- its own load, or that of a later one which has taken the place since. The later load goes on,
-- but no request finds it again, and the next one starts another load beside it.
import BigO.Proofs.StoppedLoads

namespace BigO.Grammar.Cache

variable {α ε : Type} {c : Cache α ε} {e : Event α ε} {id : Nat} {l : Load α ε}

/-! ## The latest load stands -/

/-- Whatever stands for a language is a load of it, and the latest. -/
structure StandsLast (c : Cache α ε) : Prop where
  own : ∀ language id, c.standing? language = some id → c.loadLanguage? id = some language
  last : ∀ language id j, c.standing? language = some id →
    c.loadLanguage? j = some language → j ≤ id

theorem standsLast_empty : ({} : Cache α ε).StandsLast where
  own := by simp [standing?]
  last := by simp [standing?]

/-- A load that is there after an event was there before for the same language, unless the
event made it. -/
theorem loadLanguage?_of_step {language : String}
    (h : (c.step e).loadLanguage? id = some language) (hlt : id < c.loads.length) :
    c.loadLanguage? id = some language := by
  have hbefore : c.loadLanguage? id = some c.loads[id].language := by
    simp [loadLanguage?, List.getElem?_eq_getElem hlt]
  rw [loadLanguage?_step hbefore] at h
  rw [hbefore, h]

theorem standsLast_install (h : c.StandsLast) (loop : Nat) (language : String) :
    (c.install loop language).1.StandsLast where
  own m id hid := by
    rw [standing?_install] at hid
    split at hid
    · rename_i hm
      obtain rfl := Option.some.inj hid
      simp [loadLanguage?, hm]
    · obtain ⟨l, hl, hlang⟩ := Option.map_eq_some_iff.mp (h.own m id hid)
      exact Option.map_eq_some_iff.mpr ⟨l, getElem?_install.mpr (.inl hl), hlang⟩
  last m id j hid hj := by
    obtain ⟨l, hl, hlang⟩ := Option.map_eq_some_iff.mp hj
    rw [standing?_install] at hid
    rcases getElem?_install.mp hl with hold | ⟨rfl, rfl⟩
    · split at hid
      · obtain rfl := Option.some.inj hid
        exact Nat.le_of_lt (List.getElem?_eq_some_iff.mp hold).1
      · exact h.last m id j hid (Option.map_eq_some_iff.mpr ⟨l, hold, hlang⟩)
    · rw [if_pos hlang.symm] at hid
      exact Nat.le_of_eq (Option.some.inj hid)

theorem standsLast_step (h : c.StandsLast) (e : Event α ε) : (c.step e).StandsLast := by
  -- an event that makes no load leaves what stands, or takes it away
  have hkeeps : (∀ language id, (c.step e).standing? language = some id →
      c.standing? language = some id) → (c.step e).loads.length = c.loads.length →
      (c.step e).StandsLast := by
    intro hstands hlength
    refine ⟨fun language id hid => loadLanguage?_step (h.own language id (hstands _ _ hid)), ?_⟩
    intro language id j hid hj
    have hlt := lt_of_loadLanguage? hj
    rw [hlength] at hlt
    exact h.last language id j (hstands language id hid) (loadLanguage?_of_step hj hlt)
  have hmove := move_step c e
  generalize c.step e = d at hmove hkeeps ⊢
  cases hmove with
  | start _ => exact standsLast_install h _ _
  | fail _ _ =>
    refine hkeeps ?_ (by simp [put])
    intro language id hid
    rw [standing?_evict] at hid
    split at hid
    · cases hid
    · exact hid
  | clear => exact hkeeps (by simp [standing?, clear]) rfl
  | begin _ _ => exact hkeeps (fun _ _ hid => hid) (by simp [put])
  | succeed _ _ => exact hkeeps (fun _ _ hid => hid) (by simp [put])
  | cancel _ _ => exact hkeeps (fun _ _ hid => hid) (by simp [put])
  | join _ _ _ => exact h
  | noBegin _ => exact h
  | noFinish _ => exact h
  | noCancel _ => exact h

theorem standsLast_after (h : c.StandsLast) (events : List (Event α ε)) :
    (c.after events).StandsLast := by
  induction events generalizing c with
  | nil => exact h
  | cons e events ih => exact ih (standsLast_step h e)

/-! ## Keeping the place -/

/-- A load stays for its language and on its loop. -/
theorem load_after (hl : c.loads[id]? = some l) (events : List (Event α ε)) :
    ∃ l', (c.after events).loads[id]? = some l' ∧ l'.language = l.language ∧
      l'.loop = l.loop := by
  induction events generalizing c l with
  | nil => exact ⟨l, hl, rfl, rfl⟩
  | cons e events ih =>
    obtain ⟨l', hl', hgoes⟩ := load_step (e := e) hl
    obtain ⟨l'', hl'', hlang, hloop⟩ := ih hl'
    exact ⟨l'', hl'', hlang.trans hgoes.language, hloop.trans hgoes.loop⟩

/-- A load stands as long as nothing evicts it and nobody asks for its language on another
loop. -/
theorem standing?_after {events : List (Event α ε)} (hid : c.standing? l.language = some id)
    (hl : c.loads[id]? = some l) (hspare : c.Spares l.language events)
    (hloop : ∀ k ≠ l.loop, .request k l.language ∉ events) :
    (c.after events).standing? l.language = some id := by
  induction events generalizing c l with
  | nil => exact hid
  | cons e events ih =>
    obtain ⟨l', hl', hgoes⟩ := load_step (e := e) hl
    have hid' : (c.step e).standing? l.language = some id := by
      rcases standing?_step (e := e) hid hl with hid' | hevicts | ⟨k, rfl, hjoin⟩
      · exact hid'
      · exact absurd hevicts (hspare [] e events rfl)
      · have hk : k ≠ l.loop := by
          rintro rfl
          simp [isJoinable] at hjoin
        exact absurd List.mem_cons_self (hloop k hk)
    have hspare' := hspare.tail
    rw [← hgoes.language] at hid' hspare' ⊢
    refine ih hid' hl' hspare' fun k hk hmem => ?_
    rw [hgoes.language] at hmem
    rw [hgoes.loop] at hk
    exact hloop k hk (List.mem_cons_of_mem e hmem)

/-! ## The law -/

/-- What the failure of a load does that was under way at the end of a run. -/
structure LateFailure (events : List (Event α ε)) (i : Nat) (l : Load α ε) (x : ε) : Prop where
  /-- Nothing stands for its language any more. The other languages have what they had. -/
  entries : ∀ language, (after {} (events ++ [.finish i (.error x)])).standing? language =
    if language = l.language then none else (after {} events).standing? language
  /-- The other loads go on as they were. -/
  loads : ∀ j ≠ i,
    (after {} (events ++ [.finish i (.error x)])).loads[j]? = (after {} events).loads[j]?
  /-- The entry that it took was that of its own load, as long as nothing else had evicted
  that and nobody had asked for the language on another loop. -/
  own : ∀ before later, events = before ++ later →
    (after {} before).standing? l.language = some i →
    (after {} before).Spares l.language later → (∀ k ≠ l.loop, .request k l.language ∉ later) →
    (after {} events).standing? l.language = some i
  /-- If it was that of another load, that one is the later of the two. -/
  later : ∀ j ≠ i, (after {} events).standing? l.language = some j → i < j
  /-- Whichever load lost its entry, no request is answered by it again. -/
  lost : ∀ j, (after {} events).standing? l.language = some j → ∀ more loop,
    ((after {} (events ++ .finish i (.error x) :: more)).request loop l.language).2 ≠ j
  /-- The next request for the language starts over. -/
  starts : ∀ more, (∀ k, .request k l.language ∉ more) → ∀ loop,
    StartsOver (after {} (events ++ .finish i (.error x) :: more)) loop l.language

/-- After every run, on any loops, with anything cleared or asked for again. -/
theorem late_failure (events : List (Event α ε)) (i : Nat) (l : Load α ε) (x : ε)
    (hl : (after {} events).loads[i]? = some l) (hp : l.phase = .running) :
    LateFailure events i l x := by
  have hfinish : (after {} (events ++ [.finish i (.error x)])) =
      ((after {} events).put i { l with phase := .failed x }).evict l.language := by
    simp [after_append, step, finish, hl, hp, update_eq_put hl]
  have hnone : ((after {} events).step (.finish i (.error x))).standing? l.language = none :=
    standing?_finish_error hl hp
  constructor
  case entries =>
    intro language
    rw [hfinish, standing?_evict, standing?_put]
  case loads =>
    intro j hj
    rw [hfinish, loads_evict, getElem?_put_ne _ hj.symm]
  case own =>
    rintro before later rfl hid hspare hloop
    have hi := (standsLast_after standsLast_empty before).own l.language i hid
    obtain ⟨l₀, hl₀, hlang⟩ := Option.map_eq_some_iff.mp hi
    obtain ⟨l', hl', -, hloop'⟩ := load_after hl₀ later
    rw [← after_append, hl, Option.some.injEq] at hl'
    subst hl'
    rw [← hlang] at hid hspare hloop ⊢
    rw [hloop'] at hloop
    rw [after_append]
    exact standing?_after hid hl₀ hspare hloop
  case later =>
    intro j hj hid
    have hle := (standsLast_after standsLast_empty events).last l.language j i hid
      (by simp [loadLanguage?, hl])
    omega
  case lost =>
    intro j hid more loop
    have hj := (standsLast_after standsLast_empty events).own l.language j hid
    have hj' := loadLanguage?_step (e := .finish i (.error x)) hj
    have hgone : ((after {} events).step (.finish i (.error x))).standing? l.language ≠
        some j := by simp [hnone]
    have hne := standing?_ne_after hj' hgone more
    have hlt := lt_of_loadLanguage? (loadLanguage?_after hj' more)
    rw [after_append, after_cons]
    rcases request_number (((after {} events).step (.finish i (.error x))).after more) loop
      l.language with h | h
    · rintro rfl
      exact hne h
    · omega
  case starts =>
    intro more hmore loop
    apply startsOver_of_none
    rw [after_append, after_cons]
    exact standing?_none_after hnone hmore

/-- Cleared and asked for again, a language loads a second time beside its first load. -/
def lateRun : List (Event Nat String) :=
  [.request 0 "c", .begin 0, .clear, .request 0 "c", .begin 1]

/-- The first load fails, the second loses its entry, and a third one is made. -/
theorem late_failure_lateRun :
    (after {} lateRun).standing? "c" = some 1 ∧
      ((after {} (lateRun ++ [.finish 0 (.error "late")])).request 0 "c").2 = 2 :=
  ⟨by decide, ((late_failure lateRun 0 ⟨"c", 0, 1, .running⟩ "late" rfl rfl).starts []
    (by simp) 0).number⟩

/-- Not every load that fails leaves the entry of a later load alone. -/
theorem not_evicts_only_itself :
    ¬ ∀ (events : List (Event Nat String)) (i j : Nat) (l : Load Nat String) (x : String),
      (after {} events).loads[i]? = some l → l.phase = .running → j ≠ i →
      (after {} events).standing? l.language = some j →
      (after {} (events ++ [.finish i (.error x)])).standing? l.language = some j := by
  intro h
  have hkept := h lateRun 0 1 ⟨"c", 0, 1, .running⟩ "late" rfl rfl (by decide) rfl
  exact absurd hkept (by decide)

end BigO.Grammar.Cache
