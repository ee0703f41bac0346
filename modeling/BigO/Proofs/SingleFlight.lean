-- One load at a time. On one loop, with nothing cancelled or cleared, a load
-- that has not failed stands for its language and no other does. Each law of
-- the cache follows from that, in whatever order requests, beginnings and ends
-- may come.
import BigO.Proofs.Cache
import Mathlib

namespace BigO.Grammar

variable {α ε : Type}

/-! ## Loads and what they come to -/

/-- The load has failed. -/
def Phase.hasFailed : Phase α ε → Bool
  | .failed _ => true
  | _ => false

/-- A load of a run on one loop: it is on that loop, it is not cancelled, and it
is counted once it no longer waits. -/
structure Load.IsPlain (loop : Nat) (l : Load α ε) : Prop where
  same_loop : l.loop = loop
  not_cancelled : l.phase ≠ .cancelled
  counted : l.nth = 0 ↔ l.phase = .waiting

namespace Cache

/-- The event belongs to a run on one loop in which nothing is cancelled or cleared. -/
def Event.IsPlain (loop : Nat) : Event α ε → Prop
  | .request l _ => l = loop
  | .begin _ => True
  | .finish _ _ => True
  | .cancel _ => False
  | .clear => False

/-- The language that an event is about, if it is about one. -/
def languageOf? (c : Cache α ε) : Event α ε → Option String
  | .request _ language => some language
  | .begin id => (c.loads[id]?).map (·.language)
  | .finish id _ => (c.loads[id]?).map (·.language)
  | .cancel id => (c.loads[id]?).map (·.language)
  | .clear => none

/-- The load that an event sets going, if it sets one going. -/
def begins? (c : Cache α ε) : Event α ε → Option Nat
  | .begin id =>
    match c.phase? id with
    | some .waiting => some id
    | _ => none
  | _ => none

/-- The loads that are set going in the course of a run. -/
def beginnings (c : Cache α ε) : List (Event α ε) → List Nat
  | [] => []
  | e :: events => (c.begins? e).toList ++ (c.step e).beginnings events

/-- The number of loads of a language there ever were. -/
def loadsOf (c : Cache α ε) (language : String) : Nat :=
  c.loads.countP (·.language == language)

/-! ## The invariant -/

/-- In a run on one loop a load stands for its language exactly as long as it has
not failed. -/
structure Orderly (loop : Nat) (c : Cache α ε) : Prop where
  plain : ∀ l ∈ c.loads, l.IsPlain loop
  standing : ∀ language id, c.standing? language = some id ↔
    ∃ l, c.loads[id]? = some l ∧ l.language = language ∧ l.phase.hasFailed = false
  distinct : (c.entries.map (·.1)).Nodup

theorem orderly_empty (loop : Nat) : Orderly loop ({} : Cache α ε) where
  plain := by simp
  standing := by simp [standing?]
  distinct := by simp

/-- On one loop every load can be joined, so a request starts a load only where
none stands. -/
theorem standing?_of_start {loop : Nat} {c : Cache α ε} (h : Orderly loop c) {language : String}
    (hstart : ∀ id l, c.standing? language = some id → c.loads[id]? = some l →
      isJoinable loop l = false) : c.standing? language = none := by
  cases hid : c.standing? language with
  | none => rfl
  | some id =>
    obtain ⟨l, hl, -, -⟩ := (h.standing language id).mp hid
    have hloop := (h.plain l (List.mem_of_getElem? hl)).same_loop
    have := hstart id l hid hl
    simp [isJoinable, hloop] at this

theorem orderly_install {loop : Nat} {c : Cache α ε} (h : Orderly loop c) {language : String}
    (hnone : c.standing? language = none) : Orderly loop (c.install loop language).1 where
  plain := by
    intro l hl
    rw [loads_install, List.mem_append, List.mem_singleton] at hl
    rcases hl with hl | rfl
    · exact h.plain l hl
    · exact ⟨rfl, by simp, by simp⟩
  standing := by
    intro m id
    rw [standing?_install]
    constructor
    · intro hid
      by_cases hm : m = language
      · rw [if_pos hm, Option.some.injEq] at hid
        exact ⟨_, getElem?_install.mpr (.inr ⟨hid.symm, rfl⟩), hm.symm, rfl⟩
      · rw [if_neg hm] at hid
        obtain ⟨l, hl, hlang, hp⟩ := (h.standing m id).mp hid
        exact ⟨l, getElem?_install.mpr (.inl hl), hlang, hp⟩
    · rintro ⟨l, hl, hlang, hp⟩
      rcases getElem?_install.mp hl with hl | ⟨rfl, rfl⟩
      · have hid := (h.standing m id).mpr ⟨l, hl, hlang, hp⟩
        have hm : m ≠ language := by
          rintro rfl
          rw [hnone] at hid
          cases hid
        rw [if_neg hm, hid]
      · rw [if_pos hlang.symm]
  distinct := by
    have hsub : ((c.entries.filter (·.1 != language)).map (·.1)).Nodup :=
      (List.filter_sublist.map _).nodup h.distinct
    simp only [install, evict, List.map_cons, List.nodup_cons]
    exact ⟨by simp, hsub⟩

/-- A load that goes on, and is no failure before or after, changes nothing of
what stands. -/
theorem orderly_put {loop : Nat} {c : Cache α ε} (h : Orderly loop c) {id : Nat}
    {l l' : Load α ε} (hl : c.loads[id]? = some l) (hlang : l'.language = l.language)
    (hfailed : l.phase.hasFailed = false) (hfailed' : l'.phase.hasFailed = false)
    (hplain : l'.IsPlain loop) : Orderly loop (c.put id l') where
  plain := by
    intro m hm
    rcases mem_put hm with hm | rfl
    · exact h.plain m hm
    · exact hplain
  standing := by
    intro m j
    rw [standing?_put, h.standing]
    by_cases hj : id = j
    · subst hj
      simp [getElem?_put_self hl, hl, hlang, hfailed, hfailed']
    · rw [getElem?_put_ne c hj]
  distinct := h.distinct

theorem orderly_fail {loop : Nat} {c : Cache α ε} (h : Orderly loop c) {id : Nat}
    {l : Load α ε} (hl : c.loads[id]? = some l) (hp : l.phase = .running) (x : ε) :
    Orderly loop ((c.put id { l with phase := .failed x }).evict l.language) where
  plain := by
    intro m hm
    rcases mem_put hm with hm | rfl
    · exact h.plain m hm
    · obtain ⟨hloop, -, hcount⟩ := h.plain l (List.mem_of_getElem? hl)
      exact ⟨hloop, by simp, by simpa [hp] using hcount⟩
  standing := by
    -- The load that fails is the one that stands, so taking its language out
    -- takes out nothing else.
    have hstands : c.standing? l.language = some id :=
      (h.standing _ _).mpr ⟨l, hl, rfl, by simp [hp, Phase.hasFailed]⟩
    intro m j
    rw [standing?_evict, standing?_put, loads_evict]
    by_cases hm : m = l.language
    · subst hm
      simp only [if_true, reduceCtorEq, false_iff]
      rintro ⟨k, hk, hlang, hfailed⟩
      by_cases hj : id = j
      · subst hj
        rw [getElem?_put_self hl] at hk
        cases hk
        simp [Phase.hasFailed] at hfailed
      · rw [getElem?_put_ne c hj] at hk
        have := (h.standing _ _).mpr ⟨k, hk, hlang, hfailed⟩
        rw [hstands] at this
        exact hj (Option.some.inj this)
    · rw [if_neg hm, h.standing]
      by_cases hj : id = j
      · subst hj
        simp [getElem?_put_self hl, hl, Ne.symm hm]
      · rw [getElem?_put_ne c hj]
  distinct := (List.filter_sublist.map _).nodup h.distinct

/-- Every step of such a run keeps the invariant. -/
theorem orderly_step {loop : Nat} {c : Cache α ε} (h : Orderly loop c) {e : Event α ε}
    (he : e.IsPlain loop) : Orderly loop (c.step e) := by
  have hmove := move_step c e
  generalize c.step e = d at hmove ⊢
  cases hmove with
  | start hstart =>
    cases he
    exact orderly_install h (standing?_of_start h hstart)
  | join _ _ _ => exact h
  | begin hl hp =>
    obtain ⟨hloop, -, -⟩ := h.plain _ (List.mem_of_getElem? hl)
    exact orderly_put h hl rfl (by simp [hp, Phase.hasFailed]) rfl ⟨hloop, by simp, by simp⟩
  | succeed hl hp =>
    obtain ⟨hloop, -, hcount⟩ := h.plain _ (List.mem_of_getElem? hl)
    exact orderly_put h hl rfl (by simp [hp, Phase.hasFailed]) rfl
      ⟨hloop, by simp, by simpa [hp] using hcount⟩
  | fail hl hp => exact orderly_fail h hl hp _
  | cancel _ _ => cases he
  | clear => cases he
  | noBegin _ => exact h
  | noFinish _ => exact h
  | noCancel _ => exact h

theorem orderly_after {loop : Nat} {c : Cache α ε} (h : Orderly loop c)
    {events : List (Event α ε)} (he : ∀ e ∈ events, e.IsPlain loop) :
    Orderly loop (c.after events) := by
  induction events generalizing c with
  | nil => exact h
  | cons e events ih =>
    exact ih (orderly_step h (he e (by simp))) fun e' he' => he e' (by simp [he'])

/-! ## After a success -/

theorem hasFailed_of_outcome {phase : Phase α ε} {p : α} (h : phase.outcome? = some (.ok p)) :
    phase.hasFailed = false := by
  cases phase <;> simp_all [Phase.outcome?, Phase.hasFailed]

/-- A load that has succeeded stands for its language. -/
theorem standing?_of_success {loop : Nat} {c : Cache α ε} (h : Orderly loop c) {id : Nat}
    {language : String} {p : α} (hlang : c.loadLanguage? id = some language)
    (hok : c.outcome? id = some (.ok p)) : c.standing? language = some id := by
  obtain ⟨l, hl, hlang⟩ := Option.map_eq_some_iff.mp hlang
  rw [outcome?_of_getElem? hl] at hok
  exact (h.standing language id).mpr ⟨l, hl, hlang, hasFailed_of_outcome hok⟩

theorem loadsOf_put {c : Cache α ε} {id : Nat} {l l' : Load α ε} (h : c.loads[id]? = some l)
    (hlang : l'.language = l.language) (language : String) :
    (c.put id l').loadsOf language = c.loadsOf language := by
  have := countP_put h l' (·.language == language)
  simp only [hlang] at this
  exact Nat.add_right_cancel this

/-- No load of a language is added while one stands for it. -/
theorem loadsOf_step {loop : Nat} {c : Cache α ε} (h : Orderly loop c) {e : Event α ε}
    (he : e.IsPlain loop) {language : String} {id : Nat} (hid : c.standing? language = some id) :
    (c.step e).loadsOf language = c.loadsOf language := by
  have hmove := move_step c e
  generalize c.step e = d at hmove ⊢
  cases hmove with
  | @start _ m hstart =>
    cases he
    have hm : m ≠ language := by
      rintro rfl
      rw [standing?_of_start h hstart] at hid
      cases hid
    simp [loadsOf, List.countP_append, hm]
  | begin hl _ => exact loadsOf_put hl (by rfl) language
  | succeed hl _ => exact loadsOf_put hl (by rfl) language
  | fail hl _ => exact loadsOf_put hl (by rfl) language
  | cancel _ _ => cases he
  | clear => cases he
  | join _ _ _ => rfl
  | noBegin _ => rfl
  | noFinish _ => rfl
  | noCancel _ => rfl

theorem loadsOf_after_success {loop : Nat} {c : Cache α ε} (h : Orderly loop c)
    {events : List (Event α ε)} (he : ∀ e ∈ events, e.IsPlain loop) {language : String} {id : Nat}
    {p : α} (hlang : c.loadLanguage? id = some language) (hok : c.outcome? id = some (.ok p)) :
    (c.after events).loadsOf language = c.loadsOf language := by
  induction events generalizing c with
  | nil => rfl
  | cons e events ih =>
    have hplain := he e (by simp)
    have hrest : ∀ e' ∈ events, e'.IsPlain loop := fun e' he' => he e' (by simp [he'])
    rw [after_cons, ih (orderly_step h hplain) hrest (loadLanguage?_step hlang)
      ((outcome?_step c e id _).mpr (.inl hok))]
    exact loadsOf_step h hplain (standing?_of_success h hlang hok)

/-! ## After a failure -/

/-- Only a request for it gives a language a load. -/
theorem standing?_none_step {c : Cache α ε} {e : Event α ε} {language : String}
    (hnone : c.standing? language = none) (he : ∀ loop, e ≠ .request loop language) :
    (c.step e).standing? language = none := by
  have hmove := move_step c e
  generalize c.step e = d at hmove ⊢
  cases hmove with
  | @start loop m _ =>
    have hm : language ≠ m := by
      rintro rfl
      exact he loop rfl
    rw [standing?_install, if_neg hm, hnone]
  | fail _ _ =>
    rw [standing?_evict]
    split
    · rfl
    · exact hnone
  | clear => rfl
  | join _ _ _ => exact hnone
  | begin _ _ => exact hnone
  | succeed _ _ => exact hnone
  | cancel _ _ => exact hnone
  | noBegin _ => exact hnone
  | noFinish _ => exact hnone
  | noCancel _ => exact hnone

theorem standing?_none_after {c : Cache α ε} {events : List (Event α ε)} {language : String}
    (hnone : c.standing? language = none)
    (he : ∀ loop, Event.request loop language ∉ events) :
    (c.after events).standing? language = none := by
  induction events generalizing c with
  | nil => exact hnone
  | cons e events ih =>
    refine ih (standing?_none_step hnone ?_) fun loop hmem => he loop (by simp [hmem])
    rintro loop rfl
    exact he loop (by simp)

theorem standing?_finish_error {c : Cache α ε} {id : Nat} {l : Load α ε} {x : ε}
    (hl : c.loads[id]? = some l) (hp : l.phase = .running) :
    (c.step (.finish id (.error x))).standing? l.language = none := by
  simp [step, finish, hl, hp, standing?_evict]

/-! ## The counter -/

theorem loadCount_put {c : Cache α ε} {id : Nat} {l l' : Load α ε} (h : c.loads[id]? = some l)
    (hnth : l'.nth = l.nth) : (c.put id l').loadCount = c.loadCount := by
  have := countP_put h l' (·.nth != 0)
  simp only [hnth] at this
  exact Nat.add_right_cancel this

/-- The counter goes up by one when a load begins, and at no other time. -/
theorem loadCount_step {loop : Nat} {c : Cache α ε} (h : Orderly loop c) (e : Event α ε) :
    (c.step e).loadCount = c.loadCount + (c.begins? e).toList.length := by
  have hmove := move_step c e
  generalize c.step e = d at hmove ⊢
  cases hmove with
  | start _ => simp [loadCount, begins?, List.countP_append]
  | @begin id l hl hp =>
    have hzero : l.nth = 0 := (h.plain l (List.mem_of_getElem? hl)).counted.mpr hp
    have := countP_put hl { l with phase := .running, nth := c.begun l.language + 1 } (·.nth != 0)
    simp only [hzero, bne_self_eq_false, Bool.false_eq_true, if_false, Nat.add_zero] at this
    simpa [begins?, phase?_of_getElem? hl, hp, loadCount] using this
  | succeed hl _ => exact loadCount_put hl (by rfl)
  | fail hl _ => exact loadCount_put hl (by rfl)
  | cancel hl _ => exact loadCount_put hl (by rfl)
  | @noBegin id hnot =>
    have hno : c.begins? (.begin id) = none := by
      cases hl : c.loads[id]? with
      | none => simp [begins?, phase?, hl]
      | some l =>
        have hp := hnot l hl
        simp only [begins?, phase?_of_getElem? hl]
        split
        · rename_i heq
          exact absurd (Option.some.inj heq) hp
        · rfl
    simp [hno]
  | join _ _ _ => rfl
  | clear => rfl
  | noFinish _ => rfl
  | noCancel _ => rfl

theorem loadCount_after {loop : Nat} {c : Cache α ε} (h : Orderly loop c)
    {events : List (Event α ε)} (he : ∀ e ∈ events, e.IsPlain loop) :
    (c.after events).loadCount = c.loadCount + (c.beginnings events).length := by
  induction events generalizing c with
  | nil => simp [beginnings]
  | cons e events ih =>
    have hplain := he e (by simp)
    have hrest : ∀ e' ∈ events, e'.IsPlain loop := fun e' he' => he e' (by simp [he'])
    rw [after_cons, ih (orderly_step h hplain) hrest, loadCount_step h, beginnings,
      List.length_append]
    omega

/-- A load that no longer waits never waits again. -/
theorem phase?_not_waiting_step {c : Cache α ε} {e : Event α ε} {id : Nat} {l : Load α ε}
    (hl : c.loads[id]? = some l) (hp : l.phase ≠ .waiting) :
    ∃ l', (c.step e).loads[id]? = some l' ∧ l'.phase ≠ .waiting := by
  have hput : ∀ {j : Nat} {k k' : Load α ε}, c.loads[j]? = some k → k'.phase ≠ .waiting →
      ∃ l', (c.put j k').loads[id]? = some l' ∧ l'.phase ≠ .waiting := by
    intro j k k' hk hk'
    by_cases hj : j = id
    · subst hj
      exact ⟨k', getElem?_put_self hk k', hk'⟩
    · exact ⟨l, by rw [getElem?_put_ne c hj, hl], hp⟩
  have hmove := move_step c e
  generalize c.step e = d at hmove ⊢
  cases hmove with
  | start _ => exact ⟨l, getElem?_install.mpr (.inl hl), hp⟩
  | begin hk _ => exact hput hk (by simp)
  | succeed hk _ => exact hput hk (by simp)
  | fail hk _ => exact hput hk (by simp)
  | cancel hk _ => exact hput hk (by simp)
  | join _ _ _ => exact ⟨l, hl, hp⟩
  | clear => exact ⟨l, hl, hp⟩
  | noBegin _ => exact ⟨l, hl, hp⟩
  | noFinish _ => exact ⟨l, hl, hp⟩
  | noCancel _ => exact ⟨l, hl, hp⟩

theorem not_mem_beginnings {c : Cache α ε} {id : Nat} {l : Load α ε}
    (hl : c.loads[id]? = some l) (hp : l.phase ≠ .waiting) (events : List (Event α ε)) :
    id ∉ c.beginnings events := by
  induction events generalizing c l with
  | nil => simp [beginnings]
  | cons e events ih =>
    obtain ⟨l', hl', hp'⟩ := phase?_not_waiting_step (e := e) hl hp
    simp only [beginnings, List.mem_append, not_or]
    refine ⟨?_, ih hl' hp'⟩
    cases e with
    | begin j =>
      simp only [begins?]
      split
      · rename_i hwait
        simp only [Option.toList_some, List.mem_singleton]
        rintro rfl
        rw [phase?_of_getElem? hl] at hwait
        exact hp (Option.some.inj hwait)
      · simp
    | _ => simp [begins?]

/-- No load begins twice. -/
theorem beginnings_nodup (c : Cache α ε) (events : List (Event α ε)) :
    (c.beginnings events).Nodup := by
  induction events generalizing c with
  | nil => simp [beginnings]
  | cons e events ih =>
    rw [beginnings]
    cases hb : c.begins? e with
    | none => simpa using ih (c.step e)
    | some id =>
      simp only [Option.toList_some, List.singleton_append, List.nodup_cons]
      refine ⟨?_, ih _⟩
      have hmove := move_step c e
      generalize c.step e = d at hmove ⊢
      cases hmove with
      | @begin j l hl hp =>
        simp only [begins?, phase?_of_getElem? hl, hp, Option.some.injEq] at hb
        subst hb
        exact not_mem_beginnings (getElem?_put_self hl _) (by simp) events
      | @noBegin j hnot =>
        simp only [begins?] at hb
        split at hb
        · rename_i hwait
          obtain ⟨l, hl, hp⟩ := Option.map_eq_some_iff.mp hwait
          exact absurd hp (hnot l hl)
        · cases hb
      | _ => simp [begins?] at hb

/-! ## The languages that are there -/

/-- Where no language has two entries, an entry is what is looked up. -/
theorem mem_entries_iff {entries : List (String × Nat)} (h : (entries.map (·.1)).Nodup)
    {language : String} {id : Nat} :
    (language, id) ∈ entries ↔ entries.lookup language = some id := by
  induction entries with
  | nil => simp
  | cons e entries ih =>
    obtain ⟨k, j⟩ := e
    simp only [List.map_cons, List.nodup_cons] at h
    rw [List.lookup_cons, List.mem_cons, Prod.mk.injEq]
    by_cases hk : language = k
    · subst hk
      have hnot : (language, id) ∉ entries := fun hmem =>
        h.1 (List.mem_map.mpr ⟨_, hmem, rfl⟩)
      simp [hnot, eq_comm]
    · simp [hk, beq_eq_false_iff_ne.mpr hk, ih h.2]

theorem isReady_iff (c : Cache α ε) (id : Nat) :
    c.isReady id = true ↔ ∃ p, c.outcome? id = some (.ok p) := by
  unfold isReady outcome?
  cases hp : c.phase? id with
  | none => simp
  | some phase => cases phase <;> simp [Phase.outcome?]

/-- The languages listed are those of which a load has succeeded. -/
theorem mem_languages {loop : Nat} {c : Cache α ε} (h : Orderly loop c) (language : String) :
    language ∈ c.languages ↔
      ∃ id p, c.loadLanguage? id = some language ∧ c.outcome? id = some (.ok p) := by
  simp only [languages, List.mem_mergeSort, List.mem_map, List.mem_filter, isReady_iff]
  constructor
  · rintro ⟨⟨_, id⟩, ⟨hmem, p, hok⟩, rfl⟩
    have hid := (mem_entries_iff h.distinct).mp hmem
    obtain ⟨l, hl, hlang, -⟩ := (h.standing _ id).mp hid
    exact ⟨id, p, Option.map_eq_some_iff.mpr ⟨l, hl, hlang⟩, hok⟩
  · rintro ⟨id, p, hlang, hok⟩
    have hid := standing?_of_success h hlang hok
    exact ⟨(language, id), ⟨(mem_entries_iff h.distinct).mpr hid, p, hok⟩, rfl⟩

/-- The languages are listed in order, each once. -/
theorem languages_sorted {loop : Nat} {c : Cache α ε} (h : Orderly loop c) :
    c.languages.Pairwise (· < ·) := by
  have hle := List.pairwise_mergeSort (fun a b d (hab : decide (a ≤ b) = true)
    (hbd : decide (b ≤ d) = true) => decide_eq_true
      (le_trans (of_decide_eq_true hab) (of_decide_eq_true hbd)))
    (fun a b : String => by simpa using le_total a b)
    ((c.entries.filter fun e => c.isReady e.2).map (·.1))
  have hnodup : c.languages.Nodup := by
    refine (List.mergeSort_perm _ _).nodup_iff.mpr ?_
    exact (List.filter_sublist.map _).nodup h.distinct
  exact (hle.and hnodup).imp fun ⟨hab, hne⟩ => lt_of_le_of_ne (of_decide_eq_true hab) hne

/-! ## One language at a time -/

/-- A change of one load leaves the loads of the other languages. -/
theorem getElem?_put_other {c : Cache α ε} {id j : Nat} {l l' k : Load α ε}
    (h : c.loads[id]? = some l) (hlang : l'.language = l.language) (hk : k.language ≠ l.language) :
    (c.put id l').loads[j]? = some k ↔ c.loads[j]? = some k := by
  by_cases hj : id = j
  · subst hj
    rw [getElem?_put_self h, h]
    have h1 : l' ≠ k := fun he => hk (he ▸ hlang)
    have h2 : l ≠ k := fun he => hk (he ▸ rfl)
    simp [h1, h2]
  · rw [getElem?_put_ne c hj]

theorem begun_put {c : Cache α ε} {id : Nat} {l l' : Load α ε} {language : String}
    (h : c.loads[id]? = some l) (hlang : l'.language = l.language)
    (hother : l.language ≠ language) : (c.put id l').begun language = c.begun language := by
  have := countP_put h l' (fun k => k.language == language && k.nth != 0)
  simpa [hlang, hother, begun] using this

/-- What an event about one language leaves of another: its entry, the number of its
loads that have begun, and its loads with all they have come to. -/
structure Untouched (language : String) (c d : Cache α ε) : Prop where
  entry : d.standing? language = c.standing? language
  begun : d.begun language = c.begun language
  loads : ∀ (id : Nat) (l : Load α ε), l.language = language →
    (d.loads[id]? = some l ↔ c.loads[id]? = some l)

theorem Untouched.refl (language : String) (c : Cache α ε) : Untouched language c c :=
  ⟨rfl, rfl, fun _ _ _ => Iff.rfl⟩

theorem untouched_put {c : Cache α ε} {id : Nat} {l l' : Load α ε} {language : String}
    (h : c.loads[id]? = some l) (hlang : l'.language = l.language)
    (hother : l.language ≠ language) : Untouched language c (c.put id l') where
  entry := rfl
  begun := begun_put h hlang hother
  loads := by
    rintro j k rfl
    exact getElem?_put_other h hlang (Ne.symm hother)

theorem untouched_step {loop : Nat} {c : Cache α ε} {e : Event α ε} (he : e.IsPlain loop)
    {language : String} (hother : c.languageOf? e ≠ some language) :
    Untouched language c (c.step e) := by
  have hmove := move_step c e
  generalize c.step e = d at hmove ⊢
  cases hmove with
  | @start _ m _ =>
    have hm : language ≠ m := by
      rintro rfl
      exact hother rfl
    refine ⟨by rw [standing?_install, if_neg hm], by simp [Cache.begun, List.countP_append], ?_⟩
    rintro id l rfl
    rw [getElem?_install]
    constructor
    · rintro (h | ⟨-, rfl⟩)
      · exact h
      · exact absurd rfl hm
    · exact .inl
  | begin hl _ => exact untouched_put hl rfl (by simpa [languageOf?, hl] using hother)
  | succeed hl _ => exact untouched_put hl rfl (by simpa [languageOf?, hl] using hother)
  | @fail id l x hl _ =>
    have hl' : l.language ≠ language := by simpa [languageOf?, hl] using hother
    have hput : Untouched language c (c.put id { l with phase := .failed x }) :=
      untouched_put hl rfl hl'
    refine ⟨?_, hput.begun, hput.loads⟩
    rw [standing?_evict, if_neg (Ne.symm hl'), standing?_put]
  | cancel _ _ => cases he
  | clear => cases he
  | join _ _ _ => exact .refl language c
  | noBegin _ => exact .refl language c
  | noFinish _ => exact .refl language c
  | noCancel _ => exact .refl language c

/-! ## The laws -/

/-- A request joins the load that stands for its language, and starts one where none does. -/
theorem request_cases {loop : Nat} {c : Cache α ε} (h : Orderly loop c) (language : String) :
    (∃ id, c.standing? language = some id ∧ c.request loop language = (c, id)) ∨
      (c.standing? language = none ∧ c.request loop language = c.install loop language) := by
  cases hid : c.standing? language with
  | none => exact .inr ⟨rfl, request_of_none hid loop⟩
  | some id =>
    obtain ⟨l, hl, -, -⟩ := (h.standing language id).mp hid
    have hloop := (h.plain l (List.mem_of_getElem? hl)).same_loop
    exact .inl ⟨id, rfl, by simp [request, hid, hl, isJoinable, hloop]⟩

theorem loadLanguage?_request {loop : Nat} {c : Cache α ε} (h : Orderly loop c)
    (language : String) :
    (c.step (.request loop language)).loadLanguage? (c.request loop language).2 =
      some language := by
  rcases request_cases h language with ⟨id, hid, hreq⟩ | ⟨-, hreq⟩
  · obtain ⟨l, hl, hlang, -⟩ := (h.standing language id).mp hid
    simp [step, hreq, loadLanguage?, hl, hlang]
  · simp [step, hreq, loadLanguage?, install]

/-- A load that has not ended can be carried to any end. -/
theorem outcome?_carried {loop : Nat} {c : Cache α ε} (h : Orderly loop c) {id : Nat}
    {language : String} (hlang : c.loadLanguage? id = some language)
    (hnone : c.outcome? id = none) (r : Except ε α) :
    (c.after [.begin id, .finish id r]).outcome? id = some r := by
  rw [after_cons, after_cons, after_nil, outcome?_step]
  refine .inr ⟨rfl, ?_⟩
  obtain ⟨l, hl, -⟩ := Option.map_eq_some_iff.mp hlang
  rw [outcome?_of_getElem? hl] at hnone
  have hcancel := (h.plain l (List.mem_of_getElem? hl)).not_cancelled
  have hmove := move_begin c id
  simp only [step]
  generalize c.begin id = d at hmove ⊢
  cases hmove with
  | begin hl' _ => simp [phase?_put hl']
  | noBegin hnot =>
    have hwait := hnot l hl
    rw [phase?_of_getElem? hl]
    cases hp : l.phase <;> simp_all [Phase.outcome?]

/-- What holds of the cache after a run. -/
structure SingleFlight (loop : Nat) (events : List (Event α ε)) (c : Cache α ε) : Prop where
  /-- Of the loads of one language at most one is under way. -/
  one_under_way : ∀ (i j : Nat) (l m : Load α ε), c.loads[i]? = some l → c.loads[j]? = some m →
    l.language = m.language → l.phase.isOver = false → m.phase.isOver = false → i = j
  /-- Every request of the run has joined the load that stood for its language, or
  started a new one where none stood. -/
  request_load : ∀ before language later, events = before ++ .request loop language :: later →
    let s : Cache α ε := after {} before
    let id := (s.request loop language).2
    (s.standing? language = some id ∨ (s.standing? language = none ∧ id = s.loads.length)) ∧
      c.loadLanguage? id = some language
  /-- Those who wait for a load are given what it ended with, and nothing else. -/
  outcome : ∀ id r, c.outcome? id = some r ↔
    ∃ before later, events = before ++ .finish id r :: later ∧
      (after {} before).phase? id = some .running
  /-- A load that has not ended may still end in any way. -/
  open_end : ∀ id language, c.loadLanguage? id = some language → c.outcome? id = none →
    ∀ r, (c.after [.begin id, .finish id r]).outcome? id = some r
  /-- Once a load has succeeded, requests for its language join it and no other load
  of that language is ever made. -/
  success : ∀ before later id language p, events = before ++ later →
    let s : Cache α ε := after {} before
    s.loadLanguage? id = some language → s.outcome? id = some (.ok p) →
      c.request loop language = (c, id) ∧ c.outcome? id = some (.ok p) ∧
        c.loadsOf language = s.loadsOf language
  /-- Once a load has failed, nothing stands for its language until the next request,
  which makes one new load. -/
  failure : ∀ before later id l x, events = before ++ .finish id (.error x) :: later →
    (after {} before).loads[id]? = some l → l.phase = .running →
    (∀ k, Event.request k l.language ∉ later) →
      c.standing? l.language = none ∧
        (c.request loop l.language).2 = c.loads.length ∧
        (c.request loop l.language).1.loads =
          c.loads ++ [{ language := l.language, loop := loop }] ∧
        (c.request loop l.language).1.standing? l.language = some c.loads.length
  /-- The counter is the number of loads that have begun, none of them twice. -/
  counter : c.loadCount = (beginnings {} events).length ∧ (beginnings {} events).Nodup
  /-- The languages listed are those of which a load has succeeded, in order. -/
  listed : c.languages.Pairwise (· < ·) ∧ ∀ language, language ∈ c.languages ↔
    ∃ id p, c.loadLanguage? id = some language ∧ c.outcome? id = some (.ok p)
  /-- No event about one language has touched another. -/
  apart : ∀ before e later, events = before ++ e :: later →
    ∀ language, (after {} before).languageOf? e ≠ some language →
      Untouched language (after {} before) ((after {} before).step e)

/-- After every run of requests, beginnings and ends on one loop, in any order. -/
theorem single_flight (loop : Nat) (events : List (Event α ε))
    (he : ∀ e ∈ events, e.IsPlain loop) : SingleFlight loop events (after {} events) := by
  -- at each point of the run the invariant holds, and only plain events are still to come
  have hrun : ∀ before later, events = before ++ later →
      Orderly loop (after ({} : Cache α ε) before) ∧ ∀ e ∈ later, e.IsPlain loop := by
    rintro before later rfl
    exact ⟨orderly_after (orderly_empty loop) fun e hb => he e (by simp [hb]),
      fun e hl => he e (by simp [hl])⟩
  have hc := (hrun events [] (by simp)).1
  constructor
  case one_under_way =>
    intro i j l m hl hm hlang hlo hmo
    have hi := (hc.standing l.language i).mpr
      ⟨l, hl, rfl, by cases hp : l.phase <;> simp_all [Phase.isOver, Phase.hasFailed]⟩
    have hj := (hc.standing l.language j).mpr
      ⟨m, hm, hlang.symm, by cases hp : m.phase <;> simp_all [Phase.isOver, Phase.hasFailed]⟩
    rw [hi] at hj
    exact Option.some.inj hj
  case request_load =>
    rintro before language later rfl
    have hs := (hrun before _ rfl).1
    refine ⟨?_, ?_⟩
    · rcases request_cases hs language with ⟨id, hid, hreq⟩ | ⟨hnone, hreq⟩
      · exact .inl (by rw [hreq, hid])
      · exact .inr ⟨hnone, by rw [hreq]; rfl⟩
    · rw [after_append, after_cons]
      exact loadLanguage?_after (loadLanguage?_request hs language) later
  case outcome =>
    intro id r
    rw [outcome?_after]
    simp [outcome?, phase?]
  case open_end =>
    intro id language hlang hnone r
    exact outcome?_carried hc hlang hnone r
  case success =>
    rintro before later id language p rfl s hlang hok
    obtain ⟨hs, hlater⟩ := hrun before later rfl
    rw [after_append] at hc ⊢
    have hok' := outcome?_keeps hok later
    have hid := standing?_of_success hc (loadLanguage?_after hlang later) hok'
    exact ⟨request_of_outcome hid hok', hok', loadsOf_after_success hs hlater hlang hok⟩
  case failure =>
    rintro before later id l x rfl hl hp hlater
    have hnone : (after ({} : Cache α ε) (before ++ .finish id (.error x) :: later)).standing?
        l.language = none := by
      rw [after_append, after_cons]
      exact standing?_none_after (standing?_finish_error hl hp) hlater
    rw [request_of_none hnone]
    exact ⟨hnone, rfl, rfl, by simp [standing?_install]⟩
  case counter =>
    refine ⟨?_, beginnings_nodup _ _⟩
    rw [loadCount_after (orderly_empty loop) he]
    simp [loadCount]
  case listed =>
    exact ⟨languages_sorted hc, mem_languages hc⟩
  case apart =>
    rintro before e later rfl language hother
    exact untouched_step (he e (by simp)) hother

/-- Two requests share a load that fails, a third starts another, and a second
language is loaded meanwhile. -/
def sharedRun : List (Event Nat String) :=
  [.request 0 "c", .request 0 "c", .begin 0, .request 0 "java", .begin 1,
    .finish 0 (.error "no grammar"), .request 0 "c", .begin 2, .finish 1 (.ok 5),
    .finish 2 (.ok 7), .request 0 "c"]

theorem single_flight_sharedRun :
    SingleFlight 0 sharedRun (after {} sharedRun) ∧ (after {} sharedRun).loadCount = 3 ∧
      (after {} sharedRun).outcome? 0 = some (.error "no grammar") ∧
      (after {} sharedRun).outcome? 2 = some (.ok 7) ∧
      (after {} sharedRun).languages = ["c", "java"] :=
  ⟨single_flight 0 sharedRun (by simp [sharedRun, Event.IsPlain]), by decide, by rfl, by rfl,
    by cbv⟩

end Cache

end BigO.Grammar
