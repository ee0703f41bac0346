-- What a fetch of one language does to a cache. A language whose load has ended is
-- not loaded again, any other is loaded; so a cache in which whatever stands has
-- given its parser stays one.
import BigO.Grammar.Cache

namespace BigO.Grammar.Cache

variable {α ε : Type}

/-! ## Entries -/

/-- Of the entries without those of a language, only that language's are gone. -/
theorem lookup_filter_ne (entries : List (String × Nat)) (language m : String) :
    (entries.filter (·.1 != language)).lookup m =
      if m = language then none else entries.lookup m := by
  induction entries with
  | nil => simp
  | cons e entries ih =>
    obtain ⟨k, id⟩ := e
    simp only [List.filter_cons, List.lookup_cons]
    by_cases hk : k = language
    · subst hk
      simp only [bne_self_eq_false, Bool.false_eq_true, if_false, ih]
      by_cases hm : m = k
      · simp [hm]
      · simp [hm, beq_eq_false_iff_ne.mpr hm]
    · simp only [bne_iff_ne, ne_eq, hk, not_false_eq_true, if_true, List.lookup_cons, ih]
      by_cases hm : m = k
      · simp [hm, hk]
      · simp [beq_eq_false_iff_ne.mpr hm]

theorem standing?_evict (c : Cache α ε) (language m : String) :
    (c.evict language).standing? m = if m = language then none else c.standing? m :=
  lookup_filter_ne c.entries language m

theorem standing?_install (c : Cache α ε) (loop : Nat) (language m : String) :
    (c.install loop language).1.standing? m =
      if m = language then some c.loads.length else c.standing? m := by
  unfold install standing?
  simp only [List.lookup_cons]
  by_cases hm : m = language
  · simp [hm]
  · simp only [beq_eq_false_iff_ne.mpr hm, if_neg hm]
    rw [evict, lookup_filter_ne, if_neg hm]

@[simp] theorem loads_evict (c : Cache α ε) (language : String) :
    (c.evict language).loads = c.loads := rfl

@[simp] theorem loads_install (c : Cache α ε) (loop : Nat) (language : String) :
    (c.install loop language).1.loads = c.loads ++ [{ language := language, loop := loop }] := rfl

/-! ## Loads -/

/-- The load with this number replaced. -/
def put (c : Cache α ε) (id : Nat) (l : Load α ε) : Cache α ε :=
  { c with loads := c.loads.set id l }

@[simp] theorem standing?_put (c : Cache α ε) (id : Nat) (l : Load α ε) (language : String) :
    (c.put id l).standing? language = c.standing? language := rfl

/-- A change of a load that is there puts another in its place. -/
theorem update_eq_put {c : Cache α ε} {id : Nat} {l : Load α ε} (h : c.loads[id]? = some l)
    (f : Load α ε → Load α ε) : c.update id f = c.put id (f l) := by
  unfold update put
  congr 1
  apply List.ext_getElem?
  intro j
  rw [List.getElem?_modify, List.getElem?_set]
  by_cases hj : id = j
  · subst hj
    obtain ⟨hlt, hget⟩ := List.getElem?_eq_some_iff.mp h
    simp [hlt, hget]
  · simp [hj]

/-- A change that leaves the load as it is changes nothing. -/
theorem update_eq_self {c : Cache α ε} {id : Nat} {f : Load α ε → Load α ε}
    (h : ∀ l, c.loads[id]? = some l → f l = l) : c.update id f = c := by
  unfold update
  congr 1
  apply List.ext_getElem?
  intro j
  rw [List.getElem?_modify]
  by_cases hj : id = j
  · subst hj
    cases hl : c.loads[id]? with
    | none => rfl
    | some l => simp [h l hl]
  · simp [hj]

theorem getElem?_put_self {c : Cache α ε} {id : Nat} {l : Load α ε} (h : c.loads[id]? = some l)
    (l' : Load α ε) : (c.put id l').loads[id]? = some l' := by
  obtain ⟨hlt, -⟩ := List.getElem?_eq_some_iff.mp h
  simp [put, hlt]

theorem getElem?_put_ne (c : Cache α ε) {id j : Nat} (h : id ≠ j) (l : Load α ε) :
    (c.put id l).loads[j]? = c.loads[j]? := by
  simp [put, h]

theorem phase?_install (c : Cache α ε) (loop : Nat) (language : String) (id : Nat) :
    (c.install loop language).1.phase? id =
      if id = c.loads.length then some .waiting else c.phase? id := by
  unfold phase?
  rw [loads_install, List.getElem?_append]
  by_cases heq : id = c.loads.length
  · simp [heq]
  · by_cases hlt : id < c.loads.length
    · simp [heq, hlt]
    · have : id - c.loads.length ≠ 0 := by omega
      simp [heq, hlt, this]

theorem phase?_put {c : Cache α ε} {id : Nat} {l : Load α ε} (h : c.loads[id]? = some l)
    (l' : Load α ε) (j : Nat) :
    (c.put id l').phase? j = if id = j then some l'.phase else c.phase? j := by
  unfold phase?
  by_cases hj : id = j
  · subst hj
    simp [getElem?_put_self h]
  · simp [getElem?_put_ne c hj, hj]

@[simp] theorem put_put (c : Cache α ε) (id : Nat) (l l' : Load α ε) :
    (c.put id l).put id l' = c.put id l' := by
  simp [put]

/-! ## What a load comes to -/

theorem outcome?_install (c : Cache α ε) (loop : Nat) (language : String) (id : Nat) :
    (c.install loop language).1.outcome? id = c.outcome? id := by
  unfold outcome?
  rw [phase?_install]
  split
  · rename_i h
    subst h
    simp [phase?, Phase.outcome?]
  · rfl

theorem outcome?_put {c : Cache α ε} {id : Nat} {l : Load α ε} (h : c.loads[id]? = some l)
    (l' : Load α ε) (j : Nat) :
    (c.put id l').outcome? j = if id = j then l'.phase.outcome? else c.outcome? j := by
  unfold outcome?
  rw [phase?_put h]
  split <;> rfl

theorem outcome?_of_getElem? {c : Cache α ε} {id : Nat} {l : Load α ε}
    (h : c.loads[id]? = some l) : c.outcome? id = l.phase.outcome? := by
  simp [outcome?, phase?, h]

theorem phase?_of_getElem? {c : Cache α ε} {id : Nat} {l : Load α ε}
    (h : c.loads[id]? = some l) : c.phase? id = some l.phase := by
  simp [phase?, h]

/-! ## Requests -/

/-- A request joins a load that has ended and stands for its language. -/
theorem request_of_outcome {c : Cache α ε} {loop id : Nat} {language : String}
    {r : Except ε α} (hid : c.standing? language = some id) (hr : c.outcome? id = some r) :
    c.request loop language = (c, id) := by
  have hany : (c.loads[id]?).any (isJoinable loop) = true := by
    cases hl : c.loads[id]? with
    | none => simp [outcome?, phase?, hl] at hr
    | some l =>
      rw [outcome?_of_getElem? hl] at hr
      cases hp : l.phase <;> simp_all [Phase.outcome?, isJoinable, Phase.isOver]
  simp [request, hid, hany]

theorem request_of_none {c : Cache α ε} {language : String} (hnone : c.standing? language = none)
    (loop : Nat) : c.request loop language = c.install loop language := by
  simp [request, hnone]

/-! ## One language fetched -/

section Fetch

variable {c : Cache α ε} {language : String}

/-- A language whose load has ended is not loaded again. -/
theorem fetch_of_outcome {loop id : Nat} {r : Except ε α} (loader : Loader α ε)
    (hid : c.standing? language = some id) (hr : c.outcome? id = some r) :
    c.fetch loader loop language = (c, id) := by
  have hover : ∀ l, c.loads[id]? = some l → l.phase.isOver = true := by
    intro l hl
    rw [outcome?_of_getElem? hl] at hr
    cases hp : l.phase <;> simp_all [Phase.outcome?, Phase.isOver]
  have hbegin : c.begin id = c := by
    apply update_eq_self
    intro l hl
    have := hover l hl
    cases hp : l.phase <;> simp_all [Phase.isOver]
  have hcarry : carryOut loader c id = c := by
    unfold carryOut
    split
    · rfl
    · rename_i l hl
      simp [hover l hl]
  simp [fetch, request_of_outcome hid hr, hbegin, hcarry]

/-- The cache once a language that it did not hold has been loaded. -/
def loaded (c : Cache α ε) (loop n : Nat) (language : String) (outcome : Except ε α) :
    Cache α ε :=
  let c' := (c.install loop language).1
  match outcome with
  | .ok p =>
    c'.put c.loads.length { language := language, loop := loop, nth := n, phase := .ready p }
  | .error x =>
    (c'.put c.loads.length
      { language := language, loop := loop, nth := n, phase := .failed x }).evict language

/-- A language that nothing stands for is loaded. -/
theorem fetch_of_none (loader : Loader α ε) (loop : Nat) (hnone : c.standing? language = none) :
    ∃ n, c.fetch loader loop language =
      (c.loaded loop n language (loader language n), c.loads.length) := by
  have hnew : (c.install loop language).1.loads[c.loads.length]? =
      some { language := language, loop := loop } := by simp
  refine ⟨(c.install loop language).1.begun language + 1, ?_⟩
  simp only [fetch, request_of_none hnone]
  have hid : (c.install loop language).2 = c.loads.length := rfl
  rw [hid, Cache.begin, update_eq_put hnew]
  have hrun := getElem?_put_self hnew
    { language := language, loop := loop, nth := (c.install loop language).1.begun language + 1,
      phase := .running }
  simp only [carryOut, hrun, Phase.isOver, Bool.false_eq_true, if_false, finish]
  cases loader language ((c.install loop language).1.begun language + 1) with
  | ok p => simp only [update_eq_put hrun, put_put, loaded]
  | error x => simp only [update_eq_put hrun, put_put, loaded]

/-- The load that was made has ended as its outcome says. -/
theorem outcome?_loaded_self (c : Cache α ε) (loop n : Nat) (language : String)
    (outcome : Except ε α) :
    (c.loaded loop n language outcome).outcome? c.loads.length = some outcome := by
  have hnew : (c.install loop language).1.loads[c.loads.length]? =
      some { language := language, loop := loop } := by simp
  cases outcome with
  | ok p => simp [loaded, outcome?_put hnew, Phase.outcome?]
  | error x =>
    have hput : (c.loaded loop n language (.error x)).outcome? =
        ((c.install loop language).1.put c.loads.length
          { language := language, loop := loop, nth := n, phase := .failed x }).outcome? := rfl
    simp [hput, outcome?_put hnew, Phase.outcome?]

/-- What stands once a language has been loaded: its new load unless that failed, and
for every other language what stood before. -/
theorem standing?_loaded (c : Cache α ε) (loop n : Nat) (language : String)
    (outcome : Except ε α) (m : String) :
    (c.loaded loop n language outcome).standing? m =
      if m = language then outcome.toOption.map fun _ => c.loads.length
      else c.standing? m := by
  cases outcome with
  | ok p =>
    simp only [loaded, standing?_put, standing?_install, Except.toOption, Option.map_some]
  | error x =>
    simp only [loaded, standing?_evict, standing?_put, standing?_install, Except.toOption,
      Option.map_none]
    split <;> rfl

/-- The loads from before have come to what they had. -/
theorem outcome?_loaded {id : Nat} {r : Except ε α} (h : c.outcome? id = some r)
    (loop n : Nat) (language : String) (outcome : Except ε α) :
    (c.loaded loop n language outcome).outcome? id = some r := by
  have hnew : (c.install loop language).1.loads[c.loads.length]? =
      some { language := language, loop := loop } := by simp
  have hne : c.loads.length ≠ id := by
    rintro rfl
    simp [outcome?, phase?] at h
  have hput : ∀ l : Load α ε,
      ((c.install loop language).1.put c.loads.length l).outcome? id = some r := by
    intro l
    rw [outcome?_put hnew, if_neg hne, outcome?_install, h]
  cases outcome with
  | ok p => exact hput _
  | error x => exact hput _

/-! ## Nothing under way -/

/-- Whatever stands for a language has given its parser. -/
def AllReady (c : Cache α ε) : Prop :=
  ∀ language id, c.standing? language = some id → ∃ p, c.outcome? id = some (.ok p)

theorem allReady_empty : ({} : Cache α ε).AllReady := by
  intro language id hid
  simp [standing?] at hid

theorem AllReady.loaded (h : c.AllReady) (loop n : Nat) (language : String)
    (outcome : Except ε α) : (c.loaded loop n language outcome).AllReady := by
  intro m id hid
  rw [standing?_loaded] at hid
  split at hid
  · cases outcome with
    | error x => cases hid
    | ok p =>
      obtain rfl := Option.some.inj hid
      exact ⟨p, outcome?_loaded_self c loop n language (.ok p)⟩
  · obtain ⟨p, hp⟩ := h m id hid
    exact ⟨p, outcome?_loaded hp loop n language outcome⟩

theorem AllReady.fetch (h : c.AllReady) (loader : Loader α ε) (loop : Nat) (language : String) :
    (c.fetch loader loop language).1.AllReady := by
  cases hid : c.standing? language with
  | some id =>
    obtain ⟨p, hp⟩ := h language id hid
    rwa [fetch_of_outcome loader hid hp]
  | none =>
    obtain ⟨n, hfetch⟩ := fetch_of_none loader loop hid
    rw [hfetch]
    exact h.loaded loop n language _

/-- Who asks is answered. -/
theorem AllReady.isSome_fetch (h : c.AllReady) (loader : Loader α ε) (loop : Nat)
    (language : String) :
    ((c.fetch loader loop language).1.outcome? (c.fetch loader loop language).2).isSome = true := by
  cases hid : c.standing? language with
  | some id =>
    obtain ⟨p, hp⟩ := h language id hid
    rw [fetch_of_outcome loader hid hp, hp]
    rfl
  | none =>
    obtain ⟨n, hfetch⟩ := fetch_of_none loader loop hid
    rw [hfetch, outcome?_loaded_self]
    rfl

end Fetch

end BigO.Grammar.Cache
