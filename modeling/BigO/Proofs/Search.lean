-- Search step by step: nothing is found where the scanner does not read on, and what
-- is found is passed over. So each thing found is the best way from some place, things
-- found later stand further on, and no place where the scanner reads on is left out.
import BigO.Proofs.Stretches

namespace BigO.Scan.Scanner

variable {α : Type}

/-! ## Places in turn -/

/-- The places from a given one on. -/
def placesFrom (c : Cursor) : List Cursor :=
  Cursor.onward c.before c.after

theorem placesFrom_eq_cons (c : Cursor) : placesFrom c = c :: (placesFrom c).tail := by
  rcases c with ⟨before, after⟩
  cases after with
  | nil => rfl
  | cons x xs => rfl

theorem drop_onward (before passed after : List Char) :
    (Cursor.onward before (passed ++ after)).drop passed.length =
      Cursor.onward (passed.reverse ++ before) after := by
  induction passed generalizing before with
  | nil => rfl
  | cons x xs ih =>
    rw [List.cons_append, Cursor.onward, List.length_cons, List.drop_succ_cons, ih]
    simp

/-- A later place of the same text is reached over what lies between. -/
theorem exists_passed {c d : Cursor} (htext : d.text = c.text)
    (hle : d.after.length ≤ c.after.length) :
    ∃ passed, c.To passed d := by
  rw [Cursor.text, Cursor.text, List.append_eq_append_iff] at htext
  rcases htext with ⟨passed, hbefore, hafter⟩ | ⟨passed, hbefore, hafter⟩
  · have hnil : passed = [] := by
      have hlength := congrArg List.length hafter
      rw [List.length_append] at hlength
      exact List.length_eq_zero_iff.mp (by omega)
    subst hnil
    refine ⟨[], by simpa using hafter.symm, ?_⟩
    simpa using (congrArg List.reverse hbefore).symm
  · exact ⟨passed, hafter, by simpa using congrArg List.reverse hbefore⟩

theorem eq_of_length_after {c d : Cursor} (htext : d.text = c.text)
    (hlen : d.after.length = c.after.length) : d = c := by
  obtain ⟨passed, hafter, hbefore⟩ := exists_passed htext (Nat.le_of_eq hlen)
  have hnil : passed = [] := by
    have hlength := congrArg List.length hafter
    rw [List.length_append] at hlength
    exact List.length_eq_zero_iff.mp (by omega)
  subst hnil
  rcases c with ⟨b, a⟩
  rcases d with ⟨b', a'⟩
  simp_all

theorem allFrom_eq_drop (s : Scanner α) (skip : Nat) (places : List Cursor) :
    s.allFrom skip places = s.allFrom 0 (places.drop skip) := by
  induction places generalizing skip with
  | nil => cases skip <;> rfl
  | cons c cs ih =>
    cases skip with
    | zero => rfl
    | succ k => exact ih k

/-- Where nothing is found the search goes on at the next place. -/
theorem allFrom_of_nil {s : Scanner α} {c : Cursor} (h : s c = []) :
    s.allFrom 0 (placesFrom c) = s.allFrom 0 (placesFrom c).tail := by
  rw [placesFrom_eq_cons, List.tail_cons]
  simp [allFrom, h]

/-- What is found is passed over, and the search goes on where it ends. -/
theorem allFrom_of_head {s : Scanner α} {c d : Cursor} {a : α} (h : (s c).head? = some (a, d))
    (htext : d.text = c.text) (hlt : d.after.length < c.after.length) :
    s.allFrom 0 (placesFrom c) = a :: s.allFrom 0 (placesFrom d) := by
  obtain ⟨passed, hafter, hbefore⟩ := exists_passed htext (Nat.le_of_lt hlt)
  have hdrop : (placesFrom c).tail.drop (c.after.length - d.after.length - 1) = placesFrom d := by
    have hlength := congrArg List.length hafter
    rw [List.length_append] at hlength
    rw [List.drop_tail]
    have hskip : c.after.length - d.after.length - 1 + 1 = passed.length := by omega
    rw [hskip, placesFrom, hafter, drop_onward, placesFrom, hbefore]
  rw [placesFrom_eq_cons c, allFrom, h]
  show a :: s.allFrom _ _ = _
  rw [allFrom_eq_drop, hdrop]

/-- An occurrence that reads nothing is found once. -/
theorem allFrom_of_head_self {s : Scanner α} {c : Cursor} {a : α}
    (h : (s c).head? = some (a, c)) :
    s.allFrom 0 (placesFrom c) = a :: s.allFrom 0 (placesFrom c).tail := by
  rw [placesFrom_eq_cons c, allFrom, h]
  show a :: s.allFrom (c.after.length - c.after.length - 1) _ = _
  rw [Nat.sub_self]
  rfl

theorem findAll_eq_nil_iff {s : Scanner α} {text : List Char} :
    s.findAll text = [] ↔ s.occurs text = false := by
  have hplaces : ∀ places : List Cursor, s.allFrom 0 places = [] → ∀ c ∈ places, s c = [] := by
    intro places
    induction places with
    | nil => simp
    | cons c cs ih =>
      intro hnone
      cases hhead : (s c).head? with
      | none =>
        simp only [allFrom, hhead] at hnone
        exact List.forall_mem_cons.mpr ⟨List.head?_eq_none_iff.mp hhead, ih hnone⟩
      | some r => simp [allFrom, hhead] at hnone
  rw [Bool.eq_false_iff, Ne, occurs_iff]
  constructor
  · rintro hnone ⟨c, hc, hne⟩
    exact hne (hplaces _ hnone c hc)
  · intro hnone
    exact findAll_eq_nil fun c hc => Classical.not_not.mp fun hne => hnone ⟨c, hc, hne⟩

/-! ## What is found -/

/-- What a search finds from a place on. -/
inductive Finds (s : Scanner α) : Cursor → List α → Prop where
  | stop {before : List Char} (h : s ⟨before, []⟩ = []) : Finds s ⟨before, []⟩ []
  | skip {before xs : List Char} {x : Char} {found : List α} (h : s ⟨before, x :: xs⟩ = [])
      (rest : Finds s ⟨x :: before, xs⟩ found) : Finds s ⟨before, x :: xs⟩ found
  | take {c d : Cursor} {a : α} {found : List α} (h : (s c).head? = some (a, d))
      (rest : Finds s d found) : Finds s c (a :: found)

section Finds

variable {s : Scanner α} (hs : s.Passes (· ≠ []))

include hs

theorem text_eq_and_length_lt {c d : Cursor} {a : α} (h : (s c).head? = some (a, d)) :
    d.text = c.text ∧ d.after.length < c.after.length := by
  obtain ⟨passed, hto, hne⟩ := hs c (a, d) (List.mem_of_head? h)
  refine ⟨hto.text_eq, ?_⟩
  rw [hto.ahead, List.length_append]
  exact Nat.lt_add_of_pos_left (List.length_pos_iff.mpr hne)

theorem finds_findAll (text : List Char) : s.Finds ⟨[], text⟩ (s.findAll text) := by
  have hfrom : ∀ len (c : Cursor), c.after.length = len →
      s.Finds c (s.allFrom 0 (placesFrom c)) := by
    intro len
    induction len using Nat.strongRecOn with
    | _ len ih =>
      rintro c rfl
      cases hhead : (s c).head? with
      | some r =>
        obtain ⟨htext, hlt⟩ := text_eq_and_length_lt hs hhead
        rw [allFrom_of_head hhead htext hlt]
        exact .take hhead (ih _ hlt r.2 rfl)
      | none =>
        have hnone : s c = [] := List.head?_eq_none_iff.mp hhead
        rw [allFrom_of_nil hnone]
        rcases c with ⟨before, _ | ⟨x, xs⟩⟩
        · exact .stop hnone
        · exact .skip hnone (ih xs.length (Nat.lt_succ_self _) ⟨x :: before, xs⟩ rfl)
  exact hfrom _ ⟨[], text⟩ rfl

/-- Whatever is found is the best way from some place. -/
theorem Finds.exists_way {c : Cursor} {found : List α} (h : s.Finds c found) {a : α}
    (ha : a ∈ found) : ∃ b d, b.text = c.text ∧ (s b).head? = some (a, d) := by
  induction h with
  | stop => exact absurd ha List.not_mem_nil
  | @skip before xs x found _ _ ih =>
    obtain ⟨b, d, hb, hhead⟩ := ih ha
    exact ⟨b, d, hb.trans (Cursor.To.next before x xs).text_eq, hhead⟩
  | @take c d _ found hhead _ ih =>
    rcases List.mem_cons.mp ha with rfl | ha
    · exact ⟨c, d, rfl, hhead⟩
    · obtain ⟨b, e, hb, hhead'⟩ := ih ha
      exact ⟨b, e, hb.trans (text_eq_and_length_lt hs hhead).1, hhead'⟩

/-- A place where the scanner reads on starts, or lies within, something that is found. -/
theorem Finds.covers {b c : Cursor} {found : List α} (h : s.Finds b found)
    (htext : c.text = b.text) (hle : c.after.length ≤ b.after.length) (hne : s c ≠ []) :
    ∃ a ∈ found, ∃ e d, e.text = c.text ∧ (s e).head? = some (a, d) ∧
      c.after.length ≤ e.after.length ∧ d.after.length < c.after.length := by
  induction h with
  | stop hnone =>
    have hsame := eq_of_length_after htext (Nat.le_antisymm hle (Nat.zero_le _))
    exact absurd (hsame ▸ hnone) hne
  | @skip before xs x found hnone _ ih =>
    rcases Nat.lt_or_eq_of_le hle with hlt | heq
    · exact ih (htext.trans (Cursor.To.next before x xs).text_eq.symm) (Nat.le_of_lt_succ hlt)
    · exact absurd (eq_of_length_after htext heq ▸ hnone) hne
  | @take b d a found hhead _ ih =>
    rcases Nat.lt_or_ge d.after.length c.after.length with hlt | hge
    · exact ⟨a, List.mem_cons_self .., b, d, htext.symm, hhead, hle, hlt⟩
    · obtain ⟨a', ha', hrest⟩ := ih (htext.trans (text_eq_and_length_lt hs hhead).1.symm) hge
      exact ⟨a', List.mem_cons_of_mem _ ha', hrest⟩

omit hs in
/-- If each value has a place of its own within what is read, then the values that are found
stand one after the other. -/
theorem Finds.pairwise (ahead : α → Nat)
    (hahead : ∀ c a d, (a, d) ∈ s c → d.after.length < ahead a ∧ ahead a ≤ c.after.length)
    {c : Cursor} {found : List α} (h : s.Finds c found) :
    found.Pairwise (fun a b => ahead b < ahead a) ∧ ∀ a ∈ found, ahead a ≤ c.after.length := by
  induction h with
  | stop => exact ⟨.nil, List.forall_mem_nil _⟩
  | skip _ _ ih => exact ⟨ih.1, fun a ha => Nat.le_succ_of_le (ih.2 a ha)⟩
  | @take c d a found hhead _ ih =>
    obtain ⟨hlt, hle⟩ := hahead c a d (List.mem_of_head? hhead)
    refine ⟨.cons (fun b hb => Nat.lt_of_le_of_lt (ih.2 b hb) hlt) ih.1, ?_⟩
    refine List.forall_mem_cons.mpr ⟨hle, fun b hb => ?_⟩
    exact Nat.le_trans (ih.2 b hb) (Nat.le_trans (Nat.le_of_lt hlt) hle)

end Finds

end BigO.Scan.Scanner
