-- Words whatever their case. Beyond ASCII no character but the Kelvin sign has lower case in
-- ASCII, so a text without a small `k` is the lower case of just those texts that differ from
-- it in letters of ASCII being large or small.
import BigO.Proofs.Places
import BigO.Text.LetterCase

namespace BigO.Text

/-- The run ends beyond ASCII, in characters that there are. -/
def CaseRun.StaysBeyond (r : CaseRun) : Prop :=
  0x80 ≤ r.first + r.shift ∧
    (r.last + r.shift < 0xD800 ∨ (0xDFFF < r.first + r.shift ∧ r.last + r.shift < 0x110000))

/-- The run of the Kelvin sign. -/
def CaseRun.IsKelvin (r : CaseRun) : Prop :=
  r.first = 0x212A ∧ r.last = 0x212A ∧ r.shift = -8383

instance (r : CaseRun) : Decidable r.StaysBeyond :=
  inferInstanceAs (Decidable (_ ∧ _))

instance (r : CaseRun) : Decidable r.IsKelvin :=
  inferInstanceAs (Decidable (_ ∧ _))

theorem lowerRuns_stay_beyond : ∀ r ∈ lowerRuns, r.StaysBeyond ∨ r.IsKelvin := by
  decide +kernel

theorem mem_charOf {n : Nat} (h : n.isValidChar) : ∃ x ∈ charOf n, x.toNat = n := by
  refine ⟨Char.ofNat n, ?_, ?_⟩
  · rw [charOf, if_pos h]
    exact List.mem_singleton_self _
  · rw [Char.ofNat, dif_pos h]
    rfl

/-- The lower case of a character beyond ASCII shows that it was no letter of ASCII. -/
theorem exists_beyond_of_lowerChar {c : Char} (hc : ¬ c.toNat < 0x80) :
    ∃ x ∈ lowerChar c, 0x80 ≤ x.toNat ∨ x = 'k' := by
  unfold lowerChar
  rw [if_neg hc]
  split
  · exact ⟨Char.ofNat 0x307, by simp, .inl (by decide)⟩
  · unfold shiftCase
    split
    · rename_i n hn
      obtain ⟨r, hr, hshift⟩ := List.exists_of_findSome?_eq_some hn
      unfold CaseRun.shifted? at hshift
      split at hshift
      · rename_i hrange
        obtain rfl := Option.some.inj hshift
        simp only [Bool.and_eq_true, decide_eq_true_eq] at hrange
        rcases lowerRuns_stay_beyond r hr with hbeyond | hkelvin
        · have hvalid : (c.toNat + r.shift).toNat.isValidChar := by
            unfold CaseRun.StaysBeyond at hbeyond
            unfold Nat.isValidChar
            omega
          obtain ⟨x, hx, hcode⟩ := mem_charOf hvalid
          refine ⟨x, hx, .inl ?_⟩
          unfold CaseRun.StaysBeyond at hbeyond
          omega
        · obtain ⟨hfirst, hlast, hshift⟩ := hkelvin
          have hk : c.toNat = 0x212A := by omega
          rw [hk, hshift]
          exact ⟨'k', by decide, .inr rfl⟩
      · exact absurd hshift (by simp)
    · exact ⟨c, List.mem_singleton_self c, .inl (Nat.le_of_not_lt hc)⟩

theorem toLowerFrom_of_ascii {text : List Char} (h : ∀ c ∈ text, c.toNat < 0x80)
    (before : List Char) : toLowerFrom before text = text.map Char.toLower := by
  induction text generalizing before with
  | nil => rfl
  | cons c cs ih =>
    obtain ⟨hc, hcs⟩ := List.forall_mem_cons.mp h
    have hsigma : c.toNat ≠ 0x3A3 := by omega
    rw [toLowerFrom, if_neg hsigma, lowerChar, if_pos hc, ih hcs]
    rfl

/-- What a character becomes stands in the lower case of the text. -/
theorem exists_beyond_of_toLowerFrom {text : List Char} {c : Char} (hmem : c ∈ text)
    (hc : ¬ c.toNat < 0x80) (before : List Char) :
    ∃ x ∈ toLowerFrom before text, 0x80 ≤ x.toNat ∨ x = 'k' := by
  induction text generalizing before with
  | nil => exact absurd hmem List.not_mem_nil
  | cons d ds ih =>
    rw [toLowerFrom]
    rcases List.mem_cons.mp hmem with rfl | hmore
    · split
      · refine ⟨lowerSigma before ds, by simp, .inl ?_⟩
        unfold lowerSigma
        split <;> decide
      · obtain ⟨x, hx, hbeyond⟩ := exists_beyond_of_lowerChar hc
        exact ⟨x, List.mem_append_left _ hx, hbeyond⟩
    · obtain ⟨x, hx, hbeyond⟩ := ih hmore (d :: before)
      exact ⟨x, List.mem_append_right _ hx, hbeyond⟩

/-- A word of ASCII without a `k` is the lower case of a text if it is that letter by letter. -/
theorem toLower_eq_iff {word : List Char} (hascii : ∀ c ∈ word, c.toNat < 0x80)
    (hk : 'k' ∉ word) (text : List Char) :
    toLower text = word ↔ text.map Char.toLower = word := by
  have hletters : (∀ c ∈ text, c.toNat < 0x80) →
      (toLower text = word ↔ text.map Char.toLower = word) := by
    intro h
    rw [toLower, toLowerFrom_of_ascii h]
  constructor
  · intro h
    refine (hletters fun c hc => ?_).mp h
    apply Decidable.byContradiction
    intro hbeyond
    obtain ⟨x, hx, hcases⟩ := exists_beyond_of_toLowerFrom hc hbeyond []
    rw [← toLower, h] at hx
    rcases hcases with hcode | rfl
    · exact absurd (hascii x hx) (Nat.not_lt.mpr hcode)
    · exact hk hx
  · intro h
    refine (hletters fun c hc => ?_).mpr h
    apply Decidable.byContradiction
    intro hbeyond
    have hx : c ∈ word := by
      rw [← h, ← toLower_beyond_ascii hbeyond]
      exact List.mem_map_of_mem hc
    exact hbeyond (hascii c hx)

end BigO.Text
