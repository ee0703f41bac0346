-- Whole numbers as they are written: blanks around, a sign or none, and groups of digits with
-- a single underscore between any two. Reading accepts those with as many digits as are read,
-- gives each its value, and accepts nothing else. The decimal text of a number is one of them.
import BigO.Text.Integer
import Mathlib.Data.List.TakeWhile

namespace BigO.Text

/-! ## Digits and blanks -/

theorem isDigit_iff {c : Char} :
    isDigit c = true ↔ ∃ z ∈ digitZeros, z ≤ c.toNat ∧ c.toNat ≤ z + 9 := by
  unfold isDigit digitValue?
  rw [Option.isSome_map, List.find?_isSome]
  simp only [Bool.and_eq_true, decide_eq_true_eq]

/-- No digit is a blank: the digits of every script are apart from all blanks. -/
theorem isBlank_of_isDigit {c : Char} (h : isDigit c = true) : isBlank c = false := by
  obtain ⟨z, hz, hle, hge⟩ := isDigit_iff.mp h
  have hascii : ∀ z ∈ digitZeros, 0x30 ≤ z := by decide
  have hapart : ∀ z ∈ digitZeros, ∀ r ∈ blankRanges, z + 9 < r.first ∨ r.last < z := by decide
  have hfirst := hascii z hz
  unfold isBlank
  split
  · have hspace : c ≠ ' ' := by
      rintro rfl
      have hcode : (' ' : Char).toNat = 0x20 := rfl
      omega
    have hfeeds : CodeRange.holds ⟨0x9, 0xD⟩ c = false := by
      simp [CodeRange.holds]
      omega
    have hseparators : CodeRange.holds ⟨0x1C, 0x1F⟩ c = false := by
      simp [CodeRange.holds]
      omega
    simp [isAsciiBlank, hspace, hfeeds, hseparators]
  · rw [inRanges, List.any_eq_false]
    intro r hr
    rcases hapart z hz r hr with hbefore | hafter
    · simp [CodeRange.holds]
      omega
    · simp [CodeRange.holds]
      omega

theorem isNumberBlank_of_isDigit {c : Char} (h : isDigit c = true) : isNumberBlank c = false := by
  rw [isNumberBlank, isBlank_of_isDigit h, Bool.false_and]

/-! ## Runs of digits -/

/-- Digits of any script. -/
def AllDigits (text : List Char) : Prop :=
  ∀ c ∈ text, isDigit c = true

/-- The number that digits stand for after others that stand for `value`. -/
def valueFrom (value : Nat) (digits : List Char) : Nat :=
  digits.foldl (fun v c => v * 10 + (digitValue? c).getD 0) value

/-- Groups of digits with an underscore between any two. -/
def grouped (groups : List (List Char)) : List Char :=
  ['_'].intercalate groups

/-- Groups that digits may be written in. -/
def AreGroups (groups : List (List Char)) : Prop :=
  ∀ g ∈ groups, g ≠ [] ∧ AllDigits g

/-- No number goes on here. -/
def Stops (text : List Char) : Prop :=
  text.head?.all (fun c => !isDigit c && c != '_') = true

theorem grouped_cons (first second : List Char) (others : List (List Char)) :
    grouped (first :: second :: others) = first ++ '_' :: grouped (second :: others) := by
  rw [grouped, List.intercalate_cons_cons, List.append_assoc]
  rfl

theorem grouped_cons_cons (c : Char) (first : List Char) (others : List (List Char)) :
    grouped ((c :: first) :: others) = c :: grouped (first :: others) := by
  cases others with
  | nil => rfl
  | cons second others => rw [grouped_cons, grouped_cons, List.cons_append]

theorem valueFrom_cons {c : Char} {d : Nat} (h : digitValue? c = some d) (value : Nat)
    (cs : List Char) : valueFrom value (c :: cs) = valueFrom (value * 10 + d) cs := by
  rw [valueFrom, List.foldl_cons, h]
  rfl

theorem digitRun_digit {c : Char} {d : Nat} (h : digitValue? c = some d) (gap : Bool)
    (count value : Nat) (cs : List Char) :
    digitRun gap count value (c :: cs) = digitRun false (count + 1) (value * 10 + d) cs := by
  rw [digitRun, h]

/-- Digits are counted, and their value is taken. -/
theorem digitRun_digits {digits : List Char} (h : AllDigits digits) {gap : Bool}
    (hgap : gap = true → digits ≠ []) (count value : Nat) (rest : List Char) :
    digitRun gap count value (digits ++ rest) =
      digitRun false (count + digits.length) (valueFrom value digits) rest := by
  induction digits generalizing gap count value with
  | nil =>
    cases gap with
    | true => exact absurd rfl (hgap rfl)
    | false => rfl
  | cons c cs ih =>
    obtain ⟨hc, hcs⟩ := List.forall_mem_cons.mp h
    obtain ⟨d, hd⟩ := Option.isSome_iff_exists.mp hc
    rw [List.cons_append, digitRun_digit hd, ih hcs (by simp), valueFrom_cons hd,
      List.length_cons]
    congr 1
    omega

theorem isDigit_eq_false {c : Char} (h : digitValue? c = none) : isDigit c = false := by
  rw [isDigit, h]
  rfl

theorem digitRun_stops {rest : List Char} (h : Stops rest) (count value : Nat) :
    digitRun false count value rest = some (count, value, rest) := by
  cases rest with
  | nil => rfl
  | cons c cs =>
    have hstop : isDigit c = false ∧ c ≠ '_' := by simpa [Stops] using h
    have hnone : digitValue? c = none := by
      rw [← Option.not_isSome_iff_eq_none, ← isDigit, hstop.1]
      decide
    rw [digitRun, hnone]
    simp [hstop.2]

/-- A number in groups is read up to where no number goes on. -/
theorem digitRun_grouped {first : List Char} {others : List (List Char)}
    (hfirst : AllDigits first) (hothers : AreGroups others) {gap : Bool}
    (hgap : gap = true → first ≠ []) {rest : List Char} (hrest : Stops rest)
    (count value : Nat) :
    digitRun gap count value (grouped (first :: others) ++ rest) =
      some (count + (first :: others).flatten.length, valueFrom value (first :: others).flatten,
        rest) := by
  induction others generalizing first gap count value with
  | nil =>
    have hone : grouped [first] = first := List.intercalate_singleton
    rw [hone, digitRun_digits hfirst hgap, digitRun_stops hrest]
    simp
  | cons second others ih =>
    obtain ⟨⟨hne, hsecond⟩, hmore⟩ := List.forall_mem_cons.mp hothers
    have hunderscore : ∀ count value more, digitRun false count value ('_' :: more) =
        digitRun true count value more := fun _ _ _ => rfl
    have hflat : (first :: second :: others).flatten = first ++ (second :: others).flatten := rfl
    rw [grouped_cons, List.append_assoc, List.cons_append, digitRun_digits hfirst hgap,
      hunderscore, ih hsecond hmore (fun _ => hne), hflat, List.length_append,
      valueFrom, valueFrom, valueFrom, List.foldl_append, Nat.add_assoc]

/-- Whatever run is read, it is a number in groups, and no number goes on after it. -/
theorem exists_groups_of_digitRun {gap : Bool} {count value : Nat} {text : List Char}
    {count' value' : Nat} {rest : List Char}
    (h : digitRun gap count value text = some (count', value', rest)) :
    ∃ first others, text = grouped (first :: others) ++ rest ∧ AllDigits first ∧
      AreGroups others ∧ (gap = true → first ≠ []) ∧ Stops rest ∧
      count' = count + (first :: others).flatten.length ∧
      value' = valueFrom value (first :: others).flatten := by
  -- a digit goes to the group that is being read, an underscore makes it the next one
  fun_induction digitRun gap count value text with
  | case1 => exact absurd h (by simp)
  | case2 gap count value hgap =>
    simp only [Option.some.injEq, Prod.mk.injEq] at h
    obtain ⟨rfl, rfl, rfl⟩ := h
    exact ⟨[], [], rfl, List.forall_mem_nil _, List.forall_mem_nil _, fun h => absurd h hgap, rfl,
      rfl, rfl⟩
  | case3 gap count value c cs d hd ih =>
    obtain ⟨first, others, rfl, hfirst, hothers, -, hrest, rfl, rfl⟩ := ih h
    refine ⟨c :: first, others, ?_, List.forall_mem_cons.mpr ⟨by rw [isDigit, hd]; rfl, hfirst⟩,
      hothers, fun _ => List.cons_ne_nil _ _, hrest, ?_, ?_⟩
    · rw [grouped_cons_cons, List.cons_append]
    · rw [List.flatten_cons, List.flatten_cons, List.cons_append, List.length_cons]
      omega
    · rw [List.flatten_cons, List.flatten_cons, List.cons_append, valueFrom_cons hd]
  | case4 => exact absurd h (by simp)
  | case5 gap count value cs hgap _ ih =>
    obtain ⟨first, others, rfl, hfirst, hothers, hne, hrest, rfl, rfl⟩ := ih h
    exact ⟨[], first :: others, by rw [grouped_cons]; rfl, List.forall_mem_nil _,
      List.forall_mem_cons.mpr ⟨⟨hne rfl, hfirst⟩, hothers⟩, fun h => absurd h hgap, hrest,
      rfl, rfl⟩
  | case6 gap count value c cs hnone hgap hunderscore =>
    simp only [Option.some.injEq, Prod.mk.injEq] at h
    obtain ⟨rfl, rfl, rfl⟩ := h
    refine ⟨[], [], rfl, List.forall_mem_nil _, List.forall_mem_nil _, fun h => absurd h hgap, ?_,
      rfl, rfl⟩
    simp [Stops, isDigit_eq_false hnone, hunderscore]

/-! ## Numbers -/

/-- The sign of a number as it is written. -/
inductive Sign where
  | none
  | plus
  | minus
deriving DecidableEq

namespace Sign

def text : Sign → List Char
  | .none => []
  | .plus => ['+']
  | .minus => ['-']

def apply : Sign → Nat → Int
  | .minus, n => -n
  | _, n => n

end Sign

/-- A whole number as it is written. -/
structure Numeral where
  before : List Char
  sign : Sign
  groups : List (List Char)
  after : List Char
  blankBefore : ∀ c ∈ before, isNumberBlank c = true
  blankAfter : ∀ c ∈ after, isNumberBlank c = true
  ne_nil : groups ≠ []
  areGroups : AreGroups groups

namespace Numeral

def text (m : Numeral) : List Char :=
  m.before ++ (m.sign.text ++ (grouped m.groups ++ m.after))

/-- The digits, without what is around and between them. -/
def digits (m : Numeral) : List Char :=
  m.groups.flatten

def value (m : Numeral) : Int :=
  m.sign.apply (valueFrom 0 m.digits)

end Numeral

/-- A number starts, behind its blanks and its sign, with a digit. -/
theorem Numeral.exists_digit (m : Numeral) :
    ∃ c rest, isDigit c = true ∧ grouped m.groups = c :: rest := by
  obtain ⟨first, others, hgroups⟩ := List.exists_cons_of_ne_nil m.ne_nil
  obtain ⟨hfirst, hdigits⟩ := m.areGroups first (hgroups ▸ List.mem_cons_self ..)
  obtain ⟨c, cs, rfl⟩ := List.exists_cons_of_ne_nil hfirst
  exact ⟨c, grouped (cs :: others), hdigits c (List.mem_cons_self ..),
    by rw [hgroups, grouped_cons_cons]⟩

/-- A number is not nothing but blanks. -/
theorem Numeral.isBlankText_text (m : Numeral) : isBlankText m.text = false := by
  obtain ⟨c, rest, hdigit, hgrouped⟩ := m.exists_digit
  rw [isBlankText, List.all_eq_false]
  refine ⟨c, ?_, by simp [isBlank_of_isDigit hdigit]⟩
  simp [Numeral.text, hgrouped]

theorem isDigit_of_isNumberBlank {c : Char} (h : isNumberBlank c = true) : isDigit c = false := by
  rw [← Bool.not_eq_true]
  intro hdigit
  rw [isNumberBlank_of_isDigit hdigit] at h
  exact absurd h (by decide)

theorem stops_of_blank {text : List Char} (h : ∀ c ∈ text, isNumberBlank c = true) :
    Stops text := by
  cases text with
  | nil => rfl
  | cons c cs =>
    have hblank := h c (List.mem_cons_self ..)
    have hunderscore : c ≠ '_' := by
      rintro rfl
      exact absurd hblank (by decide)
    simp [Stops, isDigit_of_isNumberBlank hblank, hunderscore]

/-- A number without a sign is read if it is in groups, has not too many digits, and has
nothing but blanks after it. -/
theorem readUnsigned_eq_ok_iff (text : List Char) (value : Nat) :
    readUnsigned text = .ok value ↔
      ∃ groups after, groups ≠ [] ∧ AreGroups groups ∧ (∀ c ∈ after, isNumberBlank c = true) ∧
        text = grouped groups ++ after ∧ groups.flatten.length ≤ maxDigits ∧
        value = valueFrom 0 groups.flatten := by
  unfold readUnsigned
  constructor
  · intro h
    cases hrun : digitRun true 0 0 text with
    | none =>
      rw [hrun] at h
      exact absurd h (by simp)
    | some run =>
      obtain ⟨count, total, after⟩ := run
      obtain ⟨first, others, rfl, hfirst, hothers, hne, -, rfl, rfl⟩ :=
        exists_groups_of_digitRun hrun
      rw [hrun] at h
      dsimp only at h
      split at h
      · exact absurd h (by simp)
      · rename_i hfew
        split at h
        · rename_i hblank
          refine ⟨first :: others, after, List.cons_ne_nil _ _,
            List.forall_mem_cons.mpr ⟨⟨hne rfl, hfirst⟩, hothers⟩, List.all_eq_true.mp hblank,
            rfl, ?_, (Except.ok.inj h).symm⟩
          rw [Nat.zero_add] at hfew
          exact Nat.le_of_not_lt hfew
        · exact absurd h (by simp)
  · rintro ⟨groups, after, hne, hgroups, hafter, rfl, hfew, rfl⟩
    obtain ⟨first, others, rfl⟩ := List.exists_cons_of_ne_nil hne
    obtain ⟨⟨hfirst, hdigits⟩, hothers⟩ := List.forall_mem_cons.mp hgroups
    rw [digitRun_grouped hdigits hothers (fun _ => hfirst) (stops_of_blank hafter)]
    dsimp only
    rw [Nat.zero_add, if_neg (Nat.not_lt.mpr hfew), if_pos (List.all_eq_true.mpr hafter)]

theorem map_eq_ok_iff {ε α β : Type} {f : α → β} {x : Except ε α} {b : β} :
    x.map f = .ok b ↔ ∃ a, x = .ok a ∧ f a = b := by
  cases x with
  | error e => simp [Except.map]
  | ok a => simp [Except.map]

theorem map_eq_map_apply {ε : Type} (sign : Sign) {f : Int → Int}
    (hf : ∀ n : Nat, f n = sign.apply n) (x : Except ε Nat) :
    (do let n ← x; pure (n : Int)).map f = x.map sign.apply := by
  cases x with
  | error e => rfl
  | ok n => exact congrArg Except.ok (hf n)

/-- Behind the blanks at its start a text has a sign, or none, and is read as that. -/
theorem exists_sign (text : List Char) : ∃ before sign body,
    (∀ c ∈ before, isNumberBlank c = true) ∧ text = before ++ (Sign.text sign ++ body) ∧
      readInteger text = (readUnsigned body).map sign.apply := by
  have hsplit : text = text.takeWhile isNumberBlank ++ text.dropWhile isNumberBlank :=
    List.takeWhile_append_dropWhile.symm
  have hblank : ∀ c ∈ text.takeWhile isNumberBlank, isNumberBlank c = true :=
    List.all_eq_true.mp List.all_takeWhile
  unfold readInteger
  split
  · rename_i body hbody
    rw [hbody] at hsplit
    exact ⟨_, .minus, body, hblank, hsplit, map_eq_map_apply .minus (fun _ => rfl) _⟩
  · rename_i body hbody
    rw [hbody] at hsplit
    exact ⟨_, .plus, body, hblank, hsplit, map_eq_map_apply .plus (fun _ => rfl) _⟩
  · exact ⟨_, .none, _, hblank, hsplit, map_eq_map_apply .none (fun _ => rfl) _⟩

/-- A number as it is written is read behind its blanks and its sign. -/
theorem readInteger_numeral (m : Numeral) :
    readInteger m.text = (readUnsigned (grouped m.groups ++ m.after)).map m.sign.apply := by
  obtain ⟨c, rest, hdigit, hgrouped⟩ := m.exists_digit
  have hdrop : ∀ {x : Char} {xs : List Char}, isNumberBlank x = false →
      (m.before ++ x :: xs).dropWhile isNumberBlank = x :: xs := by
    intro x xs hx
    rw [List.dropWhile_append_of_pos m.blankBefore, List.dropWhile_cons_of_neg (by simp [hx])]
  rw [Numeral.text, hgrouped, List.cons_append]
  unfold readInteger
  cases m.sign with
  | minus =>
    rw [Sign.text, List.singleton_append, hdrop (by decide)]
    exact map_eq_map_apply .minus (fun _ => rfl) _
  | plus =>
    rw [Sign.text, List.singleton_append, hdrop (by decide)]
    exact map_eq_map_apply .plus (fun _ => rfl) _
  | none =>
    rw [Sign.text, List.nil_append, hdrop (isNumberBlank_of_isDigit hdigit)]
    split
    · rename_i heq
      rw [(List.cons.inj heq).1] at hdigit
      exact absurd hdigit (by decide)
    · rename_i heq
      rw [(List.cons.inj heq).1] at hdigit
      exact absurd hdigit (by decide)
    · exact map_eq_map_apply .none (fun _ => rfl) _

/-- The numbers that are read are those that are written with no more digits than are read. -/
theorem readInteger_eq_ok_iff (text : List Char) (n : Int) :
    readInteger text = .ok n ↔
      ∃ m : Numeral, m.text = text ∧ m.digits.length ≤ maxDigits ∧ m.value = n := by
  constructor
  · intro h
    obtain ⟨before, sign, body, hbefore, htext, hread⟩ := exists_sign text
    obtain ⟨value, hvalue, rfl⟩ := map_eq_ok_iff.mp (hread.symm.trans h)
    obtain ⟨groups, after, hne, hgroups, hafter, rfl, hfew, rfl⟩ :=
      (readUnsigned_eq_ok_iff body value).mp hvalue
    exact ⟨⟨before, sign, groups, after, hbefore, hafter, hne, hgroups⟩, htext.symm, hfew, rfl⟩
  · rintro ⟨m, rfl, hfew, rfl⟩
    rw [readInteger_numeral, map_eq_ok_iff]
    refine ⟨valueFrom 0 m.digits, ?_, rfl⟩
    exact (readUnsigned_eq_ok_iff _ _).mpr
      ⟨m.groups, m.after, m.ne_nil, m.areGroups, m.blankAfter, rfl, hfew, rfl⟩

/-! ## Decimal texts -/

theorem digitValue?_of_isDigit {c : Char} (h : c.isDigit = true) :
    digitValue? c = some (c.toNat - 48) := by
  have hrange : 48 ≤ c.toNat ∧ c.toNat ≤ 57 := by
    simpa [Char.isDigit, UInt32.le_iff_toNat_le] using h
  have hfind : digitZeros.find? (fun z => z ≤ c.toNat && c.toNat ≤ z + 9) = some 0x30 := by
    rw [digitZeros, List.find?_cons_of_pos]
    simp only [Bool.and_eq_true, decide_eq_true_eq]
    omega
  rw [digitValue?, hfind]
  rfl

/-- The digits of a number stand for it. -/
theorem valueFrom_toDigits (k : Nat) : valueFrom 0 (Nat.toDigits 10 k) = k := by
  have hvalue : ∀ digits : List Char, (∀ c ∈ digits, c.isDigit = true) → ∀ value,
      valueFrom value digits = Nat.ofDigitChars 10 digits value := by
    intro digits
    induction digits with
    | nil =>
      intro _ value
      rw [Nat.ofDigitChars_nil]
      rfl
    | cons c cs ih =>
      intro h value
      obtain ⟨hc, hcs⟩ := List.forall_mem_cons.mp h
      have hzero : ('0' : Char).toNat = 48 := rfl
      rw [valueFrom_cons (digitValue?_of_isDigit hc), ih hcs, Nat.ofDigitChars_cons, hzero,
        Nat.mul_comm]
  rw [hvalue _ (fun c hc => Nat.isDigit_of_mem_toDigits (by decide) (by decide) hc),
    Nat.ofDigitChars_ten_toDigits]

/-- The decimal text of a number, as it is written without a sign or blanks. -/
def decimal (k : Nat) : Numeral where
  before := []
  sign := .none
  groups := [Nat.toDigits 10 k]
  after := []
  blankBefore := List.forall_mem_nil _
  blankAfter := List.forall_mem_nil _
  ne_nil := List.cons_ne_nil _ _
  areGroups := by
    intro g hg
    rw [List.mem_singleton.mp hg]
    refine ⟨Nat.toDigits_ne_nil, fun c hc => ?_⟩
    have hdigit := Nat.isDigit_of_mem_toDigits (by decide) (by decide) hc
    rw [isDigit, digitValue?_of_isDigit hdigit]
    rfl

theorem text_decimal (k : Nat) : (decimal k).text = (toString k).toList := by
  rw [Nat.toString_eq_repr, Nat.toList_repr]
  simp [Numeral.text, decimal, Sign.text, grouped]

theorem digits_decimal (k : Nat) : (decimal k).digits = Nat.toDigits 10 k :=
  List.append_nil _

theorem value_decimal (k : Nat) : (decimal k).value = k := by
  rw [Numeral.value, digits_decimal, valueFrom_toDigits]
  rfl

end BigO.Text
