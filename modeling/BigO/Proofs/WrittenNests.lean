-- A nest as it is written, beside the class that it is given. The power is written with its
-- degree, whatever that is, while the class has it at most cubic: so the text tells all nests
-- apart that differ in their degree or in having a logarithm, and the label only small ones.
import BigO.Proofs.MoreEvidence
import BigO.Proofs.Stretches
import Mathlib.Data.Bool.Basic
import Mathlib.Data.Prod.Lex

namespace BigO.Nest

open BigO.Loop (Factor)
open BigO.Scan

/-! ## The text of a nest -/

/-- What is written where there is no linear factor. -/
def withoutPower (logarithm : Bool) : List Char :=
  if logarithm then "log n".toList else ['1']

/-- What stands after the `n` of a power. -/
def exponent (degree : Nat) : List Char :=
  if degree ≤ 1 then [] else '^' :: Nat.toDigits 10 degree

/-- What stands after a power. -/
def besidePower (logarithm : Bool) : List Char :=
  if logarithm then " log n".toList else []

theorem toList_expression (factors : List Factor) :
    (expression factors).toList =
      if degree factors = 0 then withoutPower (hasLogarithm factors)
      else 'n' :: (exponent (degree factors) ++ besidePower (hasLogarithm factors)) := by
  unfold expression terms
  rcases degree factors with _ | _ | d
  · cases hasLogarithm factors <;> rfl
  · cases hasLogarithm factors <;> rfl
  · have hstart : (toString "n^").toList = ['n', '^'] := rfl
    cases hasLogarithm factors <;> simp [exponent, besidePower, hstart]

theorem exponent_injective {d d' : Nat} (hd : d ≠ 0) (hd' : d' ≠ 0)
    (h : exponent d = exponent d') : d = d' := by
  unfold exponent at h
  split at h <;> split at h
  · omega
  · exact absurd h (List.cons_ne_nil _ _).symm
  · exact absurd h (List.cons_ne_nil _ _)
  · have hdigits := (List.cons.inj h).2
    rw [← Nat.ofDigitChars_ten_toDigits (n := d), hdigits, Nat.ofDigitChars_ten_toDigits]

theorem withoutPower_injective {l l' : Bool} (h : withoutPower l = withoutPower l') : l = l' := by
  revert h
  cases l <;> cases l' <;> decide

theorem withoutPower_ne_power (l : Bool) (rest : List Char) : withoutPower l ≠ 'n' :: rest := by
  cases l <;> simp [withoutPower]

theorem besidePower_injective {l l' : Bool} (h : besidePower l = besidePower l') : l = l' := by
  revert h
  cases l <;> cases l' <;> decide

/-- A character of an exponent. -/
def inExponent (c : Char) : Bool :=
  c == '^' || c.isDigit

theorem only_exponent (d : Nat) : Only inExponent (exponent d) := by
  unfold exponent
  split
  · exact only_nil _
  · intro c hc
    rcases List.mem_cons.mp hc with rfl | hdigit
    · rfl
    · rw [inExponent, Nat.isDigit_of_mem_toDigits (by decide) (by decide) hdigit, Bool.or_true]

theorem head?_besidePower (l : Bool) : (besidePower l).head?.any inExponent = false := by
  cases l <;> decide

/-- The text of a nest tells its degree and whether it has a logarithm. -/
theorem expression_eq_iff (xs ys : List Factor) :
    expression xs = expression ys ↔
      degree xs = degree ys ∧ hasLogarithm xs = hasLogarithm ys := by
  constructor
  · intro h
    have htext := congrArg String.toList h
    rw [toList_expression, toList_expression] at htext
    by_cases hx : degree xs = 0
    · rw [if_pos hx] at htext
      by_cases hy : degree ys = 0
      · rw [if_pos hy] at htext
        exact ⟨hx.trans hy.symm, withoutPower_injective htext⟩
      · rw [if_neg hy] at htext
        exact absurd htext (withoutPower_ne_power _ _)
    · rw [if_neg hx] at htext
      by_cases hy : degree ys = 0
      · rw [if_pos hy] at htext
        exact absurd htext.symm (withoutPower_ne_power _ _)
      · rw [if_neg hy] at htext
        obtain ⟨hexponent, hbeside⟩ := append_inj_of_only (only_exponent _) (only_exponent _)
          (head?_besidePower _) (head?_besidePower _) (List.cons.inj htext).2
        exact ⟨exponent_injective hx hy hexponent, besidePower_injective hbeside⟩
  · rintro ⟨hdegree, hlog⟩
    rw [expression, expression, terms, terms, hdegree, hlog]

/-! ## The label of a nest -/

theorem growth_congr {xs ys : List Factor} (hdegree : degree xs = degree ys)
    (hlog : hasLogarithm xs = hasLogarithm ys) : growth xs = growth ys := by
  rw [growth, growth, hdegree, hlog]

/-- The nest that the label of a nest speaks of. -/
def labelled (factors : List Factor) : List Factor :=
  List.replicate (min (degree factors) 3) .linear ++
    if hasLogarithm factors = true ∧ degree factors ≤ 1 then [.logarithmic] else []

theorem label_growth (factors : List Factor) :
    (growth factors).label = "O(" ++ expression (labelled factors) ++ ")" := by
  unfold growth labelled
  rcases degree factors with _ | _ | _ | d
  · cases hasLogarithm factors <;> decide
  · cases hasLogarithm factors <;> decide
  · cases hasLogarithm factors <;> decide
  · have hcubic : min (d + 3) 3 = 3 := Nat.min_eq_right (by omega)
    have hmany : ¬ (hasLogarithm factors = true ∧ d + 3 ≤ 1) := by omega
    rw [hcubic, if_neg hmany]
    show Growth.cubic.label = _
    decide

theorem degree_labelled (factors : List Factor) :
    degree (labelled factors) = min (degree factors) 3 := by
  unfold labelled
  generalize min (degree factors) 3 = k
  split <;> simp [degree]

theorem hasLogarithm_labelled (factors : List Factor) :
    hasLogarithm (labelled factors) = true ↔ hasLogarithm factors = true ∧ degree factors ≤ 1 := by
  unfold labelled
  generalize min (degree factors) 3 = k
  split
  · rename_i h
    exact iff_of_true (by simp [hasLogarithm]) h
  · rename_i h
    exact iff_of_false (by simp [hasLogarithm]) h

/-- The label speaks of the nest itself as long as there is at most one linear factor, and of
a power without a logarithm as long as it is at most cubic. -/
theorem label_growth_eq_iff (factors : List Factor) :
    (growth factors).label = "O(" ++ expression factors ++ ")" ↔
      degree factors ≤ 1 ∨
        (degree factors = 2 ∨ degree factors = 3) ∧ hasLogarithm factors = false := by
  have hwritten : (growth factors).label = "O(" ++ expression factors ++ ")" ↔
      expression (labelled factors) = expression factors := by
    rw [label_growth, String.append_left_inj, String.append_right_inj]
  rw [hwritten, expression_eq_iff, degree_labelled, Bool.eq_iff_iff, hasLogarithm_labelled]
  cases hasLogarithm factors
  · simp
    omega
  · simp
    omega

/-! ## Laws -/

/-- Neither the order of the factors nor the constants among them are written. -/
theorem expression_of_perm {xs ys : List Factor}
    (h : (xs.filter (· ≠ .constant)).Perm (ys.filter (· ≠ .constant))) :
    expression xs = expression ys := by
  have hcount : ∀ f : Factor, f ≠ .constant → xs.count f = ys.count f := by
    intro f hf
    have hsame := h.count_eq f
    rwa [List.count_filter (by simpa using hf), List.count_filter (by simpa using hf)] at hsame
  refine (expression_eq_iff xs ys).mpr ⟨hcount .linear (by decide), ?_⟩
  rw [hasLogarithm, hasLogarithm, Bool.eq_iff_iff, List.contains_iff_mem, List.contains_iff_mem,
    ← List.count_pos_iff, ← List.count_pos_iff, hcount .logarithmic (by decide)]

/-- A logarithm ranks a nest higher only among those with as many linear factors. -/
theorem rank_growth_le_of_lex {xs ys : List Factor}
    (h : toLex (degree xs, hasLogarithm xs) ≤ toLex (degree ys, hasLogarithm ys)) :
    (growth xs).rank ≤ (growth ys).rank := by
  have hlog := Bool.toNat_le (hasLogarithm xs)
  rw [rank_growth, rank_growth]
  rcases Prod.Lex.toLex_le_toLex.mp h with hmore | ⟨hsame, hle⟩
  · have hdegree : degree xs < degree ys := hmore
    split <;> split <;> omega
  · have hdegree : degree xs = degree ys := hsame
    have hnat : (hasLogarithm xs).toNat ≤ (hasLogarithm ys).toNat := Bool.toNat_le_toNat hle
    rw [hdegree]
    split <;> omega

/-- The text of a nest and its class never contradict each other. The text tells how many
linear factors there are and whether there is a logarithm, and neither the order nor the
constants; nests with one text have one class; a nest with more linear factors, or with as
many and a logarithm, has no smaller class; and the label is the text up to one linear factor,
and for a square or a cube that has no logarithm. -/
theorem text_and_class_agree (xs ys : List Factor) :
    (expression xs = expression ys ↔
      xs.count .linear = ys.count .linear ∧ (.logarithmic ∈ xs ↔ .logarithmic ∈ ys)) ∧
    ((xs.filter (· ≠ .constant)).Perm (ys.filter (· ≠ .constant)) →
      expression xs = expression ys) ∧
    (expression xs = expression ys → growth xs = growth ys) ∧
    (toLex (xs.count Factor.linear, xs.contains Factor.logarithmic) ≤
        toLex (ys.count Factor.linear, ys.contains Factor.logarithmic) →
      (growth xs).rank ≤ (growth ys).rank) ∧
    ((growth xs).label = "O(" ++ expression xs ++ ")" ↔
      xs.count .linear ≤ 1 ∨
        (xs.count .linear = 2 ∨ xs.count .linear = 3) ∧ .logarithmic ∉ xs) := by
  have hlog : ∀ fs : List Factor, hasLogarithm fs = true ↔ .logarithmic ∈ fs :=
    fun fs => List.contains_iff_mem
  refine ⟨?_, expression_of_perm, fun h => ?_, rank_growth_le_of_lex, ?_⟩
  · rw [expression_eq_iff, Bool.eq_iff_iff, hlog, hlog]
    rfl
  · obtain ⟨hdegree, hhas⟩ := (expression_eq_iff xs ys).mp h
    exact growth_congr hdegree hhas
  · rw [label_growth_eq_iff, ← Bool.not_eq_true, hlog]
    rfl

/-- Two nests with one text, and a power that the label does not tell. -/
example : expression [.linear, .constant, .logarithmic, .linear] = "n^2 log n" ∧
    expression [.logarithmic, .linear, .linear, .logarithmic] = "n^2 log n" ∧
    (growth [.linear, .constant, .logarithmic, .linear]).label = "O(n^2)" := by
  decide

end BigO.Nest
