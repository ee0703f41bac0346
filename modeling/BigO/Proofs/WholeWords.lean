-- Words that stand whole in a text, with a word character on neither side. What a
-- scanner reads as a word stands whole; and a whole word lies on one side of any
-- character that is no part of words.
import BigO.Proofs.Places

namespace BigO.Text

open BigO.Scan

/-- The word stands whole in the text. -/
def HasWord (w text : List Char) : Prop :=
  ∃ before after, text = before ++ (w ++ after) ∧
    before.getLast?.any isWord = false ∧ after.head?.any isWord = false

theorem hasWord_iff {w text : List Char} :
    HasWord w text ↔ ∃ c ∈ Cursor.all text, w <+: c.after ∧ c.wordBefore = false ∧
      (c.after.drop w.length).head?.any isWord = false := by
  constructor
  · rintro ⟨before, after, rfl, hbefore, hafter⟩
    refine ⟨⟨before.reverse, w ++ after⟩, ?_, List.prefix_append w after, ?_, ?_⟩
    · rw [Cursor.mem_all, Cursor.text, List.reverse_reverse]
    · rwa [Cursor.wordBefore, List.head?_reverse]
    · rwa [List.drop_left]
  · rintro ⟨⟨before, after⟩, hc, ⟨rest, rfl⟩, hbefore, hafter⟩
    rw [List.drop_left] at hafter
    refine ⟨before.reverse, rest, (Cursor.mem_all.mp hc).symm, ?_, hafter⟩
    rwa [List.getLast?_reverse]

instance (w text : List Char) : Decidable (HasWord w text) :=
  decidable_of_iff' _ hasWord_iff

/-- A whole word lies on one side of a character that is no part of words. -/
theorem HasWord.split {w a b : List Char} {x : Char} (hne : w ≠ [])
    (hw : ∀ y ∈ w, isWord y = true) (hx : isWord x = false) (h : HasWord w (a ++ x :: b)) :
    HasWord w a ∨ HasWord w b := by
  obtain ⟨before, after, htext, hbefore, hafter⟩ := h
  rcases List.append_eq_append_iff.mp htext with ⟨mid, rfl, hmid⟩ | ⟨mid, rfl, hmid⟩
  · -- the word starts after all of the first part
    right
    cases mid with
    | nil =>
      obtain ⟨y, ys, rfl⟩ := List.exists_cons_of_ne_nil hne
      have hy : x = y := (List.cons.inj hmid).1
      rw [hy, hw y (List.mem_cons_self ..)] at hx
      exact absurd hx (by decide)
    | cons y mid =>
      refine ⟨mid, after, (List.cons.inj hmid).2, ?_, hafter⟩
      cases hlast : mid.getLast? with
      | none => rfl
      | some z => simpa [List.getLast?_append, List.getLast?_cons, hlast] using hbefore
  · rcases List.append_eq_append_iff.mp hmid with ⟨rest, rfl, hrest⟩ | ⟨rest, rfl, hrest⟩
    · -- the word ends within the first part
      left
      refine ⟨before, rest, rfl, hbefore, ?_⟩
      cases rest with
      | nil => rfl
      | cons y ys => simpa [hrest] using hafter
    · cases rest with
      | nil =>
        left
        exact ⟨before, [], by simp, hbefore, rfl⟩
      | cons y ys =>
        have hy : x = y := (List.cons.inj hrest).1
        rw [hy, hw y (by simp)] at hx
        exact absurd hx (by decide)

/-! ## Blanks are no part of words -/

/-- The code points of the blanks beyond ASCII. -/
def blankCodes : List Nat :=
  blankRanges.flatMap fun r => List.range' r.first (r.last + 1 - r.first)

theorem isWord_of_isBlank {c : Char} (h : isBlank c = true) : isWord c = false := by
  by_cases hc : c.toNat < 128
  · revert h
    exact forall_ascii (P := fun c => isBlank c = true → isWord c = false) (by decide) hc
  · rw [isBlank, if_neg hc, inRanges, List.any_eq_true] at h
    obtain ⟨r, hr, hholds⟩ := h
    rw [CodeRange.holds, Bool.and_eq_true, decide_eq_true_iff, decide_eq_true_iff] at hholds
    have hmem : c.toNat ∈ blankCodes := by
      refine List.mem_flatMap.mpr ⟨r, hr, ?_⟩
      rw [List.mem_range'_1]
      omega
    have hall : ∀ n ∈ blankCodes, isWord (Char.ofNat n) = false := by decide +kernel
    have := hall c.toNat hmem
    rwa [Char.ofNat_toNat] at this

end BigO.Text

namespace BigO.Scan.Scanner

open BigO.Text

/-- A word is read where it stands and neither end is inside of a longer word. -/
theorem mem_word_iff {w : String} (hne : w.toList ≠ []) (hw : ∀ y ∈ w.toList, isWord y = true)
    {c : Cursor} {r : Unit × Cursor} :
    r ∈ word w c ↔ c.To w.toList r.2 ∧ c.wordBefore = false ∧ r.2.wordAfter = false := by
  have hedges : c.To w.toList r.2 →
      ((c.atWordEdge && r.2.atWordEdge) = true ↔ c.wordBefore = false ∧ r.2.wordAfter = false) := by
    intro hto
    have hfirst : c.wordAfter = true := by
      rw [Cursor.wordAfter, hto.ahead, List.head?_append, List.head?_eq_some_head hne]
      simpa using hw _ (List.head_mem hne)
    have hlast : r.2.wordBefore = true := by
      rw [Cursor.wordBefore, hto.head?_before hne, List.getLast?_eq_some_getLast hne]
      simpa using hw _ (List.getLast_mem hne)
    simp [Cursor.atWordEdge, hfirst, hlast]
  rw [word, List.mem_filter, literal, mem_exactly_iff]
  exact and_congr_right hedges

/-- What is read as a word somewhere on the way stands whole in what lay ahead. -/
theorem hasWord_of_reads {w : String} (hne : w.toList ≠ [])
    (hw : ∀ y ∈ w.toList, isWord y = true) {c d : Cursor} {passed : List Char}
    (hd : c.To passed d) (h : (word w).reads d = true) : HasWord w.toList c.after := by
  obtain ⟨r, hr⟩ := reads_iff.mp h
  obtain ⟨hto, hbefore, hafter⟩ := (mem_word_iff hne hw).mp hr
  refine ⟨passed, r.2.after, ?_, ?_, hafter⟩
  · rw [hd.ahead, hto.ahead]
  · cases passed with
    | nil => rfl
    | cons x xs => rwa [← hd.head?_before (List.cons_ne_nil x xs)]

end BigO.Scan.Scanner
