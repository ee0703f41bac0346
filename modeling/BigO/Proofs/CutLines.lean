-- A text without blocks loses no more than the ends of its marked lines. Cutting a line
-- brings no two characters together but the last one kept and the line feed, and no
-- mark has a line feed in it: so no block and no mark comes about, and one round is all.
import BigO.Proofs.PairedReturns
import BigO.Proofs.Places
import Mathlib.Data.List.Forall2

namespace BigO

open BigO.Text

namespace Comments

/-! ## A line up to its mark -/

/-- The second line is the first one up to its first mark, or all of it. -/
inductive CutAt (mark : List Char) : List Char → List Char → Prop where
  | unmarked {line : List Char} (h : ¬ mark <:+: line) : CutAt mark line line
  | marked {kept rest : List Char}
      (h : ∀ a b, kept ++ (mark ++ rest) = a ++ (mark ++ b) → kept.length ≤ a.length) :
      CutAt mark (kept ++ (mark ++ rest)) kept

/-- The line up to its first mark, or all of it. -/
def upToMark (mark : List Char) : List Char → List Char
  | [] => []
  | c :: cs => if mark.isPrefixOf (c :: cs) then [] else c :: upToMark mark cs

theorem cutAt_upToMark {mark : List Char} (hne : mark ≠ []) (line : List Char) :
    CutAt mark line (upToMark mark line) := by
  induction line with
  | nil => exact .unmarked fun h => hne (List.eq_nil_of_infix_nil h)
  | cons c cs ih =>
    unfold upToMark
    split
    · rename_i hpre
      obtain ⟨rest, hrest⟩ := List.isPrefixOf_iff_prefix.mp hpre
      rw [← hrest]
      have hfirst : ∀ a b, [] ++ (mark ++ rest) = a ++ (mark ++ b) → 0 ≤ a.length :=
        fun a b _ => Nat.zero_le _
      exact .marked hfirst
    · rename_i hpre
      rw [List.isPrefixOf_iff_prefix] at hpre
      generalize upToMark mark cs = kept at ih
      cases ih with
      | unmarked h =>
        refine .unmarked fun hinfix => ?_
        rcases List.infix_cons_iff.mp hinfix with hhead | htail
        · exact hpre hhead
        · exact h htail
      | @marked _ rest h =>
        have hfirst : ∀ a b, (c :: kept) ++ (mark ++ rest) = a ++ (mark ++ b) →
            (c :: kept).length ≤ a.length := by
          intro a b hab
          cases a with
          | nil => exact absurd ⟨b, hab.symm⟩ hpre
          | cons x a =>
            have hle := h a b (List.cons.inj hab).2
            simp only [List.length_cons]
            omega
        exact .marked hfirst

theorem sublist_upToMark (mark line : List Char) : (upToMark mark line).Sublist line := by
  induction line with
  | nil => exact .slnil
  | cons c cs ih =>
    unfold upToMark
    split
    · exact List.nil_sublist _
    · exact ih.cons_cons c

/-- A mark that does not start with a blank leaves the blank at the start of the line. -/
theorem CutAt.takeWhile {mark : List Char} (hmark : mark.head?.any (!isBlank ·) = true)
    {line kept : List Char} (h : CutAt mark line kept) :
    kept.takeWhile isBlank = line.takeWhile isBlank := by
  cases h with
  | unmarked => rfl
  | @marked _ rest _ =>
    have hstop : (mark ++ rest).takeWhile isBlank = [] := by
      cases mark with
      | nil => simp at hmark
      | cons m ms =>
        have hm : isBlank m = false := by simpa using hmark
        simp [hm]
    rw [List.takeWhile_append, hstop, List.append_nil]
    split
    · rename_i hlen
      exact (List.takeWhile_prefix isBlank).eq_of_length hlen
    · rfl

/-! ## All lines -/

theorem isPrefixOf_line {mark : List Char} (hmark : '\n' ∉ mark) {text line : List Char}
    {rest : List (List Char)} (hlines : lines text = line :: rest) :
    mark.isPrefixOf text = mark.isPrefixOf line := by
  have htail : ∃ tail, text = line ++ tail ∧ ∀ x ∈ tail.head?, x = '\n' := by
    have hjoin := joinLines_lines text
    rw [hlines] at hjoin
    cases rest with
    | nil => exact ⟨[], by simpa [joinLines] using hjoin.symm, by simp⟩
    | cons m ms => exact ⟨'\n' :: joinLines (m :: ms), hjoin.symm, by simp⟩
  obtain ⟨tail, rfl, hfeed⟩ := htail
  rw [Bool.eq_iff_iff, List.isPrefixOf_iff_prefix, List.isPrefixOf_iff_prefix]
  refine ⟨fun hpre => ?_, fun hpre => hpre.trans (List.prefix_append ..)⟩
  obtain ⟨w, hw⟩ := hpre
  rcases List.append_eq_append_iff.mp hw with ⟨more, hline, -⟩ | ⟨more, rfl, rfl⟩
  · exact ⟨more, hline.symm⟩
  · cases more with
    | nil => simp
    | cons x more =>
      obtain rfl := hfeed x rfl
      simp at hmark

/-- Cutting all along the text is cutting line by line. -/
theorem cutLines_eq {mark : List Char} (hmark : '\n' ∉ mark) {text line : List Char}
    {rest : List (List Char)} (hlines : lines text = line :: rest) :
    cutLines mark false text = joinLines (upToMark mark line :: rest.map (upToMark mark)) ∧
      cutLines mark true text = joinLines ([] :: rest.map (upToMark mark)) := by
  induction text generalizing line rest with
  | nil =>
    obtain ⟨rfl, rfl⟩ := List.cons.inj hlines
    exact ⟨rfl, rfl⟩
  | cons c cs ih =>
    obtain ⟨l, ls, hcs⟩ := List.exists_cons_of_ne_nil (lines_ne_nil cs)
    obtain ⟨hout, hin⟩ := ih hcs
    simp only [lines, hcs] at hlines
    by_cases hc : c = '\n'
    · rw [if_pos hc] at hlines
      obtain ⟨rfl, rfl⟩ := List.cons.inj hlines
      simp [cutLines, hc, hout, joinLines, upToMark]
    · rw [if_neg hc] at hlines
      have hline := (List.cons.inj hlines).1
      obtain rfl := (List.cons.inj hlines).2
      subst hline
      have hfirst : lines (c :: cs) = (c :: l) :: ls := by simp [lines, hc, hcs]
      have hpre : mark.isPrefixOf (c :: cs) = mark.isPrefixOf (c :: l) :=
        isPrefixOf_line hmark hfirst
      simp only [cutLines, if_neg hc, upToMark, hpre, hin, hout, Bool.true_or, if_true,
        Bool.false_or, and_true]
      split
      · rfl
      · rw [joinLines_cons_cons]

/-! ## What stands in a text with its lines cut -/

/-- Inside of a mark nothing is kept before the line feed. -/
theorem eq_nil_of_prefix_cutLines {mark w text : List Char} (hw : '\n' ∉ w)
    (h : w <+: cutLines mark true text) : w = [] := by
  induction text with
  | nil => exact List.prefix_nil.mp h
  | cons c cs ih =>
    simp only [cutLines, Bool.true_or, if_true] at h
    split at h
    · rename_i hc
      cases w with
      | nil => rfl
      | cons x w =>
        have hx := (List.cons_prefix_cons.mp h).1
        simp [hx, hc] at hw
    · exact ih h

/-- Whatever is kept at the start, within the line, stood at the start; the rest is cut on its
own. -/
theorem cutLines_eq_append {mark w v text : List Char} (hw : '\n' ∉ w)
    (h : cutLines mark false text = w ++ v) :
    ∃ rest, text = w ++ rest ∧ v = cutLines mark false rest := by
  induction w generalizing text with
  | nil => exact ⟨text, rfl, h.symm⟩
  | cons x w ih =>
    rw [List.mem_cons, not_or] at hw
    cases text with
    | nil => simp [cutLines] at h
    | cons c cs =>
      simp only [cutLines, Bool.false_or] at h
      split at h
      · rename_i hc
        exact absurd (hc.symm.trans (List.cons.inj h).1) hw.1
      · split at h
        · -- the mark would have taken what is kept
          have hnil := eq_nil_of_prefix_cutLines (w := [x]) (by simp [hw.1]) ⟨w ++ v, h.symm⟩
          simp at hnil
        · obtain ⟨rfl, hcs⟩ := List.cons.inj h
          obtain ⟨rest, rfl, hv⟩ := ih hw.2 hcs
          exact ⟨rest, rfl, hv⟩

/-- The end of a cut text is an end of the text, cut. -/
theorem exists_suffix_of_cutLines {mark t text : List Char} {inside : Bool}
    (h : t <:+ cutLines mark inside text) :
    ∃ rest inside', rest <:+ text ∧ t = cutLines mark inside' rest := by
  induction text generalizing inside with
  | nil => exact ⟨[], inside, List.suffix_refl _, List.suffix_nil.mp h⟩
  | cons c cs ih =>
    have hkept : cutLines mark inside (c :: cs) = c :: cutLines mark false cs →
        ∃ rest inside', rest <:+ c :: cs ∧ t = cutLines mark inside' rest := by
      intro heq
      rw [heq] at h
      rcases List.suffix_cons_iff.mp h with rfl | h
      · exact ⟨c :: cs, inside, List.suffix_refl _, heq.symm⟩
      · obtain ⟨rest, inside', hrest, ht⟩ := ih h
        exact ⟨rest, inside', hrest.trans (List.suffix_cons c cs), ht⟩
    by_cases hc : c = '\n'
    · exact hkept (by simp [cutLines, hc])
    · cases hmark : (inside || mark.isPrefixOf (c :: cs)) with
      | false => exact hkept (by simp [cutLines, hc, hmark])
      | true =>
        have hcut : cutLines mark inside (c :: cs) = cutLines mark true cs := by
          simp [cutLines, hc, hmark]
        rw [hcut] at h
        obtain ⟨rest, inside', hrest, ht⟩ := ih h
        exact ⟨rest, inside', hrest.trans (List.suffix_cons c cs), ht⟩

/-- What stands in a cut text, within a line, stood in the text before it was cut, and what
comes after it came after it. -/
theorem exists_append_of_cutLines {mark w u v text : List Char} (hne : w ≠ []) (hw : '\n' ∉ w)
    {inside : Bool} (h : cutLines mark inside text = u ++ (w ++ v)) :
    ∃ a b, text = a ++ (w ++ b) ∧ v = cutLines mark false b := by
  obtain ⟨rest, inside', hrest, hcut⟩ := exists_suffix_of_cutLines (t := w ++ v) ⟨u, h.symm⟩
  have hout : inside' = false := by
    cases inside' with
    | false => rfl
    | true => exact absurd (eq_nil_of_prefix_cutLines hw ⟨v, hcut⟩) hne
  subst hout
  obtain ⟨b, rfl, hv⟩ := cutLines_eq_append hw hcut.symm
  obtain ⟨a, ha⟩ := hrest
  exact ⟨a, b, ha.symm, hv⟩

/-- Cutting lines brings no block about. -/
theorem noBlock_cutLines {opening closing text : List Char} (hopening : Unbroken opening)
    (hclosing : Unbroken closing) (h : NoBlock opening closing text) (mark : List Char) :
    NoBlock opening closing (cutLines mark false text) := by
  rintro inner ⟨u, v, huv⟩
  have hopen : cutLines mark false text = u ++ (opening ++ (inner ++ (closing ++ v))) := by
    rw [← huv]
    simp
  obtain ⟨a, b, rfl, hb⟩ := exists_append_of_cutLines hopening.1 hopening.2.2 hopen
  obtain ⟨inner', after, rfl, -⟩ := exists_append_of_cutLines hclosing.1 hclosing.2.2 hb.symm
  exact h inner' ⟨a, after, by simp⟩

/-- No mark is left in a text whose lines are cut. -/
theorem not_infix_cutLines {mark : List Char} (hmark : Unbroken mark) (text : List Char) :
    ¬ mark <:+: cutLines mark false text := by
  rintro ⟨u, v, huv⟩
  rw [List.append_assoc] at huv
  obtain ⟨rest, inside, -, hcut⟩ := exists_suffix_of_cutLines (t := mark ++ v) ⟨u, huv⟩
  have htrue : ∃ more, cutLines mark inside rest = cutLines mark true more := by
    cases inside with
    | true => exact ⟨rest, rfl⟩
    | false =>
      -- the mark stands at the start, so it is not kept
      obtain ⟨b, rfl, -⟩ := cutLines_eq_append hmark.2.2 hcut.symm
      obtain ⟨m, ms, rfl⟩ := List.exists_cons_of_ne_nil hmark.1
      have hm : m ≠ '\n' := fun h => hmark.2.2 (h ▸ List.mem_cons_self ..)
      have hpre : (m :: ms).isPrefixOf (m :: (ms ++ b)) = true :=
        List.isPrefixOf_iff_prefix.mpr ⟨b, rfl⟩
      refine ⟨ms ++ b, ?_⟩
      rw [List.cons_append, cutLines, if_neg hm, hpre]
      rfl
  obtain ⟨more, hmore⟩ := htrue
  exact hmark.1 (eq_nil_of_prefix_cutLines hmark.2.2 ⟨v, hcut.trans hmore⟩)

/-! ## One round is enough -/

theorem strip_eq_sweep {style : CommentStyle} {text : List Char}
    (h : sweep style (sweep style text) = sweep style text) :
    strip style text = sweep style text := by
  have hstable : ∀ rounds, settle style rounds (sweep style text) = sweep style text := by
    intro rounds
    cases rounds with
    | zero => rfl
    | succ n => simp [settle, h]
  unfold strip
  cases text with
  | nil => exact (List.sublist_nil.mp (sublist_sweep style [])).symm
  | cons c cs =>
    rw [List.length_cons, settle]
    split
    · rename_i hsame
      exact hsame.symm
    · exact hstable _

/-- A text has no block of a style. -/
def HasNoBlock (style : CommentStyle) (text : List Char) : Prop :=
  ∀ marks ∈ style.blocks, NoBlock marks.1 marks.2 text

theorem sweep_of_hasNoBlock {style : CommentStyle} (hstyle : UnbrokenStyle style)
    {text : List Char} (h : HasNoBlock style text) :
    sweep style text = cutLines style.line false text := by
  have hblocks : style.blocks.foldl (fun t marks => dropBlocks marks.1 marks.2 0 t) text = text :=
    (foldl_dropBlocks_eq_self_iff style.blocks text).mpr fun marks hmarks =>
      (dropBlocks_eq_self_iff _ _ text (hstyle.2 marks hmarks).1.1).mpr (h marks hmarks)
  rw [sweep, hblocks]

/-- A text without blocks is cut line by line, and that is all. -/
theorem strip_of_hasNoBlock {style : CommentStyle} (hstyle : UnbrokenStyle style)
    {text : List Char} (h : HasNoBlock style text) :
    strip style text = cutLines style.line false text := by
  have hcut : HasNoBlock style (cutLines style.line false text) := fun marks hmarks =>
    noBlock_cutLines (hstyle.2 marks hmarks).1 (hstyle.2 marks hmarks).2 (h marks hmarks) _
  have hagain : cutLines style.line false (cutLines style.line false text) =
      cutLines style.line false text := by
    obtain ⟨x, rest, hx⟩ := List.exists_cons_of_ne_nil hstyle.1.1
    have hfeed : x ≠ '\n' := fun h => hstyle.1.2.2 (by simp [hx, h])
    have hmark := not_infix_cutLines hstyle.1 text
    rw [hx] at hmark ⊢
    exact (cutLines_eq_self_iff x rest _ hfeed).mpr hmark
  have hsweep := sweep_of_hasNoBlock hstyle h
  rw [← hsweep]
  apply strip_eq_sweep
  rw [hsweep, sweep_of_hasNoBlock hstyle hcut, hagain]

end Comments

/-! ## The law -/

open Comments

/-- The mark after which the rest of a line is ignored does not start with a blank. -/
theorem Language.line_not_blank (lang : Language) :
    lang.profile.comments.line.head?.any (!isBlank ·) = true := by
  cases lang <;> decide

theorem lines_withoutComments (lang : Language) {text : List Char}
    (h : HasNoBlock lang.profile.comments text) :
    lines (lang.withoutComments text) =
      (lines text).map (upToMark lang.profile.comments.line) := by
  have hstyle := unbrokenStyle_profile lang
  obtain ⟨line, rest, hlines⟩ := List.exists_cons_of_ne_nil (lines_ne_nil text)
  have hcut := (cutLines_eq hstyle.1.2.2 hlines).1
  rw [Language.withoutComments, strip_of_hasNoBlock hstyle h, hcut, ← List.map_cons, ← hlines]
  apply lines_joinLines
  · simp [hlines]
  · intro kept hkept hfeed
    obtain ⟨l, hl, rfl⟩ := List.mem_map.mp hkept
    exact lines_no_break text l hl ((sublist_upToMark _ l).subset hfeed)

/-- For every language and every text without a block: taking comments out cuts each line at
its first mark. There are as many lines as before, and each starts with the same blank. -/
theorem withoutComments_cuts_lines (lang : Language) (text : List Char)
    (h : HasNoBlock lang.profile.comments text) :
    let stripped := lang.withoutComments text
    List.Forall₂ (CutAt lang.profile.comments.line) (lines text) (lines stripped) ∧
      stripped = joinLines (lines stripped) ∧
      (lines stripped).length = (lines text).length ∧
      (lines stripped).map (·.takeWhile isBlank) = (lines text).map (·.takeWhile isBlank) := by
  intro stripped
  have hcut : ∀ l, CutAt lang.profile.comments.line l (upToMark lang.profile.comments.line l) :=
    cutAt_upToMark (unbrokenStyle_profile lang).1.1
  have hlines : lines stripped = (lines text).map (upToMark lang.profile.comments.line) :=
    lines_withoutComments lang h
  refine ⟨?_, (joinLines_lines stripped).symm, ?_, ?_⟩
  · rw [hlines, List.forall₂_map_right_iff]
    exact List.forall₂_same.mpr fun l _ => hcut l
  · simp [hlines]
  · simp only [hlines, List.map_map]
    apply List.map_congr_left
    intro l _
    exact (hcut l).takeWhile lang.line_not_blank

/-- Two openings that nothing closes, one of them behind a mark, a line that is nothing but a
mark, and a break that ends no line. -/
def markedLines : List Char :=
  "\tx = '''a # b\n  # \"\"\" c\n#\n y\u2028# z".toList

theorem withoutComments_cuts_lines_markedLines :
    HasNoBlock Language.python.profile.comments markedLines ∧
      Language.python.withoutComments markedLines = "\tx = '''a \n  \n\n y\u2028".toList ∧
      (lines (Language.python.withoutComments markedLines)).length = 4 := by
  have hblocks : HasNoBlock Language.python.profile.comments markedLines := by
    have hnone : ∀ marks ∈ Language.python.profile.comments.blocks,
        marks.1 ≠ [] ∧ dropBlocks marks.1 marks.2 0 markedLines = markedLines := by decide +kernel
    intro marks hmarks
    obtain ⟨hne, hsame⟩ := hnone marks hmarks
    exact (dropBlocks_eq_self_iff _ _ _ hne).mp hsame
  refine ⟨hblocks, by decide +kernel, ?_⟩
  rw [(withoutComments_cuts_lines .python markedLines hblocks).2.2.1]
  decide +kernel

end BigO
