-- Texts without comments, said by what stands in them. The removal stops at
-- such a text, leaves such a text alone, and leaves no other text alone, so an
-- analysis of the text sees the same whether or not the comments are gone.
import BigO.Analyzer
import Mathlib.Data.List.Basic
import Mathlib.Logic.Function.Iterate

namespace BigO

/-! ## Texts without comments -/

/-- No opening mark stands in the text with a closing mark anywhere after its end. -/
def NoBlock (opening closing text : List Char) : Prop :=
  ∀ inner, ¬ opening ++ inner ++ closing <:+: text

/-- The text has no comment of the language in it. -/
def Language.IsCommentFree : Language → List Char → Prop
  | .python, text =>
    ¬ "#".toList <:+: text ∧ NoBlock "\"\"\"".toList "\"\"\"".toList text ∧
      NoBlock "'''".toList "'''".toList text
  | .java, text | .c, text => ¬ "//".toList <:+: text ∧ NoBlock "/*".toList "*/".toList text

namespace Comments

/-! ## One kind of block -/

theorem lengthThrough?_eq_none {mark text : List Char} :
    lengthThrough? mark text = none ↔ ¬ mark <:+: text := by
  induction text with
  | nil => simp [lengthThrough?]
  | cons c cs ih =>
    rw [lengthThrough?, List.infix_cons_iff, ← List.isPrefixOf_iff_prefix]
    by_cases hmark : mark.isPrefixOf (c :: cs) = true
    · simp [hmark]
    · simp [hmark, ih]

/-- A text does not start with a block if no closing mark follows the opening one. -/
theorem blockLength?_eq_none {opening closing text : List Char} :
    blockLength? opening closing text = none ↔
      ∀ inner, ¬ opening ++ inner ++ closing <+: text := by
  unfold blockLength?
  by_cases hopen : opening.isPrefixOf text = true
  · obtain ⟨rest, rfl⟩ := List.isPrefixOf_iff_prefix.mp hopen
    rw [if_pos hopen, Option.map_eq_none_iff, List.drop_left, lengthThrough?_eq_none]
    simp only [List.append_assoc, List.prefix_append_right_inj]
    constructor
    · rintro hnone inner ⟨after, rfl⟩
      exact hnone ⟨inner, after, rfl⟩
    · rintro hnone ⟨inner, after, rfl⟩
      exact hnone inner ⟨after, rfl⟩
  · rw [if_neg hopen]
    refine iff_of_true rfl fun inner hpre => hopen (List.isPrefixOf_iff_prefix.mpr ?_)
    rw [List.append_assoc] at hpre
    exact (List.prefix_append _ _).trans hpre

/-- Blocks are taken out of every text that has one. -/
theorem dropBlocks_eq_self_iff (opening closing text : List Char) (hopen : opening ≠ []) :
    dropBlocks opening closing 0 text = text ↔ NoBlock opening closing text := by
  induction text with
  | nil =>
    refine iff_of_true rfl fun inner hinfix => hopen ?_
    have hnil := List.eq_nil_of_infix_nil hinfix
    simp only [List.append_eq_nil_iff] at hnil
    exact hnil.1.1
  | cons c cs ih =>
    have hcons : NoBlock opening closing (c :: cs) ↔
        (∀ inner, ¬ opening ++ inner ++ closing <+: c :: cs) ∧ NoBlock opening closing cs := by
      simp only [NoBlock, List.infix_cons_iff, not_or, forall_and]
    rw [hcons, ← blockLength?_eq_none, dropBlocks]
    cases hlen : blockLength? opening closing (c :: cs) with
    | none => simp [ih]
    | some n =>
      simp only [reduceCtorEq, false_and, iff_false]
      -- what is left of a block is shorter than the text
      intro heq
      have hle := (sublist_dropBlocks opening closing cs (n - 1)).length_le
      rw [heq, List.length_cons] at hle
      omega

/-! ## Marked lines -/

/-- Lines are cut in every text that has the mark. -/
theorem cutLines_eq_self_iff (x : Char) (rest text : List Char) (hx : x ≠ '\n') :
    cutLines (x :: rest) false text = text ↔ ¬ x :: rest <:+: text := by
  induction text with
  | nil => simp [cutLines]
  | cons c cs ih =>
    rw [List.infix_cons_iff, not_or, ← List.isPrefixOf_iff_prefix, cutLines]
    by_cases hc : c = '\n'
    · simp [hc, hx, ih]
    · rw [if_neg hc]
      cases hpre : (x :: rest).isPrefixOf (c :: cs) with
      | false => simp [ih]
      | true =>
        simp only [Bool.or_true, if_true, not_true_eq_false, false_and, iff_false]
        intro heq
        have hle := (sublist_cutLines (x :: rest) cs true).length_le
        rw [heq, List.length_cons] at hle
        omega

/-! ## One round -/

theorem sublist_foldl_dropBlocks (blocks : List (List Char × List Char)) (text : List Char) :
    (blocks.foldl (fun t marks => dropBlocks marks.1 marks.2 0 t) text).Sublist text := by
  induction blocks generalizing text with
  | nil => exact List.Sublist.refl text
  | cons marks blocks ih => exact (ih _).trans (sublist_dropBlocks _ _ _ _)

theorem sublist_sweep (style : CommentStyle) (text : List Char) :
    (sweep style text).Sublist text :=
  (sublist_cutLines _ _ _).trans (sublist_foldl_dropBlocks _ _)

/-- Blocks of all kinds are gone only if those of each kind are: what one kind has
taken out never comes back. -/
theorem foldl_dropBlocks_eq_self_iff (blocks : List (List Char × List Char)) (text : List Char) :
    blocks.foldl (fun t marks => dropBlocks marks.1 marks.2 0 t) text = text ↔
      ∀ marks ∈ blocks, dropBlocks marks.1 marks.2 0 text = text := by
  induction blocks with
  | nil => simp
  | cons marks blocks ih =>
    rw [List.foldl_cons, List.forall_mem_cons]
    constructor
    · intro heq
      have hback := sublist_foldl_dropBlocks blocks (dropBlocks marks.1 marks.2 0 text)
      rw [heq] at hback
      have hfirst := (sublist_dropBlocks marks.1 marks.2 text 0).antisymm hback
      rw [hfirst] at heq
      exact ⟨hfirst, ih.mp heq⟩
    · rintro ⟨hfirst, hrest⟩
      rw [hfirst]
      exact ih.mpr hrest

/-- A round leaves a text alone if each of its parts does. -/
theorem sweep_eq_self_iff (style : CommentStyle) (text : List Char) :
    sweep style text = text ↔
      cutLines style.line false text = text ∧
        ∀ marks ∈ style.blocks, dropBlocks marks.1 marks.2 0 text = text := by
  rw [← foldl_dropBlocks_eq_self_iff]
  unfold sweep
  constructor
  · intro heq
    have hback := sublist_cutLines style.line
      (style.blocks.foldl (fun t marks => dropBlocks marks.1 marks.2 0 t) text) false
    rw [heq] at hback
    have hblocks := (sublist_foldl_dropBlocks style.blocks text).antisymm hback
    rw [hblocks] at heq
    exact ⟨heq, hblocks⟩
  · rintro ⟨hlines, hblocks⟩
    rw [hblocks, hlines]

/-- The texts that a round leaves alone are those without comments. -/
theorem sweep_eq_self_iff_isCommentFree (lang : Language) (text : List Char) :
    sweep lang.profile.comments text = text ↔ lang.IsCommentFree text := by
  rw [sweep_eq_self_iff]
  cases lang with
  | python =>
    have hline := cutLines_eq_self_iff '#' [] text (by decide)
    have hdouble := dropBlocks_eq_self_iff "\"\"\"".toList "\"\"\"".toList text (by decide)
    have hsingle := dropBlocks_eq_self_iff "'''".toList "'''".toList text (by decide)
    rw [Language.IsCommentFree, ← hdouble, ← hsingle]
    refine and_congr hline ?_
    simp [Language.profile, CommentStyle.hash]
  | java | c =>
    have hline := cutLines_eq_self_iff '/' ['/'] text (by decide)
    have hblock := dropBlocks_eq_self_iff "/*".toList "*/".toList text (by decide)
    rw [Language.IsCommentFree, ← hblock]
    refine and_congr hline ?_
    simp [Language.profile, CommentStyle.slash]

/-! ## Round after round -/

/-- A round that changes a text makes it shorter. -/
theorem length_sweep_lt {style : CommentStyle} {text : List Char} (h : sweep style text ≠ text) :
    (sweep style text).length < text.length := by
  have hsub := sublist_sweep style text
  exact Nat.lt_of_le_of_ne hsub.length_le fun hlen => h (hsub.eq_of_length hlen)

/-- As many rounds as the text has characters are enough: they come to a text that
one more round leaves alone, each round before it having changed something. -/
theorem settle_eq_iterate (style : CommentStyle) (rounds : Nat) (text : List Char)
    (h : text.length ≤ rounds) :
    ∃ n, settle style rounds text = (sweep style)^[n] text ∧
      sweep style (settle style rounds text) = settle style rounds text ∧
      ∀ k < n, (sweep style)^[k + 1] text ≠ (sweep style)^[k] text := by
  induction rounds generalizing text with
  | zero =>
    have hnil : text = [] := List.eq_nil_of_length_eq_zero (Nat.le_zero.mp h)
    subst hnil
    exact ⟨0, rfl, List.sublist_nil.mp (sublist_sweep style []), by simp⟩
  | succ rounds ih =>
    by_cases hswept : sweep style text = text
    · have hsettle : settle style (rounds + 1) text = text := by simp [settle, hswept]
      exact ⟨0, hsettle, by rw [hsettle, hswept], by simp⟩
    · have hlt := length_sweep_lt hswept
      have hsettle : settle style (rounds + 1) text = settle style rounds (sweep style text) := by
        simp [settle, hswept]
      obtain ⟨n, hn, hstable, hchange⟩ := ih (sweep style text) (by omega)
      refine ⟨n + 1, hsettle.trans hn, by rw [hsettle, hstable], ?_⟩
      intro k hk
      cases k with
      | zero => exact hswept
      | succ k => exact hchange k (by omega)

theorem sublist_iterate_sweep (style : CommentStyle) (n : Nat) (text : List Char) :
    ((sweep style)^[n] text).Sublist text := by
  induction n generalizing text with
  | zero => exact List.Sublist.refl text
  | succ n ih => exact (ih _).trans (sublist_sweep style text)

theorem strip_of_sweep_eq_self {style : CommentStyle} {text : List Char}
    (h : sweep style text = text) : strip style text = text := by
  unfold strip
  cases text.length with
  | zero => rfl
  | succ n => simp [settle, h]

end Comments

/-! ## The law -/

open Comments

/-- For every language and text: some number of rounds, each of which changes the text,
comes to the text without its comments, which one more round leaves alone. That text
is part of the text, in order; it is the text itself just if that has no comment; and it
never has one. So taking comments out again does nothing, and an analysis of
the text finds what it finds once they are out. -/
theorem withoutComments_normal_form (lang : Language) (text : List Char) :
    let round := sweep lang.profile.comments
    let stripped := lang.withoutComments text
    (∃ n, stripped = round^[n] text ∧ round stripped = stripped ∧
        ∀ k < n, round^[k + 1] text ≠ round^[k] text) ∧
      stripped.Sublist text ∧
      (stripped = text ↔ lang.IsCommentFree text) ∧
      lang.IsCommentFree stripped ∧
      lang.withoutComments stripped = stripped ∧
      Lexical.signals lang (String.ofList stripped) =
        Lexical.signals lang (String.ofList text) ∧
      ∀ tag, Language.ofTag tag = lang →
        Analyzer.byText (some (String.ofList stripped)) tag =
          Analyzer.byText (some (String.ofList text)) tag := by
  intro round stripped
  obtain ⟨n, hn, hstable, hchange⟩ :=
    settle_eq_iterate lang.profile.comments text.length text (Nat.le_refl _)
  have hstripped : stripped = round^[n] text := hn
  have hround : round stripped = stripped := hstable
  have hagain : lang.withoutComments stripped = stripped := strip_of_sweep_eq_self hround
  have hsignals : Lexical.signals lang (String.ofList stripped) =
      Lexical.signals lang (String.ofList text) := by
    unfold Lexical.signals
    rw [String.toList_ofList, String.toList_ofList, hagain]
  refine ⟨⟨n, hstripped, hround, hchange⟩, ?_, ?_, ?_, hagain, hsignals, ?_⟩
  · rw [hstripped]
    exact sublist_iterate_sweep _ n text
  · rw [← sweep_eq_self_iff_isCommentFree]
    constructor
    · intro heq
      rwa [heq] at hround
    · exact strip_of_sweep_eq_self
  · exact (sweep_eq_self_iff_isCommentFree lang stripped).mp hround
  · rintro tag rfl
    unfold Analyzer.byText Lexical.estimate Analyzer.textOf
    simp only [Option.getD_some, hsignals]

-- a block whose removal brings the halves of a line mark together
example : Language.c.withoutComments "a//**//b\nc".toList = "a\nc".toList := by decide +kernel

end BigO
