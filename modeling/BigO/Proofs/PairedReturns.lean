-- Carriage returns before line feeds. A text that has them and the text without
-- them have the same lines, up to a blank at the end of a line, and lose the
-- same comments.
import BigO.Proofs.CommentFree

namespace BigO.Text

/-! ## Texts with returns -/

/-- The text without its carriage returns. -/
def bare (text : List Char) : List Char :=
  text.filter (· != '\r')

/-- The text with a carriage return before every line feed. -/
def withReturns (text : List Char) : List Char :=
  text.flatMap fun c => if c = '\n' then ['\r', '\n'] else [c]

/-- Every carriage return has a line feed after it. -/
def Paired (text : List Char) : Prop :=
  ∀ rest, '\r' :: rest <:+ text → rest.head? = some '\n'

/-- The text is the start of one with paired returns: it may stop between a return
and its line feed. -/
def PairedSoFar (text : List Char) : Prop :=
  ∃ more, Paired (text ++ more)

@[simp]
theorem bare_nil : bare [] = [] := rfl

@[simp]
theorem bare_return (text : List Char) : bare ('\r' :: text) = bare text := rfl

theorem bare_cons {c : Char} (h : c ≠ '\r') (text : List Char) :
    bare (c :: text) = c :: bare text :=
  List.filter_cons_of_pos (by simpa using h)

@[simp]
theorem bare_feed (text : List Char) : bare ('\n' :: text) = '\n' :: bare text := rfl

theorem bare_append (a b : List Char) : bare (a ++ b) = bare a ++ bare b :=
  List.filter_append ..

theorem bare_reverse (text : List Char) : bare text.reverse = (bare text).reverse :=
  List.filter_reverse ..

theorem bare_eq_self {text : List Char} (h : '\r' ∉ text) : bare text = text := by
  refine List.filter_eq_self.mpr fun c hc => ?_
  rw [bne_iff_ne]
  rintro rfl
  exact h hc

theorem mem_bare {c : Char} (hc : c ≠ '\r') {text : List Char} : c ∈ bare text ↔ c ∈ text := by
  simp [bare, hc]

theorem paired_cons {c : Char} {text : List Char} :
    Paired (c :: text) ↔ (c = '\r' → text.head? = some '\n') ∧ Paired text := by
  simp only [Paired, List.suffix_cons_iff, List.cons.injEq]
  constructor
  · intro h
    exact ⟨fun hc => h text (.inl ⟨hc.symm, rfl⟩), fun rest hrest => h rest (.inr hrest)⟩
  · rintro ⟨hfirst, hrest⟩ rest (⟨hc, rfl⟩ | hsuffix)
    · exact hfirst hc.symm
    · exact hrest rest hsuffix

theorem Paired.suffix {a b : List Char} (h : Paired b) (hab : a <:+ b) : Paired a :=
  fun rest hrest => h rest (hrest.trans hab)

theorem Paired.soFar {text : List Char} (h : Paired text) : PairedSoFar text :=
  ⟨[], by rwa [List.append_nil]⟩

theorem PairedSoFar.isInfix {a b : List Char} (h : PairedSoFar b) (hab : a <:+: b) :
    PairedSoFar a := by
  obtain ⟨x, y, rfl⟩ := hab
  obtain ⟨more, h⟩ := h
  exact ⟨y ++ more, h.suffix ⟨x, by simp⟩⟩

/-- After a return comes a line feed, unless the text stops there. -/
theorem PairedSoFar.of_return {rest : List Char} (h : PairedSoFar ('\r' :: rest)) :
    rest = [] ∨ ∃ more, rest = '\n' :: more := by
  obtain ⟨more, h⟩ := h
  have hhead := (paired_cons.mp h).1 rfl
  cases rest with
  | nil => exact .inl rfl
  | cons c cs =>
    have hc : c = '\n' := Option.some.inj hhead
    exact .inr ⟨cs, by rw [hc]⟩

theorem PairedSoFar.tail {c : Char} {text : List Char} (h : PairedSoFar (c :: text)) :
    PairedSoFar text :=
  h.isInfix (List.suffix_cons c text).isInfix

theorem paired_withReturns {text : List Char} (h : '\r' ∉ text) : Paired (withReturns text) := by
  induction text with
  | nil => intro rest hrest; simp [withReturns] at hrest
  | cons c cs ih =>
    rw [List.mem_cons, not_or] at h
    have hcs : Paired (withReturns cs) := ih h.2
    rw [withReturns, List.flatMap_cons]
    split
    · exact paired_cons.mpr ⟨fun _ => rfl, paired_cons.mpr ⟨fun hc => absurd hc (by decide), hcs⟩⟩
    · exact paired_cons.mpr ⟨fun hc => absurd hc.symm h.1, hcs⟩

theorem bare_withReturns {text : List Char} (h : '\r' ∉ text) :
    bare (withReturns text) = text := by
  induction text with
  | nil => rfl
  | cons c cs ih =>
    rw [List.mem_cons, not_or] at h
    have hcs : bare (withReturns cs) = cs := ih h.2
    rw [withReturns, List.flatMap_cons, bare_append]
    change _ ++ bare (withReturns cs) = _
    rw [hcs]
    split
    · rename_i hc
      rw [hc]
      rfl
    · rw [bare_cons (Ne.symm h.1)]
      rfl

/-- A text on one line, and not empty. -/
def Unbroken (text : List Char) : Prop :=
  text ≠ [] ∧ '\r' ∉ text ∧ '\n' ∉ text

instance (text : List Char) : Decidable (Unbroken text) :=
  inferInstanceAs (Decidable (_ ∧ _))

/-! ## Runs of a class -/

/-- A class that has returns runs on over them. -/
theorem takeWhile_bare_of_return {p : Char → Bool} (hp : p '\r' = true) (text : List Char) :
    (bare text).takeWhile p = bare (text.takeWhile p) := by
  induction text with
  | nil => rfl
  | cons c cs ih =>
    by_cases hc : c = '\r'
    · subst hc
      rw [bare_return, List.takeWhile_cons_of_pos hp, bare_return, ih]
    · rw [bare_cons hc, List.takeWhile_cons, List.takeWhile_cons]
      split
      · rw [bare_cons hc, ih]
      · rfl

theorem dropWhile_bare_of_return {p : Char → Bool} (hp : p '\r' = true) (text : List Char) :
    (bare text).dropWhile p = bare (text.dropWhile p) := by
  induction text with
  | nil => rfl
  | cons c cs ih =>
    by_cases hc : c = '\r'
    · subst hc
      rw [bare_return, List.dropWhile_cons_of_pos hp, ih]
    · rw [bare_cons hc, List.dropWhile_cons, List.dropWhile_cons]
      split
      · exact ih
      · rw [bare_cons hc]

/-- A class stops at a return and at its line feed, or passes over both, or over the
return alone: in the bare text it runs as far. -/
theorem takeWhile_bare {p : Char → Bool} (hp : p '\n' = true → p '\r' = true) {text : List Char}
    (h : PairedSoFar text) : (bare text).takeWhile p = bare (text.takeWhile p) := by
  cases hr : p '\r' with
  | true => exact takeWhile_bare_of_return hr text
  | false =>
    have hn : p '\n' = false := by
      rw [Bool.eq_false_iff]
      intro hn
      rw [hp hn] at hr
      exact Bool.noConfusion hr
    induction text with
    | nil => rfl
    | cons c cs ih =>
      by_cases hc : c = '\r'
      · subst hc
        rw [bare_return, List.takeWhile_cons_of_neg (by simp [hr])]
        rcases h.of_return with rfl | ⟨more, rfl⟩
        · rfl
        · rw [bare_feed, List.takeWhile_cons_of_neg (by simp [hn])]
          rfl
      · rw [bare_cons hc, List.takeWhile_cons, List.takeWhile_cons]
        split
        · rw [bare_cons hc, ih h.tail]
        · rfl

theorem dropWhile_bare {p : Char → Bool} (hp : p '\n' = true → p '\r' = true) {text : List Char}
    (h : PairedSoFar text) : (bare text).dropWhile p = bare (text.dropWhile p) := by
  have hcut := takeWhile_bare hp h
  have hwhole := List.takeWhile_append_dropWhile (p := p) (l := bare text)
  rw [hcut] at hwhole
  have hbare : bare (text.takeWhile p) ++ bare (text.dropWhile p) = bare text := by
    rw [← bare_append, List.takeWhile_append_dropWhile]
  exact List.append_cancel_left (hwhole.trans hbare.symm)

/-! ## Lines -/

theorem lines_bare (text : List Char) : lines (bare text) = (lines text).map bare := by
  induction text with
  | nil => rfl
  | cons c cs ih =>
    obtain ⟨l, ls, hls⟩ := List.exists_cons_of_ne_nil (lines_ne_nil cs)
    by_cases hc : c = '\r'
    · subst hc
      rw [bare_return, ih, lines, if_neg (by decide), hls]
      rfl
    · rw [bare_cons hc, lines, lines, ih, hls]
      split
      · rfl
      · rw [List.map_cons, List.map_cons, bare_cons hc]

theorem joinLines_map_bare (ls : List (List Char)) :
    joinLines (ls.map bare) = bare (joinLines ls) := by
  induction ls with
  | nil => rfl
  | cons l ls ih =>
    cases ls with
    | nil => rfl
    | cons m ms =>
      rw [List.map_cons] at ih
      rw [List.map_cons, List.map_cons, joinLines, ih, joinLines, bare_append, bare_feed]

theorem isBlankText_bare (text : List Char) : isBlankText (bare text) = isBlankText text := by
  induction text with
  | nil => rfl
  | cons c cs ih =>
    by_cases hc : c = '\r'
    · subst hc
      rw [bare_return, ih]
      rfl
    · simp only [isBlankText, bare_cons hc, List.all_cons] at ih ⊢
      rw [ih]

/-- A line has no return, or one at its end. -/
theorem eq_bare_or_snoc {line : List Char} (h : PairedSoFar line) (hline : '\n' ∉ line) :
    line = bare line ∨ line = bare line ++ ['\r'] := by
  induction line with
  | nil => exact .inl rfl
  | cons c cs ih =>
    rw [List.mem_cons, not_or] at hline
    by_cases hc : c = '\r'
    · subst hc
      rcases h.of_return with rfl | ⟨more, rfl⟩
      · exact .inr rfl
      · exact absurd (List.mem_cons_self ..) hline.2
    · rw [bare_cons hc, List.cons_append]
      exact (ih h.tail hline.2).imp (congrArg (c :: ·)) (congrArg (c :: ·))

theorem trimEnd_snoc {b : Char} (hb : isBlank b = true) (text : List Char) :
    trimEnd (text ++ [b]) = trimEnd text := by
  rw [trimEnd, List.reverse_concat, List.dropWhile_cons_of_pos hb, trimEnd]

theorem trim_snoc {b : Char} (hb : isBlank b = true) (text : List Char) :
    trim (text ++ [b]) = trim text := by
  have hstart : trimStart (text ++ [b]) = [] ∧ trimStart text = [] ∨
      trimStart (text ++ [b]) = trimStart text ++ [b] := by
    unfold trimStart
    rw [List.dropWhile_append]
    split
    · rename_i hnil
      exact .inl ⟨List.dropWhile_cons_of_pos hb, List.isEmpty_iff.mp hnil⟩
    · exact .inr rfl
  unfold trim
  rcases hstart with ⟨hsnoc, hnil⟩ | hsnoc
  · rw [hsnoc, hnil]
  · rw [hsnoc, trimEnd_snoc hb]

theorem indentWidth_snoc {b : Char} {text : List Char} (h : isBlankText text = false) :
    indentWidth (text ++ [b]) = indentWidth text := by
  unfold indentWidth
  rw [List.takeWhile_append, if_neg]
  intro hall
  have hblank : text.takeWhile isBlank = text := (List.takeWhile_prefix isBlank).eq_of_length hall
  have htrue : isBlankText text = true := by
    rw [isBlankText, ← hblank]
    exact List.all_takeWhile
  rw [htrue] at h
  exact Bool.noConfusion h

section Line

variable {line : List Char} (h : PairedSoFar line) (hline : '\n' ∉ line)

include h hline

theorem trim_bare : trim (bare line) = trim line := by
  rcases eq_bare_or_snoc h hline with heq | heq
  · rw [← heq]
  · conv_rhs => rw [heq]
    rw [trim_snoc (by decide)]

theorem indentWidth_bare (hblank : isBlankText line = false) :
    indentWidth (bare line) = indentWidth line := by
  rcases eq_bare_or_snoc h hline with heq | heq
  · rw [← heq]
  · conv_rhs => rw [heq]
    rw [indentWidth_snoc (by rwa [isBlankText_bare])]

end Line

end BigO.Text

/-! ## Comments -/

namespace BigO.Comments

open BigO.Text

/-- A style whose marks are all written without line breaks. -/
def UnbrokenStyle (style : CommentStyle) : Prop :=
  Unbroken style.line ∧ ∀ marks ∈ style.blocks, Unbroken marks.1 ∧ Unbroken marks.2

theorem unbrokenStyle_profile (lang : Language) : UnbrokenStyle lang.profile.comments := by
  cases lang
  all_goals exact ⟨by decide, by decide⟩

/-- No mark starts at a line break. -/
theorem isPrefixOf_break {mark cs : List Char} {c : Char} (hmark : Unbroken mark)
    (hc : c = '\r' ∨ c = '\n') : mark.isPrefixOf (c :: cs) = false := by
  obtain ⟨m, ms, rfl⟩ := List.exists_cons_of_ne_nil hmark.1
  have hm : m ≠ c := by
    rintro rfl
    rcases hc with rfl | rfl
    · exact hmark.2.1 (List.mem_cons_self ..)
    · exact hmark.2.2 (List.mem_cons_self ..)
  simp [List.isPrefixOf, hm]

theorem isPrefixOf_bare {mark text : List Char} (hmark : '\r' ∉ mark ∧ '\n' ∉ mark)
    (h : PairedSoFar text) : mark.isPrefixOf (bare text) = mark.isPrefixOf text := by
  induction mark generalizing text with
  | nil => simp
  | cons m ms ih =>
    simp only [List.mem_cons, not_or] at hmark
    obtain ⟨⟨hr, hrs⟩, hn, hns⟩ := hmark
    cases text with
    | nil => rfl
    | cons c cs =>
      by_cases hc : c = '\r'
      · subst hc
        have hfalse : (m :: ms).isPrefixOf ('\r' :: cs) = false := by
          simp [List.isPrefixOf, Ne.symm hr]
        rw [bare_return, hfalse]
        rcases h.of_return with rfl | ⟨more, rfl⟩
        · rfl
        · simp [List.isPrefixOf, Ne.symm hn]
      · rw [bare_cons hc, List.isPrefixOf, List.isPrefixOf, ih ⟨hrs, hns⟩ h.tail]

/-- What follows a mark that the text starts with is the same without returns. -/
theorem drop_bare_of_isPrefixOf {mark text : List Char} (hmark : '\r' ∉ mark)
    (h : mark.isPrefixOf text = true) :
    (bare text).drop mark.length = bare (text.drop mark.length) := by
  obtain ⟨rest, rfl⟩ := List.isPrefixOf_iff_prefix.mp h
  rw [bare_append, bare_eq_self hmark, List.drop_left, List.drop_left]

/-! ### Blocks -/

theorem rest_lengthThrough?_bare {mark text : List Char} (hmark : Unbroken mark)
    (h : PairedSoFar text) :
    (lengthThrough? mark (bare text)).map (bare text).drop =
      (lengthThrough? mark text).map fun n => bare (text.drop n) := by
  induction text with
  | nil => simp [lengthThrough?, hmark.1]
  | cons c cs ih =>
    have hpre := isPrefixOf_bare hmark.2 h
    have hskip : ((lengthThrough? mark cs).map (· + 1)).map (fun n => bare ((c :: cs).drop n)) =
        (lengthThrough? mark (bare cs)).map (bare cs).drop := by
      rw [ih h.tail, Option.map_map]
      rfl
    by_cases hc : c = '\r'
    · subst hc
      rw [bare_return, lengthThrough?, if_neg (by simp [isPrefixOf_break hmark (.inl rfl)]), hskip]
    · rw [bare_cons hc] at hpre ⊢
      rw [lengthThrough?, lengthThrough?, hpre]
      split
      · rename_i hmatch
        have hdrop := drop_bare_of_isPrefixOf hmark.2.1 hmatch
        rw [bare_cons hc] at hdrop
        simp [hdrop]
      · rw [hskip, Option.map_map]
        rfl

theorem rest_blockLength?_bare {opening closing text : List Char} (hopen : Unbroken opening)
    (hclose : Unbroken closing) (h : PairedSoFar text) :
    (blockLength? opening closing (bare text)).map (bare text).drop =
      (blockLength? opening closing text).map fun n => bare (text.drop n) := by
  unfold blockLength?
  rw [isPrefixOf_bare hopen.2 h]
  split
  · rename_i hmatch
    have hrest := rest_lengthThrough?_bare hclose
      (h.isInfix (List.drop_suffix opening.length text).isInfix)
    rw [drop_bare_of_isPrefixOf hopen.2.1 hmatch]
    rw [Option.map_map, Option.map_map]
    simp only [Function.comp_def, ← List.drop_drop]
    rw [← drop_bare_of_isPrefixOf hopen.2.1 hmatch] at hrest ⊢
    exact hrest
  · rfl

theorem dropBlocks_eq_drop (opening closing : List Char) (skip : Nat) (text : List Char) :
    dropBlocks opening closing skip text = dropBlocks opening closing 0 (text.drop skip) := by
  induction text generalizing skip with
  | nil => cases skip <;> simp [dropBlocks]
  | cons c cs ih =>
    cases skip with
    | zero => rfl
    | succ k => exact ih k

/-- A block is at least as long as its opening mark. -/
theorem le_blockLength? {opening closing text : List Char} {n : Nat}
    (h : blockLength? opening closing text = some n) : opening.length ≤ n := by
  unfold blockLength? at h
  split at h
  · obtain ⟨k, -, rfl⟩ := Option.map_eq_some_iff.mp h
    exact Nat.le_add_right ..
  · exact absurd h (by simp)

/-- A text that starts with a block goes on after it. -/
theorem dropBlocks_of_some {opening closing text : List Char} {n : Nat} (hopen : opening ≠ [])
    (h : blockLength? opening closing text = some n) :
    dropBlocks opening closing 0 text = dropBlocks opening closing 0 (text.drop n) := by
  have hpos : 0 < n := Nat.lt_of_lt_of_le (List.length_pos_iff.mpr hopen) (le_blockLength? h)
  cases text with
  | nil => simp [dropBlocks]
  | cons c cs =>
    obtain ⟨k, rfl⟩ := Nat.exists_eq_succ_of_ne_zero (Nat.ne_of_gt hpos)
    rw [dropBlocks, h]
    exact dropBlocks_eq_drop opening closing k cs

theorem dropBlocks_of_none {opening closing : List Char} {c : Char} {cs : List Char}
    (h : blockLength? opening closing (c :: cs) = none) :
    dropBlocks opening closing 0 (c :: cs) = c :: dropBlocks opening closing 0 cs := by
  rw [dropBlocks, h]

/-- No block starts at a line break. -/
theorem blockLength?_break {opening closing : List Char} {c : Char} {cs : List Char}
    (hopen : Unbroken opening) (hc : c = '\r' ∨ c = '\n') :
    blockLength? opening closing (c :: cs) = none := by
  rw [blockLength?, isPrefixOf_break hopen hc]
  rfl

theorem dropBlocks_bare {opening closing text : List Char} (hopen : Unbroken opening)
    (hclose : Unbroken closing) (h : PairedSoFar text) :
    dropBlocks opening closing 0 (bare text) = bare (dropBlocks opening closing 0 text) := by
  -- a block may end anywhere further on, so the induction is on the length
  induction hlen : text.length using Nat.strongRecOn generalizing text with
  | _ len ih =>
    subst hlen
    cases text with
    | nil => rfl
    | cons c cs =>
      have hrest := rest_blockLength?_bare hopen hclose h
      cases hblock : blockLength? opening closing (c :: cs) with
      | some n =>
        rw [hblock, Option.map_some, Option.map_eq_some_iff] at hrest
        obtain ⟨k, hk, hdrop⟩ := hrest
        have hpos : 0 < n :=
          Nat.lt_of_lt_of_le (List.length_pos_iff.mpr hopen.1) (le_blockLength? hblock)
        rw [dropBlocks_of_some hopen.1 hblock, dropBlocks_of_some hopen.1 hk, hdrop]
        exact ih _ (by simp only [List.length_drop, List.length_cons]; omega)
          (h.isInfix (List.drop_suffix n _).isInfix) rfl
      | none =>
        rw [hblock, Option.map_none, Option.map_eq_none_iff] at hrest
        have hcs := ih cs.length (by simp) h.tail rfl
        by_cases hc : c = '\r'
        · subst hc
          rw [bare_return, dropBlocks_of_none hblock, bare_return, hcs]
        · rw [bare_cons hc] at hrest ⊢
          rw [dropBlocks_of_none hblock, dropBlocks_of_none hrest, bare_cons hc, hcs]

theorem paired_dropBlocks {opening closing text : List Char} (hopen : Unbroken opening)
    (h : Paired text) : Paired (dropBlocks opening closing 0 text) := by
  induction hlen : text.length using Nat.strongRecOn generalizing text with
  | _ len ih =>
    subst hlen
    cases text with
    | nil => exact h
    | cons c cs =>
      cases hblock : blockLength? opening closing (c :: cs) with
      | some n =>
        have hpos : 0 < n :=
          Nat.lt_of_lt_of_le (List.length_pos_iff.mpr hopen.1) (le_blockLength? hblock)
        rw [dropBlocks_of_some hopen.1 hblock]
        exact ih _ (by simp only [List.length_drop, List.length_cons]; omega)
          (h.suffix (List.drop_suffix n _)) rfl
      | none =>
        obtain ⟨hfirst, hcs⟩ := paired_cons.mp h
        rw [dropBlocks_of_none hblock]
        refine paired_cons.mpr ⟨fun hc => ?_, ih cs.length (by simp) hcs rfl⟩
        obtain ⟨rest, rfl⟩ := List.head?_eq_some_iff.mp (hfirst hc)
        rw [dropBlocks_of_none (blockLength?_break hopen (.inr rfl))]
        rfl

/-! ### Marked lines -/

theorem cutLines_bare {mark text : List Char} (hmark : Unbroken mark) (h : PairedSoFar text)
    (inside : Bool) : cutLines mark inside (bare text) = bare (cutLines mark inside text) := by
  induction text generalizing inside with
  | nil => rfl
  | cons c cs ih =>
    have hpre := isPrefixOf_bare hmark.2 h
    by_cases hc : c = '\r'
    · subst hc
      rw [bare_return, cutLines, if_neg (by decide)]
      cases inside with
      | true =>
        rw [if_pos (by simp), ih h.tail]
      | false =>
        rw [if_neg (by simp [isPrefixOf_break hmark (.inl rfl)]), bare_return, ih h.tail]
    · rw [bare_cons hc] at hpre ⊢
      rw [cutLines, cutLines, hpre]
      split
      · rw [bare_cons hc, ih h.tail]
      · split
        · exact ih h.tail true
        · rw [bare_cons hc, ih h.tail]

theorem paired_cutLines (mark : List Char) {text : List Char} (h : Paired text) (inside : Bool) :
    Paired (cutLines mark inside text) := by
  induction text generalizing inside with
  | nil => exact h
  | cons c cs ih =>
    obtain ⟨hfirst, hcs⟩ := paired_cons.mp h
    rw [cutLines]
    split
    · exact paired_cons.mpr ⟨fun hc => by simp_all, ih hcs false⟩
    · split
      · exact ih hcs true
      · refine paired_cons.mpr ⟨fun hc => ?_, ih hcs false⟩
        obtain ⟨rest, rfl⟩ := List.head?_eq_some_iff.mp (hfirst hc)
        rw [cutLines, if_pos rfl]
        rfl

/-! ### Removal -/

section Removal

variable {style : CommentStyle} (hstyle : UnbrokenStyle style)

include hstyle

theorem paired_sweep_and_sweep_bare {text : List Char} (h : Paired text) :
    Paired (sweep style text) ∧ sweep style (bare text) = bare (sweep style text) := by
  obtain ⟨hline, hblocks⟩ := hstyle
  have hfold : ∀ (blocks : List (List Char × List Char)) (t : List Char),
      (∀ marks ∈ blocks, Unbroken marks.1 ∧ Unbroken marks.2) → Paired t →
      Paired (blocks.foldl (fun t marks => dropBlocks marks.1 marks.2 0 t) t) ∧
        blocks.foldl (fun t marks => dropBlocks marks.1 marks.2 0 t) (bare t) =
          bare (blocks.foldl (fun t marks => dropBlocks marks.1 marks.2 0 t) t) := by
    intro blocks
    induction blocks with
    | nil => exact fun t _ ht => ⟨ht, rfl⟩
    | cons marks blocks ih =>
      intro t hmarks ht
      obtain ⟨⟨hopen, hclose⟩, hmarks⟩ := List.forall_mem_cons.mp hmarks
      rw [List.foldl_cons, List.foldl_cons, dropBlocks_bare hopen hclose ht.soFar]
      exact ih _ hmarks (paired_dropBlocks hopen ht)
  obtain ⟨hpaired, hbare⟩ := hfold style.blocks text hblocks h
  refine ⟨paired_cutLines _ hpaired false, ?_⟩
  unfold sweep
  rw [hbare, cutLines_bare hline hpaired.soFar]

theorem paired_iterate_and_iterate_bare {text : List Char} (h : Paired text) (n : Nat) :
    Paired ((sweep style)^[n] text) ∧
      (sweep style)^[n] (bare text) = bare ((sweep style)^[n] text) := by
  induction n generalizing text with
  | zero => exact ⟨h, rfl⟩
  | succ n ih =>
    obtain ⟨hpaired, hbare⟩ := paired_sweep_and_sweep_bare hstyle h
    rw [Function.iterate_succ_apply, Function.iterate_succ_apply, hbare]
    exact ih hpaired

/-- The same comments are taken out of a text with returns and of the text without them. -/
theorem paired_strip_and_strip_bare {text : List Char} (h : Paired text) :
    Paired (strip style text) ∧ strip style (bare text) = bare (strip style text) := by
  obtain ⟨n, hn, hstable, -⟩ := settle_eq_iterate style text.length text (Nat.le_refl _)
  obtain ⟨m, hm, hbareStable, -⟩ :=
    settle_eq_iterate style (bare text).length (bare text) (Nat.le_refl _)
  change strip style text = _ at hn
  change strip style (bare text) = _ at hm
  change sweep style (strip style text) = strip style text at hstable
  change sweep style (strip style (bare text)) = strip style (bare text) at hbareStable
  have hpaired : Paired (strip style text) := by
    rw [hn]
    exact (paired_iterate_and_iterate_bare hstyle h n).1
  refine ⟨hpaired, ?_⟩
  -- both sides are rounds of the bare text that one more round leaves alone
  have hrounds : bare (strip style text) = (sweep style)^[n] (bare text) := by
    rw [hn, (paired_iterate_and_iterate_bare hstyle h n).2]
  have hfixed : sweep style (bare (strip style text)) = bare (strip style text) := by
    rw [(paired_sweep_and_sweep_bare hstyle hpaired).2, hstable]
  calc strip style (bare text)
      = (sweep style)^[n] (strip style (bare text)) :=
        (Function.iterate_fixed hbareStable n).symm
    _ = (sweep style)^[n] ((sweep style)^[m] (bare text)) := by rw [hm]
    _ = (sweep style)^[m] ((sweep style)^[n] (bare text)) := by
        rw [← Function.iterate_add_apply, ← Function.iterate_add_apply, Nat.add_comm]
    _ = (sweep style)^[m] (bare (strip style text)) := by rw [hrounds]
    _ = bare (strip style text) := Function.iterate_fixed hfixed m

end Removal

end BigO.Comments
