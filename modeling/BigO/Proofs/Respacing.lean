-- A text with other blanks between its tokens. Its words stay whole, and what comes next
-- after each of them stays the same, so calls are counted alike and the same words stand
-- in it. For this the calls of a name are counted at the starts of words, one by one.
import BigO.Proofs.DeclaredNames

namespace BigO.Text

open BigO.Scan

/-! ## Starts of words -/

/-- How many words start in the text where the rest of the text passes a test. A word that
goes on from before the text does not start in it. -/
def wordStarts (test : List Char → Bool) (inWord : Bool) : List Char → Nat
  | [] => 0
  | c :: cs =>
    (if !inWord && isWord c && test (c :: cs) then 1 else 0) + wordStarts test (isWord c) cs

/-- No word goes on from the first text to the second one. -/
def Apart (a b : List Char) : Prop :=
  a.getLast?.any isWord = false ∨ b.head?.any isWord = false

/-- Whether a word is open at the end of a text goes by its last character. -/
theorem elim_getLast?_cons (inWord : Bool) (c : Char) (cs : List Char) :
    (c :: cs).getLast?.elim inWord isWord = cs.getLast?.elim (isWord c) isWord := by
  rw [List.getLast?_cons]
  cases cs.getLast? <;> rfl

theorem elim_getLast?_false (text : List Char) :
    text.getLast?.elim false isWord = text.getLast?.any isWord := by
  cases text.getLast? <;> rfl

section WordStarts

variable {test : List Char → Bool} {inWord : Bool} {text : List Char}

/-- What is before a text does not matter where no word goes on. -/
theorem wordStarts_of_apart (h : inWord = false ∨ text.head?.any isWord = false) :
    wordStarts test inWord text = wordStarts test false text := by
  cases text with
  | nil => rfl
  | cons c cs =>
    rcases h with rfl | hc
    · rfl
    · have hword : isWord c = false := hc
      simp [wordStarts, hword]

/-- No word starts in blanks. -/
theorem wordStarts_gap {gap : List Char} (hgap : Only isBlank gap)
    (h : inWord = false ∨ (gap ++ text).head?.any isWord = false) :
    wordStarts test inWord (gap ++ text) = wordStarts test false text := by
  induction gap generalizing inWord with
  | nil => exact wordStarts_of_apart h
  | cons c cs ih =>
    obtain ⟨hc, hcs⟩ := List.forall_mem_cons.mp hgap
    have hword := isWord_of_isBlank hc
    simp [wordStarts, hword, ih hcs (.inl rfl)]

/-- No word starts in the rest of a word. -/
theorem wordStarts_restOfWord {word : List Char} (hword : Only isWord word) :
    wordStarts test true (word ++ text) = wordStarts test true text := by
  induction word with
  | nil => rfl
  | cons c cs ih =>
    obtain ⟨hc, hcs⟩ := List.forall_mem_cons.mp hword
    simp [wordStarts, hc, ih hcs]

/-- The words of a token and those after it are counted apart. -/
theorem wordStarts_congr {token a b : List Char}
    (htest : ∀ v, v <:+ token → v ≠ [] → test (v ++ a) = test (v ++ b))
    (hrest : wordStarts test (token.getLast?.elim inWord isWord) a =
      wordStarts test (token.getLast?.elim inWord isWord) b) :
    wordStarts test inWord (token ++ a) = wordStarts test inWord (token ++ b) := by
  induction token generalizing inWord with
  | nil => exact hrest
  | cons c cs ih =>
    have hfirst : test (c :: cs ++ a) = test (c :: cs ++ b) :=
      htest (c :: cs) (List.suffix_refl _) (List.cons_ne_nil c cs)
    rw [elim_getLast?_cons] at hrest
    have hmore := ih (fun v hv => htest v (hv.trans (List.suffix_cons c cs))) hrest
    simp only [List.cons_append] at hfirst ⊢
    rw [wordStarts, wordStarts, hfirst, hmore]

theorem wordStarts_pos_iff : 0 < wordStarts test inWord text ↔
    ∃ before after, text = before ++ after ∧ before.getLast?.elim inWord isWord = false ∧
      after.head?.any isWord = true ∧ test after = true := by
  induction text generalizing inWord with
  | nil =>
    constructor
    · intro h
      exact absurd h (Nat.lt_irrefl 0)
    · rintro ⟨before, after, hnil, -, hafter, -⟩
      rw [(List.append_eq_nil_iff.mp hnil.symm).2] at hafter
      exact absurd hafter (by decide)
  | cons c cs ih =>
    rw [wordStarts, Nat.add_pos_iff_pos_or_pos, ih]
    constructor
    · rintro (hhere | ⟨before, after, rfl, hbefore, hafter, htest⟩)
      · have hall : (!inWord && isWord c && test (c :: cs)) = true := by
          by_contra hnot
          simp [hnot] at hhere
        simp only [Bool.and_eq_true, Bool.not_eq_true'] at hall
        exact ⟨[], c :: cs, rfl, hall.1.1, hall.1.2, hall.2⟩
      · exact ⟨c :: before, after, rfl, (elim_getLast?_cons ..).trans hbefore, hafter, htest⟩
    · rintro ⟨before, after, htext, hbefore, hafter, htest⟩
      cases before with
      | nil =>
        left
        have hsame : c :: cs = after := htext
        subst hsame
        have hword : isWord c = true := hafter
        have hout : inWord = false := hbefore
        simp [hout, hword, htest]
      | cons y before =>
        obtain ⟨rfl, rfl⟩ := List.cons.inj htext
        rw [elim_getLast?_cons] at hbefore
        exact .inr ⟨before, after, rfl, hbefore, hafter, htest⟩

end WordStarts

/-! ## Tests at the start of a word -/

/-- The test looks at whole words, and at the first character after them that is no blank. -/
def LooksAhead (test : List Char → Bool) : Prop :=
  ∀ v a b, v ≠ [] → Apart v a → Apart v b → (trimStart a).head? = (trimStart b).head? →
    test (v ++ a) = test (v ++ b)

/-- The word comes next, and ends. -/
def wordAhead (w text : List Char) : Bool :=
  w.isPrefixOf text && !(text.drop w.length).head?.any isWord

theorem hasWord_iff_wordStarts {w text : List Char} (hne : w ≠ []) (hw : Only isWord w) :
    HasWord w text ↔ 0 < wordStarts (wordAhead w) false text := by
  rw [wordStarts_pos_iff]
  simp only [elim_getLast?_false]
  constructor
  · rintro ⟨before, after, rfl, hbefore, hafter⟩
    refine ⟨before, w ++ after, rfl, hbefore, ?_, ?_⟩
    · rw [List.head?_append, List.head?_eq_some_head hne]
      exact hw _ (List.head_mem hne)
    · simp [wordAhead, hafter]
  · rintro ⟨before, after, rfl, hbefore, -, htest⟩
    rw [wordAhead, Bool.and_eq_true, List.isPrefixOf_iff_prefix, Bool.not_eq_true'] at htest
    obtain ⟨⟨rest, rfl⟩, hrest⟩ := htest
    rw [List.drop_left] at hrest
    exact ⟨before, rest, rfl, hbefore, hrest⟩

/-- A word does not go on over a place where no word goes on. -/
theorem prefix_append_iff {w v a : List Char} (hw : Only isWord w) (hne : v ≠ [])
    (hapart : Apart v a) : w <+: v ++ a ↔ w <+: v := by
  refine ⟨fun h => ?_, fun h => h.trans (List.prefix_append v a)⟩
  obtain ⟨rest, hrest⟩ := h
  rcases List.append_eq_append_iff.mp hrest with ⟨more, rfl, -⟩ | ⟨more, rfl, rfl⟩
  · exact List.prefix_append w more
  · cases more with
    | nil => simp
    | cons x xs =>
      -- the word would have the last character of the one text and the first of the other
      obtain ⟨hv, hx⟩ := List.forall_mem_append.mp hw
      rcases hapart with hlast | hfirst
      · rw [List.getLast?_eq_some_getLast hne, Option.any_some, hv _ (List.getLast_mem hne)]
          at hlast
        exact absurd hlast (by decide)
      · have hword : isWord x = false := hfirst
        rw [hx x (List.mem_cons_self ..)] at hword
        exact absurd hword (by decide)

theorem looksAhead_wordAhead {w : List Char} (hne : w ≠ []) (hw : Only isWord w) :
    LooksAhead (wordAhead w) := by
  intro v a b hv ha hb _
  rw [Bool.eq_iff_iff]
  simp only [wordAhead, Bool.and_eq_true, List.isPrefixOf_iff_prefix, prefix_append_iff hw hv ha,
    prefix_append_iff hw hv hb]
  refine and_congr_right fun hprefix => ?_
  obtain ⟨rest, rfl⟩ := hprefix
  simp only [List.append_assoc, List.drop_left]
  cases rest with
  | cons x xs => rfl
  | nil =>
    -- the word ends with the text, where no word goes on
    have hend : ∀ c : List Char, Apart (w ++ []) c → c.head?.any isWord = false := by
      intro c hc
      refine hc.resolve_left fun hlast => ?_
      rw [List.append_nil, List.getLast?_eq_some_getLast hne, Option.any_some,
        hw _ (List.getLast_mem hne)] at hlast
      exact absurd hlast (by decide)
    rw [List.nil_append, List.nil_append, hend a ha, hend b hb]

/-! ## Blanks between tokens -/

/-- The text is these tokens in a row with blanks between them, and words of two tokens are
kept apart. -/
inductive Spaced : List (List Char) → List Char → Prop where
  | nil {gap : List Char} (hgap : Only isBlank gap) : Spaced [] gap
  | cons {gap token text : List Char} {tokens : List (List Char)} (hgap : Only isBlank gap)
      (hapart : Apart token text) (rest : Spaced tokens text) :
      Spaced (token :: tokens) (gap ++ (token ++ text))

/-- The two texts have the same tokens, with other blanks between them. -/
def Respaced (a b : List Char) : Prop :=
  ∃ tokens, Spaced tokens a ∧ Spaced tokens b

theorem trimStart_append_of_only {gap : List Char} (hgap : Only isBlank gap) (text : List Char) :
    trimStart (gap ++ text) = trimStart text :=
  List.dropWhile_append_of_pos hgap

theorem head?_trimStart_append {a b : List Char}
    (h : (trimStart a).head? = (trimStart b).head?) (token : List Char) :
    (trimStart (token ++ a)).head? = (trimStart (token ++ b)).head? := by
  unfold trimStart at *
  rw [List.dropWhile_append, List.dropWhile_append]
  split
  · exact h
  · rename_i hne
    cases hdrop : token.dropWhile isBlank with
    | nil => simp [hdrop] at hne
    | cons x xs => rfl

/-- Whatever blanks there are, the same comes next. -/
theorem Spaced.head?_trimStart {tokens : List (List Char)} {a b : List Char}
    (ha : Spaced tokens a) (hb : Spaced tokens b) :
    (trimStart a).head? = (trimStart b).head? := by
  induction ha generalizing b with
  | @nil gap hgap =>
    cases hb with
    | nil hgap' =>
      rw [← List.append_nil gap, ← List.append_nil b, trimStart_append_of_only hgap,
        trimStart_append_of_only hgap']
  | @cons gap token text tokens hgap _ _ ih =>
    cases hb with
    | @cons gap' _ text' _ hgap' _ rest' =>
      rw [trimStart_append_of_only hgap, trimStart_append_of_only hgap']
      exact head?_trimStart_append (ih rest') token

/-- The words of two texts with the same tokens pass a test alike. -/
theorem Spaced.wordStarts_eq {test : List Char → Bool} (htest : LooksAhead test)
    {tokens : List (List Char)} {a b : List Char} (ha : Spaced tokens a) (hb : Spaced tokens b)
    {inWord : Bool} (ha' : inWord = false ∨ a.head?.any isWord = false)
    (hb' : inWord = false ∨ b.head?.any isWord = false) :
    wordStarts test inWord a = wordStarts test inWord b := by
  induction ha generalizing b inWord with
  | @nil gap hgap =>
    cases hb with
    | nil hgap' =>
      rw [← List.append_nil gap] at ha' ⊢
      rw [← List.append_nil b] at hb' ⊢
      rw [wordStarts_gap hgap ha', wordStarts_gap hgap' hb']
  | @cons gap token text tokens hgap hapart rest ih =>
    cases hb with
    | @cons gap' _ text' _ hgap' hapart' rest' =>
      rw [wordStarts_gap hgap ha', wordStarts_gap hgap' hb']
      refine wordStarts_congr (fun v hv hne => ?_) (ih rest' ?_ ?_)
      · have hlast : v.getLast? = token.getLast? := by
          obtain ⟨u, rfl⟩ := hv
          rw [List.getLast?_append_of_ne_nil u hne]
        refine htest v text text' hne ?_ ?_ (rest.head?_trimStart rest')
        · rwa [Apart, hlast]
        · rwa [Apart, hlast]
      · rwa [elim_getLast?_false]
      · rwa [elim_getLast?_false]

theorem Spaced.snoc {tokens : List (List Char)} {text last : List Char} (h : Spaced tokens text)
    (hlast : last.head?.any isWord = false) : Spaced (tokens ++ [last]) (text ++ last) := by
  induction h with
  | @nil gap hgap =>
    have hend : Spaced [] [] := .nil (only_nil isBlank)
    simpa using Spaced.cons hgap (.inr rfl : Apart last []) hend
  | @cons gap token text tokens hgap hapart _ ih =>
    have hnext : Apart token (text ++ last) := by
      refine hapart.imp_right fun hfirst => ?_
      cases text with
      | nil => exact hlast
      | cons x xs => exact hfirst
    simpa using Spaced.cons hgap hnext ih

/-- What stands around the two texts does not matter, if no word goes on from it or into it. -/
theorem Respaced.between {a b first last : List Char} (h : Respaced a b)
    (hfirst : first.getLast?.any isWord = false) (hlast : last.head?.any isWord = false) :
    Respaced (first ++ (a ++ last)) (first ++ (b ++ last)) := by
  obtain ⟨tokens, ha, hb⟩ := h
  refine ⟨first :: (tokens ++ [last]), ?_, ?_⟩
  · exact Spaced.cons (only_nil isBlank) (.inl hfirst) (ha.snoc hlast)
  · exact Spaced.cons (only_nil isBlank) (.inl hfirst) (hb.snoc hlast)

theorem Respaced.wordStarts_eq {test : List Char → Bool} (htest : LooksAhead test)
    {a b : List Char} (h : Respaced a b) : wordStarts test false a = wordStarts test false b := by
  obtain ⟨tokens, ha, hb⟩ := h
  exact ha.wordStarts_eq htest hb (.inl rfl) (.inl rfl)

/-- The same words stand in both texts. -/
theorem Respaced.hasWord_iff {a b w : List Char} (h : Respaced a b) (hne : w ≠ [])
    (hw : Only isWord w) : HasWord w a ↔ HasWord w b := by
  rw [hasWord_iff_wordStarts hne hw, hasWord_iff_wordStarts hne hw,
    h.wordStarts_eq (looksAhead_wordAhead hne hw)]

end BigO.Text

namespace BigO.Recursion

open BigO.Text BigO.Scan BigO.Scan.Scanner

/-! ## Calls at the starts of words -/

/-- The name comes next, and a bracket after it. -/
def callAhead (f text : List Char) : Bool :=
  f.isPrefixOf text && (trimStart (text.drop f.length)).head? == some '('

section Calls

variable {f : List Char}

theorem callAhead_iff {text : List Char} : callAhead f text = true ↔
    ∃ gap rest, text = f ++ (gap ++ '(' :: rest) ∧ Only isBlank gap := by
  rw [callAhead, Bool.and_eq_true, List.isPrefixOf_iff_prefix, beq_iff_eq]
  constructor
  · rintro ⟨⟨more, rfl⟩, hbracket⟩
    rw [List.drop_left] at hbracket
    obtain ⟨rest, hrest⟩ := List.head?_eq_some_iff.mp hbracket
    refine ⟨more.takeWhile isBlank, rest, ?_, only_takeWhile isBlank more⟩
    rw [← hrest, trimStart, List.takeWhile_append_dropWhile]
  · rintro ⟨gap, rest, rfl, hgap⟩
    refine ⟨List.prefix_append f _, ?_⟩
    rw [List.drop_left, trimStart_append_of_only hgap]
    rfl

variable (hne : f ≠ []) (hf : Only isWord f)

include hne hf

/-- A call is read where the name starts a word and a bracket comes after it. -/
theorem mem_call_iff {c d : Cursor} : ((), d) ∈ call f c ↔
    c.wordBefore = false ∧ ∃ gap, c.To (f ++ (gap ++ ['('])) d ∧ Only isBlank gap := by
  have hedge : ∀ {e : Cursor}, c.To f e → (c.atWordEdge = true ↔ c.wordBefore = false) := by
    intro e hto
    have hafter : c.wordAfter = true := by
      rw [Cursor.wordAfter, hto.ahead, List.head?_append, List.head?_eq_some_head hne]
      exact hf _ (List.head_mem hne)
    simp [Cursor.atWordEdge, hafter]
  constructor
  · intro h
    obtain ⟨q, hhere, hrest⟩ := mem_bind.mp h
    obtain ⟨hstart, rfl⟩ := mem_here.mp hhere
    obtain ⟨⟨⟨⟩, e⟩, he, hrest⟩ := mem_bind.mp hrest
    obtain ⟨⟨⟨⟩, k⟩, hk, hrest⟩ := mem_bind.mp hrest
    have hname := mem_exactly_iff.mp he
    obtain ⟨gap, hgap, hblank⟩ := passes_run isBlank e _ hk
    obtain ⟨_, hbracket, rfl⟩ := passes_char '(' k _ hrest
    exact ⟨(hedge hname).mp hstart, gap, hname.trans (hgap.trans hbracket), hblank⟩
  · rintro ⟨hbefore, gap, hto, hgap⟩
    have hname : c.To f ⟨f.reverse ++ c.before, gap ++ '(' :: d.after⟩ :=
      ⟨by simpa using hto.ahead, rfl⟩
    have hgapTo : Cursor.To ⟨f.reverse ++ c.before, gap ++ '(' :: d.after⟩ gap
        ⟨gap.reverse ++ (f.reverse ++ c.before), '(' :: d.after⟩ := ⟨rfl, rfl⟩
    have hstop : isBlank '(' = false := by decide
    refine mem_bind.mpr ⟨((), c), mem_here.mpr ⟨(hedge hname).mpr hbefore, rfl⟩, ?_⟩
    refine mem_bind.mpr ⟨((), _), mem_exactly_iff.mpr hname, ?_⟩
    refine mem_bind.mpr ⟨((), _), mem_run_iff.mpr ⟨gap, hgapTo, hgap, hstop⟩, ?_⟩
    refine mem_one.mpr ⟨'(', d.after, rfl, rfl, ?_⟩
    rcases d with ⟨before, after⟩
    simpa using hto.behind

theorem passes_call : (call f).Passes (· ≠ []) := by
  rintro c ⟨⟨⟩, d⟩ h
  obtain ⟨-, gap, hto, -⟩ := (mem_call_iff hne hf).mp h
  exact ⟨_, hto, by simp⟩

/-- After the start of a call no word starts up to its bracket. -/
theorem wordStarts_call {gap rest : List Char} (hgap : Only isBlank gap) :
    wordStarts (callAhead f) false (f ++ (gap ++ '(' :: rest)) =
      1 + wordStarts (callAhead f) false rest := by
  have hahead : callAhead f (f ++ (gap ++ '(' :: rest)) = true :=
    callAhead_iff.mpr ⟨gap, rest, rfl, hgap⟩
  have hend : (gap ++ '(' :: rest).head?.any isWord = false := by
    cases gap with
    | nil => rfl
    | cons x xs => exact isWord_of_isBlank (hgap x (List.mem_cons_self ..))
  have hbracket : wordStarts (callAhead f) false ('(' :: rest) =
      wordStarts (callAhead f) false rest := by
    have hword : isWord '(' = false := by decide
    simp [wordStarts, hword]
  generalize htest : callAhead f = test at *
  obtain ⟨x, xs, rfl⟩ := List.exists_cons_of_ne_nil hne
  obtain ⟨hx, hxs⟩ := List.forall_mem_cons.mp hf
  rw [List.cons_append] at hahead ⊢
  rw [wordStarts, hx, hahead, wordStarts_restOfWord hxs, wordStarts_gap hgap (.inr hend), hbracket]
  rfl

/-- Calls never overlap, so that none is left out of the count. -/
theorem callCount_eq_wordStarts (text : List Char) :
    callCount f text = wordStarts (callAhead f) false text := by
  have hfinds : ∀ {c : Cursor} {found : List Unit}, (call f).Finds c found →
      found.length = wordStarts (callAhead f) c.wordBefore c.after := by
    intro c found h
    induction h with
    | stop => rfl
    | @skip before xs x found hnone _ ih =>
      have hnot : (!Cursor.wordBefore ⟨before, x :: xs⟩ && isWord x &&
          callAhead f (x :: xs)) = false := by
        rw [Bool.eq_false_iff]
        intro hall
        simp only [Bool.and_eq_true, Bool.not_eq_true'] at hall
        obtain ⟨gap, rest, hahead, hgap⟩ := callAhead_iff.mp hall.2
        have hto : Cursor.To ⟨before, x :: xs⟩ (f ++ (gap ++ ['(']))
            ⟨(f ++ (gap ++ ['('])).reverse ++ before, rest⟩ := ⟨by simpa using hahead, rfl⟩
        have hmem := (mem_call_iff hne hf).mpr ⟨hall.1.1, gap, hto, hgap⟩
        exact List.ne_nil_of_mem hmem hnone
      rw [ih, wordStarts, hnot]
      exact (Nat.zero_add _).symm
    | @take c d _ found hhead _ ih =>
      obtain ⟨hbefore, gap, hto, hgap⟩ := (mem_call_iff hne hf).mp (List.mem_of_head? hhead)
      have hd : d.wordBefore = false := by
        rw [Cursor.wordBefore, hto.head?_before (by simp), ← List.append_assoc,
          List.getLast?_concat]
        decide
      have hafter : c.after = f ++ (gap ++ '(' :: d.after) := by simpa using hto.ahead
      rw [List.length_cons, ih, hbefore, hd, hafter, wordStarts_call hne hf hgap, Nat.add_comm]
  exact hfinds (finds_findAll (passes_call hne hf) text)

omit hne in
theorem looksAhead_callAhead : LooksAhead (callAhead f) := by
  intro v a b hv ha hb hnext
  rw [Bool.eq_iff_iff]
  simp only [callAhead, Bool.and_eq_true, List.isPrefixOf_iff_prefix, prefix_append_iff hf hv ha,
    prefix_append_iff hf hv hb]
  refine and_congr_right fun hprefix => ?_
  obtain ⟨rest, rfl⟩ := hprefix
  simp only [List.append_assoc, List.drop_left]
  rw [head?_trimStart_append hnext]

/-- Calls are counted alike whatever blanks there are between the tokens. -/
theorem callCount_respaced {a b : List Char} (h : Respaced a b) :
    callCount f a = callCount f b := by
  rw [callCount_eq_wordStarts hne hf, callCount_eq_wordStarts hne hf,
    h.wordStarts_eq (looksAhead_callAhead hf)]

end Calls

end BigO.Recursion
