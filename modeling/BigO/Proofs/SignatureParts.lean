-- The parts of a signature: the lead from the start of a line to the name, the name as
-- a whole word, and what follows it up to its bracket or its block. No brace stands in
-- any of them, so the brace that opens the block is the first one from the lead on.
import BigO.Proofs.BareSignatures
import BigO.Proofs.WholeWords

namespace BigO.Recursion

open BigO.Text BigO.Scan BigO.Scan.Scanner

/-! ## What a signature tells -/

/-- No brace. -/
def isPlain (c : Char) : Bool :=
  c != '{' && c != '}'

/-- A text that is written as a name. -/
def IsName (text : List Char) : Prop :=
  ∃ x xs, text = x :: xs ∧ isNameStart x = true ∧ Only isWord xs

/-- A signature that is read from one place to another. -/
structure Declares (c : Cursor) (s : Signature) (d : Cursor) : Prop where
  atLineStart : c.atLineStart = true
  lead : ∃ lead, c.To lead s.start ∧ Only isPlain lead
  apart : s.start.wordBefore = false
  isName : IsName s.name
  called : ∃ gap more, s.start.To (s.name ++ (gap ++ '(' :: more)) d ∧ Only isBlank gap

/-- A signature that is read up to the brace of its block. -/
structure DeclaresBlock (c : Cursor) (s : Signature) (d : Cursor) : Prop extends
    Declares c s d where
  uncontrolled : ∀ w ∈ controlWords, s.name ≠ w.toList
  block : ∃ signature, s.start.To (signature ++ ['{']) d ∧ Only isPlain signature

theorem isPlain_of {q : Char → Bool} (hopen : q '{' = false) (hclose : q '}' = false) :
    ∀ x, q x = true → isPlain x = true := by
  intro x hx
  rw [isPlain, Bool.and_eq_true, bne_iff_ne, bne_iff_ne]
  constructor
  · rintro rfl
    rw [hopen] at hx
    exact absurd hx (by decide)
  · rintro rfl
    rw [hclose] at hx
    exact absurd hx (by decide)

/-! ## Names -/

theorem IsName.ne_nil {text : List Char} (h : IsName text) : text ≠ [] := by
  obtain ⟨x, xs, rfl, -⟩ := h
  exact List.cons_ne_nil x xs

theorem IsName.only {text : List Char} (h : IsName text) : Only isWord text := by
  obtain ⟨x, xs, rfl, hx, hxs⟩ := h
  exact List.forall_mem_cons.mpr ⟨isWord_of_isNameStart hx, hxs⟩

/-- A name is read whole. -/
theorem of_mem_named {c d : Cursor} {s : Signature} (h : (s, d) ∈ named c) :
    s.start = c ∧ IsName s.name ∧ c.To s.name d ∧ d.wordAfter = false := by
  rcases c with ⟨before, _ | ⟨x, xs⟩⟩
  · exact absurd h List.not_mem_nil
  · rw [named_cons] at h
    split at h
    · rename_i hx
      obtain ⟨rfl, rfl⟩ := Prod.mk.inj (List.mem_singleton.mp h)
      refine ⟨rfl, ⟨x, _, rfl, hx, only_takeWhile isWord xs⟩, ?_, ?_⟩
      · exact (Cursor.To.next before x xs).trans (Cursor.to_pass isWord ⟨x :: before, xs⟩)
      · exact Cursor.head?_pass isWord ⟨x :: before, xs⟩
    · exact absurd h List.not_mem_nil

/-- A name that is no control word. A control word would be read in the same place, up to
the same edge. -/
theorem of_mem_plainName {c d : Cursor} {s : Signature} (h : (s, d) ∈ plainName c) :
    (s, d) ∈ named c ∧ ∀ w ∈ controlWords, s.name ≠ w.toList := by
  obtain ⟨⟨⟨⟩, b⟩, hb, hnamed⟩ := mem_bind.mp h
  obtain ⟨hahead, hsame⟩ := mem_here.mp hb
  obtain rfl := (Prod.mk.inj hsame).2
  refine ⟨hnamed, fun w hw hname => ?_⟩
  obtain ⟨-, hisName, hto, hafter⟩ := of_mem_named hnamed
  have hedge : d.atWordEdge = true := by
    have hlast : d.wordBefore = true := by
      rw [Cursor.wordBefore, hto.head?_before hisName.ne_nil,
        List.getLast?_eq_some_getLast hisName.ne_nil]
      simpa using hisName.only _ (List.getLast_mem hisName.ne_nil)
    rw [Cursor.atWordEdge, hlast, hafter]
    rfl
  have hread : ((), d) ∈ oneOf (controlWords.map literal) b :=
    mem_oneOf.mpr ⟨literal w, List.mem_map_of_mem hw, mem_exactly_iff.mpr (hname ▸ hto)⟩
  have hcontrol : ((), d) ∈ (oneOf (controlWords.map literal) >>= fun _ => wordEdge) b :=
    mem_bind.mpr ⟨_, hread, mem_here.mpr ⟨hedge, rfl⟩⟩
  rw [Bool.not_eq_true', Bool.eq_false_iff] at hahead
  exact hahead (reads_iff.mpr ⟨_, hcontrol⟩)

/-! ## Leads -/

/-- The text is empty or its last character is of a class. -/
def EndsIn (p : Char → Bool) (text : List Char) : Prop :=
  ∀ x, text.getLast? = some x → p x = true

theorem endsIn_of_only {p q : Char → Bool} {text : List Char} (h : Only q text)
    (hq : ∀ x, q x = true → p x = true) : EndsIn p text :=
  fun x hx => hq x (h x (List.mem_of_getLast? hx))

theorem EndsIn.append {p : Char → Bool} {a b : List Char} (ha : EndsIn p a) (hb : EndsIn p b) :
    EndsIn p (a ++ b) := by
  intro x hx
  rw [List.getLast?_append] at hx
  cases h : b.getLast? with
  | none =>
    rw [h] at hx
    exact ha x hx
  | some y =>
    rw [h] at hx
    exact hb x (h.trans hx)

theorem EndsIn.append_right {p : Char → Bool} {b : List Char} (hb : EndsIn p b) (hne : b ≠ [])
    (a : List Char) : EndsIn p (a ++ b) := by
  intro x hx
  rw [List.getLast?_append_of_ne_nil a hne] at hx
  exact hb x hx

/-- No word is left open by what ends in a character that has no part in words. -/
theorem EndsIn.wordBefore {p : Char → Bool} {passed : List Char} (h : EndsIn p passed)
    (hp : ∀ x, p x = true → isWord x = false) (hne : passed ≠ []) {c d : Cursor}
    (hto : c.To passed d) : d.wordBefore = false := by
  rw [Cursor.wordBefore, hto.head?_before hne, List.getLast?_eq_some_getLast hne]
  exact hp _ (h _ (List.getLast?_eq_some_getLast hne))

theorem of_mem_margin {c : Cursor} {r : Unit × Cursor} (h : r ∈ margin c) :
    c.atLineStart = true ∧ ∃ passed, c.To passed r.2 ∧ Only isPlain passed := by
  obtain ⟨q, hq, hr⟩ := mem_bind.mp h
  obtain ⟨hstart, rfl⟩ := mem_here.mp hq
  exact ⟨hstart, passes_only_run (isPlain_of (by decide) (by decide)) c r hr⟩

theorem passes_blanks : blanks.Passes (Only isPlain) :=
  passes_only_run (isPlain_of (by decide) (by decide))

theorem passes_someBlank : (runSome isBlank).Passes (Only isPlain) :=
  passes_only_runSome (isPlain_of (by decide) (by decide))

theorem passes_words {ws : List String} (h : ∀ w ∈ ws, ∀ x ∈ w.toList, isPlain x = true) :
    (oneOf (ws.map literal)).Passes (Only isPlain) := by
  refine passes_oneOf fun s hs => ?_
  obtain ⟨w, hw, rfl⟩ := List.mem_map.mp hs
  exact passes_only_literal (h w hw)

theorem passes_typeArguments : typeArguments.Passes (Only isPlain) := by
  refine (passes_only_char (by decide)).only_bind fun _ => ?_
  refine (passes_only_many (isPlain_of (by decide) (by decide))).only_bind fun _ => ?_
  exact passes_only_char (by decide)

theorem passes_typeName : typeName.Passes (Only isPlain) := by
  refine (passes_only_runSome (isPlain_of (by decide) (by decide))).only_bind fun _ => ?_
  have harguments := passes_blanks.only_bind fun _ => passes_typeArguments
  refine (harguments.optional (only_nil _)).only_bind fun _ => ?_
  refine Passes.only_repeated (passes_blanks.only_bind fun _ => ?_)
  refine (passes_only_char (by decide)).only_bind fun _ => passes_blanks.only_bind fun _ => ?_
  exact passes_only_char (by decide)

/-- What stands before the name of a function with words and stars. -/
def isSpaceOrStar (c : Char) : Bool :=
  isInLineBlank c || c == '*'

theorem isWord_of_isSpaceOrStar (x : Char) (h : isSpaceOrStar x = true) : isWord x = false := by
  rw [isSpaceOrStar, isInLineBlank, Bool.or_eq_true, Bool.or_eq_true, beq_iff_eq, beq_iff_eq,
    beq_iff_eq] at h
  rcases h with (rfl | rfl) | rfl
  · decide
  · decide
  · decide

theorem isSpaceOrStar_of_star (x : Char) (h : (x == '*') = true) : isSpaceOrStar x = true := by
  rw [isSpaceOrStar, h, Bool.or_true]

/-- A part of a declaration, or several. -/
def IsParts (text : List Char) : Prop :=
  Only isPlain text ∧ EndsIn isSpaceOrStar text

theorem IsParts.append {a b : List Char} (ha : IsParts a) (hb : IsParts b) : IsParts (a ++ b) :=
  ⟨ha.1.append hb.1, ha.2.append hb.2⟩

theorem isParts_of_only {q : Char → Bool} {text : List Char} (h : Only q text)
    (hq : ∀ x, q x = true → isSpaceOrStar x = true) : IsParts text := by
  have hplain : ∀ x, isSpaceOrStar x = true → isPlain x = true :=
    isPlain_of (by decide) (by decide)
  exact ⟨fun x hx => hplain x (hq x (h x hx)), endsIn_of_only h hq⟩

theorem passes_declarationPart :
    declarationPart.Passes fun text => IsParts text ∧ text ≠ [] := by
  have hspace : ∀ x, isInLineBlank x = true → isSpaceOrStar x = true :=
    fun x hx => by simp [isSpaceOrStar, hx]
  have hword : (one isNameStart >>= fun _ => run isWord).Passes (Only isPlain) :=
    (passes_only_one (isPlain_of (by decide) (by decide))).only_bind fun _ =>
      passes_only_run (isPlain_of (by decide) (by decide))
  refine Passes.either ?_ ?_
  · have hparts := hword.bind (fun _ => passes_runSome isInLineBlank)
      (R := fun text => IsParts text ∧ text ≠ []) ?_
    · rwa [bind_bind] at hparts
    · rintro a b ha ⟨hne, hb⟩
      obtain ⟨hplain, hends⟩ := isParts_of_only hb hspace
      exact ⟨⟨ha.append hplain, hends.append_right hne a⟩, by simp [hne]⟩
  · refine (passes_char '*').bind (fun _ => passes_run isInLineBlank) ?_
    rintro _ b rfl hb
    have hstar : IsParts ['*'] :=
      isParts_of_only (List.forall_mem_singleton.mpr rfl) isSpaceOrStar_of_star
    exact ⟨hstar.append (isParts_of_only hb hspace), by simp⟩

/-- Parts, more parts and stars, up to the name. -/
theorem apart_of_parts {b c d e : Cursor} (hfirst : ((), c) ∈ declarationPart b)
    (hmore : ((), d) ∈ repeated declarationPart c) (hstars : ((), e) ∈ run (· == '*') d) :
    (∃ lead, b.To lead e ∧ Only isPlain lead) ∧ e.wordBefore = false := by
  obtain ⟨first, hto, hparts, hne⟩ := passes_declarationPart b _ hfirst
  have hrepeated : (repeated declarationPart).Passes IsParts :=
    (passes_declarationPart.mono fun _ h => h.1).repeated
      ⟨only_nil _, endsIn_of_only (only_nil _) fun _ h => h⟩ fun _ _ => IsParts.append
  obtain ⟨more, htoMore, hpartsMore⟩ := hrepeated c _ hmore
  obtain ⟨stars, htoStars, honly⟩ := passes_run (· == '*') d _ hstars
  have hall := (hparts.append hpartsMore).append (isParts_of_only honly isSpaceOrStar_of_star)
  have htoAll := (hto.trans htoMore).trans htoStars
  exact ⟨⟨_, htoAll, hall.1⟩, hall.2.wordBefore isWord_of_isSpaceOrStar (by simp [hne]) htoAll⟩

/-! ## Parameters -/

theorem of_mem_parameters {c : Cursor} {r : Unit × Cursor} (h : r ∈ parameters c) :
    ∃ gap more, c.To (gap ++ '(' :: more) r.2 ∧ Only isBlank gap ∧ Only isPlain more := by
  obtain ⟨⟨⟨⟩, d⟩, hd, h⟩ := mem_bind.mp h
  obtain ⟨⟨⟨⟩, e⟩, he, h⟩ := mem_bind.mp h
  have hmore : (many (fun c => c != ';' && c != '{' && c != '}') >>= fun _ => char ')' >>= fun _ =>
      blanks).Passes (Only isPlain) :=
    (passes_only_many (isPlain_of (by decide) (by decide))).only_bind fun _ =>
      (passes_only_char (by decide)).only_bind fun _ => passes_blanks
  obtain ⟨gap, hgap, hblank⟩ := passes_run isBlank c _ hd
  obtain ⟨_, hbracket, rfl⟩ := passes_char '(' d _ he
  obtain ⟨more, hto, honly⟩ := hmore e r h
  exact ⟨gap, more, hgap.trans (hbracket.trans hto), hblank, honly⟩

theorem passes_throwsClause : throwsClause.Passes (Only isPlain) := by
  refine (passes_only_literal (List.all_eq_true.mp (by decide))).only_bind fun _ => ?_
  refine (passes_only_one (isPlain_of (by decide) (by decide))).only_bind fun _ => ?_
  exact passes_only_runSome (isPlain_of (by decide) (by decide))

/-! ## Signatures -/

theorem IsName.only_isPlain {text : List Char} (h : IsName text) : Only isPlain text :=
  fun x hx => isPlain_of (by decide) (by decide) x (h.only x hx)

theorem declares_of_mem_defSignature {c d : Cursor} {s : Signature} (h : (s, d) ∈ defSignature c) :
    Declares c s d := by
  obtain ⟨⟨⟨⟩, c₁⟩, hmargin, h⟩ := mem_bind.mp h
  obtain ⟨⟨⟨⟩, c₂⟩, hasync, h⟩ := mem_bind.mp h
  obtain ⟨⟨⟨⟩, c₃⟩, hdef, h⟩ := mem_bind.mp h
  obtain ⟨⟨⟨⟩, c₄⟩, hblank, h⟩ := mem_bind.mp h
  obtain ⟨⟨s', e⟩, hnamed, h⟩ := mem_bind.mp h
  obtain ⟨⟨⟨⟩, f⟩, hgap, h⟩ := mem_bind.mp h
  obtain ⟨⟨⟨⟩, g⟩, hbracket, h⟩ := mem_bind.mp h
  obtain ⟨rfl, rfl⟩ := Prod.mk.inj (mem_pure.mp h)
  have hoptional : (optional (literal "async" >>= fun _ => runSome isBlank)).Passes
      (Only isPlain) :=
    ((passes_only_literal (List.all_eq_true.mp (by decide))).only_bind fun _ =>
      passes_someBlank).optional (only_nil _)
  obtain ⟨hstart, lead₁, hto₁, hplain₁⟩ := of_mem_margin hmargin
  obtain ⟨lead₂, hto₂, hplain₂⟩ := hoptional c₁ _ hasync
  obtain ⟨_, hto₃, rfl⟩ := passes_exactly _ c₂ _ hdef
  obtain ⟨lead₄, hto₄, hne, honly⟩ := passes_runSome isBlank c₃ _ hblank
  obtain ⟨rfl, hisName, hname, -⟩ := of_mem_named hnamed
  obtain ⟨gap, htoGap, hgapBlank⟩ := passes_run isBlank e _ hgap
  obtain ⟨_, htoBracket, rfl⟩ := passes_char '(' f _ hbracket
  have hplain₄ : Only isPlain lead₄ :=
    fun x hx => isPlain_of (by decide) (by decide) x (honly x hx)
  refine ⟨hstart, ⟨_, ((hto₁.trans hto₂).trans hto₃).trans hto₄, ?_⟩, ?_, hisName, gap, [], ?_,
    hgapBlank⟩
  · exact ((hplain₁.append hplain₂).append (List.all_eq_true.mp (by decide))).append hplain₄
  · exact (endsIn_of_only honly fun _ h => h).wordBefore (fun _ h => isWord_of_isBlank h) hne hto₄
  · exact hname.trans (htoGap.trans htoBracket)

/-- From a lead that leaves no word open, over a name and its parameters, to a brace. -/
theorem declaresBlock_of_parts {c b e f g d : Cursor} {s : Signature}
    (hstart : c.atLineStart = true) (hlead : ∃ lead, c.To lead b ∧ Only isPlain lead)
    (hapart : b.wordBefore = false) (hname : (s, e) ∈ plainName b)
    (hparameters : ((), f) ∈ parameters e) (hmore : ∃ more, f.To more g ∧ Only isPlain more)
    (hbrace : ((), d) ∈ char '{' g) : DeclaresBlock c s d := by
  obtain ⟨hnamed, huncontrolled⟩ := of_mem_plainName hname
  obtain ⟨rfl, hisName, hto, -⟩ := of_mem_named hnamed
  obtain ⟨gap, inside, htoInside, hblank, hinside⟩ := of_mem_parameters hparameters
  obtain ⟨more, htoMore, hplain⟩ := hmore
  obtain ⟨_, htoBrace, rfl⟩ := passes_char '{' g _ hbrace
  have hgap : Only isPlain gap := fun x hx => isPlain_of (by decide) (by decide) x (hblank x hx)
  have hbracket : Only isPlain ('(' :: inside) := List.forall_mem_cons.mpr ⟨by decide, hinside⟩
  refine ⟨⟨hstart, hlead, hapart, hisName, gap, inside ++ (more ++ ['{']), ?_, hblank⟩,
    huncontrolled, s.name ++ ((gap ++ '(' :: inside) ++ more), ?_, ?_⟩
  · have h := hto.trans (htoInside.trans (htoMore.trans htoBrace))
    rwa [List.append_assoc gap] at h
  · have h := (hto.trans (htoInside.trans htoMore)).trans htoBrace
    exact h
  · exact hisName.only_isPlain.append ((hgap.append hbracket).append hplain)

theorem declaresBlock_of_mem_methodSignature {c d : Cursor} {s : Signature}
    (h : (s, d) ∈ methodSignature c) : DeclaresBlock c s d := by
  obtain ⟨⟨⟨⟩, c₁⟩, hmargin, h⟩ := mem_bind.mp h
  obtain ⟨⟨⟨⟩, c₂⟩, hmodifiers, h⟩ := mem_bind.mp h
  obtain ⟨⟨⟨⟩, c₃⟩, htypes, h⟩ := mem_bind.mp h
  obtain ⟨⟨⟨⟩, c₄⟩, htype, h⟩ := mem_bind.mp h
  obtain ⟨⟨⟨⟩, c₅⟩, hblank, h⟩ := mem_bind.mp h
  obtain ⟨⟨s', e⟩, hname, h⟩ := mem_bind.mp h
  obtain ⟨⟨⟨⟩, f⟩, hparameters, h⟩ := mem_bind.mp h
  obtain ⟨⟨⟨⟩, g⟩, hthrows, h⟩ := mem_bind.mp h
  obtain ⟨⟨⟨⟩, k⟩, hbrace, h⟩ := mem_bind.mp h
  obtain ⟨rfl, rfl⟩ := Prod.mk.inj (mem_pure.mp h)
  have hmodifier : ∀ w ∈ modifiers, ∀ x ∈ w.toList, isPlain x = true := by
    simp only [← List.all_eq_true]
    decide
  have hwords : (repeated (oneOf (modifiers.map literal) >>= fun _ => runSome isBlank)).Passes
      (Only isPlain) :=
    ((passes_words hmodifier).only_bind fun _ => passes_someBlank).only_repeated
  have hparameter : (optional (typeArguments >>= fun _ => blanks)).Passes (Only isPlain) :=
    (passes_typeArguments.only_bind fun _ => passes_blanks).optional (only_nil _)
  obtain ⟨hstart, lead₁, hto₁, hplain₁⟩ := of_mem_margin hmargin
  obtain ⟨lead₂, hto₂, hplain₂⟩ := hwords c₁ _ hmodifiers
  obtain ⟨lead₃, hto₃, hplain₃⟩ := hparameter c₂ _ htypes
  obtain ⟨lead₄, hto₄, hplain₄⟩ := passes_typeName c₃ _ htype
  obtain ⟨lead₅, hto₅, hne, honly⟩ := passes_runSome isBlank c₄ _ hblank
  have hplain₅ : Only isPlain lead₅ :=
    fun x hx => isPlain_of (by decide) (by decide) x (honly x hx)
  have hlead : ∃ lead, c.To lead c₅ ∧ Only isPlain lead :=
    ⟨_, (((hto₁.trans hto₂).trans hto₃).trans hto₄).trans hto₅,
      (((hplain₁.append hplain₂).append hplain₃).append hplain₄).append hplain₅⟩
  have hapart : c₅.wordBefore = false :=
    (endsIn_of_only honly fun _ h => h).wordBefore (fun _ h => isWord_of_isBlank h) hne hto₅
  have hthrown := passes_throwsClause.optional (only_nil _) f _ hthrows
  exact declaresBlock_of_parts hstart hlead hapart hname hparameters hthrown hbrace

theorem declaresBlock_of_mem_blockSignature {c d : Cursor} {s : Signature}
    (h : (s, d) ∈ blockSignature c) : DeclaresBlock c s d := by
  obtain ⟨⟨⟨⟩, c₁⟩, hmargin, h⟩ := mem_bind.mp h
  obtain ⟨⟨⟨⟩, c₂⟩, hfirst, h⟩ := mem_bind.mp h
  obtain ⟨⟨⟨⟩, c₃⟩, hmore, h⟩ := mem_bind.mp h
  obtain ⟨⟨⟨⟩, c₄⟩, hstars, h⟩ := mem_bind.mp h
  obtain ⟨⟨s', e⟩, hname, h⟩ := mem_bind.mp h
  obtain ⟨⟨⟨⟩, f⟩, hparameters, h⟩ := mem_bind.mp h
  obtain ⟨⟨⟨⟩, g⟩, hbrace, h⟩ := mem_bind.mp h
  obtain ⟨rfl, rfl⟩ := Prod.mk.inj (mem_pure.mp h)
  obtain ⟨hstart, lead, hto, hplain⟩ := of_mem_margin hmargin
  obtain ⟨⟨parts, htoParts, hplainParts⟩, hapart⟩ := apart_of_parts hfirst hmore hstars
  exact declaresBlock_of_parts hstart ⟨_, hto.trans htoParts, hplain.append hplainParts⟩ hapart
    hname hparameters ⟨[], .refl f, only_nil _⟩ hbrace

/-! ## Matches -/

/-- The language reads the signature from one place of the text to another. -/
def Matches (lang : Language) (text : List Char) (c : Cursor) (s : Signature) (d : Cursor) : Prop :=
  c.text = text ∧ ∃ scan ∈ lang.profile.signatures, (scan c).head? = some (s, d)

theorem declares_of_mem {lang : Language} {scan : Scanner Signature}
    (hscan : scan ∈ lang.profile.signatures) {c d : Cursor} {s : Signature} (h : (s, d) ∈ scan c) :
    Declares c s d := by
  cases lang with
  | python =>
    obtain rfl := List.mem_singleton.mp hscan
    exact declares_of_mem_defSignature h
  | java =>
    obtain rfl := List.mem_singleton.mp hscan
    exact (declaresBlock_of_mem_methodSignature h).toDeclares
  | c =>
    obtain rfl := List.mem_singleton.mp hscan
    exact (declaresBlock_of_mem_blockSignature h).toDeclares

theorem declaresBlock_of_mem {lang : Language} (hbraces : lang.profile.usesBraces = true)
    {scan : Scanner Signature} (hscan : scan ∈ lang.profile.signatures) {c d : Cursor}
    {s : Signature} (h : (s, d) ∈ scan c) : DeclaresBlock c s d := by
  cases lang with
  | python => exact absurd hbraces (by decide)
  | java =>
    obtain rfl := List.mem_singleton.mp hscan
    exact declaresBlock_of_mem_methodSignature h
  | c =>
    obtain rfl := List.mem_singleton.mp hscan
    exact declaresBlock_of_mem_blockSignature h

theorem Declares.start_before {c d : Cursor} {s : Signature} (h : Declares c s d) :
    d.after.length < s.start.after.length ∧ s.start.after.length ≤ c.after.length := by
  obtain ⟨lead, hlead, -⟩ := h.lead
  obtain ⟨gap, more, hto, -⟩ := h.called
  refine ⟨?_, hlead.length_le⟩
  have hlength := congrArg List.length hto.ahead
  simp only [List.length_append, List.length_cons] at hlength
  omega

/-- Every signature is read over some part of the text. -/
theorem passes_signature {lang : Language} {scan : Scanner Signature}
    (hscan : scan ∈ lang.profile.signatures) : scan.Passes (· ≠ []) := by
  rintro c ⟨s, d⟩ h
  have hdeclares := declares_of_mem hscan h
  obtain ⟨lead, hlead, -⟩ := hdeclares.lead
  obtain ⟨gap, more, hto, -⟩ := hdeclares.called
  exact ⟨_, hlead.trans hto, by simp⟩

/-- Every function that a text declares has a match. -/
theorem exists_matches_of_mem_declared {lang : Language} {text : List Char} {s : Signature}
    (h : s ∈ declared lang text) : ∃ c d, Matches lang text c s d := by
  obtain ⟨scan, hscan, hs⟩ := List.mem_flatMap.mp h
  have hpasses := passes_signature hscan
  obtain ⟨c, d, hc, hhead⟩ := (finds_findAll hpasses text).exists_way hpasses hs
  exact ⟨c, d, hc, scan, hscan, hhead⟩

end BigO.Recursion
