-- The functions that a text with paired returns declares, and those that the bare
-- text does. They are the same, one by one, if the bare text has no list of thrown
-- things that is nothing but a line feed: with its return that is two blanks, and
-- two blanks are taken for a list.
import BigO.Proofs.BareScans
import BigO.Proofs.Undeclared
import BigO.Recursion.Signal

namespace BigO.Recursion

open BigO.Text BigO.Scan BigO.Scan.Scanner

/-! ## Names -/

/-- A signature in the bare text and its like in the text. -/
structure SameSignature (text : List Char) (s s' : Signature) : Prop where
  name : s.name = s'.name
  start : s.start = s'.start.bare
  whole : Whole text s'.start
  first : s'.start.after.head?.any isNameStart = true
  nameable : Unbroken s'.name

theorem named_cons (before : List Char) (x : Char) (xs : List Char) :
    named ⟨before, x :: xs⟩ =
      if isNameStart x then
        [(⟨⟨before, x :: xs⟩, x :: xs.takeWhile isWord⟩, Cursor.pass isWord (x :: before) xs)]
      else [] := by
  have htext : Span.text ⟨⟨before, x :: xs⟩, Cursor.pass isWord (x :: before) xs⟩ =
      x :: xs.takeWhile isWord := by
    have hlength := congrArg List.length (List.takeWhile_append_dropWhile (p := isWord) (l := xs))
    rw [List.length_append] at hlength
    have hread : (x :: xs).length - (xs.dropWhile isWord).length =
        (xs.takeWhile isWord).length + 1 := by
      rw [List.length_cons]
      omega
    rw [Span.text, Cursor.pass_eq, hread, List.take_succ_cons]
    exact congrArg (x :: ·) (List.prefix_iff_eq_take.mp (List.takeWhile_prefix isWord)).symm
  cases hx : isNameStart x with
  | false =>
    have hone : one isNameStart ⟨before, x :: xs⟩ = [] := by simp [one, hx]
    show (((one isNameStart ⟨before, x :: xs⟩).flatMap _).flatMap _ ++ []).flatMap _ = []
    rw [hone]
    rfl
  | true =>
    have hone : one isNameStart ⟨before, x :: xs⟩ = [((), ⟨x :: before, xs⟩)] := by simp [one, hx]
    show (((one isNameStart ⟨before, x :: xs⟩).flatMap _).flatMap _ ++ []).flatMap _ = _
    rw [hone, ← htext]
    rfl

section Paired

variable {text : List Char}

theorem agrees_named (htext : PairedSoFar text) :
    Agrees (Whole text) (Whole text) (SameSignature text) named named := by
  rintro ⟨before, after⟩ hc
  cases after with
  | nil => exact .nil
  | cons x xs =>
    by_cases hx : x = '\r'
    · subst hx
      rw [named_cons]
      rcases after_return htext hc.inText with rfl | ⟨more, rfl⟩
      · exact .nil
      · show List.Forall₂ _ (named ⟨Text.bare before, '\n' :: Text.bare more⟩) _
        rw [named_cons]
        exact .nil
    · have hrest : (xs.takeWhile isWord).all isWord = true := List.all_takeWhile
      have hr : '\r' ∉ xs.takeWhile isWord := fun hmem =>
        absurd (List.all_eq_true.mp hrest _ hmem) (by decide)
      have hn : '\n' ∉ xs.takeWhile isWord := fun hmem =>
        absurd (List.all_eq_true.mp hrest _ hmem) (by decide)
      have hnext : Whole text ⟨x :: before, xs⟩ := .next hc.inText hx
      have hname : (Text.bare xs).takeWhile isWord = xs.takeWhile isWord := by
        rw [takeWhile_bare (by decide) (pairedSoFar_after htext hnext.inText), bare_eq_self hr]
      have hpass := pass_bare htext (p := isWord) (by decide) hnext.inText
      rw [Cursor.bare, bare_cons hx] at hpass ⊢
      rw [named_cons, named_cons, hname]
      split
      · rename_i hstart
        have hxn : x ≠ '\n' := by
          rintro rfl
          exact absurd hstart (by decide)
        refine .cons ⟨⟨rfl, ?_, hc, by simpa using hstart, ?_⟩, hpass, ?_, ?_⟩ .nil
        · rw [Cursor.bare, bare_cons hx]
        · simp [Unbroken, hr, hn, Ne.symm hx, Ne.symm hxn]
        · exact Nat.le_trans (length_pass_le isWord ⟨x :: before, xs⟩) (by simp)
        · exact whole_pass (by decide) hnext
      · exact .nil

/-! ## Margins -/

theorem atLineStart_bare {c : Cursor} (hc : Whole text c) : c.bare.atLineStart = c.atLineStart := by
  rw [Cursor.atLineStart, Cursor.atLineStart, head?_before_bare hc]

theorem agrees_margin (htext : PairedSoFar text) :
    Agrees (Whole text) (Whole text) Eq margin margin :=
  (agrees_here fun _ hc => atLineStart_bare hc).bind fun _ _ _ =>
    agrees_run htext (by decide) (by decide)

/-- No line starts between a return and its line feed. -/
theorem margin_bind_torn {α : Type} (f : Unit → Scanner α) {c : Cursor} (hc : Torn text c) :
    (margin >>= f) c = [] := by
  have hstart : c.atLineStart = false := by
    rw [Cursor.atLineStart, hc.parts]
    decide
  exact margin_bind_eq_nil fun h => by rw [hstart] at h; exact Bool.noConfusion h

end Paired

/-! ## Signatures -/

section Signatures

variable {text : List Char} (htext : Paired text)

include htext

theorem agrees_blanks_whole : Agrees (Whole text) (Whole text) Eq blanks blanks :=
  (agrees_blanks htext.soFar).mono (fun _ h => h.landed) fun _ h => h.whole htext

theorem agrees_someBlank :
    Agrees (Whole text) (Whole text) Eq (runSome isBlank) (runSome isBlank) :=
  agrees_runSome_over htext (by decide) (by decide)

theorem agrees_given {w : String} (hw : Unbroken w.toList) :
    Agrees (Whole text) (Whole text) Eq (literal w) (literal w) :=
  (agrees_literal htext.soFar hw).fromWhole

theorem agrees_sign {x : Char} (hr : x ≠ '\r') (hn : x ≠ '\n') :
    Agrees (Whole text) (Whole text) Eq (char x) (char x) :=
  (agrees_char htext.soFar hr hn).fromWhole

theorem agrees_oneWord {ws : List String} (h : ∀ w ∈ ws, Unbroken w.toList) :
    Agrees (Whole text) (Whole text) Eq (oneOf (ws.map literal)) (oneOf (ws.map literal)) := by
  refine agrees_oneOf fun s hs => ?_
  obtain ⟨w, hw, rfl⟩ := List.mem_map.mp hs
  exact agrees_given htext (h w hw)

theorem agrees_defSignature :
    Agrees (Whole text) (Whole text) (SameSignature text) defSignature defSignature := by
  have hasync : Agrees (Whole text) (Whole text) Eq
      (literal "async" >>= fun _ => runSome isBlank)
      (literal "async" >>= fun _ => runSome isBlank) :=
    (agrees_given htext (by decide)).bind fun _ _ _ => agrees_someBlank htext
  refine (agrees_margin htext.soFar).bind fun _ _ _ => ?_
  refine hasync.optional.bind fun _ _ _ => ?_
  refine (agrees_given htext (by decide)).bind fun _ _ _ => ?_
  refine (agrees_someBlank htext).bind fun _ _ _ => ?_
  refine (agrees_named htext.soFar).bind fun s s' hs => ?_
  refine (agrees_blanks_whole htext).bind fun _ _ _ => ?_
  exact (agrees_sign htext (by decide) (by decide)).bind fun _ _ _ => agrees_pure hs

theorem agrees_plainName :
    Agrees (Whole text) (Whole text) (SameSignature text) plainName plainName := by
  have hcontrol : Agrees (Whole text) (Whole text) Eq
      (oneOf (controlWords.map literal) >>= fun _ => wordEdge)
      (oneOf (controlWords.map literal) >>= fun _ => wordEdge) :=
    (agrees_oneWord htext (by decide)).bind fun _ _ _ => agrees_wordEdge htext.soFar
  exact hcontrol.notAhead.bind fun _ _ _ => agrees_named htext.soFar

theorem agrees_parameters : Agrees (Whole text) (Whole text) Eq parameters parameters := by
  refine (agrees_blanks_whole htext).bind fun _ _ _ => ?_
  refine (agrees_sign htext (by decide) (by decide)).bind fun _ _ _ => ?_
  refine agrees_many_bind htext.soFar (by decide) (fun c hc => ?_) ?_
  · exact bind_eq_nil (one_torn htext.soFar (by decide) hc)
  · exact (agrees_sign htext (by decide) (by decide)).bind fun _ _ _ => agrees_blanks_whole htext

theorem agrees_declarationPart :
    Agrees (Whole text) (Whole text) Eq declarationPart declarationPart := by
  refine Agrees.either ?_ ?_
  · refine (agrees_one htext.soFar (by decide) (by decide)).fromWhole.bind fun _ _ _ => ?_
    refine (agrees_run htext.soFar (by decide) (by decide)).bind fun _ _ _ => ?_
    exact (agrees_runSome htext.soFar (by decide) (by decide)).fromWhole
  · refine (agrees_sign htext (by decide) (by decide)).bind fun _ _ _ => ?_
    exact agrees_run htext.soFar (by decide) (by decide)

omit htext in
theorem forward_runSome (p : Char → Bool) : (runSome p).Forward :=
  (forward_one p).bind fun _ => forward_run p

omit htext in
theorem consumes_declarationPart : declarationPart.Consumes := by
  refine Consumes.either ?_ ?_
  · exact (consumes_one _).bind_forward fun _ => (forward_run _).bind fun _ => forward_runSome _
  · exact (consumes_one _).bind_forward fun _ => forward_run _

theorem agrees_blockSignature :
    Agrees (Whole text) (Whole text) (SameSignature text) blockSignature blockSignature := by
  have hpart := agrees_declarationPart htext
  refine (agrees_margin htext.soFar).bind fun _ _ _ => ?_
  refine hpart.bind fun _ _ _ => ?_
  refine (hpart.repeated consumes_declarationPart).bind fun _ _ _ => ?_
  refine (agrees_run htext.soFar (by decide) (by decide)).bind fun _ _ _ => ?_
  refine (agrees_plainName htext).bind fun s s' hs => ?_
  refine (agrees_parameters htext).bind fun _ _ _ => ?_
  exact (agrees_sign htext (by decide) (by decide)).bind fun _ _ _ => agrees_pure hs

/-! ## Methods -/

theorem agrees_typeArguments : Agrees (Whole text) (Whole text) Eq typeArguments typeArguments := by
  refine (agrees_sign htext (by decide) (by decide)).bind fun _ _ _ => ?_
  refine agrees_many_bind htext.soFar (by decide) (fun c hc => ?_) ?_
  · exact one_torn htext.soFar (by decide) hc
  · exact agrees_sign htext (by decide) (by decide)

theorem agrees_typeName : Agrees (Whole text) (Whole text) Eq typeName typeName := by
  have hblanks := agrees_blanks_whole htext
  have hbrackets : Agrees (Whole text) (Whole text) Eq
      (blanks >>= fun _ => char '[' >>= fun _ => blanks >>= fun _ => char ']')
      (blanks >>= fun _ => char '[' >>= fun _ => blanks >>= fun _ => char ']') :=
    hblanks.bind fun _ _ _ => (agrees_sign htext (by decide) (by decide)).bind fun _ _ _ =>
      hblanks.bind fun _ _ _ => agrees_sign htext (by decide) (by decide)
  have hconsumes :
      (blanks >>= fun _ => char '[' >>= fun _ => blanks >>= fun _ => char ']').Consumes :=
    (forward_run _).bind_consumes fun _ => (consumes_one _).bind_forward fun _ =>
      (forward_run _).bind fun _ => forward_one _
  refine (agrees_runSome htext.soFar (by decide) (by decide)).fromWhole.bind fun _ _ _ => ?_
  refine (hblanks.bind fun _ _ _ => agrees_typeArguments htext).optional.bind fun _ _ _ => ?_
  exact hbrackets.repeated hconsumes

/-- What a list of thrown things may hold. -/
def isThrown (c : Char) : Bool :=
  isWord c || isBlank c || c == ',' || c == '.'

/-- A blank and something that may be thrown come next. -/
def throwsNext : List Char → Bool
  | x :: y :: _ => isBlank x && isThrown y
  | _ => false

omit htext in
theorem throwsClause_bind {β : Type} (f : Unit → Scanner β) :
    throwsClause >>= f = literal "throws" >>= fun _ =>
      (one isBlank >>= fun _ => runSome isThrown) >>= f :=
  bind_bind (literal "throws") (fun _ => one isBlank >>= fun _ => runSome isThrown) f

omit htext in
/-- The blank is part of the run after it, so the run may as well start with it. -/
theorem thrown_eq (c : Cursor) : (one isBlank >>= fun _ => runSome isThrown) c =
    if throwsNext c.after then run isThrown c else [] := by
  rcases c with ⟨before, after⟩
  show (one isBlank ⟨before, after⟩).flatMap (fun r => runSome isThrown r.2) = _
  cases after with
  | nil => rfl
  | cons x xs =>
    cases hx : isBlank x with
    | false =>
      cases xs with
      | nil => simp [one, hx, throwsNext]
      | cons y ys => simp [one, hx, throwsNext]
    | true =>
      have hthrown : isThrown x = true := by simp [isThrown, hx]
      simp only [one, hx, if_true, List.flatMap_singleton, runSome_eq]
      cases xs with
      | nil => simp [throwsNext]
      | cons y ys => simp [throwsNext, hx, run, Cursor.pass, hthrown]

omit htext in
theorem thrown_bind {β : Type} (f : Unit → Scanner β) (c : Cursor) :
    ((one isBlank >>= fun _ => runSome isThrown) >>= f) c =
      if throwsNext c.after then f () (Cursor.pass isThrown c.before c.after) else [] := by
  show ((one isBlank >>= fun _ => runSome isThrown) c).flatMap (fun r => f r.1 r.2) = _
  rw [thrown_eq]
  split
  · exact List.flatMap_singleton ..
  · rfl

omit htext in
/-- A line feed with its return is a list of thrown things, and the line feed alone is
none. All else is a list in the bare text just if it is one. -/
theorem throwsNext_bare {after : List Char} (h : Paired after) :
    throwsNext (Text.bare after) = throwsNext after ∨
      throwsNext (Text.bare after) = false ∧
        ∃ more, after = '\r' :: '\n' :: more ∧ more.head?.any isThrown = false := by
  cases after with
  | nil => exact .inl rfl
  | cons x xs =>
    obtain ⟨hfirst, hxs⟩ := paired_cons.mp h
    by_cases hx : x = '\r'
    · subst hx
      obtain ⟨more, rfl⟩ := List.head?_eq_some_iff.mp (hfirst rfl)
      cases more with
      | nil => exact .inr ⟨rfl, [], rfl, rfl⟩
      | cons z zs =>
        by_cases hz : z = '\r'
        · subst hz
          have hfeed := (paired_cons.mp (paired_cons.mp hxs).2).1 rfl
          obtain ⟨rest, rfl⟩ := List.head?_eq_some_iff.mp hfeed
          exact .inl rfl
        · rw [bare_return, bare_feed, bare_cons hz]
          cases hthrown : isThrown z with
          | true => exact .inl (by simp [throwsNext, hthrown]; decide)
          | false => exact .inr ⟨by simp [throwsNext, hthrown], z :: zs, rfl, by simp [hthrown]⟩
    · refine .inl ?_
      rw [bare_cons hx]
      cases xs with
      | nil => rfl
      | cons y ys =>
        by_cases hy : y = '\r'
        · subst hy
          obtain ⟨rest, rfl⟩ := List.head?_eq_some_iff.mp ((paired_cons.mp hxs).1 rfl)
          rfl
        · rw [bare_cons hy]
          rfl

omit htext in
/-- A word behind and a line end ahead are a word and a line feed in the bare text. -/
theorem infix_bare_of_behind {word more : List Char} (hword : '\r' ∉ word) {c : Cursor}
    (hbehind : word.reverse <+: c.before) (hafter : c.after = '\r' :: '\n' :: more) :
    word ++ '\n' :: Text.bare more <:+: Text.bare c.text := by
  obtain ⟨before, hbefore⟩ := hbehind
  refine ⟨Text.bare before.reverse, [], ?_⟩
  rw [Cursor.text, ← hbefore, hafter, List.reverse_append, List.reverse_reverse, bare_append,
    bare_append, bare_eq_self hword, bare_return, bare_feed, List.append_nil, List.append_assoc]

/-- The word `throws`, and nothing but a line feed before a block. -/
def throwsNothing : List Char :=
  "throws".toList ++ ['\n', '{']

/-- The word `throws` is behind. -/
def AfterThrows (c : Cursor) : Prop :=
  "throws".toList.reverse <+: c.before

theorem agrees_throws :
    Agrees (Whole text) (fun c => Whole text c ∧ AfterThrows c) Eq (literal "throws")
      (literal "throws") := by
  refine (agrees_given htext (by decide)).of_mem fun c r hc hr hwhole => ⟨hwhole, ?_⟩
  obtain ⟨passed, hafter, hbefore⟩ := exists_passed (hwhole.inText.trans hc.inText.symm)
    (by rw [after_of_mem_literal hr, List.length_append]; omega)
  rw [after_of_mem_literal hr] at hafter
  rw [AfterThrows, hbefore, List.append_cancel_right hafter]
  exact List.prefix_append _ _

section Throws

variable (hthrows : ¬ throwsNothing <:+: Text.bare text)

include hthrows

omit htext in
/-- A line end alone is no list of thrown things before a block. -/
theorem not_block_after_throws {c : Cursor} (hc : c.text = text) (hbehind : AfterThrows c)
    {more : List Char} (hafter : c.after = '\r' :: '\n' :: more) : more.head? ≠ some '{' := by
  intro hblock
  obtain ⟨rest, rfl⟩ := List.head?_eq_some_iff.mp hblock
  have hbehind : "throws".toList ++ '\n' :: Text.bare ('{' :: rest) <:+: Text.bare text :=
    hc ▸ infix_bare_of_behind (by decide) hbehind hafter
  have hstart : throwsNothing <+: "throws".toList ++ '\n' :: Text.bare ('{' :: rest) :=
    (List.prefix_append_right_inj _).mpr ⟨Text.bare rest, rfl⟩
  exact hthrows (hstart.isInfix.trans hbehind)

theorem agrees_throwsClause_bind {β β' : Type} {W : β → β' → Prop} {f : Unit → Scanner β}
    {f' : Unit → Scanner β'}
    (hf : Agrees (Whole text) (Whole text) W (char '{' >>= f) (char '{' >>= f')) :
    Agrees (Whole text) (Whole text) W (throwsClause >>= fun _ => char '{' >>= f)
      (throwsClause >>= fun _ => char '{' >>= f') := by
  rw [throwsClause_bind, throwsClause_bind]
  refine (agrees_throws htext).bind fun _ _ _ => ?_
  rintro c ⟨hc, hbehind⟩
  rw [thrown_bind, thrown_bind]
  have hpass := pass_bare htext.soFar (p := isThrown) (by decide) hc.inText
  have hreached : Whole text (Cursor.pass isThrown c.before c.after) :=
    (landed_pass htext.soFar (by decide) hc.inText).whole htext
  rw [hpass]
  rcases throwsNext_bare (htext.suffix ⟨c.before.reverse, hc.inText⟩) with
    hsame | ⟨hnone, more, hafter, hmore⟩
  · change throwsNext c.bare.after = _ at hsame
    rw [hsame]
    split
    · exact (hf _ hreached).imp fun _ _ h => h.earlier (length_pass_le isThrown c)
    · exact .nil
  · -- a line end is taken for a list here, but no block comes after it
    change throwsNext c.bare.after = _ at hnone
    have hdrop : (Cursor.pass isThrown c.before c.after).after = more := by
      rw [Cursor.pass_eq, hafter]
      show List.dropWhile isThrown ('\r' :: '\n' :: more) = more
      rw [List.dropWhile_cons_of_pos (by decide), List.dropWhile_cons_of_pos (by decide)]
      cases more with
      | nil => rfl
      | cons z zs => exact List.dropWhile_cons_of_neg (by simpa using hmore)
    have hend : (char '{' >>= f') (Cursor.pass isThrown c.before c.after) = [] := by
      refine bind_eq_nil ((needs_char '{').eq_nil ?_)
      rw [hdrop]
      exact not_block_after_throws hthrows hc.inText hbehind hafter
    rw [hnone, hend]
    simp

theorem agrees_methodSignature :
    Agrees (Whole text) (Whole text) (SameSignature text) methodSignature methodSignature := by
  have hmodifier : Agrees (Whole text) (Whole text) Eq
      (oneOf (modifiers.map literal) >>= fun _ => runSome isBlank)
      (oneOf (modifiers.map literal) >>= fun _ => runSome isBlank) :=
    (agrees_oneWord htext (by decide)).bind fun _ _ _ => agrees_someBlank htext
  have hconsumes : (oneOf (modifiers.map literal) >>= fun _ => runSome isBlank).Consumes := by
    refine Forward.bind_consumes ?_ fun _ => (consumes_one _).bind_forward fun _ => forward_run _
    intro c r hr
    obtain ⟨s, hs, hr⟩ := mem_oneOf.mp hr
    obtain ⟨w, -, rfl⟩ := List.mem_map.mp hs
    exact forward_exactly _ c r hr
  have htypes := (agrees_typeArguments htext).bind fun _ _ _ => agrees_blanks_whole htext
  refine (agrees_margin htext.soFar).bind fun _ _ _ => ?_
  refine (hmodifier.repeated hconsumes).bind fun _ _ _ => ?_
  refine htypes.optional.bind fun _ _ _ => ?_
  refine (agrees_typeName htext).bind fun _ _ _ => ?_
  refine (agrees_someBlank htext).bind fun _ _ _ => ?_
  refine (agrees_plainName htext).bind fun s s' hs => ?_
  refine (agrees_parameters htext).bind fun _ _ _ => ?_
  have hblock : Agrees (Whole text) (Whole text) (SameSignature text)
      (char '{' >>= fun _ => pure s) (char '{' >>= fun _ => pure s') :=
    (agrees_sign htext (by decide) (by decide)).bind fun _ _ _ => agrees_pure hs
  exact agrees_optional_bind (agrees_throwsClause_bind htext hthrows hblock) hblock

end Throws

/-! ## Declared functions -/

/-- The functions that a text declares are those of the bare text, one by one. -/
theorem forall₂_declared (lang : Language)
    (hthrows : lang = .java → ¬ throwsNothing <:+: Text.bare text) :
    List.Forall₂ (SameSignature text) (declared lang (Text.bare text)) (declared lang text) := by
  have hall : ∀ s ∈ lang.profile.signatures,
      Agrees (Whole text) (Whole text) (SameSignature text) s s ∧ ∀ c, Torn text c → s c = [] := by
    cases lang with
    | python =>
      exact List.forall_mem_singleton.mpr
        ⟨agrees_defSignature htext, fun c hc => margin_bind_torn _ hc⟩
    | java =>
      exact List.forall_mem_singleton.mpr
        ⟨agrees_methodSignature htext (hthrows rfl), fun c hc => margin_bind_torn _ hc⟩
    | c =>
      exact List.forall_mem_singleton.mpr
        ⟨agrees_blockSignature htext, fun c hc => margin_bind_torn _ hc⟩
  unfold declared
  generalize lang.profile.signatures = signatures at hall
  induction signatures with
  | nil => exact .nil
  | cons s signatures ih =>
    obtain ⟨⟨hs, htorn⟩, hrest⟩ := List.forall_mem_cons.mp hall
    have hfound := forall₂_findAll htext.soFar hs (fun c hc => ⟨hc.inText, .inl hc⟩) htorn
    exact List.rel_append hfound (ih hrest)

end Signatures

end BigO.Recursion
