-- How a progression is written: a sign that scales and assigns before a digit, or a whole name
-- that is set to itself scaled by a digit. A text is told to scale just if one is written in
-- it. Whatever starts to be written so goes on being so when more text follows, and when the
-- blanks in it are replaced by others.
import BigO.Loop.Factor
import BigO.Proofs.FirstDeclarations
import BigO.Proofs.Numerals
import BigO.Proofs.OtherBlanks

namespace BigO.Scan.Scanner

open BigO.Text

variable {α β : Type}

/-! ## Tokens in a row -/

/-- The scanner reads on just where what lies ahead is as `P` says. -/
def ReadsWhere (P : List Char → Prop) (s : Scanner α) : Prop :=
  ∀ c, s.reads c = true ↔ P c.after

/-- The text starts with the token, and after it and the blanks behind it comes what `next` says. -/
def StartsWith (token : List Char) (next : List Char → Prop) (text : List Char) : Prop :=
  ∃ gap rest, text = token ++ (gap ++ rest) ∧ Only isBlank gap ∧ next rest

theorem reads_bind_iff {s : Scanner α} {f : α → Scanner β} {c : Cursor} :
    (s >>= f).reads c = true ↔ ∃ r ∈ s c, (f r.1).reads r.2 = true := by
  simp only [reads_iff, mem_bind]
  constructor
  · rintro ⟨q, r, hr, hq⟩
    exact ⟨r, hr, q, hq⟩
  · rintro ⟨r, hr, q, hq⟩
    exact ⟨q, r, hr, hq⟩

theorem head?_any_iff {p : Char → Bool} {text : List Char} :
    text.head?.any p = true ↔ ∃ x xs, text = x :: xs ∧ p x = true := by
  cases text <;> simp

theorem readsWhere_one (p : Char → Bool) :
    (one p).ReadsWhere fun text => text.head?.any p = true := by
  intro c
  refine reads_iff.trans (Iff.trans ?_ head?_any_iff.symm)
  constructor
  · rintro ⟨r, hr⟩
    obtain ⟨x, xs, hc, hx, -⟩ := mem_one.mp hr
    exact ⟨x, xs, hc, hx⟩
  · rintro ⟨x, xs, hc, hx⟩
    exact ⟨((), _), mem_one.mpr ⟨x, xs, hc, hx, rfl⟩⟩

theorem char_eq_exactly (x : Char) : char x = exactly [x] := by
  funext c
  rcases c with ⟨before, _ | ⟨y, ys⟩⟩
  · rfl
  · simp only [char, one, exactly, Cursor.passExactly, id_eq]
    split <;> rfl

section Blanks

variable {s : Scanner β} {P : List Char → Prop} (hs : s.ReadsWhere P)
  (hP : ∀ text, P text → text.head?.any isBlank = false)

include hs hP

theorem readsWhere_blanks : (blanks >>= fun _ => s).ReadsWhere fun text =>
    ∃ gap rest, text = gap ++ rest ∧ Only isBlank gap ∧ P rest := by
  intro c
  rw [reads_bind_iff]
  constructor
  · rintro ⟨⟨⟨⟩, d⟩, hd, hreads⟩
    obtain ⟨gap, hto, hgap, -⟩ := mem_run_iff.mp hd
    exact ⟨gap, d.after, hto.ahead, hgap, (hs d).mp hreads⟩
  · rintro ⟨gap, rest, hc, hgap, hrest⟩
    refine ⟨((), ⟨gap.reverse ++ c.before, rest⟩), ?_, (hs _).mpr hrest⟩
    exact mem_run_iff.mpr ⟨gap, ⟨hc, rfl⟩, hgap, hP rest hrest⟩

/-- A token, then blanks, then what comes next. -/
theorem readsWhere_token (token : List Char) :
    (exactly token >>= fun _ => blanks >>= fun _ => s).ReadsWhere (StartsWith token P) := by
  intro c
  rw [reads_bind_iff]
  constructor
  · rintro ⟨r, hr, hreads⟩
    obtain ⟨gap, rest, hgapRest, hgap, hrest⟩ := (readsWhere_blanks hs hP r.2).mp hreads
    exact ⟨gap, rest, by rw [(mem_exactly_iff.mp hr).ahead, hgapRest], hgap, hrest⟩
  · rintro ⟨gap, rest, hc, hgap, hrest⟩
    refine ⟨((), ⟨token.reverse ++ c.before, gap ++ rest⟩), mem_exactly_iff.mpr ⟨hc, rfl⟩, ?_⟩
    exact (readsWhere_blanks hs hP _).mpr ⟨gap, rest, rfl, hgap, hrest⟩

/-- One of several tokens, then blanks, then what comes next. -/
theorem readsWhere_oneOf (tokens : List String) :
    (oneOf (tokens.map literal) >>= fun _ => blanks >>= fun _ => s).ReadsWhere fun text =>
      ∃ token ∈ tokens, StartsWith token.toList P text := by
  intro c
  have htoken := fun token : String => readsWhere_token hs hP token.toList c
  simp only [← htoken, reads_bind_iff, mem_oneOf, List.mem_map]
  constructor
  · rintro ⟨r, ⟨_, ⟨token, hmem, rfl⟩, hr⟩, hreads⟩
    exact ⟨token, hmem, r, hr, hreads⟩
  · rintro ⟨token, hmem, r, hr, hreads⟩
    exact ⟨r, ⟨_, ⟨token, hmem, rfl⟩, hr⟩, hreads⟩

end Blanks

end BigO.Scan.Scanner

namespace BigO.Loop

open BigO.Text BigO.Scan BigO.Scan.Scanner BigO.Recursion

/-! ## Progressions as they are written -/

/-- The signs that scale or shift, and assign at once. -/
def assignmentSigns : List String :=
  ["*=", "//=", "/=", ">>=", "<<="]

/-- The signs that scale or shift. -/
def scalingSigns : List String :=
  ["*", "//", "/", ">>", "<<"]

/-- The text starts with one of the signs and, after the blanks behind it, a digit. -/
def ScalesBy (signs : List String) (text : List Char) : Prop :=
  ∃ sign ∈ signs, StartsWith sign.toList (fun rest => rest.head?.any isDigit = true) text

/-- The text starts with a name, an equals sign, the same name, and a scaling by a digit. Each
time a blank or a sign follows the name, so it is not cut out of a longer one. -/
def ScalesItself (text : List Char) : Prop :=
  ∃ v, IsName v ∧
    StartsWith v (StartsWith ['='] (StartsWith v (ScalesBy scalingSigns))) text

/-- Somewhere in the text something is assigned that is scaled by a number. A name that is set
starts where no word goes on. -/
def HasProgression (text : List Char) : Prop :=
  ∃ before after, text = before ++ after ∧
    (ScalesBy assignmentSigns after ∨
      before.getLast?.any isWord = false ∧ ScalesItself after)

/-! ## What can follow, and what blanks can do -/

/-- What a text may start with: it begins with no blank, it stays where more text follows, and
it stays in a text with other blanks. -/
structure Lasting (P : List Char → Prop) : Prop where
  starts : ∀ {text}, P text → text.head?.any (!isBlank ·) = true
  append : ∀ {text}, P text → ∀ more, P (text ++ more)
  otherBlanks : ∀ {a b}, OtherBlanks a b → P a → P b

theorem Lasting.not_blank {P : List Char → Prop} (hP : Lasting P) (text : List Char) (h : P text) :
    text.head?.any isBlank = false := by
  obtain ⟨x, xs, rfl, hx⟩ := head?_any_iff.mp (hP.starts h)
  simpa using hx

theorem Lasting.exists_and {ι : Type} {Q : ι → Prop} {P : ι → List Char → Prop}
    (h : ∀ i, Q i → Lasting (P i)) : Lasting fun text => ∃ i, Q i ∧ P i text where
  starts := fun ⟨i, hi, hP⟩ => (h i hi).starts hP
  append := fun ⟨i, hi, hP⟩ more => ⟨i, hi, (h i hi).append hP more⟩
  otherBlanks := fun hab ⟨i, hi, hP⟩ => ⟨i, hi, (h i hi).otherBlanks hab hP⟩

theorem lasting_head {p : Char → Bool} (hp : ∀ x, p x = true → isBlank x = false) :
    Lasting fun text => text.head?.any p = true where
  starts := by
    intro text h
    obtain ⟨x, xs, rfl, hx⟩ := head?_any_iff.mp h
    simp [hp x hx]
  append := by
    intro text h more
    obtain ⟨x, xs, rfl, hx⟩ := head?_any_iff.mp h
    exact hx
  otherBlanks := by
    intro a b hab h
    obtain ⟨x, xs, rfl, hx⟩ := head?_any_iff.mp h
    have htoken : Only (!isBlank ·) [x] := List.forall_mem_singleton.mpr (by simp [hp x hx])
    obtain ⟨rest, rfl, -⟩ := hab.after_token htoken
    exact hx

/-- A token with no blank in it, and then what is lasting. -/
theorem Lasting.startsWith {P : List Char → Prop} (hP : Lasting P) {token : List Char}
    (hne : token ≠ []) (htoken : Only (!isBlank ·) token) : Lasting (StartsWith token P) where
  starts := by
    rintro _ ⟨gap, rest, rfl, -, -⟩
    rw [List.head?_append, List.head?_eq_some_head hne]
    exact htoken _ (List.head_mem hne)
  append := by
    rintro _ ⟨gap, rest, rfl, hgap, hrest⟩ more
    exact ⟨gap, rest ++ more, by simp, hgap, hP.append hrest more⟩
  otherBlanks := by
    rintro _ b hab ⟨gap, rest, rfl, hgap, hrest⟩
    obtain ⟨later, rfl, hlater⟩ := hab.after_token htoken
    obtain ⟨x, xs, rfl, hx⟩ := head?_any_iff.mp (hP.starts hrest)
    rw [Bool.not_eq_true'] at hx
    obtain ⟨gap', rest', rfl, hgaps, hrests⟩ := hlater.cut hx
    exact ⟨gap', x :: rest', rfl, hgaps.only hgap, hP.otherBlanks (.keep hx hrests) hrest⟩

theorem lasting_digit : Lasting fun text => text.head?.any isDigit = true :=
  lasting_head fun _ => isBlank_of_isDigit

theorem lasting_scalesBy {signs : List String}
    (h : ∀ sign ∈ signs, sign.toList ≠ [] ∧ sign.toList.all (!isBlank ·) = true) :
    Lasting (ScalesBy signs) :=
  .exists_and fun sign hsign =>
    lasting_digit.startsWith (h sign hsign).1 (List.all_eq_true.mp (h sign hsign).2)

theorem lasting_assignment : Lasting (ScalesBy assignmentSigns) :=
  lasting_scalesBy (by decide)

theorem lasting_scaling : Lasting (ScalesBy scalingSigns) :=
  lasting_scalesBy (by decide)

theorem only_not_blank {v : List Char} (hv : Only isWord v) : Only (!isBlank ·) v := by
  intro x hx
  rw [Bool.not_eq_true', Bool.eq_false_iff]
  intro hblank
  exact absurd ((isWord_of_isBlank hblank).symm.trans (hv x hx)) (by decide)

theorem lasting_equals {v : List Char} (hv : IsName v) :
    Lasting (StartsWith ['='] (StartsWith v (ScalesBy scalingSigns))) :=
  (lasting_scaling.startsWith hv.ne_nil (only_not_blank hv.only)).startsWith (by simp)
    (List.forall_mem_singleton.mpr (by decide))

theorem lasting_scalesItself : Lasting ScalesItself :=
  .exists_and fun _ hv => (lasting_equals hv).startsWith hv.ne_nil (only_not_blank hv.only)

/-! ## What is read -/

theorem readsWhere_scaling (signs : List String) :
    (oneOf (signs.map literal) >>= fun _ => blanks >>= fun _ => one isDigit).ReadsWhere
      (ScalesBy signs) :=
  readsWhere_oneOf (readsWhere_one isDigit) lasting_digit.not_blank signs

theorem readsWhere_scaledAssignment : scaledAssignment.ReadsWhere (ScalesBy assignmentSigns) :=
  readsWhere_scaling assignmentSigns

/-- What is read of a variable after its name. -/
theorem readsWhere_equals {v : List Char} (hv : IsName v) :
    (char '=' >>= fun _ => blanks >>= fun _ => exactly v >>= fun _ => blanks >>= fun _ =>
      oneOf (scalingSigns.map literal) >>= fun _ => blanks >>= fun _ => one isDigit).ReadsWhere
        (StartsWith ['='] (StartsWith v (ScalesBy scalingSigns))) := by
  have hscaled := readsWhere_token (readsWhere_scaling scalingSigns) lasting_scaling.not_blank v
  rw [char_eq_exactly]
  exact readsWhere_token hscaled
    (lasting_scaling.startsWith hv.ne_nil (only_not_blank hv.only)).not_blank ['=']

/-- A name is read whole, whatever comes after it. -/
theorem mem_name_iff {c d : Cursor} {v : List Char} :
    (∃ s, (s, d) ∈ name c ∧ s.text = v) ↔ IsName v ∧ c.To v d ∧ d.wordAfter = false := by
  constructor
  · rintro ⟨s, hs, rfl⟩
    have hnamed : (⟨s.start, s.text⟩, d) ∈ named c := mem_bind.mpr ⟨(s, d), hs, mem_pure.mpr rfl⟩
    exact (mem_named_iff.mp hnamed).2
  · rintro h
    have hnamed : (⟨c, v⟩, d) ∈ named c := mem_named_iff.mpr ⟨rfl, h⟩
    obtain ⟨⟨s, e⟩, hs, hpure⟩ := mem_bind.mp hnamed
    obtain ⟨hsame, rfl⟩ := Prod.mk.inj (mem_pure.mp hpure)
    exact ⟨s, hs, (Signature.mk.inj hsame).2.symm⟩

theorem readsWhere_name {β : Type} {k : List Char → Scanner β} {P : List Char → List Char → Prop}
    (hk : ∀ v, IsName v → (k v).ReadsWhere (P v))
    (hP : ∀ v, IsName v → ∀ text, P v text →
      text.head?.any isBlank = false ∧ text.head?.any isWord = false) :
    (name >>= fun s => blanks >>= fun _ => k s.text).ReadsWhere fun text =>
      ∃ v, IsName v ∧ StartsWith v (P v) text := by
  have hblanks := fun v hv => readsWhere_blanks (hk v hv) fun text h => (hP v hv text h).1
  intro c
  rw [reads_bind_iff]
  constructor
  · rintro ⟨⟨s, d⟩, hs, hreads⟩
    obtain ⟨hname, hto, -⟩ := mem_name_iff.mp ⟨s, hs, rfl⟩
    obtain ⟨gap, rest, hd, hgap, hrest⟩ := (hblanks _ hname d).mp hreads
    exact ⟨s.text, hname, gap, rest, by rw [hto.ahead, hd], hgap, hrest⟩
  · rintro ⟨v, hname, gap, rest, hc, hgap, hrest⟩
    have hend : (gap ++ rest).head?.any isWord = false := by
      cases gap with
      | nil => exact (hP v hname rest hrest).2
      | cons x xs => exact isWord_of_isBlank (hgap x (List.mem_cons_self ..))
    have hto : c.To v ⟨v.reverse ++ c.before, gap ++ rest⟩ := ⟨hc, rfl⟩
    obtain ⟨s, hs, rfl⟩ := mem_name_iff.mpr ⟨hname, hto, hend⟩
    exact ⟨(s, _), hs, (hblanks _ hname _).mpr ⟨gap, rest, rfl, hgap, hrest⟩⟩

theorem readsWhere_scaledName :
    (name >>= fun s => blanks >>= fun _ => char '=' >>= fun _ => blanks >>= fun _ =>
      exactly s.text >>= fun _ => blanks >>= fun _ => oneOf (scalingSigns.map literal) >>= fun _ =>
        blanks >>= fun _ => one isDigit).ReadsWhere ScalesItself := by
  refine readsWhere_name (fun v hv => readsWhere_equals hv) fun v hv text h => ?_
  refine ⟨(lasting_equals hv).not_blank text h, ?_⟩
  obtain ⟨gap, rest, rfl, -, -⟩ := h
  show isWord '=' = false
  decide

/-- A name is read where no word goes on. -/
theorem reads_scaledSelf_iff {c : Cursor} :
    scaledSelf.reads c = true ↔ c.wordBefore = false ∧ ScalesItself c.after := by
  have hedge : ScalesItself c.after → (c.atWordEdge = true ↔ c.wordBefore = false) := by
    rintro ⟨_, ⟨x, xs, rfl, hx, -⟩, gap, rest, hc, -, -⟩
    have hafter : c.wordAfter = true := by
      rw [Cursor.wordAfter, hc]
      exact isWord_of_isNameStart hx
    simp [Cursor.atWordEdge, hafter]
  have hname := readsWhere_scaledName c
  constructor
  · intro h
    obtain ⟨q, hq, hreads⟩ := reads_bind_iff.mp h
    obtain ⟨hat, rfl⟩ := mem_here.mp hq
    have hitself := hname.mp hreads
    exact ⟨(hedge hitself).mp hat, hitself⟩
  · rintro ⟨hbefore, hitself⟩
    have hat := (hedge hitself).mpr hbefore
    exact reads_bind_iff.mpr ⟨((), c), mem_here.mpr ⟨hat, rfl⟩, hname.mpr hitself⟩

theorem scales_iff_hasProgression {text : List Char} :
    scales text = true ↔ HasProgression text := by
  have hreads : ∀ c : Cursor, (either scaledAssignment scaledSelf).reads c = true ↔
      ScalesBy assignmentSigns c.after ∨ c.wordBefore = false ∧ ScalesItself c.after := by
    intro c
    rw [← reads_scaledSelf_iff, ← readsWhere_scaledAssignment c]
    simp only [reads_iff, mem_either, exists_or]
  rw [scales, occurs, List.any_eq_true]
  simp only [hreads, Cursor.mem_all]
  constructor
  · rintro ⟨c, rfl, h⟩
    refine ⟨c.before.reverse, c.after, rfl, ?_⟩
    rwa [List.getLast?_reverse]
  · rintro ⟨before, after, rfl, h⟩
    refine ⟨⟨before.reverse, after⟩, by simp [Cursor.text], ?_⟩
    rwa [Cursor.wordBefore, List.head?_reverse]

/-! ## More text, other blanks -/

theorem HasProgression.append {text : List Char} (h : HasProgression text) (more : List Char) :
    HasProgression (text ++ more) := by
  obtain ⟨before, after, rfl, h⟩ := h
  refine ⟨before, after ++ more, List.append_assoc .., ?_⟩
  rcases h with hassigns | ⟨hbefore, hitself⟩
  · exact .inl (lasting_assignment.append hassigns more)
  · exact .inr ⟨hbefore, lasting_scalesItself.append hitself more⟩

theorem HasProgression.otherBlanks {a b : List Char} (hab : OtherBlanks a b)
    (h : HasProgression a) : HasProgression b := by
  obtain ⟨before, after, rfl, h⟩ := h
  have hstarts : after.head?.any (!isBlank ·) = true :=
    h.elim lasting_assignment.starts fun h => lasting_scalesItself.starts h.2
  -- both texts are cut where the progression starts
  obtain ⟨x, xs, rfl, hx⟩ := head?_any_iff.mp hstarts
  rw [Bool.not_eq_true'] at hx
  obtain ⟨before', xs', rfl, hbefore', hxs⟩ := hab.cut hx
  have hafter : OtherBlanks (x :: xs) (x :: xs') := .keep hx hxs
  refine ⟨before', x :: xs', rfl, ?_⟩
  rcases h with hassigns | ⟨hbefore, hitself⟩
  · exact .inl (lasting_assignment.otherBlanks hafter hassigns)
  · refine .inr ⟨?_, lasting_scalesItself.otherBlanks hafter hitself⟩
    rw [← elim_getLast?_false] at hbefore ⊢
    rwa [← hbefore'.getLast?_elim]

/-! ## Laws -/

/-- A text is told to scale just if a progression is written in it. So it is still told to when
more text follows, and it is told the same of any text with other blanks. -/
theorem scales_as_written (text : List Char) :
    (scales text = true ↔ HasProgression text) ∧
    (scales text = true → ∀ more, scales (text ++ more) = true) ∧
    ∀ other, OtherBlanks text other → scales other = scales text := by
  refine ⟨scales_iff_hasProgression, fun h more => ?_, fun other hother => ?_⟩
  · rw [scales_iff_hasProgression] at h ⊢
    exact h.append more
  · rw [Bool.eq_iff_iff, scales_iff_hasProgression, scales_iff_hasProgression]
    exact ⟨.otherBlanks hother.symm, .otherBlanks hother⟩

/-- A variable that is halved, and the same in two lines. -/
def halvedName : List Char :=
  "k_1 = k_1//2".toList

def halvedOverLines : List Char :=
  "k_1\n\t=\u3000k_1//2".toList

theorem scales_as_written_halvedName :
    scales halvedName = true ∧ HasProgression halvedName ∧
      scales (halvedName ++ "0; k_1".toList) = true ∧
      OtherBlanks halvedName halvedOverLines ∧ scales halvedOverLines = true := by
  have hscales : scales halvedName = true := by decide +kernel
  have hother : OtherBlanks halvedName halvedOverLines := by
    have hspace : Only isBlank [' '] := List.all_eq_true.mp (by decide)
    have hfeed : Only isBlank ['\n', '\t'] := List.all_eq_true.mp (by decide)
    have hwide : Only isBlank ['\u3000'] := List.all_eq_true.mp (by decide)
    refine .keep (by decide) (.keep (by decide) (.keep (by decide) ?_))
    refine .replace hspace (by simp) hfeed (by simp) (.keep (by decide) ?_)
    refine .replace hspace (by simp) hwide (by simp) (.refl_of_only ?_)
    exact List.all_eq_true.mp (by decide)
  obtain ⟨hwritten, hmore, hblanks⟩ := scales_as_written halvedName
  exact ⟨hscales, hwritten.mp hscales, hmore hscales _, hother,
    (hblanks _ hother).trans hscales⟩

-- a name that is only a part of the other one is not scaled
example : scales "k_1 = k * 2".toList = false ∧ scales "k = k_1 * 2".toList = false := by
  decide +kernel

end BigO.Loop
