-- A text with other blanks in it: each run of blanks is replaced by another one, and none is
-- taken out or put in. All else stays as it is, so the texts are cut at the same characters,
-- and a word ends where it ended.
import BigO.Proofs.Respacing

namespace BigO.Text

open BigO.Scan

/-- The second text is the first one with its runs of blanks replaced by others that are not
empty either. -/
inductive OtherBlanks : List Char → List Char → Prop
  | nil : OtherBlanks [] []
  | keep {x : Char} {a b : List Char} (hx : isBlank x = false) (rest : OtherBlanks a b) :
      OtherBlanks (x :: a) (x :: b)
  | replace {gap gap' a b : List Char} (hgap : Only isBlank gap) (hne : gap ≠ [])
      (hgap' : Only isBlank gap') (hne' : gap' ≠ []) (rest : OtherBlanks a b) :
      OtherBlanks (gap ++ a) (gap' ++ b)

/-- Blanks leave no word open. -/
theorem elim_getLast?_gap_append {gap : List Char} (hgap : Only isBlank gap) (hne : gap ≠ [])
    (text : List Char) (inWord : Bool) :
    (gap ++ text).getLast?.elim inWord isWord = text.getLast?.elim false isWord := by
  rw [List.getLast?_append]
  cases text.getLast? with
  | some y => rfl
  | none =>
    rw [List.getLast?_eq_some_getLast hne]
    exact isWord_of_isBlank (hgap _ (List.getLast_mem hne))

namespace OtherBlanks

variable {a b rest other token : List Char} {x : Char}

theorem symm (h : OtherBlanks a b) : OtherBlanks b a := by
  induction h with
  | nil => exact .nil
  | keep hx _ ih => exact .keep hx ih
  | replace hgap hne hgap' hne' _ ih => exact .replace hgap' hne' hgap hne ih

/-- A text of tokens that hold no blank is left alone. -/
theorem refl_of_only (h : Only (!isBlank ·) token) : OtherBlanks token token := by
  induction token with
  | nil => exact .nil
  | cons x xs ih =>
    obtain ⟨hx, hxs⟩ := List.forall_mem_cons.mp h
    exact .keep (by simpa using hx) (ih hxs)

theorem eq_nil (h : OtherBlanks [] b) : b = [] := by
  generalize htext : [] = text at h
  cases h with
  | nil => rfl
  | keep _ _ => exact absurd htext (by simp)
  | replace _ hne _ _ _ => exact absurd (List.append_eq_nil_iff.mp htext.symm).1 hne

/-- Blanks are replaced by blanks. -/
theorem only (h : OtherBlanks a b) (ha : Only isBlank a) : Only isBlank b := by
  induction h with
  | nil => exact ha
  | keep hx _ _ =>
    have hblank := ha _ (List.mem_cons_self ..)
    exact absurd (hx.symm.trans hblank) (by decide)
  | replace _ _ hgap' _ _ ih => exact hgap'.append (ih (List.forall_mem_append.mp ha).2)

/-- Both texts are cut in the same way at a character that is no blank. -/
theorem cut (hx : isBlank x = false) (h : OtherBlanks (a ++ x :: rest) other) :
    ∃ a' rest', other = a' ++ x :: rest' ∧ OtherBlanks a a' ∧ OtherBlanks rest rest' := by
  generalize htext : a ++ x :: rest = text at h
  induction h generalizing a with
  | nil => exact absurd htext (by simp)
  | @keep y text other hy hrest ih =>
    cases a with
    | nil =>
      obtain ⟨rfl, rfl⟩ := List.cons.inj htext
      exact ⟨[], other, rfl, .nil, hrest⟩
    | cons z zs =>
      obtain ⟨rfl, rfl⟩ := List.cons.inj htext
      obtain ⟨a', rest', rfl, ha, hmore⟩ := ih rfl
      exact ⟨z :: a', rest', rfl, .keep hy ha, hmore⟩
  | @replace gap gap' text other hgap hne hgap' hne' _ ih =>
    -- the run ends before the character, which is no blank
    have hrun : ∃ more, a = gap ++ more ∧ text = more ++ x :: rest := by
      rcases List.append_eq_append_iff.mp htext with ⟨more, rfl, hmore⟩ | ⟨more, rfl, hmore⟩
      · cases more with
        | nil => exact ⟨[], by simp, by simpa using hmore.symm⟩
        | cons y ys =>
          obtain ⟨rfl, -⟩ := List.cons.inj hmore
          have hblank : isBlank x = true := hgap x (by simp)
          exact absurd (hx.symm.trans hblank) (by decide)
      · exact ⟨more, rfl, hmore⟩
    obtain ⟨more, rfl, rfl⟩ := hrun
    obtain ⟨a', rest', rfl, ha, hmore⟩ := ih rfl
    exact ⟨gap' ++ a', rest', by simp, .replace hgap hne hgap' hne' ha, hmore⟩

/-- A token that holds no blank stays. -/
theorem after_token (htoken : Only (!isBlank ·) token) (h : OtherBlanks (token ++ rest) other) :
    ∃ rest', other = token ++ rest' ∧ OtherBlanks rest rest' := by
  induction token generalizing other with
  | nil => exact ⟨other, rfl, h⟩
  | cons x xs ih =>
    obtain ⟨hx, hxs⟩ := List.forall_mem_cons.mp htoken
    obtain ⟨none, more, rfl, hnone, hmore⟩ := cut (a := []) (by simpa using hx) h
    rw [eq_nil hnone]
    obtain ⟨rest', rfl, hrest⟩ := ih hxs hmore
    exact ⟨rest', rfl, hrest⟩

/-- Whether a word is open at the end is the same for both texts. -/
theorem getLast?_elim (h : OtherBlanks a b) (inWord : Bool) :
    a.getLast?.elim inWord isWord = b.getLast?.elim inWord isWord := by
  induction h generalizing inWord with
  | nil => rfl
  | keep _ _ ih => rw [elim_getLast?_cons, elim_getLast?_cons, ih]
  | replace hgap hne hgap' hne' _ ih =>
    rw [elim_getLast?_gap_append hgap hne, elim_getLast?_gap_append hgap' hne', ih]

end OtherBlanks

end BigO.Text
