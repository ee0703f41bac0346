-- Lines that declare no function: from the start of a loop or the end of a block
-- no signature goes on.
import BigO.Language
import BigO.Proofs.Places

namespace BigO.Recursion

open BigO.Text BigO.Scan BigO.Scan.Scanner

/-- What a place has ahead once the blank at the start of its line is passed. -/
def afterMargin (c : Cursor) : List Char :=
  c.after.dropWhile isInLineBlank

/-- A signature is found only at the start of a line, past its margin. -/
theorem margin_bind_eq_nil {α : Type} {f : Unit → Scanner α} {c : Cursor}
    (h : c.atLineStart = true → ∀ d : Cursor, d.after = afterMargin c → f () d = []) :
    (margin >>= f) c = [] := by
  apply eq_nil_of_always
  intro r hr
  obtain ⟨q, hq, hr⟩ := mem_bind.mp hr
  obtain ⟨p, hp, hq⟩ := mem_bind.mp hq
  obtain ⟨hstart, rfl⟩ := mem_here.mp hp
  rw [List.mem_singleton.mp hq] at hr
  rw [h hstart _ (by rw [Cursor.pass_eq]; rfl)] at hr
  exact List.not_mem_nil hr

/-- A bracket is no name. -/
theorem plainName_eq_nil {c : Cursor} {rest : List Char} (hc : c.after = '(' :: rest) :
    plainName c = [] := by
  apply eq_nil_of_always
  refine Always.bind (Q := fun _ left => left = c.after) ?_ fun _ d hd => ?_
  · intro r hr
    obtain ⟨-, rfl⟩ := mem_here.mp hr
    rfl
  · rw [hc] at hd
    rcases d with ⟨before, after⟩
    subst hd
    exact always_of_eq_nil rfl

/-! ## Indented functions -/

theorem defSignature_eq_nil {c : Cursor} (h : c.atLineStart = true →
    (afterMargin c).head? = some 'f' ∨ (afterMargin c).head? = some 'p') :
    defSignature c = [] := by
  refine margin_bind_eq_nil fun hstart d hd => ?_
  rcases d with ⟨before, after⟩
  rw [← hd] at h
  rcases h hstart with h | h
  · obtain ⟨rest, rfl⟩ := List.head?_eq_some_iff.mp h
    rfl
  · obtain ⟨rest, rfl⟩ := List.head?_eq_some_iff.mp h
    rfl

/-! ## Functions with a block -/

/-- A line with this text opens a loop or closes a block. -/
def OpensOrCloses (text : List Char) : Prop :=
  (∃ rest, text = 'f' :: 'o' :: 'r' :: ' ' :: '(' :: rest) ∨ ∃ rest, text = '}' :: rest

/-- The word `for` may be part of a declaration, but only up to its bracket. -/
theorem always_declarationPart {c : Cursor} {rest : List Char}
    (hc : c.after = 'f' :: 'o' :: 'r' :: ' ' :: '(' :: rest) :
    declarationPart.Always c fun _ left => left = '(' :: rest := by
  refine Always.either ?_ ?_
  · have hword : ∀ y ∈ ['o', 'r'], isWord y = true := List.all_eq_true.mp (by decide)
    refine (always_one hc).bind fun _ d hd => ?_
    refine (always_run ['o', 'r'] hd.2 hword (by decide)).bind fun _ d hd => ?_
    exact always_runSome [] hd (by simp) (by decide)
  · exact always_of_eq_nil (eq_nil_of_head (needs_char '*').bind_left hc (by decide))

theorem declarationPart_eq_nil {c : Cursor} {x : Char} {rest : List Char}
    (hc : c.after = x :: rest) (hx : x = '(' ∨ x = '}') : declarationPart c = [] := by
  rcases c with ⟨before, after⟩
  subst hc
  rcases hx with rfl | rfl
  · rfl
  · rfl

theorem blockSignature_eq_nil {c : Cursor}
    (h : c.atLineStart = true → OpensOrCloses (afterMargin c)) : blockSignature c = [] := by
  refine margin_bind_eq_nil fun hstart d hd => ?_
  rw [← hd] at h
  apply eq_nil_of_always
  rcases h hstart with ⟨rest, h⟩ | ⟨rest, h⟩
  · refine (always_declarationPart h).bind fun _ d hd => ?_
    refine (always_repeated (declarationPart_eq_nil hd (.inl rfl))).bind fun _ e he => ?_
    refine (always_run [] (he.trans hd) (by simp) (by decide)).bind fun _ d hd => ?_
    exact always_of_eq_nil (bind_eq_nil (plainName_eq_nil hd))
  · exact always_of_eq_nil (bind_eq_nil (declarationPart_eq_nil h (.inr rfl)))

/-- The word `for` may be the name of a type, but only up to its bracket. -/
theorem always_typeName {c : Cursor} {rest : List Char}
    (hc : c.after = 'f' :: 'o' :: 'r' :: ' ' :: '(' :: rest) :
    typeName.Always c fun _ left => left = ' ' :: '(' :: rest := by
  have hsuffix : ∀ {s : Scanner Unit} {d : Cursor} {x : Char}, d.after = ' ' :: '(' :: rest →
      s.Needs (fun text => text.head? = some x) → x ≠ '(' → (blanks >>= fun _ => s) d = [] := by
    intro s d x hd hs hx
    apply eq_nil_of_always
    refine (always_run [' '] hd (List.all_eq_true.mp (by decide)) (by decide)).bind fun _ e he => ?_
    exact always_of_eq_nil (eq_nil_of_head hs he (Ne.symm hx))
  have hword : ∀ y ∈ ['o', 'r'], (isWord y || y == '.' || y == '?') = true :=
    List.all_eq_true.mp (by decide)
  refine (always_runSome ['o', 'r'] hc hword (by decide)).bind fun _ d hd => ?_
  refine (always_optional (hsuffix hd (needs_char '<').bind_left (by decide))).bind ?_
  intro _ e he
  rw [hd] at he
  rw [← he]
  exact always_repeated (hsuffix he (needs_char '[').bind_left (by decide))

theorem typeName_eq_nil {c : Cursor} {rest : List Char} (hc : c.after = '}' :: rest) :
    typeName c = [] := by
  rcases c with ⟨before, after⟩
  subst hc
  rfl

theorem modifier_eq_nil {c : Cursor} (h : OpensOrCloses c.after) :
    oneOf (modifiers.map literal) c = [] := by
  rcases c with ⟨before, after⟩
  rcases h with ⟨rest, rfl⟩ | ⟨rest, rfl⟩
  · rfl
  · rfl

theorem typeArguments_eq_nil {c : Cursor} (h : OpensOrCloses c.after) : typeArguments c = [] := by
  rcases h with ⟨rest, h⟩ | ⟨rest, h⟩
  · exact eq_nil_of_head (needs_char '<').bind_left h (by decide)
  · exact eq_nil_of_head (needs_char '<').bind_left h (by decide)

theorem methodSignature_eq_nil {c : Cursor}
    (h : c.atLineStart = true → OpensOrCloses (afterMargin c)) : methodSignature c = [] := by
  refine margin_bind_eq_nil fun hstart d hd => ?_
  have hd := hd ▸ h hstart
  apply eq_nil_of_always
  refine (always_repeated (bind_eq_nil (modifier_eq_nil hd))).bind fun _ e he => ?_
  rw [← he] at hd
  refine (always_optional (bind_eq_nil (typeArguments_eq_nil hd))).bind fun _ d he => ?_
  rw [← he] at hd
  rcases hd with ⟨rest, hd⟩ | ⟨rest, hd⟩
  · refine (always_typeName hd).bind fun _ d hd => ?_
    refine (always_runSome [] hd (by simp) (by decide)).bind fun _ d hd => ?_
    exact always_of_eq_nil (bind_eq_nil (plainName_eq_nil hd))
  · exact always_of_eq_nil (bind_eq_nil (typeName_eq_nil hd))

end BigO.Recursion
