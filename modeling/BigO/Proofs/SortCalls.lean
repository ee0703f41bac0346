-- What every call that sorts shows in the text it stands in: a dot, or a
-- bracket that opens after the last letter of a name that sorts.
import BigO.Language
import BigO.Proofs.Places

/-! ## Folded characters -/

namespace BigO.Text

/-- Beyond ASCII only an `s`, a `k` and an `i` have characters that stand for them. -/
theorem ascii_of_foldCase {c x : Char} (hx : x.toNat < 128) (hs : x ≠ 's') (hk : x ≠ 'k')
    (hi : x ≠ 'i') (h : foldCase c = x) : c.toNat < 128 := by
  apply Decidable.byContradiction
  intro hc
  unfold foldCase at h
  split at h
  · exact hs h.symm
  split at h
  · exact hk h.symm
  split at h
  · exact hi h.symm
  · rw [toLower_beyond_ascii hc] at h
    rw [h] at hc
    exact hc hx

theorem eq_dot_of_foldCase {c : Char} (h : foldCase c = '.') : c = '.' := by
  have hascii := ascii_of_foldCase (by decide) (by decide) (by decide) (by decide) h
  revert h
  exact forall_ascii (P := fun c => foldCase c = '.' → c = '.') (by decide) hascii

theorem isBlank_of_foldCase {c x : Char} (hx : x = 'd' ∨ x = 't') (h : foldCase c = x) :
    isBlank c = false := by
  have hascii : c.toNat < 128 := by
    rcases hx with rfl | rfl
    · exact ascii_of_foldCase (by decide) (by decide) (by decide) (by decide) h
    · exact ascii_of_foldCase (by decide) (by decide) (by decide) (by decide) h
  rw [← h] at hx
  revert hx
  exact forall_ascii
    (P := fun c => foldCase c = 'd' ∨ foldCase c = 't' → isBlank c = false) (by decide) hascii

end BigO.Text

namespace BigO

open BigO.Text BigO.Scan BigO.Scan.Scanner

/-! ## The signs of a call -/

/-- The text has a dot, or a bracket that opens after anything but an `e` or an
`r`. No name that sorts ends in either of these. -/
def HasCall (text : List Char) : Prop :=
  '.' ∈ text ∨ ∃ before c blanks after, text = before ++ c :: (blanks ++ '(' :: after) ∧
    (∀ x ∈ blanks, isBlank x = true) ∧ isBlank c = false ∧ c ≠ 'e' ∧ c ≠ 'r'

theorem HasCall.of_isInfix {a b : List Char} (hab : a <:+: b) (h : HasCall a) : HasCall b := by
  rcases h with h | ⟨before, c, blanks, after, rfl, hc⟩
  · exact .inl (hab.subset h)
  · obtain ⟨x, y, rfl⟩ := hab
    exact .inr ⟨x ++ before, c, blanks, after ++ y, by simp, hc⟩

theorem HasCall.of_suffix {a b : List Char} (hab : a <:+ b) (h : HasCall a) : HasCall b :=
  h.of_isInfix hab.isInfix

/-- A bracket is read where it stands after blanks. -/
theorem read_of_mem_bracket {c : Cursor} {r : Unit × Cursor}
    (h : r ∈ (blanks >>= fun _ => char '(') c) :
    ∃ passed rest, c.after = passed ++ '(' :: rest ∧ ∀ x ∈ passed, isBlank x = true := by
  obtain ⟨q, hq, hr⟩ := mem_bind.mp h
  have hhead := needs_char '(' q.2 r hr
  simp only [blanks, run, List.mem_singleton] at hq
  subst hq
  rw [Cursor.pass_eq, List.head?_eq_some_iff] at hhead
  obtain ⟨rest, hrest⟩ := hhead
  refine ⟨c.after.takeWhile isBlank, rest, ?_, fun x hx => ?_⟩
  · rw [← hrest, List.takeWhile_append_dropWhile]
  · exact List.all_eq_true.mp List.all_takeWhile x hx

/-- A name before a bracket is a call, if its last letter is no `e` and no `r`. -/
theorem needs_hasCall_bracket {fold : Char → Char} {w : String} (letters : List Char) (x : Char)
    (hw : w.toList = letters ++ [x])
    (hx : ∀ c, fold c = x → isBlank c = false ∧ c ≠ 'e' ∧ c ≠ 'r') :
    (wordEdge >>= fun _ => folded fold w >>= fun _ => blanks >>= fun _ => char '(').Needs
      HasCall := by
  refine Needs.bind_right HasCall.of_suffix (forward_here _) fun _ => ?_
  intro c r hr
  obtain ⟨q, hq, hr⟩ := mem_bind.mp hr
  obtain ⟨read, hc, hread⟩ := read_of_mem_folded hq
  obtain ⟨passed, rest, hq, hblank⟩ := read_of_mem_bracket hr
  rw [hw, List.map_eq_append_iff] at hread
  obtain ⟨before, last, rfl, -, hlast⟩ := hread
  rw [List.map_eq_singleton_iff] at hlast
  obtain ⟨y, rfl, hy⟩ := hlast
  refine .inr ⟨before, y, passed, rest, ?_, hblank, hx y hy⟩
  rw [hc, hq]
  simp

theorem needs_hasCall_dot {fold : Char → Char} (hfold : ∀ c, fold c = '.' → c = '.') {w : String}
    (hw : '.' ∈ w.toList) : (folded fold w).Needs HasCall := by
  intro c r hr
  obtain ⟨read, hc, hread⟩ := read_of_mem_folded hr
  rw [← hread, List.mem_map] at hw
  obtain ⟨y, hy, hdot⟩ := hw
  rw [hfold y hdot] at hy
  rw [hc]
  exact .inl (List.mem_append_left _ hy)

theorem needs_hasCall_method : (char '.').Needs HasCall := by
  intro c r hr
  have hhead := needs_char '.' c r hr
  exact .inl (List.mem_of_head? hhead)

/-! ## The sort calls of the languages -/

theorem endsCall_of_foldCase {c x : Char} (hx : x = 'd' ∨ x = 't') (h : foldCase c = x) :
    isBlank c = false ∧ c ≠ 'e' ∧ c ≠ 'r' := by
  refine ⟨isBlank_of_foldCase hx h, ?_, ?_⟩
  · rintro rfl
    rw [← h] at hx
    exact absurd hx (by decide)
  · rintro rfl
    rw [← h] at hx
    exact absurd hx (by decide)

theorem endsCall_of_id {c x : Char} (hx : x = 'd' ∨ x = 't') (h : id c = x) :
    isBlank c = false ∧ c ≠ 'e' ∧ c ≠ 'r' := by
  rw [id] at h
  subst h
  rcases hx with rfl | rfl
  · decide
  · decide

theorem needs_hasCall_anyCaseCallOf {w : String} (letters : List Char) (x : Char)
    (hx : x = 'd' ∨ x = 't') (hw : w.toList = letters ++ [x]) :
    (anyCaseCallOf w).Needs HasCall :=
  needs_hasCall_bracket letters x hw fun _ => endsCall_of_foldCase hx

theorem needs_hasCall_callOf {w : String} (letters : List Char) (x : Char)
    (hx : x = 'd' ∨ x = 't') (hw : w.toList = letters ++ [x]) : (callOf w).Needs HasCall :=
  needs_hasCall_bracket letters x hw fun _ => endsCall_of_id hx

theorem needs_hasCall_dotted {fold : Char → Char} (hfold : ∀ c, fold c = '.' → c = '.')
    {w : String} (hw : '.' ∈ w.toList) (rest : Unit → Scanner Unit) :
    (wordEdge >>= fun _ => folded fold w >>= rest).Needs HasCall :=
  Needs.bind_right HasCall.of_suffix (forward_here _) fun _ =>
    (needs_hasCall_dot hfold hw).bind_left

/-- Every call that sorts, in the text or in the tree of any language, is a call. -/
theorem needs_hasCall (lang : Language) :
    ∀ s ∈ lang.profile.sortCalls ++ lang.profile.tree.sortCalls, s.Needs HasCall := by
  have hmethod : ∀ rest : Unit → Scanner Unit, (char '.' >>= rest).Needs HasCall :=
    fun rest => needs_hasCall_method.bind_left
  intro s hs
  cases lang with
  | python =>
    change s ∈ [_, _, _, _] at hs
    simp only [List.mem_cons, List.not_mem_nil, or_false] at hs
    rcases hs with rfl | rfl | rfl | rfl
    · exact needs_hasCall_anyCaseCallOf "sorte".toList 'd' (.inl rfl) rfl
    · exact hmethod _
    · exact needs_hasCall_callOf "sorte".toList 'd' (.inl rfl) rfl
    · exact hmethod _
  | java =>
    change s ∈ [_, _, _, _, _, _] at hs
    simp only [List.mem_cons, List.not_mem_nil, or_false] at hs
    rcases hs with rfl | rfl | rfl | rfl | rfl | rfl
    · exact needs_hasCall_dotted (fun _ => eq_dot_of_foldCase) (by decide) _
    · exact needs_hasCall_dotted (fun _ => eq_dot_of_foldCase) (by decide) _
    · exact hmethod _
    · exact needs_hasCall_dotted (fun _ h => h) (by decide) _
    · exact needs_hasCall_dotted (fun _ h => h) (by decide) _
    · exact hmethod _
  | c =>
    change s ∈ [_, _] at hs
    simp only [List.mem_cons, List.not_mem_nil, or_false] at hs
    rcases hs with rfl | rfl
    · exact needs_hasCall_anyCaseCallOf "qsor".toList 't' (.inr rfl) rfl
    · exact needs_hasCall_callOf "qsor".toList 't' (.inr rfl) rfl

/-- A text without the signs of a call holds none that sorts. -/
theorem not_occurs_sortCall {lang : Language} {text : List Char} (h : ¬ HasCall text)
    {s : Scanner Unit} (hs : s ∈ lang.profile.sortCalls ++ lang.profile.tree.sortCalls) :
    s.occurs text = false := by
  rw [Bool.eq_false_iff]
  intro hoccurs
  exact h ((needs_hasCall lang s hs).of_occurs HasCall.of_suffix hoccurs)

end BigO
