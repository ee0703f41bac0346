-- How far a function goes. With braces it goes to the shortest stretch from its start in which
-- the braces pair up, counted from the first one that opens; with indentation it goes on over
-- all lines that are blank or deeper than its header.
import BigO.Proofs.IndentedBodies
import BigO.Proofs.OwnBlock
import Mathlib.Data.List.Infix

namespace BigO.Recursion

open BigO.Text

/-! ## Braces -/

/-- From the first brace that opens on, and there is one, as many close as open. -/
def PairsUp (text : List Char) : Prop :=
  ∃ header block, text = header ++ block ∧ '{' ∉ header ∧ block.head? = some '{' ∧
    block.count '}' = block.count '{'

/-- The shortest start of a text whose braces pair up, or all of the text if there is none. -/
def IsBracedExtent (text extent : List Char) : Prop :=
  (extent <+: text ∧ PairsUp extent ∧
    ∀ part, part <+: text → PairsUp part → extent.length ≤ part.length) ∨
  ((∀ part, part <+: text → ¬ PairsUp part) ∧ extent = text)

/-- No brace closes that was not opened, and in all as many close as open. -/
structure IsBalanced (text : List Char) : Prop where
  closesOpened : ∀ part, part <+: text → part.count '}' ≤ part.count '{'
  closesAll : text.count '}' = text.count '{'

instance (text : List Char) : Decidable (IsBalanced text) :=
  decidable_of_iff ((∀ part ∈ text.inits, part.count '}' ≤ part.count '{') ∧
      text.count '}' = text.count '{')
    ⟨fun ⟨a, b⟩ => ⟨fun part h => a part ((List.mem_inits _ _).mpr h), b⟩,
      fun ⟨a, b⟩ => ⟨fun part h => a part ((List.mem_inits _ _).mp h), b⟩⟩

section Braces

variable {header rest part : List Char} (hheader : '{' ∉ header)

include hheader

/-- A start of the text whose braces pair up goes from the first brace on. -/
theorem PairsUp.exists_block (h : PairsUp part) (hpart : part <+: header ++ '{' :: rest) :
    ∃ block, part = header ++ block ∧ block <+: '{' :: rest ∧ block ≠ [] ∧
      block.count '}' = block.count '{' := by
  obtain ⟨lead, block, rfl, hlead, hopens, hcount⟩ := h
  obtain ⟨more, hmore⟩ := hpart
  obtain ⟨x, xs, rfl⟩ : ∃ x xs, block = x :: xs := List.exists_cons_of_ne_nil (by
    rintro rfl
    exact absurd hopens (by simp))
  obtain rfl : x = '{' := by simpa using hopens
  have honly : ∀ {a : List Char}, '{' ∉ a → Scan.Only (· != '{') a := by
    intro a ha c hc
    exact bne_iff_ne.mpr fun hbrace => ha (hbrace ▸ hc)
  rw [List.append_assoc] at hmore
  obtain ⟨rfl, hblock⟩ := Scan.append_inj_of_only (honly hlead) (honly hheader) rfl rfl hmore
  exact ⟨'{' :: xs, rfl, ⟨more, hblock⟩, List.cons_ne_nil _ _, hcount⟩

/-- The body goes to where the braces pair up for the first time, if they ever do. -/
theorem isBracedExtent_blockBody_append (rest : List Char) :
    IsBracedExtent (header ++ '{' :: rest) (blockBody (header ++ '{' :: rest)) := by
  obtain ⟨block, hbody, hcases⟩ := blockBody_append hheader rest
  rw [hbody]
  rcases hcases with ⟨hblock, hwithin⟩ | ⟨hblock, rfl⟩
  · refine .inl ⟨(List.prefix_append_right_inj header).mpr hwithin,
      ⟨header, block, rfl, hheader, hblock.opens, hblock.balanced⟩, fun part hpart hpairs => ?_⟩
    obtain ⟨start, rfl, hstart, hne, hcount⟩ := hpairs.exists_block hheader hpart
    rw [List.length_append, List.length_append]
    by_contra hshort
    have hlt : start.length < block.length := by omega
    have hcut := hblock.shortest start (List.prefix_of_prefix_length_le hstart hwithin hlt.le) hne
      (fun hsame => absurd hlt (by rw [hsame]; exact Nat.lt_irrefl _))
    omega
  · refine .inr ⟨fun part hpart hpairs => ?_, rfl⟩
    obtain ⟨start, rfl, hstart, hne, hcount⟩ := hpairs.exists_block hheader hpart
    have hcut := hblock.unbalanced start hstart hne
    omega

/-- A block is closed by the brace after the text that pairs up in it. -/
theorem blockBody_of_isBalanced {inside : List Char} (h : IsBalanced inside)
    (suffix : List Char) :
    blockBody (header ++ '{' :: (inside ++ '}' :: suffix)) =
      header ++ '{' :: (inside ++ ['}']) := by
  have hblock : '{' :: (inside ++ ['}']) <+: '{' :: (inside ++ '}' :: suffix) :=
    ⟨suffix, by simp⟩
  have hwhole : header ++ '{' :: (inside ++ ['}']) <+: header ++ '{' :: (inside ++ '}' :: suffix) :=
    (List.prefix_append_right_inj header).mpr hblock
  have hall := h.closesAll
  have hpairs : PairsUp (header ++ '{' :: (inside ++ ['}'])) := by
    refine ⟨header, _, rfl, hheader, rfl, ?_⟩
    rw [(count_after_open _).1, (count_after_open _).2, List.count_append, List.count_append,
      List.count_singleton_self, List.count_singleton, if_neg (by decide)]
    omega
  rcases isBracedExtent_blockBody_append hheader (inside ++ '}' :: suffix) with
    ⟨hbodyStart, hbody, hshortest⟩ | ⟨hnone, -⟩
  · have hle := hshortest _ hwhole hpairs
    obtain ⟨block, heq, hstart, hne, hcount⟩ := hbody.exists_block hheader hbodyStart
    rw [heq, List.length_append, List.length_append] at hle
    rw [heq]
    have hcut : block <+: '{' :: (inside ++ ['}']) :=
      List.prefix_of_prefix_length_le hstart hblock (by omega)
    rw [← List.cons_append] at hcut
    rcases List.prefix_concat_iff.mp hcut with rfl | hearly
    · rfl
    · -- before the last brace the block is still open
      obtain ⟨x, xs, rfl⟩ := List.exists_cons_of_ne_nil hne
      obtain ⟨rfl, hxs⟩ := List.cons_prefix_cons.mp hearly
      have hopen := h.closesOpened xs hxs
      rw [(count_after_open xs).1, (count_after_open xs).2] at hcount
      omega
  · exact absurd hpairs (hnone _ hwhole)

end Braces

theorem isBracedExtent_blockBody {text : List Char} (h : '{' ∈ text) :
    IsBracedExtent text (blockBody text) := by
  obtain ⟨header, rest, rfl, hheader⟩ := List.eq_append_cons_of_mem h
  exact isBracedExtent_blockBody_append hheader rest

/-! ## Lines -/

/-- The first line of a text and the longest run of lines after it each of which is blank or
indented more. -/
def IsIndentedExtent (text extent : List Char) : Prop :=
  ∃ header inside outside, lines text = header :: (inside ++ outside) ∧
    extent = joinLines (header :: inside) ∧
    (∀ l ∈ inside, isBlankText l = true ∨ indentWidth header < indentWidth l) ∧
    ∀ l, outside.head? = some l → isBlankText l = false ∧ indentWidth l ≤ indentWidth header

theorem isIndentedExtent_indentedBody (text : List Char) :
    IsIndentedExtent text (indentedBody text) := by
  obtain ⟨header, rest, hlines⟩ := List.exists_cons_of_ne_nil (lines_ne_nil text)
  refine ⟨header, rest.takeWhile (isDeeper (indentWidth header)),
    rest.dropWhile (isDeeper (indentWidth header)), ?_, indentedBody_of_lines hlines, ?_, ?_⟩
  · rw [hlines, List.takeWhile_append_dropWhile]
  · intro l hl
    exact isDeeper_iff.mp (List.all_eq_true.mp List.all_takeWhile l hl)
  · intro l hl
    have hstop := List.head?_dropWhile_not (isDeeper (indentWidth header)) rest
    rw [hl] at hstop
    simpa [isDeeper] using hstop

/-! ## Laws -/

/-- How far the function that a text starts with goes. -/
structure IsExtent (lang : Language) (text extent : List Char) : Prop where
  starts : extent <+: text
  headerAlone : lang.profile.usesBraces = true → '{' ∉ text → extent = firstLine text
  braced : lang.profile.usesBraces = true → '{' ∈ text → IsBracedExtent text extent
  indented : lang.profile.usesBraces = false → IsIndentedExtent text extent

/-- From any place of any text the body is the extent of the function that starts there. So in
a language with braces a header without one that opens, and a block whose inside pairs up, are
the body whatever follows. -/
theorem body_is_extent (lang : Language) :
    (∀ (text : List Char) start, IsExtent lang (text.drop start) (body lang (text.drop start))) ∧
      (lang.profile.usesBraces = true → ∀ header inside suffix, '{' ∉ header →
        IsBalanced inside →
        body lang (header ++ '{' :: (inside ++ '}' :: suffix)) =
          header ++ '{' :: (inside ++ ['}'])) := by
  refine ⟨fun text start => ?_, fun hbraces header inside suffix hheader hinside => ?_⟩
  · generalize text.drop start = rest
    unfold body
    split
    · rename_i hbraces
      refine ⟨prefix_blockBody rest, fun _ hnone => if_neg hnone,
        fun _ => isBracedExtent_blockBody, fun hnot => ?_⟩
      rw [hbraces] at hnot
      exact absurd hnot (by decide)
    · rename_i hbraces
      exact ⟨prefix_indentedBody rest, fun h => absurd h hbraces, fun h => absurd h hbraces,
        fun _ => isIndentedExtent_indentedBody rest⟩
  · rw [body, if_pos hbraces]
    exact blockBody_of_isBalanced hheader hinside suffix

/-- A block in the block, and one more function. -/
theorem body_is_extent_nestedBlock :
    Language.c.profile.usesBraces = true ∧ '{' ∉ "int f(int n) ".toList ∧
      IsBalanced " if (n) \x7b g(); \x7d ".toList ∧
      body .c "int f(int n) \x7b if (n) \x7b g(); \x7d \x7d int g() \x7b \x7d".toList =
        "int f(int n) \x7b if (n) \x7b g(); \x7d \x7d".toList := by
  have hheader : '{' ∉ "int f(int n) ".toList := by decide
  have hinside : IsBalanced " if (n) \x7b g(); \x7d ".toList := by decide
  have hbody := (body_is_extent .c).2 rfl _ _ " int g() \x7b \x7d".toList hheader hinside
  refine ⟨rfl, hheader, hinside, ?_⟩
  have htext : "int f(int n) \x7b if (n) \x7b g(); \x7d \x7d int g() \x7b \x7d".toList =
      "int f(int n) ".toList ++
        '{' :: (" if (n) \x7b g(); \x7d ".toList ++ '}' :: " int g() \x7b \x7d".toList) := by
    decide
  rw [htext, hbody]
  decide

end BigO.Recursion
