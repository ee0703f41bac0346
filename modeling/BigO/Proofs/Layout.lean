-- Layout. What a text shows of its loops depends on how far in its lines are compared
-- with each other, and on nothing else of the blanks before them or of the blank lines
-- between. Where braces count it depends on neither at all.
import BigO.Proofs.Enclosing
import BigO.Proofs.Header

namespace BigO.Loop

open BigO.Text

/-! ## Texts in another layout -/

/-- The lines of a text and its lines in another layout: before a line that is not blank
there may be other blanks, and blank lines may come or go anywhere. -/
inductive Reindents : List (List Char) → List (List Char) → Prop
  | nil : Reindents [] []
  | line {margin margin' body : List Char} {ls ls' : List (List Char)} :
      isBlankText margin = true → isBlankText margin' = true →
      body.head?.any (!isBlank ·) = true → Reindents ls ls' →
      Reindents ((margin ++ body) :: ls) ((margin' ++ body) :: ls')
  | blankGone {blank : List Char} {ls ls' : List (List Char)} :
      isBlankText blank = true → Reindents ls ls' → Reindents (blank :: ls) ls'
  | blankAdded {blank : List Char} {ls ls' : List (List Char)} :
      isBlankText blank = true → Reindents ls ls' → Reindents ls (blank :: ls')

/-- Of any two lines that are not blank the one that was farther in still is. -/
def KeepsOrder (text text' : List Char) : Prop :=
  ∀ a ∈ (Enclosure.writtenLines text).zip (Enclosure.writtenLines text'),
    ∀ b ∈ (Enclosure.writtenLines text).zip (Enclosure.writtenLines text'),
      indentWidth a.2 < indentWidth b.2 ↔ indentWidth a.1 < indentWidth b.1

/-- The two show the same, but for the levels of the loops along the chain. -/
structure Nesting.SameButLevels (m n : Nesting) : Prop where
  loops : m.loops = n.loops
  depth : m.depth = n.depth
  progresses : m.progresses = n.progresses
  chain : m.chain.map (fun l => (l.bound, l.progresses)) =
    n.chain.map fun l => (l.bound, l.progresses)

theorem Nesting.SameButLevels.eq_of_chain {m n : Nesting} (h : m.SameButLevels n)
    (hchain : m.chain = n.chain) : m = n := by
  cases m
  cases n
  rw [Nesting.mk.injEq]
  exact ⟨h.loops, h.depth, hchain, h.progresses⟩

section Margin

variable {margin body : List Char} (hmargin : isBlankText margin = true)
  (hbody : body.head?.any (!isBlank ·) = true)

include hbody

theorem isBlankText_append_body : isBlankText (margin ++ body) = false := by
  cases body with
  | nil => exact absurd hbody (by simp)
  | cons c cs =>
    have hc : isBlank c = false := by simpa using hbody
    simp [isBlankText, hc]

include hmargin

theorem trim_append_body : trim (margin ++ body) = trimEnd body := by
  unfold trim
  rw [trimStart_blanks_append (List.all_eq_true.mp hmargin) body hbody]

end Margin

/-- In another layout the lines that are not blank are the same ones, once trimmed. -/
theorem Reindents.map_trim {ls ls' : List (List Char)} (h : Reindents ls ls') :
    (ls.filter fun line => !isBlankText line).map trim =
      (ls'.filter fun line => !isBlankText line).map trim := by
  induction h with
  | nil => rfl
  | line hmargin hmargin' hbody _ ih =>
    rw [List.filter_cons_of_pos (by simp [isBlankText_append_body hbody]),
      List.filter_cons_of_pos (by simp [isBlankText_append_body hbody]), List.map_cons,
      List.map_cons, trim_append_body hmargin hbody, trim_append_body hmargin' hbody, ih]
  | blankGone hblank _ ih => rw [List.filter_cons_of_neg (by simp [hblank]), ih]
  | blankAdded hblank _ ih => rw [List.filter_cons_of_neg (by simp [hblank]), ih]

namespace Enclosure

/-! ## What the lines say once trimmed -/

section Trimmed

variable (lang : Language) {ls ls' : List (List Char)} (h : ls.map trim = ls'.map trim)

include h

theorem length_eq_of_map_trim : ls.length = ls'.length := by
  simpa using congrArg List.length h

theorem trim_getD (k : Nat) : trim (ls.getD k []) = trim (ls'.getD k []) := by
  have hmap : ∀ ms : List (List Char), trim (ms.getD k []) = (ms.map trim).getD k [] :=
    fun ms => (List.getD_map ms [] trim).symm
  rw [hmap, hmap, h]

theorem opensAt_of_map_trim (k : Nat) : opensAt lang ls k = opensAt lang ls' k := by
  unfold opensAt
  rw [trim_getD h]

theorem loopLines_of_map_trim : loopLines lang ls = loopLines lang ls' := by
  unfold loopLines
  rw [length_eq_of_map_trim h]
  exact List.filter_congr fun k _ => opensAt_of_map_trim lang h k

theorem loopAt_of_map_trim (k : Nat) :
    loopAt lang ls k = { loopAt lang ls' k with level := levelAt lang ls k } := by
  unfold loopAt
  rw [trim_getD h]

/-- Where braces count, the lines are as far in as their braces say. -/
theorem keyAt_of_map_trim (hlang : lang.profile.usesBraces = true) (k : Nat) :
    keyAt lang ls k = keyAt lang ls' k := by
  have hopen : ∀ ms : List (List Char), openBraces ms = openBraces (ms.map trim) := by
    intro ms
    simp only [openBraces, List.foldl_map, count_trim (show isBlank '}' = false by decide),
      count_trim (show isBlank '{' = false by decide)]
  unfold keyAt
  rw [if_pos hlang, if_pos hlang, hopen, hopen (ls'.take k), List.map_take, List.map_take, h,
    ← count_trim (by decide), trim_getD h, count_trim (by decide)]

end Trimmed

/-! ## The same lines enclose the same -/

/-- The lines that open the loops of the chain. -/
def chainLines (lang : Language) (ls : List (List Char)) : List Nat :=
  ((deepestLine? lang ls).map (enclosing lang ls)).getD []

theorem chain_eq_map_chainLines (lang : Language) (ls : List (List Char)) :
    (declaredNesting lang ls).chain = (chainLines lang ls).map (loopAt lang ls) := by
  unfold declaredNesting chainLines
  cases deepestLine? lang ls <;> rfl

section SameOrder

/-- Lines that say the same once trimmed, and of which one ends the loop of another just
if it does so among the others. -/
structure SameOrder (lang : Language) (ls ls' : List (List Char)) : Prop where
  trimmed : ls.map trim = ls'.map trim
  stays : ∀ j < ls.length, ∀ k < ls.length,
    Stays lang ls (levelAt lang ls j) k ↔ Stays lang ls' (levelAt lang ls' j) k

variable {lang : Language} {ls ls' : List (List Char)} (h : SameOrder lang ls ls')

include h

theorem SameOrder.enclosing {i : Nat} (hi : i < ls.length) :
    enclosing lang ls i = enclosing lang ls' i := by
  unfold Enclosure.enclosing
  apply List.filter_congr
  intro j hj
  have hji := List.mem_range.mp hj
  rw [decide_eq_decide]
  unfold Encloses
  rw [opensAt_of_map_trim lang h.trimmed]
  refine and_congr_right fun _ => and_congr_right fun _ => forall_congr' fun k => ?_
  refine imp_congr_right fun hk => imp_congr_right fun _ => ?_
  exact h.stays j (by omega) k (by omega)

theorem SameOrder.greatestDepth : greatestDepth lang ls = greatestDepth lang ls' := by
  unfold Enclosure.greatestDepth
  rw [← loopLines_of_map_trim lang h.trimmed]
  congr 2
  apply List.map_congr_left
  intro i hi
  rw [h.enclosing (lt_of_mem_loopLines hi)]

theorem SameOrder.deepestLine? : deepestLine? lang ls = deepestLine? lang ls' := by
  unfold Enclosure.deepestLine?
  rw [← loopLines_of_map_trim lang h.trimmed, ← h.greatestDepth]
  congr 1
  apply List.filter_congr
  intro i hi
  rw [h.enclosing (lt_of_mem_loopLines hi)]

theorem SameOrder.chainLines : chainLines lang ls = chainLines lang ls' := by
  unfold Enclosure.chainLines
  rw [← h.deepestLine?]
  cases hi : Enclosure.deepestLine? lang ls with
  | none => rfl
  | some i => exact h.enclosing (lt_of_deepestLine? hi)

theorem SameOrder.sameButLevels :
    (declaredNesting lang ls).SameButLevels (declaredNesting lang ls') where
  loops := by
    unfold declaredNesting
    rw [loopLines_of_map_trim lang h.trimmed]
  depth := h.greatestDepth
  progresses := by
    unfold declaredNesting
    rw [loopLines_of_map_trim lang h.trimmed]
    simp only [List.any_map]
    congr 1
    funext k
    simp [loopAt_of_map_trim lang h.trimmed k]
  chain := by
    rw [chain_eq_map_chainLines, chain_eq_map_chainLines, h.chainLines, List.map_map, List.map_map]
    apply List.map_congr_left
    intro j _
    simp [loopAt_of_map_trim lang h.trimmed j]

end SameOrder

/-! ## Lines that keep their order -/

theorem getD_mem_zip {ls ls' : List (List Char)} (hlength : ls.length = ls'.length) {k : Nat}
    (hk : k < ls.length) : (ls.getD k [], ls'.getD k []) ∈ ls.zip ls' := by
  have hk' : k < ls'.length := by omega
  rw [List.getD_eq_getElem _ _ hk, List.getD_eq_getElem _ _ hk', ← List.getElem_zip]
  exact List.getElem_mem (by simp; omega)

theorem sameOrder_of_keepsOrder {lang : Language} (hlang : lang.profile.usesBraces = false)
    {text text' : List Char} (htrim : (writtenLines text).map trim = (writtenLines text').map trim)
    (horder : KeepsOrder text text') :
    SameOrder lang (writtenLines text) (writtenLines text') := by
  refine ⟨htrim, fun j hj k hk => ?_⟩
  have hlength := length_eq_of_map_trim htrim
  have hkeeps := horder _ (getD_mem_zip hlength hj) _ (getD_mem_zip hlength hk)
  unfold Stays levelAt keyAt
  simp only [hlang, Bool.false_eq_true, if_false]
  exact hkeeps.symm

/-- Where braces count, lines that say the same once trimmed show the same. -/
theorem declaredNesting_of_map_trim {lang : Language} (hlang : lang.profile.usesBraces = true)
    {ls ls' : List (List Char)} (htrim : ls.map trim = ls'.map trim) :
    declaredNesting lang ls = declaredNesting lang ls' := by
  have hkey := keyAt_of_map_trim lang htrim hlang
  have hsame : SameOrder lang ls ls' := by
    refine ⟨htrim, fun j _ k _ => ?_⟩
    unfold Stays levelAt
    rw [hkey, hkey]
  apply hsame.sameButLevels.eq_of_chain
  rw [chain_eq_map_chainLines, chain_eq_map_chainLines, hsame.chainLines]
  apply List.map_congr_left
  intro j _
  rw [loopAt_of_map_trim lang htrim, levelAt, hkey]
  rfl

end Enclosure

/-! ## The law -/

/-- For every language, every text and every other layout of it: where braces count, the
two show the same; and in any language, if the lines keep their order by how far in they
are, the two show as many loops, as deep a nest and a progression or none alike, and along
the chain the same bounds and progressions. -/
theorem nesting_in_other_layout (lang : Language) {text text' : List Char}
    (h : Reindents (lines text) (lines text')) :
    (lang.profile.usesBraces = true → nesting lang text = nesting lang text') ∧
      (KeepsOrder text text' → (nesting lang text).SameButLevels (nesting lang text')) := by
  have hdeclared : ∀ t : List Char,
      nesting lang t = Enclosure.declaredNesting lang (Enclosure.writtenLines t) :=
    fun t => (Enclosure.hasRead_lines lang t).nesting
  have htrim : (Enclosure.writtenLines text).map trim = (Enclosure.writtenLines text').map trim :=
    h.map_trim
  have hbraces : lang.profile.usesBraces = true → nesting lang text = nesting lang text' := by
    intro hlang
    rw [hdeclared, hdeclared]
    exact Enclosure.declaredNesting_of_map_trim hlang htrim
  refine ⟨hbraces, fun horder => ?_⟩
  cases hlang : lang.profile.usesBraces with
  | true =>
    rw [hbraces hlang]
    exact ⟨rfl, rfl, rfl, rfl⟩
  | false =>
    rw [hdeclared, hdeclared]
    exact (Enclosure.sameOrder_of_keepsOrder hlang htrim horder).sameButLevels

/-- A nest and a loop after it that is farther in than the first loop and less far than
the second. -/
def nestByTabs : List Char :=
  "for i in range(n):\n\t\t\tk = 1\n\t\twhile k < 9:\n\n\tfor j in xs: k *= 2".toList

/-- The same with other blanks, and with blank lines elsewhere. -/
def nestBySpaces : List Char :=
  "\n for i in range(n):\n\u3000     k = 1\n   while k < 9:\n\x0c for j in xs: k *= 2\n ".toList

theorem reindents_nestByTabs : Reindents (lines nestByTabs) (lines nestBySpaces) := by
  have htabs : lines nestByTabs = [[] ++ "for i in range(n):".toList, "\t\t\t".toList ++
      "k = 1".toList, "\t\t".toList ++ "while k < 9:".toList, [], "\t".toList ++
      "for j in xs: k *= 2".toList] := by decide +kernel
  have hspaces : lines nestBySpaces = [[], " ".toList ++ "for i in range(n):".toList,
      "\u3000     ".toList ++ "k = 1".toList, "   ".toList ++ "while k < 9:".toList,
      "\x0c ".toList ++ "for j in xs: k *= 2".toList, " ".toList] := by decide +kernel
  rw [htabs, hspaces]
  refine .blankAdded rfl (.line rfl (by decide) (by decide) ?_)
  refine .line (by decide) (by decide) (by decide) (.line (by decide) (by decide) (by decide) ?_)
  refine .blankGone rfl (.line (by decide) (by decide) (by decide) ?_)
  exact .blankAdded (by decide) .nil

theorem nesting_in_other_layout_nestByTabs :
    Reindents (lines nestByTabs) (lines nestBySpaces) ∧ KeepsOrder nestByTabs nestBySpaces ∧
      nesting .c nestByTabs = nesting .c nestBySpaces ∧
      (nesting .python nestByTabs).SameButLevels (nesting .python nestBySpaces) ∧
      nesting .python nestByTabs ≠ nesting .python nestBySpaces := by
  have horder : KeepsOrder nestByTabs nestBySpaces := by
    unfold KeepsOrder
    decide +kernel
  refine ⟨reindents_nestByTabs, horder, ?_, ?_, by decide +kernel⟩
  · exact (nesting_in_other_layout .c reindents_nestByTabs).1 rfl
  · exact (nesting_in_other_layout .python reindents_nestByTabs).2 horder

end BigO.Loop
