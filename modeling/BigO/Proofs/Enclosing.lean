-- Which loops enclose a line, said without a stack: a loop encloses the lines
-- after its own as long as each of them is farther in than the loop is. The
-- reader, which looks at nothing but the top of its stack, finds exactly these
-- loops, for every text.
import BigO.Loop.Nesting
import Mathlib.Data.List.GetD
import Mathlib.Data.List.Induction

namespace BigO.Loop.Enclosure

open BigO.Text

/-! ## Lines and how far in they are -/

/-- The lines of a text that are not blank. -/
def writtenLines (text : List Char) : List (List Char) :=
  (lines text).filter fun line => !isBlankText line

/-- The braces that some lines leave open. A brace that closes nothing does not count. -/
def openBraces (ls : List (List Char)) : Nat :=
  ls.foldl (fun n line => n - line.count '}' + line.count '{') 0

section Declared

variable (lang : Language) (ls : List (List Char))

/-- How far in a line is: the braces open around it once it has closed what it
closes, or its indentation. -/
def keyAt (k : Nat) : Nat :=
  if lang.profile.usesBraces then openBraces (ls.take k) - (ls.getD k []).count '}'
  else indentWidth (ls.getD k [])

def levelAt (j : Nat) : Nat :=
  if lang.profile.usesBraces then keyAt lang ls j + 1 else keyAt lang ls j

/-- The line opens a loop. -/
def opensAt (k : Nat) : Bool :=
  lang.opensLoop (trim (ls.getD k []))

/-- The loop that a line opens. -/
def loopAt (j : Nat) : OpenLoop where
  level := levelAt lang ls j
  bound := String.ofList (lang.loopBound (trim (ls.getD j [])))
  progresses := scales (trim (ls.getD j []))

/-- The line does not end a loop of this level. -/
def Stays (level k : Nat) : Prop :=
  if lang.profile.usesBraces then level ≤ keyAt lang ls k else level < keyAt lang ls k

instance (level k : Nat) : Decidable (Stays lang ls level k) :=
  inferInstanceAs (Decidable
    (if lang.profile.usesBraces then level ≤ keyAt lang ls k else level < keyAt lang ls k))

/-- The loop of one line encloses another: they are the same, or no line from the
one to the other ends the loop. -/
def Encloses (j i : Nat) : Prop :=
  opensAt lang ls j = true ∧ j ≤ i ∧ ∀ k ≤ i, j < k → Stays lang ls (levelAt lang ls j) k

instance (j i : Nat) : Decidable (Encloses lang ls j i) :=
  inferInstanceAs (Decidable (_ ∧ _ ∧ _))

/-- The lines whose loops enclose a line, in order. -/
def enclosing (i : Nat) : List Nat :=
  (List.range (i + 1)).filter (Encloses lang ls · i)

/-- The loops around a line, outermost first. -/
def chainAt (i : Nat) : List OpenLoop :=
  (enclosing lang ls i).map (loopAt lang ls)

def loopLines : List Nat :=
  (List.range ls.length).filter (opensAt lang ls)

/-- The number of loops around the line that most of them enclose. -/
def greatestDepth : Nat :=
  ((loopLines lang ls).map fun i => (enclosing lang ls i).length).max?.getD 0

/-- The first of the loop lines that most loops enclose. -/
def deepestLine? : Option Nat :=
  ((loopLines lang ls).filter fun i =>
    (enclosing lang ls i).length = greatestDepth lang ls).head?

/-- The nesting of some lines by what encloses what. -/
def declaredNesting : Nesting where
  loops := (loopLines lang ls).length
  depth := greatestDepth lang ls
  chain := ((deepestLine? lang ls).map (chainAt lang ls)).getD []
  progresses := ((loopLines lang ls).map (loopAt lang ls)).any (·.progresses)

end Declared

/-! ## More lines

What is said of a line does not depend on the lines after it. -/

section More

variable {lang : Language} {ls : List (List Char)} (more : List (List Char))

theorem keyAt_append {k : Nat} (hk : k < ls.length) :
    keyAt lang (ls ++ more) k = keyAt lang ls k := by
  unfold keyAt
  rw [List.getD_append _ _ _ _ hk, List.take_append_of_le_length (Nat.le_of_lt hk)]

theorem levelAt_append {k : Nat} (hk : k < ls.length) :
    levelAt lang (ls ++ more) k = levelAt lang ls k := by
  unfold levelAt
  rw [keyAt_append more hk]

theorem opensAt_append {k : Nat} (hk : k < ls.length) :
    opensAt lang (ls ++ more) k = opensAt lang ls k := by
  unfold opensAt
  rw [List.getD_append _ _ _ _ hk]

theorem loopAt_append {k : Nat} (hk : k < ls.length) :
    loopAt lang (ls ++ more) k = loopAt lang ls k := by
  unfold loopAt
  rw [List.getD_append _ _ _ _ hk, levelAt_append more hk]

theorem stays_append {level k : Nat} (hk : k < ls.length) :
    Stays lang (ls ++ more) level k ↔ Stays lang ls level k := by
  unfold Stays
  rw [keyAt_append more hk]

theorem encloses_append {j i : Nat} (hi : i < ls.length) :
    Encloses lang (ls ++ more) j i ↔ Encloses lang ls j i := by
  unfold Encloses
  by_cases hj : j ≤ i
  · have hjl : j < ls.length := Nat.lt_of_le_of_lt hj hi
    rw [opensAt_append more hjl, levelAt_append more hjl]
    refine and_congr_right fun _ => and_congr_right fun _ => forall_congr' fun k => ?_
    refine imp_congr_right fun hk => imp_congr_right fun _ => ?_
    exact stays_append more (Nat.lt_of_le_of_lt hk hi)
  · simp [hj]

theorem enclosing_append {i : Nat} (hi : i < ls.length) :
    enclosing lang (ls ++ more) i = enclosing lang ls i := by
  unfold enclosing
  apply List.filter_congr
  intro j _
  simp only [encloses_append more hi]

theorem chainAt_append {i : Nat} (hi : i < ls.length) :
    chainAt lang (ls ++ more) i = chainAt lang ls i := by
  unfold chainAt
  rw [enclosing_append more hi]
  apply List.map_congr_left
  intro j hj
  have hji := List.mem_range.mp (List.mem_filter.mp hj).1
  exact loopAt_append more (by omega)

theorem lt_of_mem_loopLines {i : Nat} (h : i ∈ loopLines lang ls) : i < ls.length :=
  List.mem_range.mp (List.mem_filter.mp h).1

theorem map_loopAt_append :
    (loopLines lang ls).map (loopAt lang (ls ++ more)) = (loopLines lang ls).map (loopAt lang ls) :=
  List.map_congr_left fun _ hi => loopAt_append more (lt_of_mem_loopLines hi)

theorem map_depth_append :
    (loopLines lang ls).map (fun i => (enclosing lang (ls ++ more) i).length) =
      (loopLines lang ls).map fun i => (enclosing lang ls i).length := by
  apply List.map_congr_left
  intro i hi
  rw [enclosing_append more (lt_of_mem_loopLines hi)]

/-- Of the loop lines so far those with a given number of loops around them. -/
theorem filter_depth_append (d : Nat) :
    (loopLines lang ls).filter (fun i => (enclosing lang (ls ++ more) i).length = d) =
      (loopLines lang ls).filter fun i => (enclosing lang ls i).length = d := by
  apply List.filter_congr
  intro i hi
  rw [enclosing_append more (lt_of_mem_loopLines hi)]

end More

/-! ## Loops that are still open -/

variable {lang : Language} {ls : List (List Char)}

theorem le_of_encloses {j i : Nat} (h : Encloses lang ls j i) : j ≤ i := h.2.1

theorem levelAt_lt_of_stays {j k : Nat} (h : Stays lang ls (levelAt lang ls j) k) :
    levelAt lang ls j < levelAt lang ls k := by
  unfold Stays at h
  by_cases hb : lang.profile.usesBraces = true
  · rw [if_pos hb] at h
    have hk : levelAt lang ls k = keyAt lang ls k + 1 := if_pos hb
    omega
  · rw [if_neg hb] at h
    have hk : levelAt lang ls k = keyAt lang ls k := if_neg hb
    omega

theorem stays_of_le {m n k : Nat} (hmn : m ≤ n) (h : Stays lang ls n k) : Stays lang ls m k := by
  unfold Stays at h ⊢
  by_cases hb : lang.profile.usesBraces = true
  · rw [if_pos hb] at h ⊢
    exact Nat.le_trans hmn h
  · rw [if_neg hb] at h ⊢
    exact Nat.lt_of_le_of_lt hmn h

variable (lang ls) in
/-- Of two loops that enclose a line the later one has the higher level. -/
theorem levels_increase (n i : Nat) :
    (((List.range n).filter (Encloses lang ls · i)).map (levelAt lang ls)).Pairwise (· < ·) := by
  rw [List.pairwise_map, List.pairwise_filter]
  refine List.pairwise_lt_range.imp fun {j k} hjk hj hk => ?_
  have hk' := le_of_encloses (of_decide_eq_true hk)
  exact levelAt_lt_of_stays ((of_decide_eq_true hj).2.2 k hk' hjk)

variable (lang ls) in
/-- The lines whose loops are open once all lines are read. -/
def openLines : List Nat :=
  (List.range ls.length).filter (Encloses lang ls · (ls.length - 1))

variable (line : List Char)

theorem enclosing_last : enclosing lang (ls ++ [line]) ls.length = openLines lang (ls ++ [line]) := by
  simp [enclosing, openLines]

/-- A loop from before encloses the last line if it was open until then and the
line does not end it. -/
theorem encloses_last {j : Nat} (hj : j < ls.length) :
    Encloses lang (ls ++ [line]) j ls.length ↔
      Encloses lang ls j (ls.length - 1) ∧
        Stays lang (ls ++ [line]) (levelAt lang ls j) ls.length := by
  unfold Encloses
  rw [opensAt_append [line] hj, levelAt_append [line] hj]
  constructor
  · rintro ⟨ho, _, hall⟩
    refine ⟨⟨ho, by omega, fun k hk hjk => ?_⟩, hall _ (Nat.le_refl _) hj⟩
    exact (stays_append [line] (by omega)).mp (hall k (by omega) hjk)
  · rintro ⟨⟨ho, _, hall⟩, hlast⟩
    refine ⟨ho, by omega, fun k hk hjk => ?_⟩
    by_cases hkl : k = ls.length
    · rw [hkl]
      exact hlast
    · exact (stays_append [line] (by omega)).mpr (hall k (by omega) hjk)

theorem encloses_self (k : Nat) : Encloses lang ls k k ↔ opensAt lang ls k = true := by
  unfold Encloses
  constructor
  · exact fun h => h.1
  · exact fun h => ⟨h, Nat.le_refl _, fun k' h1 h2 => by omega⟩

theorem openLines_snoc :
    openLines lang (ls ++ [line]) =
      (openLines lang ls).filter
          (fun j => Stays lang (ls ++ [line]) (levelAt lang ls j) ls.length) ++
        if opensAt lang (ls ++ [line]) ls.length then [ls.length] else [] := by
  unfold openLines
  rw [List.length_append, List.length_singleton, List.range_succ, List.filter_append,
    List.filter_filter]
  congr 1
  · apply List.filter_congr
    intro j hj
    simp [encloses_last line (List.mem_range.mp hj), Bool.and_comm]
  · simp [List.filter_cons, encloses_self]

theorem loopLines_snoc :
    loopLines lang (ls ++ [line]) =
      loopLines lang ls ++ if opensAt lang (ls ++ [line]) ls.length then [ls.length] else [] := by
  unfold loopLines
  rw [List.length_append, List.length_singleton, List.range_succ, List.filter_append]
  congr 1
  · apply List.filter_congr
    intro j hj
    exact opensAt_append [line] (List.mem_range.mp hj)
  · simp [List.filter_cons]

/-! ## The deepest line -/

/-- The greatest of some numbers after one more. -/
theorem max?_concat (xs : List Nat) (d : Nat) :
    (xs ++ [d]).max?.getD 0 = max (xs.max?.getD 0) d := by
  cases xs with
  | nil => simp
  | cons x xs => rw [List.cons_append, List.max?_cons', List.max?_cons', List.foldl_append]; rfl

theorem length_enclosing_le {i : Nat} (hi : i ∈ loopLines lang ls) :
    (enclosing lang ls i).length ≤ greatestDepth lang ls := by
  unfold greatestDepth
  have hmem : (enclosing lang ls i).length ∈
      (loopLines lang ls).map fun i => (enclosing lang ls i).length :=
    List.mem_map.mpr ⟨i, hi, rfl⟩
  cases hm : ((loopLines lang ls).map fun i => (enclosing lang ls i).length).max? with
  | none =>
    rw [List.max?_eq_none_iff.mp hm] at hmem
    cases hmem
  | some d => exact (List.max?_eq_some_iff.mp hm).2 _ hmem

/-- Where there are loops, one of them is as deep as any. -/
theorem deepestLine?_isSome (h : 0 < greatestDepth lang ls) :
    (deepestLine? lang ls).isSome = true := by
  unfold greatestDepth at h
  cases hm : ((loopLines lang ls).map fun i => (enclosing lang ls i).length).max? with
  | none => simp [hm] at h
  | some d =>
    obtain ⟨i, hi, hd⟩ := List.mem_map.mp (List.max?_eq_some_iff.mp hm).1
    unfold deepestLine?
    rw [List.isSome_head?]
    exact List.ne_nil_of_mem (List.mem_filter.mpr ⟨hi, by simp [greatestDepth, hm, hd]⟩)

theorem greatestDepth_snoc (hopen : opensAt lang (ls ++ [line]) ls.length = true) :
    greatestDepth lang (ls ++ [line]) =
      max (greatestDepth lang ls) (openLines lang (ls ++ [line])).length := by
  unfold greatestDepth
  rw [loopLines_snoc, if_pos hopen, List.map_append, List.map_singleton, max?_concat,
    enclosing_last, map_depth_append]

/-- A line deeper than all before it is the first of its depth, and any other leaves
the first of the deepest as it was. -/
theorem deepestLine?_snoc (hopen : opensAt lang (ls ++ [line]) ls.length = true) :
    deepestLine? lang (ls ++ [line]) =
      if greatestDepth lang ls < (openLines lang (ls ++ [line])).length then some ls.length
      else deepestLine? lang ls := by
  have hgreat := greatestDepth_snoc line hopen
  unfold deepestLine?
  rw [loopLines_snoc, if_pos hopen, List.filter_append, filter_depth_append, List.head?_append]
  by_cases hlt : greatestDepth lang ls < (openLines lang (ls ++ [line])).length
  · rw [if_pos hlt]
    have hnone : (loopLines lang ls).filter (fun i =>
        (enclosing lang ls i).length = greatestDepth lang (ls ++ [line])) = [] := by
      rw [List.filter_eq_nil_iff]
      intro i hi heq
      have hle := length_enclosing_le hi
      have heq' := of_decide_eq_true heq
      omega
    have hnew : (openLines lang (ls ++ [line])).length = greatestDepth lang (ls ++ [line]) := by
      omega
    simp [hnone, enclosing_last, hnew]
  · rw [if_neg hlt]
    have hsame : greatestDepth lang (ls ++ [line]) = greatestDepth lang ls := by omega
    -- the new line encloses itself, so a line before it is as deep
    have hself : 0 < (openLines lang (ls ++ [line])).length := by
      rw [openLines_snoc, if_pos hopen]
      simp
    have hsome : (deepestLine? lang ls).isSome = true := deepestLine?_isSome (by omega)
    obtain ⟨i, hi⟩ := Option.isSome_iff_exists.mp hsome
    unfold deepestLine? at hi
    rw [hsame, hi]
    rfl

theorem lt_of_deepestLine? {i : Nat} (hi : deepestLine? lang ls = some i) : i < ls.length :=
  lt_of_mem_loopLines (List.mem_filter.mp (List.mem_of_head? hi)).1

theorem chain_append (more : List (List Char)) :
    ((deepestLine? lang ls).map (chainAt lang (ls ++ more))).getD [] =
      ((deepestLine? lang ls).map (chainAt lang ls)).getD [] := by
  cases hi : deepestLine? lang ls with
  | none => rfl
  | some i => exact chainAt_append more (lt_of_deepestLine? hi)

/-- A loop line is noted on the loops that are open with it. -/
theorem declaredNesting_snoc (hopen : opensAt lang (ls ++ [line]) ls.length = true) :
    declaredNesting lang (ls ++ [line]) =
      (declaredNesting lang ls).record
        ((openLines lang (ls ++ [line])).map (loopAt lang (ls ++ [line]))).reverse
        (loopAt lang (ls ++ [line]) ls.length) := by
  unfold declaredNesting Nesting.record
  congr 1
  · simp [loopLines_snoc, hopen]
  · simp [greatestDepth_snoc line hopen]
  · rw [deepestLine?_snoc line hopen, List.length_reverse, List.length_map, List.reverse_reverse]
    by_cases hlt : greatestDepth lang ls < (openLines lang (ls ++ [line])).length
    · simp [hlt, chainAt, enclosing_last]
    · rw [if_neg hlt, if_neg hlt, chain_append]
  · simp [loopLines_snoc, hopen, map_loopAt_append]

/-- Any other line shows nothing. -/
theorem declaredNesting_snoc_of_not (hopen : opensAt lang (ls ++ [line]) ls.length = false) :
    declaredNesting lang (ls ++ [line]) = declaredNesting lang ls := by
  have hlines : loopLines lang (ls ++ [line]) = loopLines lang ls := by
    simp [loopLines_snoc, hopen]
  have hgreat : greatestDepth lang (ls ++ [line]) = greatestDepth lang ls := by
    unfold greatestDepth
    rw [hlines, map_depth_append]
  have hdeepest : deepestLine? lang (ls ++ [line]) = deepestLine? lang ls := by
    unfold deepestLine?
    rw [hlines, hgreat, filter_depth_append]
  unfold declaredNesting
  rw [hlines, hgreat, hdeepest, chain_append, map_loopAt_append]

/-! ## The reader -/

/-- Where the elements that a test holds for come first, dropping them from the front
leaves those that it does not hold for. -/
theorem dropWhile_eq_filter {α : Type} {p : α → Bool} {xs : List α}
    (h : xs.Pairwise fun a b => p b = true → p a = true) :
    xs.dropWhile p = xs.filter fun a => !p a := by
  induction xs with
  | nil => rfl
  | cons a xs ih =>
    obtain ⟨hhead, htail⟩ := List.pairwise_cons.mp h
    by_cases ha : p a = true
    · rw [List.dropWhile_cons_of_pos ha, ih htail, List.filter_cons_of_neg (by simp [ha])]
    · have hnone : ∀ b ∈ xs, (!p b) = true := by
        intro b hb
        by_contra hpb
        exact ha (hhead b hb (by simpa using hpb))
      rw [List.dropWhile_cons_of_neg ha, List.filter_cons_of_pos (by simp [ha]),
        List.filter_eq_self.mpr hnone]

theorem count_trim {c : Char} (hc : isBlank c = false) (text : List Char) :
    (trim text).count c = text.count c := by
  have hstart : ∀ t : List Char, (t.dropWhile isBlank).count c = t.count c := by
    intro t
    have hzero : (t.takeWhile isBlank).count c = 0 := by
      rw [List.count_eq_zero]
      intro hmem
      have := List.all_eq_true.mp List.all_takeWhile c hmem
      simp [hc] at this
    conv_rhs => rw [← List.takeWhile_append_dropWhile (p := isBlank) (l := t)]
    rw [List.count_append, hzero, Nat.zero_add]
  unfold trim trimEnd trimStart
  rw [List.count_reverse, hstart, List.count_reverse, hstart]

theorem openBraces_snoc :
    openBraces (ls ++ [line]) = openBraces ls - line.count '}' + line.count '{' := by
  simp [openBraces]

theorem keyAt_last :
    keyAt lang (ls ++ [line]) ls.length =
      if lang.profile.usesBraces then openBraces ls - line.count '}' else indentWidth line := by
  simp [keyAt]

/-- The reader with what a line ends taken off its stack, and with the loop of the
line on it if it opens one. -/
theorem step_written {r : Reader} (hline : isBlankText line = false)
    (hbraces : lang.profile.usesBraces = true → r.braces = openBraces ls) :
    ∃ n, (lang.profile.usesBraces = true → n = openBraces (ls ++ [line])) ∧
      r.step lang line =
        { Reader.enter lang
            { r with stack := r.stack.dropWhile fun l =>
                !decide (Stays lang (ls ++ [line]) l.level ls.length) }
            (trim line) (levelAt lang (ls ++ [line]) ls.length) with
          braces := n } := by
  unfold Reader.step
  rw [if_neg (by simp [hline])]
  by_cases hb : lang.profile.usesBraces = true
  · have hkey : keyAt lang (ls ++ [line]) ls.length = r.braces - (trim line).count '}' := by
      rw [keyAt_last, if_pos hb, hbraces hb, count_trim (by decide)]
    have hstays : (fun l : OpenLoop => !decide (Stays lang (ls ++ [line]) l.level ls.length)) =
        fun l => decide (r.braces - (trim line).count '}' < l.level) := by
      funext l
      rw [← decide_not, decide_eq_decide, Stays, if_pos hb, hkey, Nat.not_le]
    have hafter : r.braces - (trim line).count '}' + (trim line).count '{' =
        openBraces (ls ++ [line]) := by
      rw [openBraces_snoc, hbraces hb, count_trim (by decide), count_trim (by decide)]
    refine ⟨_, fun _ => hafter, ?_⟩
    rw [if_pos hb, hstays, levelAt, if_pos hb, hkey]
    unfold Reader.braceLine Reader.enter
    split <;> rfl
  · have hkey : keyAt lang (ls ++ [line]) ls.length = indentWidth line := by
      rw [keyAt_last, if_neg hb]
    have hstays : (fun l : OpenLoop => !decide (Stays lang (ls ++ [line]) l.level ls.length)) =
        fun l => decide (indentWidth line ≤ l.level) := by
      funext l
      rw [← decide_not, decide_eq_decide, Stays, if_neg hb, hkey, Nat.not_lt]
    refine ⟨r.braces, fun h => absurd h hb, ?_⟩
    rw [if_neg hb, hstays, levelAt, if_neg hb, hkey]
    unfold Reader.indentLine Reader.enter
    split <;> rfl

/-- The reader has read some lines: the loops on its stack are those that are open by
then, and it has noted what the lines show. -/
structure HasRead (lang : Language) (ls : List (List Char)) (r : Reader) : Prop where
  stack : r.stack = ((openLines lang ls).map (loopAt lang ls)).reverse
  braces : lang.profile.usesBraces = true → r.braces = openBraces ls
  nesting : r.nesting = declaredNesting lang ls

theorem hasRead_nil : HasRead lang [] {} where
  stack := rfl
  braces := fun _ => rfl
  nesting := rfl

/-- As the levels rise along the stack, what a line ends is all on top. -/
theorem kept_eq {r : Reader} (h : HasRead lang ls r) :
    (r.stack.dropWhile fun l => !decide (Stays lang (ls ++ [line]) l.level ls.length)) =
      (((openLines lang ls).filter fun j =>
        Stays lang (ls ++ [line]) (levelAt lang ls j) ls.length).map (loopAt lang ls)).reverse := by
  have hlevels : r.stack.Pairwise fun a b => b.level < a.level := by
    rw [h.stack, List.pairwise_reverse, List.pairwise_map]
    exact List.pairwise_map.mp (levels_increase lang ls _ _)
  have hdown : r.stack.Pairwise fun a b =>
      (!decide (Stays lang (ls ++ [line]) b.level ls.length)) = true →
        (!decide (Stays lang (ls ++ [line]) a.level ls.length)) = true := by
    refine hlevels.imp fun {a b} hlt => ?_
    simp only [Bool.not_eq_true', decide_eq_false_iff_not]
    exact mt (stays_of_le (Nat.le_of_lt hlt))
  rw [dropWhile_eq_filter hdown, h.stack, List.filter_reverse, List.filter_map]
  simp only [Bool.not_not]
  rfl

theorem hasRead_step {r : Reader} (h : HasRead lang ls r) (hline : isBlankText line = false) :
    HasRead lang (ls ++ [line]) (r.step lang line) := by
  obtain ⟨n, hn, hstep⟩ := step_written line hline h.braces
  have hkept := kept_eq line h
  -- the loops kept from before are the same ones with the line among the others
  have hsame : ((openLines lang ls).filter fun j =>
        Stays lang (ls ++ [line]) (levelAt lang ls j) ls.length).map (loopAt lang ls) =
      ((openLines lang ls).filter fun j =>
        Stays lang (ls ++ [line]) (levelAt lang ls j) ls.length).map (loopAt lang (ls ++ [line])) := by
    apply List.map_congr_left
    intro j hj
    have hjl := List.mem_range.mp (List.mem_filter.mp (List.mem_filter.mp hj).1).1
    exact (loopAt_append [line] hjl).symm
  rw [hkept, hsame] at hstep
  have hloop : openLoop lang (trim line) (levelAt lang (ls ++ [line]) ls.length) =
      loopAt lang (ls ++ [line]) ls.length := by
    simp [openLoop, loopAt]
  have hopens : opensAt lang (ls ++ [line]) ls.length = lang.opensLoop (trim line) := by
    simp [opensAt]
  rw [hstep]
  by_cases hopen : lang.opensLoop (trim line) = true
  · have hstack : (openLines lang (ls ++ [line])).map (loopAt lang (ls ++ [line])) =
        ((openLines lang ls).filter fun j => Stays lang (ls ++ [line]) (levelAt lang ls j)
          ls.length).map (loopAt lang (ls ++ [line])) ++ [loopAt lang (ls ++ [line]) ls.length] := by
      simp [openLines_snoc, hopens, hopen]
    unfold Reader.enter
    rw [if_pos hopen, hloop]
    refine ⟨?_, hn, ?_⟩
    · simp [hstack]
    · rw [declaredNesting_snoc line (hopens.trans hopen), hstack]
      simp [h.nesting]
  · have hnot : opensAt lang (ls ++ [line]) ls.length = false := by simpa [hopens] using hopen
    unfold Reader.enter
    rw [if_neg hopen]
    refine ⟨?_, hn, ?_⟩
    · simp [openLines_snoc, hnot]
    · rw [declaredNesting_snoc_of_not line hnot]
      exact h.nesting

theorem hasRead_foldl (ls : List (List Char)) (h : ∀ line ∈ ls, isBlankText line = false) :
    HasRead lang ls (ls.foldl (Reader.step lang) {}) := by
  induction ls using List.reverseRecOn with
  | nil => exact hasRead_nil
  | append_singleton ls line ih =>
    rw [List.foldl_append]
    exact hasRead_step line (ih fun l hl => h l (by simp [hl])) (h line (by simp))

/-- Blank lines say nothing. -/
theorem foldl_writtenLines (text : List Char) (r : Reader) :
    (writtenLines text).foldl (Reader.step lang) r = (lines text).foldl (Reader.step lang) r := by
  unfold writtenLines
  rw [List.foldl_filter]
  congr 1
  funext r line
  unfold Reader.step
  cases isBlankText line <;> rfl

theorem not_isBlankText_of_mem_writtenLines {text line : List Char}
    (h : line ∈ writtenLines text) : isBlankText line = false := by
  simpa using (List.mem_filter.mp h).2

/-- The reader has read the lines of a text that are not blank. -/
theorem hasRead_lines (lang : Language) (text : List Char) :
    HasRead lang (writtenLines text) ((lines text).foldl (Reader.step lang) {}) := by
  rw [← foldl_writtenLines]
  apply hasRead_foldl
  intro line hline
  exact not_isBlankText_of_mem_writtenLines hline

/-! ## The law -/

/-- For every language and text: the loops that the reader counts are the loop lines, the
depth is the greatest number of loops around one of them, the chain holds the loops
around the first that has as many, outermost first, and there is a progression if a
loop line shows one. The levels rise along the chain. -/
theorem nesting_eq_declaredNesting (lang : Language) (text : List Char) :
    nesting lang text = declaredNesting lang (writtenLines text) ∧
      ((nesting lang text).chain.map (·.level)).Pairwise (· < ·) := by
  have hwritten : ∀ line ∈ writtenLines text, isBlankText line = false := by
    intro line hline
    simpa using (List.mem_filter.mp hline).2
  have hnest : nesting lang text = declaredNesting lang (writtenLines text) := by
    unfold nesting
    rw [← foldl_writtenLines]
    exact (hasRead_foldl _ hwritten).nesting
  refine ⟨hnest, ?_⟩
  rw [hnest]
  unfold declaredNesting
  cases deepestLine? lang (writtenLines text) with
  | none => simp
  | some i =>
    have hincrease := levels_increase lang (writtenLines text) (i + 1) i
    simpa [chainAt, enclosing, List.pairwise_map, loopAt] using hincrease

-- a blank line that ends nothing, and a second nest that is only as deep as the first
example : declaredNesting .python
    (writtenLines "for i in a:\n  while x < 9:\n\n    x *= 2\n for j in b:\n  y\nwhile z < 3:".toList) =
    ⟨4, 2, [⟨0, "n", false⟩, ⟨2, "9", false⟩], false⟩ := by decide +kernel

end BigO.Loop.Enclosure
