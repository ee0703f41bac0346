-- What a call is cut into. Cutting undoes joining, a call has no arguments just when it is
-- never closed, and every argument is whole, whatever the text is.
import BigO.Proofs.BalancedArguments

namespace BigO.Text

/-! ## Trimming -/

/-- What trimming takes off is blank. -/
theorem exists_trim (text : List Char) : ∃ before after,
    (∀ c ∈ before, isBlank c = true) ∧ (∀ c ∈ after, isBlank c = true) ∧
      trimStart text = trim text ++ after ∧ text = before ++ (trim text ++ after) := by
  have hstart : trimStart text =
      trim text ++ ((trimStart text).reverse.takeWhile isBlank).reverse := by
    rw [trim, trimEnd, ← List.reverse_append, List.takeWhile_append_dropWhile,
      List.reverse_reverse]
  refine ⟨text.takeWhile isBlank, ((trimStart text).reverse.takeWhile isBlank).reverse,
    List.all_eq_true.mp List.all_takeWhile, ?_, hstart, ?_⟩
  · intro c hc
    exact List.all_eq_true.mp List.all_takeWhile c (List.mem_reverse.mp hc)
  · rw [← hstart, trimStart, List.takeWhile_append_dropWhile]

/-- What trimming leaves is solid, if it leaves anything. -/
theorem solid_trim {text : List Char} (hne : trim text ≠ []) : Solid (trim text) := by
  obtain ⟨before, after, -, -, hstart, -⟩ := exists_trim text
  obtain ⟨c, cs, htrim⟩ := List.exists_cons_of_ne_nil hne
  constructor
  · have hfirst := List.head?_dropWhile_not isBlank text
    rw [← trimStart, hstart, htrim] at hfirst
    simpa [htrim] using hfirst
  · have hlast := List.head?_dropWhile_not isBlank (trimStart text).reverse
    rw [trim, trimEnd, List.getLast?_reverse]
    cases hcase : ((trimStart text).reverse.dropWhile isBlank).head? with
    | none =>
      rw [List.head?_eq_none_iff] at hcase
      exact absurd (by rw [trim, trimEnd, hcase]; rfl) hne
    | some x => simpa [hcase] using hlast

theorem trim_trim (text : List Char) : trim (trim text) = trim text := by
  by_cases hne : trim text = []
  · rw [hne]
    rfl
  · exact (solid_trim hne).trim_self

end BigO.Text

namespace BigO.Loop

open BigO.Text

/-! ## Calls that are never closed -/

/-- What the first character opens or closes, the rest starts with. -/
theorem forall_prefix_cons_iff {depth d : Nat} {c : Char} {cs : List Char}
    (hd : d + (if isClosing c then 1 else 0) = depth + if isOpening c then 1 else 0) :
    (∀ part, part <+: cs → part.countP isClosing ≤ d + part.countP isOpening) ↔
      ∀ part, part <+: c :: cs → part.countP isClosing ≤ depth + part.countP isOpening := by
  constructor
  · intro h part hpart
    rcases List.prefix_cons_iff.mp hpart with rfl | ⟨more, rfl, hmore⟩
    · exact Nat.zero_le _
    · have hcount := h more hmore
      rw [List.countP_cons, List.countP_cons]
      omega
  · intro h part hpart
    have hcount := h (c :: part) (List.cons_prefix_cons.mpr ⟨rfl, hpart⟩)
    rw [List.countP_cons, List.countP_cons] at hcount
    omega

theorem argumentsFrom_eq_none_iff (depth : Nat) (current text : List Char) :
    argumentsFrom depth current text = none ↔
      ∀ part, part <+: text → part.countP isClosing ≤ depth + part.countP isOpening := by
  induction text generalizing depth current with
  | nil =>
    refine iff_of_true rfl fun part hpart => ?_
    rw [List.prefix_nil.mp hpart]
    exact Nat.zero_le _
  | cons c cs ih =>
    rcases argumentsFrom_cases depth current c cs with
      ⟨d, hd, -, hread⟩ | ⟨rfl, hopen, hclose, hread⟩ | ⟨rfl, rfl, hread⟩
    · rw [hread, ih]
      exact forall_prefix_cons_iff hd
    · refine iff_of_false (by simp [hread]) fun h => ?_
      have hcount := h [c] (List.cons_prefix_cons.mpr ⟨rfl, List.nil_prefix⟩)
      rw [List.countP_singleton, List.countP_singleton, hopen, hclose] at hcount
      exact absurd hcount (by decide)
    · rw [hread, Option.map_eq_none_iff, ih]
      exact forall_prefix_cons_iff rfl

/-! ## Arguments that are read -/

/-- The text of an argument up to a place that is `depth` brackets deep. -/
structure ReadTo (depth : Nat) (text : List Char) : Prop where
  nested : Nested 0 text
  leavesOpen : text.countP isOpening = depth + text.countP isClosing

theorem readTo_nil : ReadTo 0 [] := by
  refine ⟨⟨fun part hpart => ?_, fun part hpart => ?_⟩, rfl⟩
  · rw [List.prefix_nil.mp hpart]
    exact Nat.le_refl 0
  · exact absurd (List.prefix_nil.mp hpart) (by simp)

/-- A character more, and what it opens or closes. -/
theorem ReadTo.snoc {depth d : Nat} {text : List Char} {c : Char} (h : ReadTo depth text)
    (hd : d + (if isClosing c then 1 else 0) = depth + if isOpening c then 1 else 0)
    (hcomma : c = ',' → 0 < depth) : ReadTo d (text ++ [c]) := by
  have hopened : (text ++ [c]).countP isOpening =
      text.countP isOpening + if isOpening c then 1 else 0 := by
    rw [List.countP_append, List.countP_singleton]
  have hclosed : (text ++ [c]).countP isClosing =
      text.countP isClosing + if isClosing c then 1 else 0 := by
    rw [List.countP_append, List.countP_singleton]
  have hleft := h.leavesOpen
  refine ⟨⟨fun part hpart => ?_, fun part hpart => ?_⟩, ?_⟩
  · rcases List.prefix_concat_iff.mp hpart with rfl | hbefore
    · omega
    · exact h.nested.closesOpen part hbefore
  · rcases List.prefix_concat_iff.mp hpart with hlast | hbefore
    · obtain ⟨rfl, hc⟩ := List.append_inj' hlast rfl
      have hpos := hcomma (List.cons.inj hc).1.symm
      omega
    · exact h.nested.commasInside part hbefore
  · omega

theorem not_isBlank_of_isBracket {c : Char} (h : isOpening c = true ∨ isClosing c = true) :
    isBlank c = false := by
  simp only [isOpening, isClosing, Bool.or_eq_true, beq_iff_eq] at h
  rcases h with ((rfl | rfl) | rfl) | ((rfl | rfl) | rfl) <;> decide

/-- Blanks open and close nothing. -/
theorem countP_blanks {blanks : List Char} (hb : ∀ c ∈ blanks, isBlank c = true) :
    blanks.countP isOpening = 0 ∧ blanks.countP isClosing = 0 := by
  have hno : ∀ c ∈ blanks, ¬ (isOpening c = true ∨ isClosing c = true) := by
    intro c hc hbracket
    exact absurd (hb c hc) (by rw [not_isBlank_of_isBracket hbracket]; decide)
  rw [List.countP_eq_zero, List.countP_eq_zero]
  exact ⟨fun c hc h => hno c hc (.inl h), fun c hc h => hno c hc (.inr h)⟩

/-- Where no bracket is open an argument may end. -/
theorem ReadTo.isWhole_trim {text : List Char} (h : ReadTo 0 text) : IsWhole (trim text) := by
  obtain ⟨before, after, hbefore, hafter, -, hsplit⟩ := exists_trim text
  obtain ⟨hopens, hcloses⟩ := countP_blanks hbefore
  obtain ⟨hopensAfter, hclosesAfter⟩ := countP_blanks hafter
  have hopen : ∀ part, (before ++ part).countP isOpening = part.countP isOpening := by
    intro part
    rw [List.countP_append, hopens, Nat.zero_add]
  have hclose : ∀ part, (before ++ part).countP isClosing = part.countP isClosing := by
    intro part
    rw [List.countP_append, hcloses, Nat.zero_add]
  have hstart : ∀ part, part <+: trim text → before ++ part <+: text := by
    intro part hpart
    have hmore := (List.prefix_append_right_inj before).mpr (hpart.trans (List.prefix_append _ after))
    rwa [← hsplit] at hmore
  refine ⟨trim_trim text, ⟨fun part hpart => ?_, fun part hpart => ?_⟩, ?_⟩
  · have hcount := h.nested.closesOpen _ (hstart part hpart)
    rwa [hopen, hclose] at hcount
  · have hmore := hstart _ hpart
    rw [← List.append_assoc] at hmore
    have hcount := h.nested.commasInside _ hmore
    rwa [hopen, hclose] at hcount
  · have hall := h.leavesOpen
    rw [hsplit, hopen, hclose, List.countP_append, List.countP_append, hopensAfter,
      hclosesAfter] at hall
    omega

/-- Whatever is read of the current argument, all arguments that are read are whole. -/
theorem isWhole_of_mem_argumentsFrom {depth : Nat} {current text : List Char}
    (hcurrent : ReadTo depth current.reverse) {parts : List (List Char)}
    (h : argumentsFrom depth current text = some parts) : ∀ p ∈ parts, IsWhole p := by
  induction text generalizing depth current parts with
  | nil => exact absurd h (by simp [argumentsFrom])
  | cons c cs ih =>
    rcases argumentsFrom_cases depth current c cs with
      ⟨d, hd, hcomma, hread⟩ | ⟨rfl, -, -, hread⟩ | ⟨rfl, -, hread⟩
    · apply ih _ (hread.symm.trans h)
      rw [List.reverse_cons]
      exact hcurrent.snoc hd hcomma
    · obtain rfl := Option.some.inj (hread.symm.trans h)
      intro p hp
      unfold lastArgument at hp
      split at hp
      · exact absurd hp List.not_mem_nil
      · rw [List.mem_singleton.mp hp]
        exact hcurrent.isWhole_trim
    · obtain ⟨later, hlater, rfl⟩ := Option.map_eq_some_iff.mp (hread.symm.trans h)
      exact List.forall_mem_cons.mpr ⟨hcurrent.isWhole_trim, ih readTo_nil hlater⟩

/-! ## Laws -/

/-- Cutting a call into arguments undoes joining them: whole arguments, the last of them not
empty, are read back from the text they are joined to, whatever bracket closes the call and
whatever follows. A text closes no call just when no cut of it closes more brackets than it
opens. And every argument that is ever read is whole. -/
theorem arguments_cut_and_joined :
    (∀ parts close rest, (∀ p ∈ parts, IsWhole p) → parts.getLast? ≠ some [] →
      isClosing close = true → arguments? (joined parts ++ close :: rest) = some parts) ∧
    (∀ text, arguments? text = none ↔
      ∀ part, part <+: text → part.countP isClosing ≤ part.countP isOpening) ∧
    ∀ text parts, arguments? text = some parts → ∀ p ∈ parts, IsWhole p := by
  refine ⟨fun parts close rest hwhole hlast hclose => ?_, fun text => ?_, fun text parts h => ?_⟩
  · cases parts with
    | nil => exact argumentsFrom_closing hclose [] rest
    | cons first others =>
      exact argumentsFrom_joined hwhole hlast hclose (List.forall_mem_nil _) rest
  · rw [arguments?, argumentsFrom_eq_none_iff]
    simp only [Nat.zero_add]
  · exact isWhole_of_mem_argumentsFrom readTo_nil h

/-- A call in a call, an argument left out, and more text. -/
theorem arguments_cut_and_joined_nestedCall :
    (∀ p ∈ ["f(a, b)".toList, [], "x[0]".toList], IsWhole p) ∧
      arguments? "f(a, b), , x[0]) + 1".toList =
        some ["f(a, b)".toList, [], "x[0]".toList] := by
  have hwhole : ∀ p ∈ ["f(a, b)".toList, [], "x[0]".toList], IsWhole p := by decide
  exact ⟨hwhole, arguments_cut_and_joined.1 _ ')' " + 1".toList hwhole (by decide) rfl⟩

end BigO.Loop
