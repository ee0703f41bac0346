-- Arguments that are written whole: their brackets pair up and they have no comma
-- outside of them. A call of such arguments, joined by commas, is read back as the
-- arguments it was written with.
import BigO.Proofs.Header
import Mathlib.Data.List.Infix

namespace BigO.Loop

open BigO.Text

/-! ## Brackets -/

/-- With `depth` brackets open before it, the text closes only brackets that are open, and
has its commas inside of brackets. -/
structure Nested (depth : Nat) (text : List Char) : Prop where
  closesOpen : ∀ part, part <+: text → part.countP isClosing ≤ depth + part.countP isOpening
  commasInside : ∀ part, part ++ [','] <+: text →
    part.countP isClosing < depth + part.countP isOpening

/-- An argument as it may be written in a call, on one line. -/
structure IsArgument (text : List Char) : Prop where
  ne_nil : text ≠ []
  trimmed : trim text = text
  inLine : '\n' ∉ text
  nested : Nested 0 text
  closesAll : text.countP isClosing = text.countP isOpening

instance (depth : Nat) (text : List Char) : Decidable (Nested depth text) :=
  decidable_of_iff (∀ part ∈ text.inits,
      part.countP isClosing ≤ depth + part.countP isOpening ∧
        (part ++ [','] <+: text → part.countP isClosing < depth + part.countP isOpening)) <| by
    constructor
    · intro h
      refine ⟨fun part hpart => (h part ((List.mem_inits _ _).mpr hpart)).1, ?_⟩
      intro part hcomma
      have hpart : part <+: text := (List.prefix_append part _).trans hcomma
      exact (h part ((List.mem_inits _ _).mpr hpart)).2 hcomma
    · intro h part hpart
      exact ⟨h.closesOpen part ((List.mem_inits _ _).mp hpart), h.commasInside part⟩

instance (text : List Char) : Decidable (IsArgument text) :=
  decidable_of_iff (text ≠ [] ∧ trim text = text ∧ '\n' ∉ text ∧ Nested 0 text ∧
      text.countP isClosing = text.countP isOpening)
    ⟨fun ⟨a, b, c, d, e⟩ => ⟨a, b, c, d, e⟩, fun ⟨a, b, c, d, e⟩ => ⟨a, b, c, d, e⟩⟩

theorem isClosing_of_isOpening {c : Char} (h : isOpening c = true) : isClosing c = false := by
  unfold isOpening at h
  simp only [Bool.or_eq_true, beq_iff_eq] at h
  rcases h with (rfl | rfl) | rfl <;> decide

theorem isOpening_of_isClosing {c : Char} (h : isClosing c = true) : isOpening c = false := by
  cases hopen : isOpening c with
  | false => rfl
  | true => exact absurd (isClosing_of_isOpening hopen) (by rw [h]; decide)

theorem argumentsFrom_cons (depth : Nat) (current : List Char) (c : Char) (cs : List Char) :
    argumentsFrom depth current (c :: cs) =
      if isOpening c then argumentsFrom (depth + 1) (c :: current) cs
      else if isClosing c then
        match depth with
        | 0 => some (lastArgument current.reverse)
        | d + 1 => argumentsFrom d (c :: current) cs
      else if c = ',' ∧ depth = 0 then
        (argumentsFrom 0 [] cs).map (trim current.reverse :: ·)
      else argumentsFrom depth (c :: current) cs :=
  argumentsFrom.eq_def depth current (c :: cs)

/-- What becomes of the next character: it goes to the current argument and may open or close a
bracket, or it closes the call, or it is the comma that ends the argument. -/
theorem argumentsFrom_cases (depth : Nat) (current : List Char) (c : Char) (cs : List Char) :
    (∃ d, d + (if isClosing c then 1 else 0) = depth + (if isOpening c then 1 else 0) ∧
      (c = ',' → 0 < depth) ∧
      argumentsFrom depth current (c :: cs) = argumentsFrom d (c :: current) cs) ∨
    (depth = 0 ∧ isOpening c = false ∧ isClosing c = true ∧
      argumentsFrom depth current (c :: cs) = some (lastArgument current.reverse)) ∨
    (depth = 0 ∧ c = ',' ∧ argumentsFrom depth current (c :: cs) =
      (argumentsFrom 0 [] cs).map (trim current.reverse :: ·)) := by
  rw [argumentsFrom_cons]
  cases hopen : isOpening c with
  | true =>
    refine .inl ⟨depth + 1, by simp [isClosing_of_isOpening hopen], ?_, rfl⟩
    rintro rfl
    exact absurd hopen (by decide)
  | false =>
    cases hclose : isClosing c with
    | true =>
      cases depth with
      | zero => exact .inr (.inl ⟨rfl, rfl, rfl, rfl⟩)
      | succ d => exact .inl ⟨d, rfl, fun _ => Nat.succ_pos d, rfl⟩
    | false =>
      by_cases hcomma : c = ',' ∧ depth = 0
      · exact .inr (.inr ⟨hcomma.2, hcomma.1, if_pos hcomma⟩)
      · refine .inl ⟨depth, rfl, fun hc => ?_, if_neg hcomma⟩
        exact Nat.pos_of_ne_zero fun hzero => hcomma ⟨hc, hzero⟩

namespace Nested

variable {depth : Nat} {c : Char} {cs : List Char}

/-- What follows the first character is nested at the depth that this one leaves. -/
theorem tail {d : Nat} (h : Nested depth (c :: cs))
    (hd : d + (if isClosing c then 1 else 0) = depth + if isOpening c then 1 else 0) :
    Nested d cs := by
  constructor
  · intro part hpart
    have hcount := h.closesOpen (c :: part) (List.cons_prefix_cons.mpr ⟨rfl, hpart⟩)
    rw [List.countP_cons, List.countP_cons] at hcount
    omega
  · intro part hpart
    have hcount := h.commasInside (c :: part) (List.cons_prefix_cons.mpr ⟨rfl, hpart⟩)
    rw [List.countP_cons, List.countP_cons] at hcount
    omega

theorem depth_pos_of_closing (h : Nested depth (c :: cs)) (hopen : isOpening c = false)
    (hclose : isClosing c = true) : 0 < depth := by
  have hcount := h.closesOpen [c] (List.cons_prefix_cons.mpr ⟨rfl, List.nil_prefix⟩)
  rw [List.countP_singleton, List.countP_singleton, hopen, hclose] at hcount
  exact hcount

theorem depth_pos_of_comma (h : Nested depth (',' :: cs)) : 0 < depth := by
  simpa using h.commasInside [] (List.cons_prefix_cons.mpr ⟨rfl, List.nil_prefix⟩)

/-- All of a nested text goes to the current argument, and what comes next is read at the
depth that it leaves. -/
theorem argumentsFrom_append {text : List Char} (h : Nested depth text)
    (current rest : List Char) :
    argumentsFrom depth current (text ++ rest) =
      argumentsFrom (depth + text.countP isOpening - text.countP isClosing)
        (text.reverse ++ current) rest := by
  induction text generalizing depth current with
  | nil => rfl
  | cons c cs ih =>
    rw [List.cons_append]
    rcases argumentsFrom_cases depth current c (cs ++ rest) with
      ⟨d, hd, -, hread⟩ | ⟨rfl, hopen, hclose, -⟩ | ⟨rfl, rfl, -⟩
    · have hdepth : d + cs.countP isOpening - cs.countP isClosing =
          depth + (c :: cs).countP isOpening - (c :: cs).countP isClosing := by
        rw [List.countP_cons, List.countP_cons]
        omega
      rw [hread, ih (h.tail hd), hdepth, List.reverse_cons, List.append_assoc]
      rfl
    · exact absurd (h.depth_pos_of_closing hopen hclose) (Nat.lt_irrefl 0)
    · exact absurd h.depth_pos_of_comma (Nat.lt_irrefl 0)

end Nested

/-! ## Calls -/

/-- An argument that is written whole: trimmed, with its brackets paired, and with its commas
inside of them. -/
structure IsWhole (text : List Char) : Prop where
  trimmed : trim text = text
  nested : Nested 0 text
  closesAll : text.countP isClosing = text.countP isOpening

instance (text : List Char) : Decidable (IsWhole text) :=
  decidable_of_iff (trim text = text ∧ Nested 0 text ∧ text.countP isClosing = text.countP isOpening)
    ⟨fun ⟨a, b, c⟩ => ⟨a, b, c⟩, fun ⟨a, b, c⟩ => ⟨a, b, c⟩⟩

theorem IsArgument.isWhole {argument : List Char} (h : IsArgument argument) : IsWhole argument :=
  ⟨h.trimmed, h.nested, h.closesAll⟩

theorem trim_blanks_append {blanks : List Char} (hb : ∀ c ∈ blanks, isBlank c = true)
    (text : List Char) : trim (blanks ++ text) = trim text := by
  rw [trim, trim, trimStart, trimStart, List.dropWhile_append_of_pos hb]

namespace IsWhole

variable {argument : List Char}

theorem trim_after_blanks (h : IsWhole argument) {current : List Char}
    (hcurrent : ∀ c ∈ current, isBlank c = true) :
    trim (argument.reverse ++ current).reverse = argument := by
  have hbefore : ∀ c ∈ current.reverse, isBlank c = true :=
    fun c hc => hcurrent c (List.mem_reverse.mp hc)
  rw [List.reverse_append, List.reverse_reverse, trim_blanks_append hbefore, h.trimmed]

/-- At the end of an argument no bracket is open. -/
theorem argumentsFrom_append (h : IsWhole argument) (current rest : List Char) :
    argumentsFrom 0 current (argument ++ rest) =
      argumentsFrom 0 (argument.reverse ++ current) rest := by
  rw [h.nested.argumentsFrom_append, h.closesAll, Nat.zero_add, Nat.sub_self]

end IsWhole

theorem argumentsFrom_closing {close : Char} (hclose : isClosing close = true)
    (current rest : List Char) :
    argumentsFrom 0 current (close :: rest) = some (lastArgument current.reverse) := by
  rw [argumentsFrom_cons, isOpening_of_isClosing hclose, hclose, if_neg (by decide), if_pos rfl]

/-- Arguments as they are written in a call: with a comma and a space between any two. -/
def joined (arguments : List (List Char)) : List Char :=
  [',', ' '].intercalate arguments

/-- A call is read back as the arguments it was written with. Only a last one that is empty
would be left out. -/
theorem argumentsFrom_joined {first : List Char} {others : List (List Char)}
    (h : ∀ a ∈ first :: others, IsWhole a) (hlast : (first :: others).getLast? ≠ some [])
    {close : Char} (hclose : isClosing close = true) {current : List Char}
    (hcurrent : ∀ c ∈ current, isBlank c = true) (rest : List Char) :
    argumentsFrom 0 current (joined (first :: others) ++ close :: rest) =
      some (first :: others) := by
  induction others generalizing first current with
  | nil =>
    have hfirst := h first (List.mem_cons_self ..)
    have hne : first ≠ [] := fun hnil => hlast (congrArg some hnil)
    rw [joined, List.intercalate_singleton, hfirst.argumentsFrom_append,
      argumentsFrom_closing hclose, lastArgument, hfirst.trim_after_blanks hcurrent, if_neg hne]
  | cons second others ih =>
    obtain ⟨hfirst, hothers⟩ := List.forall_mem_cons.mp h
    have hcomma : ∀ current text, argumentsFrom 0 current (',' :: text) =
        (argumentsFrom 0 [] text).map (trim current.reverse :: ·) := fun _ _ => rfl
    have hspace : ∀ text, argumentsFrom 0 [] (' ' :: text) = argumentsFrom 0 [' '] text :=
      fun _ => rfl
    have hblank : ∀ c ∈ [' '], isBlank c = true := List.all_eq_true.mp (by decide)
    have hjoined : joined (first :: second :: others) ++ close :: rest =
        first ++ ',' :: ' ' :: (joined (second :: others) ++ close :: rest) := by
      rw [joined, List.intercalate_cons_cons]
      simp [joined]
    rw [hjoined, hfirst.argumentsFrom_append, hcomma, hfirst.trim_after_blanks hcurrent, hspace,
      ih hothers (by rwa [List.getLast?_cons_cons] at hlast) hblank]
    rfl

/-- The second of several arguments is the upper end, and else the only one. -/
theorem upperEnd?_joined {first : List Char} {others : List (List Char)}
    (h : ∀ a ∈ first :: others, IsArgument a) (rest : List Char) :
    (arguments? (joined (first :: others) ++ ')' :: rest)).bind upperEnd? =
      some (others.headD first) := by
  have hlast : (first :: others).getLast? ≠ some [] :=
    fun hnil => (h [] (List.mem_of_getLast? hnil)).ne_nil rfl
  rw [arguments?, argumentsFrom_joined (fun a ha => (h a ha).isWhole) hlast rfl
    (List.forall_mem_nil _)]
  cases others with
  | nil => rfl
  | cons second others => rfl

end BigO.Loop
