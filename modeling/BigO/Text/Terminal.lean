-- Text for a reader that is no terminal. Control sequences, which set colours
-- or move the mark on a screen, are left out. One pass is made: a sequence
-- that only comes together when another is taken out stays.
import BigO.Text.Ranges

namespace BigO.Text

/-! ## Control sequences -/

/-- A character that may stand among the parameters of a control sequence: from
the digit zero to the question mark. -/
def isParameter (c : Char) : Bool :=
  CodeRange.holds ⟨0x30, 0x3F⟩ c

/-- A character that may stand between the parameters and the end: from the
space to the slash. -/
def isIntermediate (c : Char) : Bool :=
  CodeRange.holds ⟨0x20, 0x2F⟩ c

/-- A character that ends a control sequence: from the at sign to the tilde. -/
def isFinal (c : Char) : Bool :=
  CodeRange.holds ⟨0x40, 0x7E⟩ c

/-- The length of what is left of a control sequence after its parameters, if
the text starts with such a rest. -/
def endLength? : List Char → Option Nat
  | [] => none
  | c :: cs =>
    if isIntermediate c then (endLength? cs).map (· + 1)
    else if isFinal c then some 1
    else none

/-- The length of what is left of a control sequence from its parameters on. -/
def parametersLength? : List Char → Option Nat
  | [] => none
  | c :: cs =>
    if isParameter c then (parametersLength? cs).map (· + 1)
    else endLength? (c :: cs)

/-- The length of the control sequence that the text starts with: the escape
character, an opening square bracket, parameters, intermediate characters, and
one that ends it. -/
def controlLength? : List Char → Option Nat
  | '\x1b' :: '[' :: cs => (parametersLength? cs).map (· + 2)
  | _ => none

/-! ## Plain text -/

/-- The text without its control sequences, the first `skip` characters left out
as well. -/
def dropControls : Nat → List Char → List Char
  | _, [] => []
  | skip + 1, _ :: cs => dropControls skip cs
  | 0, c :: cs =>
    match controlLength? (c :: cs) with
    | some n => dropControls (n - 1) cs
    | none => c :: dropControls 0 cs

/-- The text without a carriage return before a line feed. -/
def dropReturns : List Char → List Char
  | [] => []
  | '\r' :: '\n' :: cs => '\n' :: dropReturns cs
  | c :: cs => c :: dropReturns cs

/-- The text as it is printed: no control sequences, and no carriage return
before a line feed. -/
def plain (text : String) : String :=
  String.ofList (dropReturns (dropControls 0 text.toList))

/-! ## Laws -/

theorem controlLength?_eq_none {c : Char} {cs : List Char} (h : c ≠ '\x1b') :
    controlLength? (c :: cs) = none := by
  unfold controlLength?
  split
  · simp_all
  · rfl

/-- Without the escape character there is nothing to leave out. -/
theorem dropControls_of_not_mem {text : List Char} (h : '\x1b' ∉ text) :
    dropControls 0 text = text := by
  induction text with
  | nil => rfl
  | cons c cs ih =>
    simp only [List.mem_cons, not_or] at h
    rw [dropControls, controlLength?_eq_none (Ne.symm h.1)]
    simp only [ih h.2]

end BigO.Text
