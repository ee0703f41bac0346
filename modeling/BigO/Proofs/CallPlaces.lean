-- Where a name is called. Calls are found from left to right and never overlap, so as many are
-- found as there are places in the text where the name starts a word before a bracket. What
-- stands around a text takes no call from it, as long as no word goes on into it.
import BigO.Proofs.Respacing
import Mathlib.Data.Nat.Count
import Mathlib.Data.Set.Card

namespace BigO.Text

open BigO.Scan

/-! ## Places where words start -/

/-- At the `i`-th place of the text a word starts, and the rest of the text passes the test. -/
def WordStartsAt (test : List Char → Bool) (inWord : Bool) (text : List Char) (i : Nat) : Prop :=
  (text.take i).getLast?.elim inWord isWord = false ∧ (text.drop i).head?.any isWord = true ∧
    test (text.drop i) = true

instance (test : List Char → Bool) (inWord : Bool) (text : List Char) (i : Nat) :
    Decidable (WordStartsAt test inWord text i) :=
  inferInstanceAs (Decidable (_ ∧ _ ∧ _))

variable {test : List Char → Bool} {inWord : Bool}

theorem wordStartsAt_zero {c : Char} {cs : List Char} :
    WordStartsAt test inWord (c :: cs) 0 ↔ (!inWord && isWord c && test (c :: cs)) = true := by
  simp [WordStartsAt, and_assoc]

theorem wordStartsAt_succ {c : Char} {cs : List Char} {i : Nat} :
    WordStartsAt test inWord (c :: cs) (i + 1) ↔ WordStartsAt test (isWord c) cs i := by
  simp only [WordStartsAt, List.take_succ_cons, List.drop_succ_cons, elim_getLast?_cons]

/-- The words that start in a text are counted place by place. -/
theorem wordStarts_eq_count (text : List Char) :
    wordStarts test inWord text = Nat.count (WordStartsAt test inWord text) text.length := by
  induction text generalizing inWord with
  | nil => rfl
  | cons c cs ih =>
    rw [wordStarts, ih, List.length_cons, Nat.count_succ', Nat.add_comm]
    simp only [wordStartsAt_succ, wordStartsAt_zero]

end BigO.Text

namespace BigO.Recursion

open BigO.Text BigO.Scan

/-! ## Places of calls -/

/-- At the `i`-th place of the text stands the name, then blanks or none, then a bracket, and no
word character comes before it. -/
def CallsAt (f text : List Char) (i : Nat) : Prop :=
  (∃ gap rest, text.drop i = f ++ (gap ++ '(' :: rest) ∧ Only isBlank gap) ∧
    (text.take i).getLast?.any isWord = false

instance (f text : List Char) (i : Nat) : Decidable (CallsAt f text i) :=
  decidable_of_iff (callAhead f (text.drop i) = true ∧ (text.take i).getLast?.any isWord = false)
    (and_congr_left' callAhead_iff)

variable {f text : List Char} {i : Nat}

theorem CallsAt.lt_length (h : CallsAt f text i) : i < text.length := by
  obtain ⟨⟨gap, rest, hdrop, -⟩, -⟩ := h
  have hlength := congrArg List.length hdrop
  simp only [List.length_drop, List.length_append, List.length_cons] at hlength
  omega

/-- What comes after a text takes no call from it. -/
theorem CallsAt.append (h : CallsAt f text i) (more : List Char) : CallsAt f (text ++ more) i := by
  have hle := Nat.le_of_lt h.lt_length
  obtain ⟨⟨gap, rest, hdrop, hgap⟩, hbefore⟩ := h
  rw [CallsAt, List.drop_append_of_le_length hle, List.take_append_of_le_length hle]
  exact ⟨⟨gap, rest ++ more, by simp [hdrop], hgap⟩, hbefore⟩

/-- Neither does what comes before it, if no word goes on from there. -/
theorem CallsAt.after {first : List Char} (h : CallsAt f text i)
    (hfirst : first.getLast?.any isWord = false) :
    CallsAt f (first ++ text) (first.length + i) := by
  obtain ⟨hcall, hbefore⟩ := h
  refine ⟨by rwa [List.drop_length_add_append], ?_⟩
  rw [List.take_length_add_append, List.getLast?_append]
  cases hlast : (text.take i).getLast? with
  | none => simpa using hfirst
  | some x => simpa [hlast] using hbefore

section Count

variable (hne : f ≠ []) (hf : Only isWord f)

include hne hf

theorem wordStartsAt_callAhead_iff :
    WordStartsAt (callAhead f) false text i ↔ CallsAt f text i := by
  rw [WordStartsAt, CallsAt, elim_getLast?_false, callAhead_iff]
  constructor
  · rintro ⟨hbefore, -, hcall⟩
    exact ⟨hcall, hbefore⟩
  · rintro ⟨hcall, hbefore⟩
    refine ⟨hbefore, ?_, hcall⟩
    obtain ⟨gap, rest, hdrop, -⟩ := hcall
    rw [hdrop, List.head?_append, List.head?_eq_some_head hne]
    exact hf _ (List.head_mem hne)

/-- As many calls are counted as there are places of calls. -/
theorem callCount_eq_count (text : List Char) :
    callCount f text = Nat.count (CallsAt f text) text.length := by
  have hsame : WordStartsAt (callAhead f) false text = CallsAt f text :=
    funext fun _ => propext (wordStartsAt_callAhead_iff hne hf)
  rw [callCount_eq_wordStarts hne hf, wordStarts_eq_count]
  simp only [hsame]

theorem callCount_eq_ncard (text : List Char) :
    callCount f text = {i | CallsAt f text i}.ncard := by
  have hplaces : {i | CallsAt f text i} =
      ((Finset.range text.length).filter (CallsAt f text) : Set Nat) := by
    ext i
    simpa using CallsAt.lt_length
  rw [callCount_eq_count hne hf, Nat.count_eq_card_filter_range, hplaces, Set.ncard_coe_finset]

/-- The calls of two texts in a row are all counted, if no word goes on from the first one. -/
theorem callCount_append_le {a b : List Char} (ha : a.getLast?.any isWord = false) :
    callCount f a + callCount f b ≤ callCount f (a ++ b) := by
  simp only [callCount_eq_count hne hf, List.length_append, Nat.count_add]
  apply Nat.add_le_add
  · exact Nat.count_mono_left fun _ _ h => h.append b
  · exact Nat.count_mono_left fun _ _ h => h.after ha

theorem callCount_le_append (text more : List Char) :
    callCount f text ≤ callCount f (text ++ more) := by
  simp only [callCount_eq_count hne hf, List.length_append, Nat.count_add]
  exact Nat.le_add_right_of_le (Nat.count_mono_left fun _ _ h => h.append more)

end Count

/-! ## Laws -/

/-- For every name of word characters: a text has as many calls of it as it has places where the
name stands, then blanks or none, then a bracket, and no word character before it. So no text
has more calls than one that it is a part of, if no word goes on into the part; and the calls
of two texts are all there when a line feed stands between them. -/
theorem calls_counted_by_place (hne : f ≠ []) (hf : Only isWord f) :
    (∀ text, callCount f text = {i | CallsAt f text i}.ncard) ∧
    (∀ first text more, first.getLast?.any isWord = false →
      callCount f text ≤ callCount f (first ++ (text ++ more))) ∧
    ∀ a b, callCount f a + callCount f b ≤ callCount f (a ++ '\n' :: b) := by
  refine ⟨callCount_eq_ncard hne hf, fun first text more hfirst => ?_, fun a b => ?_⟩
  · calc callCount f text
      _ ≤ callCount f (text ++ more) := callCount_le_append hne hf text more
      _ ≤ callCount f first + callCount f (text ++ more) := Nat.le_add_left ..
      _ ≤ callCount f (first ++ (text ++ more)) := callCount_append_le hne hf hfirst
  · have hfeed : (a ++ ['\n']).getLast?.any isWord = false := by
      rw [List.getLast?_concat]
      decide
    calc callCount f a + callCount f b
      _ ≤ callCount f (a ++ ['\n']) + callCount f b :=
        Nat.add_le_add_right (callCount_le_append hne hf a ['\n']) _
      _ ≤ callCount f (a ++ ['\n'] ++ b) := callCount_append_le hne hf hfeed
      _ = callCount f (a ++ '\n' :: b) := by rw [List.append_assoc, List.singleton_append]

/-- A call in a call, one whose bracket is on the next line, and a name that ends in the same
letter. -/
def nestedCalls : List Char :=
  "f(f\n\t(n)) + half(n)".toList

theorem calls_counted_by_place_nestedCalls :
    "f".toList ≠ [] ∧ Only isWord "f".toList ∧
      {i | CallsAt "f".toList nestedCalls i}.ncard = 2 ∧
      2 ≤ callCount "f".toList ("return ".toList ++ (nestedCalls ++ "\nf".toList)) ∧
      4 ≤ callCount "f".toList (nestedCalls ++ '\n' :: nestedCalls) := by
  have hne : "f".toList ≠ [] := by decide
  have hf : Only isWord "f".toList := List.all_eq_true.mp (by decide)
  have hcount : callCount "f".toList nestedCalls = 2 := by decide +kernel
  obtain ⟨hplaces, hpart, hlines⟩ := calls_counted_by_place hne hf
  refine ⟨hne, hf, ?_, ?_, ?_⟩
  · rw [← hplaces, hcount]
  · rw [← hcount]
    exact hpart _ _ _ (by decide)
  · have := hlines nestedCalls nestedCalls
    rwa [hcount] at this

end BigO.Recursion
