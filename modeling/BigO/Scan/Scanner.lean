-- Scanners. A scanner reads on from a place in a text and may do so in several
-- ways; it lists them, the one it likes best first. Search takes the first
-- place where there is a way at all, and the best way from there.
import BigO.Scan.Cursor
import BigO.Text.Blank

namespace BigO.Scan

/-- The ways to read on from a place, best first: a value and the place reached. -/
def Scanner (α : Type) : Type := Cursor → List (α × Cursor)

namespace Scanner

variable {α β : Type}

/-! ## Building scanners -/

/-- Read nothing. -/
protected def pure (a : α) : Scanner α :=
  fun c => [(a, c)]

/-- Read on with `s`, then with what its value chooses. -/
protected def bind (s : Scanner α) (f : α → Scanner β) : Scanner β :=
  fun c => (s c).flatMap fun r => f r.1 r.2

instance : Monad Scanner where
  pure := Scanner.pure
  bind := Scanner.bind

/-- Either way, the first one preferred. -/
def either (s t : Scanner α) : Scanner α :=
  fun c => s c ++ t c

/-- Any of the ways, earlier ones preferred. -/
def oneOf (choices : List (Scanner α)) : Scanner α :=
  fun c => choices.flatMap (· c)

/-- With `s` if that can be done, else (or next) without it. -/
def optional (s : Scanner Unit) : Scanner Unit :=
  either s (pure ())

/-- Read nothing, and only where the test holds. -/
def here (test : Cursor → Bool) : Scanner Unit :=
  fun c => if test c then [((), c)] else []

/-- The place itself. -/
def place : Scanner Cursor :=
  fun c => [(c, c)]

def one (p : Char → Bool) : Scanner Unit
  | ⟨before, c :: cs⟩ => if p c then [((), ⟨c :: before, cs⟩)] else []
  | ⟨_, []⟩ => []

def char (x : Char) : Scanner Unit :=
  one (· == x)

/-- To a given place, if there is one. -/
def goTo : Option Cursor → List (Unit × Cursor)
  | some d => [((), d)]
  | none => []

/-- Given characters, one after the other. -/
def exactly (text : List Char) : Scanner Unit :=
  fun c => goTo (Cursor.passExactly id c.before text c.after)

def literal (word : String) : Scanner Unit :=
  exactly word.toList

/-- Characters that a fold turns into those of a string. -/
def folded (fold : Char → Char) (word : String) : Scanner Unit :=
  fun c => goTo (Cursor.passExactly fold c.before word.toList c.after)

/-- The places reached by reading characters of a class, the nearest first. -/
def reach (p : Char → Bool) (before : List Char) : List Char → List Cursor
  | [] => [⟨before, []⟩]
  | c :: cs => ⟨before, c :: cs⟩ :: if p c then reach p (c :: before) cs else []

/-- As few characters of a class as will do. -/
def few (p : Char → Bool) : Scanner Unit :=
  fun c => (reach p c.before c.after).map ((), ·)

/-- As many characters of a class as will do. -/
def many (p : Char → Bool) : Scanner Unit :=
  fun c => (reach p c.before c.after).reverse.map ((), ·)

/-- At least one character of a class, and as few as will do. -/
def fewSome (p : Char → Bool) : Scanner Unit := do
  one p
  few p

/-- The whole run of characters of a class, with no way to stop short of its end. -/
def run (p : Char → Bool) : Scanner Unit :=
  fun c => [((), Cursor.pass p c.before c.after)]

/-- The whole run, which is not empty. -/
def runSome (p : Char → Bool) : Scanner Unit := do
  one p
  run p

/-- At most once for each of some characters `s`, as often as will do. -/
def atMost (s : Scanner Unit) : List Char → Scanner Unit
  | [] => pure ()
  | _ :: rest => optional do s; atMost s rest

/-- Any number of times `s`, as often as will do. Each time reads at least one
character, so the characters ahead bound their number. -/
def repeated (s : Scanner Unit) : Scanner Unit :=
  fun c => atMost s c.after c

/-- There is a way to read on from a place. -/
def reads (s : Scanner α) (c : Cursor) : Bool :=
  !(s c).isEmpty

/-- Characters of a class, up to the first place that passes a test and no
further. For use where the rest of the scanner cannot fail from there. -/
def nearest (p : Char → Bool) (test : Cursor → Bool) : Scanner Unit :=
  fun c => goTo (Cursor.nearest? p test c.before c.after)

/-- Only where `s` has no way to read on. -/
def notAhead (s : Scanner Unit) : Scanner Unit :=
  here fun c => !s.reads c

/-- The stretch that `s` reads. -/
def captured (s : Scanner Unit) : Scanner Span := do
  let start ← place
  s
  let stop ← place
  pure ⟨start, stop⟩

/-! ## Common pieces -/

/-- A word starts or ends here. -/
def wordEdge : Scanner Unit :=
  here Cursor.atWordEdge

/-- A given word, with a word edge on either side. -/
def word (w : String) : Scanner Unit :=
  fun c => (literal w c).filter fun r => c.atWordEdge && r.2.atWordEdge

/-- Whatever blank there is, up to its end. For use where the next character
wanted is not a blank. -/
def blanks : Scanner Unit :=
  run Text.isBlank

/-- A name: an ASCII letter or underscore, and the word characters after it. -/
def name : Scanner Span :=
  captured do
    one Text.isNameStart
    run Text.isWord

/-! ## Membership -/

/-- A way through two scanners is a way through each. -/
theorem mem_bind {s : Scanner α} {f : α → Scanner β} {c : Cursor} {r : β × Cursor} :
    r ∈ (s >>= f) c ↔ ∃ q ∈ s c, r ∈ f q.1 q.2 :=
  List.mem_flatMap

theorem mem_pure {a : α} {c : Cursor} {r : α × Cursor} :
    r ∈ (pure a : Scanner α) c ↔ r = (a, c) :=
  List.mem_singleton

theorem mem_either {s t : Scanner α} {c : Cursor} {r : α × Cursor} :
    r ∈ either s t c ↔ r ∈ s c ∨ r ∈ t c :=
  List.mem_append

theorem mem_oneOf {choices : List (Scanner α)} {c : Cursor} {r : α × Cursor} :
    r ∈ oneOf choices c ↔ ∃ s ∈ choices, r ∈ s c :=
  List.mem_flatMap

theorem mem_here {test : Cursor → Bool} {c : Cursor} {r : Unit × Cursor} :
    r ∈ here test c ↔ test c = true ∧ r = ((), c) := by
  unfold here
  split <;> simp_all

theorem mem_one {p : Char → Bool} {c d : Cursor} {u : Unit} :
    (u, d) ∈ one p c ↔
      ∃ x xs, c.after = x :: xs ∧ p x = true ∧ d = ⟨x :: c.before, xs⟩ := by
  rcases c with ⟨before, _ | ⟨x, xs⟩⟩
  · simp [one]
  · simp only [one, List.cons.injEq]
    constructor
    · intro h
      split at h
      · rename_i hp
        simp only [List.mem_singleton, Prod.mk.injEq, true_and] at h
        exact ⟨x, xs, ⟨rfl, rfl⟩, hp, h⟩
      · simp at h
    · rintro ⟨_, _, ⟨rfl, rfl⟩, hp, rfl⟩
      simp [hp]

/-! ## Searching -/

/-- The best way from the first place that has one. -/
def find? (s : Scanner α) (text : List Char) : Option α :=
  (Cursor.all text).findSome? fun c => (s c).head?.map (·.1)

/-- There is a place where the scanner reads on. -/
def occurs (s : Scanner α) (text : List Char) : Bool :=
  (Cursor.all text).any s.reads

/-- The best ways from successive places, none starting inside the one before.
`skip` is the number of places that the last one still covers. -/
def allFrom (s : Scanner α) : Nat → List Cursor → List α
  | _, [] => []
  | skip + 1, _ :: cs => allFrom s skip cs
  | 0, c :: cs =>
    match (s c).head? with
    | none => allFrom s 0 cs
    | some (a, d) => a :: allFrom s (c.after.length - d.after.length - 1) cs

/-- Every occurrence from left to right that does not overlap the one before. -/
def findAll (s : Scanner α) (text : List Char) : List α :=
  allFrom s 0 (Cursor.all text)

/-- A scanner occurs where it has a way to read on. -/
theorem occurs_iff {s : Scanner α} {text : List Char} :
    s.occurs text = true ↔ ∃ c ∈ Cursor.all text, s c ≠ [] := by
  simp [occurs, reads]

end Scanner

end BigO.Scan
