-- A place in a text: what has been read, nearest first, and what is to come.
import BigO.Text.Word

namespace BigO.Scan

open BigO.Text

/-- A place in a text. `before` is what lies behind it, nearest character
first, and `after` is what lies ahead. -/
structure Cursor where
  before : List Char
  after : List Char
deriving DecidableEq, Repr

namespace Cursor

/-- The whole text that the place is in. -/
def text (c : Cursor) : List Char :=
  c.before.reverse ++ c.after

/-- The places from a given one to the end of the text, in order. -/
def onward (before : List Char) : List Char → List Cursor
  | [] => [⟨before, []⟩]
  | c :: cs => ⟨before, c :: cs⟩ :: onward (c :: before) cs

/-- Every place of a text, the end included. -/
def all (text : List Char) : List Cursor :=
  onward [] text

/-- The place after the whole run of characters of a class. -/
def pass (p : Char → Bool) (before : List Char) : List Char → Cursor
  | [] => ⟨before, []⟩
  | c :: cs => if p c then pass p (c :: before) cs else ⟨before, c :: cs⟩

theorem pass_eq (p : Char → Bool) (before after : List Char) :
    pass p before after = ⟨(after.takeWhile p).reverse ++ before, after.dropWhile p⟩ := by
  induction after generalizing before with
  | nil => simp [pass]
  | cons c cs ih =>
    simp only [pass, List.takeWhile_cons, List.dropWhile_cons]
    split
    · rw [ih]
      simp
    · simp

/-- The place after given characters, if they come next in turn. Two characters
are taken for the same when a fold of the one in the text gives the other. -/
def passExactly (fold : Char → Char) (before : List Char) :
    List Char → List Char → Option Cursor
  | [], after => some ⟨before, after⟩
  | _ :: _, [] => none
  | x :: xs, c :: cs => if fold c == x then passExactly fold (c :: before) xs cs else none

/-- The first place from here on that passes a test, with nothing but characters
of a class on the way. -/
def nearest? (p : Char → Bool) (test : Cursor → Bool) (before : List Char) :
    List Char → Option Cursor
  | [] => if test ⟨before, []⟩ then some ⟨before, []⟩ else none
  | c :: cs =>
    if test ⟨before, c :: cs⟩ then some ⟨before, c :: cs⟩
    else if p c then nearest? p test (c :: before) cs
    else none

/-- The character before the place is a word character. -/
def wordBefore (c : Cursor) : Bool :=
  c.before.head?.any isWord

/-- The character after the place is a word character. -/
def wordAfter (c : Cursor) : Bool :=
  c.after.head?.any isWord

/-- A word starts or ends here. -/
def atWordEdge (c : Cursor) : Bool :=
  c.wordBefore != c.wordAfter

/-- A line starts here. -/
def atLineStart (c : Cursor) : Bool :=
  c.before.head?.all (· == '\n')

/-- Nothing lies ahead but at most one line feed. -/
def atTextEnd (c : Cursor) : Bool :=
  c.after == [] || c.after == ['\n']

/-- The rest of the text from the start of the line that the place is in. -/
def fromLineStart (c : Cursor) : List Char :=
  (c.before.takeWhile (· != '\n')).reverse ++ c.after

end Cursor

/-- A stretch of a text, from one place to a later one. -/
structure Span where
  start : Cursor
  stop : Cursor
deriving DecidableEq, Repr

/-- What stands between the two places. -/
def Span.text (s : Span) : List Char :=
  s.start.after.take (s.start.after.length - s.stop.after.length)

end BigO.Scan
