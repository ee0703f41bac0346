-- Comments and their removal. No attention is paid to string literals: a
-- comment mark inside one counts like any other. Taking a comment out may
-- bring the two halves of a new mark together, so the removal is repeated
-- until it changes nothing.

namespace BigO

/-- How a language writes comments: the marks around its blocks, in the order
they are taken out, and the mark after which the rest of a line is ignored. -/
structure CommentStyle where
  blocks : List (List Char × List Char)
  line : List Char

namespace CommentStyle

/-- Quoted blocks in either quote, and the number sign. -/
def hash : CommentStyle where
  blocks := [("\"\"\"".toList, "\"\"\"".toList), ("'''".toList, "'''".toList)]
  line := "#".toList

/-- Slash and star around a block, and two slashes. -/
def slash : CommentStyle where
  blocks := [("/*".toList, "*/".toList)]
  line := "//".toList

end CommentStyle

namespace Comments

/-! ## One round of removal -/

/-- How far into the text the first `mark` ends, if there is one. -/
def lengthThrough? (mark : List Char) : List Char → Option Nat
  | [] => if mark = [] then some 0 else none
  | c :: cs =>
    if mark.isPrefixOf (c :: cs) then some mark.length
    else (lengthThrough? mark cs).map (· + 1)

/-- The length of the block that the text starts with: an opening mark and all
up to the first closing mark after it. -/
def blockLength? (opening closing text : List Char) : Option Nat :=
  if opening.isPrefixOf text then
    (lengthThrough? closing (text.drop opening.length)).map (opening.length + ·)
  else
    none

/-- The text without its blocks, the first `skip` characters left out as well. -/
def dropBlocks (opening closing : List Char) : Nat → List Char → List Char
  | _, [] => []
  | skip + 1, _ :: cs => dropBlocks opening closing skip cs
  | 0, c :: cs =>
    match blockLength? opening closing (c :: cs) with
    | some n => dropBlocks opening closing (n - 1) cs
    | none => c :: dropBlocks opening closing 0 cs

/-- The text with each line cut at its first mark. `inside` says that the line
has had its mark already. -/
def cutLines (mark : List Char) (inside : Bool) : List Char → List Char
  | [] => []
  | c :: cs =>
    if c = '\n' then c :: cutLines mark false cs
    else if inside || mark.isPrefixOf (c :: cs) then cutLines mark true cs
    else c :: cutLines mark false cs

/-- One round: every kind of block in turn, then the rest of the marked lines. -/
def sweep (style : CommentStyle) (text : List Char) : List Char :=
  cutLines style.line false
    (style.blocks.foldl (fun t marks => dropBlocks marks.1 marks.2 0 t) text)

/-! ## Removal -/

/-- Rounds until one changes nothing, at most `rounds` of them. -/
def settle (style : CommentStyle) : Nat → List Char → List Char
  | 0, text => text
  | rounds + 1, text =>
    let swept := sweep style text
    if swept = text then text else settle style rounds swept

/-- The text without its comments. Every round that changes the text makes it
shorter, so its length is enough rounds. -/
def strip (style : CommentStyle) (text : List Char) : List Char :=
  settle style text.length text

/-! ## Laws -/

theorem sublist_dropBlocks (opening closing : List Char) (text : List Char) :
    ∀ skip, (dropBlocks opening closing skip text).Sublist text := by
  induction text with
  | nil => intro skip; cases skip <;> simp [dropBlocks]
  | cons c cs ih =>
    intro skip
    cases skip with
    | succ k =>
      rw [dropBlocks]
      exact (ih k).cons c
    | zero =>
      simp only [dropBlocks]
      split
      · exact (ih _).cons c
      · exact (ih 0).cons_cons c

theorem sublist_cutLines (mark : List Char) (text : List Char) :
    ∀ inside, (cutLines mark inside text).Sublist text := by
  induction text with
  | nil => intro inside; simp [cutLines]
  | cons c cs ih =>
    intro inside
    simp only [cutLines]
    split
    · exact (ih false).cons_cons c
    · split
      · exact (ih true).cons c
      · exact (ih false).cons_cons c

end Comments

end BigO
