-- Comments in a parse tree. Nobody looks for them: a comment is a leaf like any other,
-- and its characters are part of the text of every node around it. So what stands in
-- comments never changes how many loops there are and how deep they lie, and it changes
-- the rest just where it changes what is read off a node that holds a comment.
import BigO.Proofs.DeepestNest
import BigO.Proofs.InnermostCalls

namespace BigO.Tree

/-! ## Trees with their comments left open -/

/-- The kinds of leaf that are comments. -/
inductive CommentKind where
  | comment
  | lineComment
  | blockComment
deriving DecidableEq

/-- The node kind of a comment. -/
def CommentKind.label : CommentKind → String
  | .comment => "comment"
  | .lineComment => "line_comment"
  | .blockComment => "block_comment"

/-- A parse tree whose comments are left open, each with its number. A node has what
stands before, between and after its children. -/
inductive Skeleton where
  | token (kind : String) (bytes : List UInt8)
  | comment (kind : CommentKind) (number : Nat)
  | node (kind : String) (hasError : Bool) (fields : List (String × Nat))
      (gaps : List (List UInt8)) (children : List Skeleton)

/-- Gaps and texts in turn, the first gap first. -/
def weave : List (List UInt8) → List (List UInt8) → List UInt8
  | gaps, [] => gaps.flatten
  | [], texts => texts.flatten
  | gap :: gaps, text :: texts => gap ++ text ++ weave gaps texts

namespace Skeleton

/-- The node kind. -/
def kind : Skeleton → String
  | token kind _ => kind
  | comment kind _ => kind.label
  | node kind _ _ _ _ => kind

mutual

/-- The parse tree with these characters in its comments. -/
def fill (contents : Nat → List UInt8) : Skeleton → Node
  | token kind bytes => { kind := kind, bytes := bytes }
  | comment kind number => { kind := kind.label, bytes := contents number }
  | node kind hasError fields gaps children =>
    { kind := kind
      bytes := weave gaps ((fillAll contents children).map (·.bytes))
      hasError := hasError
      children := fillAll contents children
      fields := fields }

def fillAll (contents : Nat → List UInt8) : List Skeleton → List Node
  | [] => []
  | k :: ks => k.fill contents :: fillAll contents ks

end

mutual

/-- There is a comment in the tree, or it is one. -/
def hasComment : Skeleton → Bool
  | token _ _ => false
  | comment _ _ => true
  | node _ _ _ _ children => anyComment children

def anyComment : List Skeleton → Bool
  | [] => false
  | k :: ks => k.hasComment || anyComment ks

end

mutual

/-- The parts of the tree in pre-order, each with the number of loops around it. -/
def visits (lang : Language) (depth : Nat) : Skeleton → List (Skeleton × Nat)
  | token kind bytes => [(token kind bytes, depth)]
  | comment kind number => [(comment kind number, depth)]
  | node kind hasError fields gaps children =>
    (node kind hasError fields gaps children, depth) ::
      forestVisits lang (if (lang.loopKind? kind).isSome then depth + 1 else depth) children

def forestVisits (lang : Language) (depth : Nat) : List Skeleton → List (Skeleton × Nat)
  | [] => []
  | k :: ks => visits lang depth k ++ forestVisits lang depth ks

end

/-- The parts of the tree in pre-order. -/
def parts (lang : Language) (k : Skeleton) : List Skeleton :=
  (k.visits lang 0).map (·.1)

/-! ## The filled tree -/

theorem kind_fill (contents : Nat → List UInt8) (k : Skeleton) :
    (k.fill contents).kind = k.kind := by
  cases k <;> simp [fill, kind]

mutual

/-- A tree without comments is the same however they are filled. -/
theorem fill_eq_of_not_hasComment (c c' : Nat → List UInt8) :
    ∀ k : Skeleton, k.hasComment = false → k.fill c = k.fill c'
  | token _ _, _ => by simp [fill]
  | comment _ _, h => by simp [hasComment] at h
  | node kind hasError fields gaps children, h => by
    rw [hasComment] at h
    simp only [fill, fillAll_eq_of_not_anyComment c c' children h]

theorem fillAll_eq_of_not_anyComment (c c' : Nat → List UInt8) :
    ∀ ks : List Skeleton, anyComment ks = false → fillAll c ks = fillAll c' ks
  | [], _ => by simp [fillAll]
  | k :: ks, h => by
    rw [anyComment, Bool.or_eq_false_iff] at h
    rw [fillAll, fillAll, fill_eq_of_not_hasComment c c' k h.1,
      fillAll_eq_of_not_anyComment c c' ks h.2]

end

mutual

/-- The walk over a filled tree sees the filled parts. -/
theorem visits_fill (lang : Language) (contents : Nat → List UInt8) (depth : Nat) :
    ∀ k : Skeleton, Tree.visits lang depth (k.fill contents) =
      (k.visits lang depth).map fun w => (w.1.fill contents, w.2)
  | token kind bytes => by simp [visits_eq, fill, visits, Tree.forestVisits]
  | comment kind number => by simp [visits_eq, fill, visits, Tree.forestVisits]
  | node kind hasError fields gaps children => by
    rw [visits_eq, visits, List.map_cons, ← forestVisits_fill lang contents _ children]
    simp only [fill, childDepth]
    rfl

theorem forestVisits_fill (lang : Language) (contents : Nat → List UInt8) (depth : Nat) :
    ∀ ks : List Skeleton, Tree.forestVisits lang depth (fillAll contents ks) =
      (forestVisits lang depth ks).map fun w => (w.1.fill contents, w.2)
  | [] => by simp [fillAll, forestVisits, Tree.forestVisits]
  | k :: ks => by
    rw [fillAll, forestVisits, Tree.forestVisits, List.map_append,
      visits_fill lang contents depth k, forestVisits_fill lang contents depth ks]

end

theorem nodes_fill (lang : Language) (contents : Nat → List UInt8) (k : Skeleton) :
    (k.fill contents).nodes = (k.parts lang).map (fill contents) := by
  rw [← map_fst_visits lang 0, visits_fill, parts, List.map_map, List.map_map]
  rfl

end Skeleton

/-! ## What is read off a node -/

/-- Two nodes tell the same: as loops, as functions, and of calls. -/
structure SameReadings (lang : Language) (n m : Node) : Prop where
  loop : loopAt lang (n, 0) = loopAt lang (m, 0)
  function : recursionAt lang (n, 0) = recursionAt lang (m, 0)
  sort : holds lang.profile.tree.sortCalls n = holds lang.profile.tree.sortCalls m
  library : holds lang.profile.tree.libraryCalls n = holds lang.profile.tree.libraryCalls m

instance (lang : Language) (n m : Node) : Decidable (SameReadings lang n m) :=
  decidable_of_iff
    (loopAt lang (n, 0) = loopAt lang (m, 0) ∧ recursionAt lang (n, 0) = recursionAt lang (m, 0) ∧
      holds lang.profile.tree.sortCalls n = holds lang.profile.tree.sortCalls m ∧
      holds lang.profile.tree.libraryCalls n = holds lang.profile.tree.libraryCalls m)
    ⟨fun ⟨hl, hf, hs, ho⟩ => ⟨hl, hf, hs, ho⟩, fun ⟨hl, hf, hs, ho⟩ => ⟨hl, hf, hs, ho⟩⟩

theorem SameReadings.refl (lang : Language) (n : Node) : SameReadings lang n n :=
  ⟨rfl, rfl, rfl, rfl⟩

/-- How deep a loop lies has no part in the rest that is told of it. -/
theorem loopAt_eq_map (lang : Language) (n : Node) (depth : Nat) :
    loopAt lang (n, depth) =
      (loopAt lang (n, 0)).map fun l => { l with depth := (depth + 1 : Nat) } := by
  unfold loopAt
  cases lang.loopKind? n.kind <;> simp [treeLoop]

/-- The kind and the depth of a loop are known without its text. -/
theorem map_kind_depth_loopAt (lang : Language) (n : Node) (depth : Nat) :
    (loopAt lang (n, depth)).map (fun l => (l.kind, l.depth)) =
      ((lang.loopKind? n.kind).map fun k => (k, ((depth + 1 : Nat) : Int))).toList := by
  unfold loopAt
  cases lang.loopKind? n.kind <;> simp [treeLoop]

namespace Skeleton

variable (lang : Language) (limit : Int) (k : Skeleton) (c c' : Nat → List UInt8)

/-- The loops of a filled tree have the same kinds and depths however it is filled. -/
theorem map_kind_depth_loops :
    (outline lang limit (k.fill c)).loops.map (fun l => (l.kind, l.depth)) =
      (outline lang limit (k.fill c')).loops.map fun l => (l.kind, l.depth) := by
  simp only [loops_outline, visits_fill, List.map_flatMap, List.flatMap_map,
    map_kind_depth_loopAt, kind_fill]

variable {lang k c c'}
variable (h : ∀ part ∈ k.parts lang, part.hasComment = true →
  SameReadings lang (part.fill c) (part.fill c'))

include h

/-- What is told of parts with comments is told of all parts: the others are the same. -/
theorem sameReadings_of_mem_parts {part : Skeleton} (hpart : part ∈ k.parts lang) :
    SameReadings lang (part.fill c) (part.fill c') := by
  cases hcomment : part.hasComment with
  | true => exact h part hpart hcomment
  | false =>
    rw [fill_eq_of_not_hasComment c c' part hcomment]
    exact .refl lang _

theorem holds_nodes_fill {calls : List (Scan.Scanner Unit)}
    (hcalls : ∀ n m, SameReadings lang n m → holds calls n = holds calls m) :
    (∀ n ∈ (k.fill c).nodes, holds calls n = false) ↔
      ∀ n ∈ (k.fill c').nodes, holds calls n = false := by
  simp only [nodes_fill lang, List.forall_mem_map]
  refine forall₂_congr fun part hpart => ?_
  rw [hcalls _ _ (sameReadings_of_mem_parts h hpart)]

/-- Trees that tell the same at every part with a comment have the same signals, but
for the snippets. -/
theorem sameButSnippets_fill :
    (outline lang limit (k.fill c)).signals.SameButSnippets
      (outline lang limit (k.fill c')).signals := by
  have hvisit : ∀ w ∈ k.visits lang 0, SameReadings lang (w.1.fill c) (w.1.fill c') :=
    fun w hw => sameReadings_of_mem_parts h (List.mem_map_of_mem hw)
  have hloops : (outline lang limit (k.fill c')).loops = (outline lang limit (k.fill c)).loops := by
    simp only [loops_outline, visits_fill, List.flatMap_map]
    refine List.flatMap_congr fun w hw => ?_
    rw [loopAt_eq_map, loopAt_eq_map lang (w.1.fill c), (hvisit w hw).loop]
  have hrecursion :
      (outline lang limit (k.fill c')).recursion = (outline lang limit (k.fill c)).recursion := by
    simp only [recursion_outline, visits_fill, List.flatMap_map]
    exact List.flatMap_congr fun w hw => (hvisit w hw).function.symm
  refine ⟨?_, ?_, ?_⟩
  · simp only [Outline.signals, language_outline, hloops, hrecursion]
  · show (outline lang limit (k.fill c)).sorts = [] ↔ (outline lang limit (k.fill c')).sorts = []
    rw [sorts_outline_eq_nil_iff, sorts_outline_eq_nil_iff]
    exact holds_nodes_fill h fun _ _ hsame => hsame.sort
  · show (outline lang limit (k.fill c)).libraryCalls = [] ↔
      (outline lang limit (k.fill c')).libraryCalls = []
    rw [libraryCalls_outline_eq_nil_iff, libraryCalls_outline_eq_nil_iff]
    exact holds_nodes_fill h fun _ _ hsame => hsame.library

omit h

/-! ## The law -/

/-- A tree filled with two sets of comments: the loops are as many and as deep, and
have the same kinds. If every part with a comment tells the same both times, as a loop, as
a function and of calls, then the estimates are the same, but for the texts of the
reasons that show snippets; the parts without comments always do. -/
theorem estimates_of_two_fillings (lang : Language) (limit : Int) (k : Skeleton)
    (c c' : Nat → List UInt8) :
    let o := outline lang limit (k.fill c)
    let o' := outline lang limit (k.fill c')
    let e := Structural.estimateOf o
    let e' := Structural.estimateOf o'
    (e.loops = e'.loops ∧ e.depth = e'.depth ∧
      o.loops.map (fun l => (l.kind, l.depth)) = o'.loops.map fun l => (l.kind, l.depth)) ∧
    (∀ part ∈ k.parts lang, part.hasComment = false → part.fill c = part.fill c') ∧
    ((∀ part ∈ k.parts lang, part.hasComment = true →
        SameReadings lang (part.fill c) (part.fill c')) →
      e.tags = e'.tags ∧ e.time = e'.time ∧
        List.Forall₂ Reason.SameButSnippets e.why e'.why) := by
  intro o o' e e'
  have hloops := map_kind_depth_loops lang limit k c c'
  refine ⟨⟨?_, ?_, hloops⟩, ?_, ?_⟩
  · show ((o.loops.length : Nat) : Int) = (o'.loops.length : Nat)
    have hlength := congrArg List.length hloops
    rw [List.length_map, List.length_map] at hlength
    rw [hlength]
  · show greatestDepth o.loops = greatestDepth o'.loops
    have hdepths := congrArg (List.map Prod.snd) hloops
    rw [List.map_map, List.map_map] at hdepths
    rw [greatestDepth_eq_max?, greatestDepth_eq_max?]
    exact congrArg (fun ds => (List.max? ds).getD 0) hdepths
  · exact fun part _ hnone => fill_eq_of_not_hasComment c c' part hnone
  · intro hsame
    have h := (sameButSnippets_fill limit hsame).estimate o.signals_showable
      o'.signals_showable .structural [Structural.remark]
    exact ⟨h.tags, h.time, h.why⟩

/-! ## A comment that counts -/

/-- The bytes of a text of ASCII. -/
def ascii (text : String) : List UInt8 :=
  text.toList.map fun c => UInt8.ofNat c.toNat

/-- A function that returns its argument, with a comment before that. -/
def commentedFunction : Skeleton :=
  .node "module" false [] [[], ascii "\n"] [
    .node "function_definition" false [("name", 1), ("parameters", 2), ("body", 5)]
      [[], ascii " ", [], [], ascii "\n    ", ascii "\n    "] [
      .token "def" (ascii "def"), .token "identifier" (ascii "f"),
      .node "parameters" false [] [] [
        .token "(" (ascii "("), .token "identifier" (ascii "n"), .token ")" (ascii ")")],
      .token ":" (ascii ":"), .comment .comment 0,
      .node "block" false [] [] [
        .node "return_statement" false [] [[], ascii " "] [
          .token "return" (ascii "return"), .token "identifier" (ascii "n")]]]]

/-- The source of the function with a comment. -/
example : (commentedFunction.fill fun _ => ascii "# f(n - 1)").text =
    "def f(n):\n    # f(n - 1)\n    return n\n".toList := by decide +kernel

/-- Two comments that tell the same leave the estimate as it is. -/
theorem estimates_of_two_fillings_commentedFunction :
    let tree := fun text => commentedFunction.fill fun _ => ascii text
    let e := Structural.estimateOf (outline .python 120 (tree "# as it is"))
    let e' := Structural.estimateOf (outline .python 120 (tree "# g(n)"))
    (∀ part ∈ commentedFunction.parts .python, part.hasComment = true →
      SameReadings .python (part.fill fun _ => ascii "# as it is")
        (part.fill fun _ => ascii "# g(n)")) ∧
    e.tags = e'.tags ∧ e.time = e'.time := by
  intro tree e e'
  have hsame : ∀ part ∈ commentedFunction.parts .python, part.hasComment = true →
      SameReadings .python (part.fill fun _ => ascii "# as it is")
        (part.fill fun _ => ascii "# g(n)") := by
    decide +kernel
  obtain ⟨-, -, hrest⟩ := estimates_of_two_fillings .python 120 commentedFunction
    (fun _ => ascii "# as it is") (fun _ => ascii "# g(n)")
  obtain ⟨htags, htime, -⟩ := hrest hsame
  exact ⟨hsame, htags, htime⟩

/-- A call in a comment makes a function recursive that never calls itself. -/
theorem commented_call_counts :
    ¬ ∀ (lang : Language) (limit : Int) (k : Skeleton) (c c' : Nat → List UInt8),
      let e := Structural.estimateOf (outline lang limit (k.fill c))
      let e' := Structural.estimateOf (outline lang limit (k.fill c'))
      e.tags = e'.tags ∧ e.loops = e'.loops ∧ e.depth = e'.depth ∧
        e.time.growth = e'.time.growth := by
  intro h
  have hcount := h .python 120 commentedFunction (fun _ => ascii "# f(n - 1)")
    (fun _ => ascii "# g(n - 1)")
  revert hcount
  decide +kernel

end Skeleton

end BigO.Tree
