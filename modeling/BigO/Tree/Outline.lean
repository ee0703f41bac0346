-- The outline of a parse tree: its loops, its recursive functions, and the
-- texts of its sorts and library operations, each in the order of the source.
-- Tokens are collected however deep a tree is; a limit on how deep a run of the
-- program may recur is left out.
import BigO.Loop.Factor
import BigO.Recursion.Signal
import BigO.Tree.Node

namespace BigO.Tree

open BigO.Text BigO.Loop

/-- A loop of a parse tree. Its depth counts the loops around it and itself. -/
structure TreeLoop where
  kind : LoopKind
  depth : Int
  factor : Factor
  progresses : Bool := false
deriving DecidableEq, Repr

/-- What a parse tree shows, whatever its language. -/
structure Outline where
  language : String
  loops : List TreeLoop := []
  recursion : List Recursion.Signal := []
  sorts : List String := []
  libraryCalls : List String := []
deriving DecidableEq, Repr

/-! ## Loops -/

mutual

/-- The texts of the leaves of a tree, loops inside it left out. -/
def tokens (lang : Language) : Node → List (List Char)
  | ⟨kind, bytes, hasError, [], fields, detached⟩ =>
    [(⟨kind, bytes, hasError, [], fields, detached⟩ : Node).text]
  | ⟨_, _, _, n :: ns, _, _⟩ => forestTokens lang (n :: ns)

/-- The texts of the leaves of a list of trees, loops left out. -/
def forestTokens (lang : Language) : List Node → List (List Char)
  | [] => []
  | n :: ns =>
    (if (lang.loopKind? n.kind).isSome then [] else tokens lang n) ++ forestTokens lang ns

end

/-- Tokens with one space between them. -/
def spaced (ts : List (List Char)) : List Char :=
  [' '].intercalate ts

/-- The children of a loop that are not its body. -/
def headerOf (n : Node) : List Node :=
  match n.fields.lookup "body" with
  | some i => n.children.eraseIdx i
  | none => n.children

/-- The child of a loop that is its body, if one is. -/
def bodyOf (n : Node) : List Node :=
  match n.fields.lookup "body" with
  | some i => n.children[i]?.toList
  | none => []

/-- A loop judged by its own tokens: a progression among those of its header and its body makes it logarithmic, else
the bound in its header decides (`observe_loop`). -/
def treeLoop (lang : Language) (kind : LoopKind) (depth : Int) (n : Node) : TreeLoop :=
  let header := forestTokens lang (headerOf n)
  let progresses := scales (spaced (header ++ forestTokens lang (bodyOf n)))
  { kind := kind
    depth := depth
    factor :=
      if progresses then .logarithmic else factorOfBound (lang.loopBound (spaced header))
    progresses := progresses }

/-! ## Functions -/

/-- The identifier at the end of a chain of declarators. -/
def declaratorName? (n : Node) : Option (List Char) :=
  match _h : n.field? "declarator" with
  | none => none
  | some d => if d.kind = "identifier" then some d.text else declaratorName? d
termination_by sizeOf n
decreasing_by exact Node.sizeOf_field_lt _h

/-- The name that a function node declares: its `name`, else the identifier of its declarator, else the first name
that its text declares (`declared_name`). -/
def nameOf (lang : Language) (n : Node) : List Char :=
  match n.field? "name" with
  | some m => m.text
  | none => (declaratorName? n).getD (Recursion.firstName lang n.text)

/-- The signal of a function node, judged by its own text. -/
def recursionOf? (lang : Language) (n : Node) : Option Recursion.Signal :=
  let f := nameOf lang n
  Recursion.signal? f (Recursion.callCount f n.text) n.text

/-! ## Snippets -/

/-- The first `limit` characters, or all but the last `-limit` of them. -/
def cut (limit : Int) (text : List Char) : List Char :=
  if 0 ≤ limit then text.take limit.toNat else text.take (text.length - (-limit).toNat)

/-- A node as it is shown: its text trimmed and cut. -/
def snippet (limit : Int) (n : Node) : String :=
  String.ofList (cut limit (trim n.text))

theorem snippet_eq (limit : Int) (n : Node) : snippet limit n =
    String.ofList ((trim n.text).take
      (if 0 ≤ limit then limit else (trim n.text).length + limit).toNat) := by
  unfold snippet cut
  split
  · rfl
  · congr 2
    omega

/-- The text of the node holds one of the calls. -/
def holds (calls : List (Scan.Scanner Unit)) (n : Node) : Bool :=
  calls.any (·.occurs n.text)

/-- The node holds one of the calls and none of its children does. -/
def isInnermost (calls : List (Scan.Scanner Unit)) (n : Node) : Bool :=
  holds calls n && !n.children.any (holds calls)

theorem isInnermost_iff (calls : List (Scan.Scanner Unit)) (n : Node) :
    isInnermost calls n = true ↔ (∃ call ∈ calls, call.occurs n.text = true) ∧
      ∀ m ∈ n.children, ∀ call ∈ calls, call.occurs m.text = false := by
  simp [isInnermost, holds]

/-- A snippet goes to the end of the list unless it is there already. -/
def insertSnippet (snippets : List String) (s : String) : List String :=
  if s ∈ snippets then snippets else snippets ++ [s]

/-! ## The walk -/

/-- The depth of a node's children: one more below a loop. -/
def childDepth (lang : Language) (n : Node) (depth : Nat) : Nat :=
  if (lang.loopKind? n.kind).isSome then depth + 1 else depth

/-- The outline with what one node adds to it. -/
def Outline.addNode (lang : Language) (limit : Int) (o : Outline) (n : Node) (depth : Nat) :
    Outline :=
  { o with
    loops := o.loops ++
      ((lang.loopKind? n.kind).map fun k => treeLoop lang k (depth + 1) n).toList
    recursion := o.recursion ++
      (if lang.isFunctionKind n.kind then (recursionOf? lang n).toList else [])
    sorts :=
      if isInnermost lang.profile.tree.sortCalls n then
        insertSnippet o.sorts (snippet limit n)
      else o.sorts
    libraryCalls :=
      if isInnermost lang.profile.tree.libraryCalls n then
        insertSnippet o.libraryCalls (snippet limit n)
      else o.libraryCalls }

/-- Nodes with one number of loops around all of them. -/
def atDepth (depth : Nat) (nodes : List Node) : List (Node × Nat) :=
  nodes.map (·, depth)

/-- The number of nodes that are still to be seen. -/
def pending : List (Node × Nat) → Nat
  | [] => 0
  | (n, _) :: rest => n.size + pending rest

theorem pending_append (v w : List (Node × Nat)) : pending (v ++ w) = pending v + pending w := by
  induction v with
  | nil => simp [pending]
  | cons item rest ih =>
    simp only [List.cons_append, pending, ih]
    omega

theorem pending_atDepth (depth : Nat) (nodes : List Node) :
    pending (atDepth depth nodes) = Node.forestSize nodes := by
  induction nodes with
  | nil => simp [pending, atDepth, Node.forestSize]
  | cons n ns ih =>
    simp only [pending, atDepth, List.map_cons, Node.forestSize] at ih ⊢
    rw [ih]

theorem pending_children_lt (n : Node) (d depth : Nat) (rest : List (Node × Nat)) :
    pending (atDepth d n.children ++ rest) < pending ((n, depth) :: rest) := by
  rw [pending_append, pending_atDepth, pending, Node.size_eq]
  omega

/-- The walk over the nodes that are still to be seen, each with the number of
loops around it. The children of a node come before what was waiting. -/
def walk (lang : Language) (limit : Int) (o : Outline) : List (Node × Nat) → Outline
  | [] => o
  | (n, depth) :: rest =>
    walk lang limit (o.addNode lang limit n depth)
      (atDepth (childDepth lang n depth) n.children ++ rest)
termination_by work => pending work
decreasing_by exact pending_children_lt ..

/-- The outline of a parse tree (`build_normalized_ir`). -/
def outline (lang : Language) (limit : Int) (root : Node) : Outline :=
  walk lang limit { language := lang.name } [(root, 0)]

end BigO.Tree
