-- The walk with its stack is the traversal in pre-order: turn by turn the node on
-- top of the stack is the next one of the tree, and what the outline holds in the
-- end is read off the nodes in that order.
import BigO.Proofs.Positions
import Mathlib.Data.List.Induction
import Mathlib.Logic.Function.Iterate

namespace BigO.Tree

/-! ## Turns of the walk -/

/-- One turn of the walk: the node on top of the stack adds what it shows, and its
children take its place. -/
def turn (lang : Language) (limit : Int) :
    Outline × List (Node × Nat) → Outline × List (Node × Nat)
  | (o, []) => (o, [])
  | (o, (n, depth) :: rest) =>
    (o.addNode lang limit n depth, atDepth (childDepth lang n depth) n.children ++ rest)

/-- The outline and the stack of the walk over a tree after some turns. -/
def afterTurns (lang : Language) (limit : Int) (root : Node) (turns : Nat) :
    Outline × List (Node × Nat) :=
  (turn lang limit)^[turns] ({ language := lang.name }, [(root, 0)])

/-- The nodes that a stack leads to, in the order they come up. -/
def toSee (lang : Language) (work : List (Node × Nat)) : List (Node × Nat) :=
  work.flatMap fun w => visits lang w.2 w.1

theorem head?_toSee (lang : Language) (work : List (Node × Nat)) :
    (toSee lang work).head? = work.head? := by
  cases work with
  | nil => rfl
  | cons w rest => rw [toSee, List.flatMap_cons, visits_eq]; rfl

section Turns

variable (lang : Language) (limit : Int)

/-- A turn sees the first of the nodes to come and no other. -/
theorem toSee_turn (s : Outline × List (Node × Nat)) :
    toSee lang (turn lang limit s).2 = (toSee lang s.2).tail := by
  rcases s with ⟨o, _ | ⟨⟨n, depth⟩, rest⟩⟩
  · rfl
  · rw [turn, toSee, List.flatMap_append, flatMap_visits_atDepth, toSee, List.flatMap_cons,
      visits_eq]
    rfl

theorem toSee_iterate_turn (k : Nat) (s : Outline × List (Node × Nat)) :
    toSee lang ((turn lang limit)^[k] s).2 = (toSee lang s.2).drop k := by
  induction k with
  | zero => rfl
  | succ k ih => rw [Function.iterate_succ_apply', toSee_turn, ih, List.tail_drop]

/-- A turn changes nothing in what the walk comes to. -/
theorem walk_turn (s : Outline × List (Node × Nat)) :
    walk lang limit (turn lang limit s).1 (turn lang limit s).2 = walk lang limit s.1 s.2 := by
  rcases s with ⟨o, _ | ⟨⟨n, depth⟩, rest⟩⟩
  · rfl
  · rw [turn, walk]

theorem walk_iterate_turn (k : Nat) (s : Outline × List (Node × Nat)) :
    walk lang limit ((turn lang limit)^[k] s).1 ((turn lang limit)^[k] s).2 =
      walk lang limit s.1 s.2 := by
  induction k with
  | zero => rfl
  | succ k ih => rw [Function.iterate_succ_apply', walk_turn, ih]

end Turns

theorem toSee_afterTurns (lang : Language) (limit : Int) (root : Node) (k : Nat) :
    toSee lang (afterTurns lang limit root k).2 = (visits lang 0 root).drop k := by
  rw [afterTurns, toSee_iterate_turn]
  simp [toSee]

theorem map_fst_visits_eq_located (lang : Language) (depth : Nat) (root : Node) :
    (visits lang depth root).map (·.1) = root.located.map (·.2) := by
  rw [map_fst_visits, Node.map_snd_located]

/-- After some turns the next node in pre-order is on top of the stack. -/
theorem head?_afterTurns (lang : Language) (limit : Int) (root : Node) (k : Nat) :
    (afterTurns lang limit root k).2.head?.map (·.1) = root.located[k]?.map (·.2) := by
  rw [← head?_toSee lang, toSee_afterTurns, List.head?_drop, ← List.getElem?_map,
    map_fst_visits_eq_located, List.getElem?_map]

/-- After as many turns as the tree has nodes the stack is empty and the outline done. -/
theorem afterTurns_length (lang : Language) (limit : Int) (root : Node) :
    afterTurns lang limit root root.located.length = (outline lang limit root, []) := by
  have hstack : (afterTurns lang limit root root.located.length).2 = [] := by
    rw [← List.head?_eq_none_iff, ← Option.map_eq_none_iff (f := (·.1)), head?_afterTurns]
    simp
  have hwalk := walk_iterate_turn lang limit root.located.length
    ({ language := lang.name }, [(root, 0)])
  rw [afterTurns] at hstack ⊢
  rw [hstack, walk] at hwalk
  rw [Prod.ext_iff]
  exact ⟨hwalk, hstack⟩

/-! ## Functions -/

theorem recursion_outline_nodes (lang : Language) (limit : Int) (root : Node) :
    (outline lang limit root).recursion =
      (root.nodes.filter (lang.isFunctionKind ·.kind)).filterMap (recursionOf? lang) := by
  rw [recursion_outline, ← map_fst_visits lang 0 root, List.filterMap_filter,
    List.filterMap_eq_flatMap_toList, List.flatMap_map]
  congr 1
  funext w
  unfold recursionAt
  split <;> rfl

/-! ## Snippets -/

/-- A list that each snippet is put into once has them in the order they first came. -/
theorem foldl_insertSnippet (snippets : List String) :
    snippets.foldl insertSnippet [] = snippets.eraseDups := by
  induction snippets using List.reverseRecOn with
  | nil => rfl
  | append_singleton snippets s ih =>
    rw [List.foldl_append, List.foldl_cons, List.foldl_nil, ih, List.eraseDups_append]
    by_cases hs : s ∈ snippets
    · simp [insertSnippet, List.removeAll, hs]
    · simp [insertSnippet, List.removeAll, hs, List.eraseDups_cons]

section Snippets

-- the sorts and the library operations are collected in the same way
variable {lang : Language} {limit : Int} {calls : List (Scan.Scanner Unit)}
  (collected : Outline → List String)
  (hadd : ∀ o n depth, collected (o.addNode lang limit n depth) =
    if isInnermost calls n then insertSnippet (collected o) (snippet limit n) else collected o)

include hadd

theorem collected_foldl_addNode (work : List (Node × Nat)) (o : Outline) :
    collected (work.foldl (fun o w => o.addNode lang limit w.1 w.2) o) =
      (((work.map (·.1)).filter (isInnermost calls)).map (snippet limit)).foldl insertSnippet
        (collected o) := by
  induction work generalizing o with
  | nil => rfl
  | cons w work ih =>
    rw [List.foldl_cons, ih, hadd, List.map_cons]
    by_cases hw : isInnermost calls w.1 = true
    · rw [if_pos hw, List.filter_cons_of_pos hw, List.map_cons, List.foldl_cons]
    · rw [if_neg hw, List.filter_cons_of_neg hw]

/-- What is collected over a tree: the snippets of the innermost nodes in pre-order,
each where it first came. -/
theorem collected_outline (root : Node) (hstart : collected { language := lang.name } = []) :
    collected (outline lang limit root) =
      ((root.nodes.filter (isInnermost calls)).map (snippet limit)).eraseDups := by
  rw [outline_eq_foldl, collected_foldl_addNode collected hadd, hstart, map_fst_visits,
    foldl_insertSnippet]

end Snippets

theorem sorts_outline (lang : Language) (limit : Int) (root : Node) :
    (outline lang limit root).sorts =
      ((root.nodes.filter (isInnermost lang.profile.tree.sortCalls)).map
        (snippet limit)).eraseDups :=
  collected_outline Outline.sorts (fun _ _ _ => rfl) root rfl

theorem libraryCalls_outline (lang : Language) (limit : Int) (root : Node) :
    (outline lang limit root).libraryCalls =
      ((root.nodes.filter (isInnermost lang.profile.tree.libraryCalls)).map
        (snippet limit)).eraseDups :=
  collected_outline Outline.libraryCalls (fun _ _ _ => rfl) root rfl

theorem isInnermost_eq_decide (calls : List (Scan.Scanner Unit)) (n : Node) :
    isInnermost calls n = decide ((∃ call ∈ calls, call.occurs n.text = true) ∧
      ∀ m ∈ n.children, ∀ call ∈ calls, call.occurs m.text = false) := by
  rw [Bool.eq_iff_iff, isInnermost_iff, decide_eq_true_iff]

/-! ## The law -/

/-- The nodes of a tree with their positions: every position of the tree stands there
once, in the order of the dictionary. The walk has them on top of its stack one
after the other and is done after the last. The outline then holds the loops among
them, each as deep as there are loops on the way to it; the signals of the functions
among them; and what is shown of the innermost nodes that sort, and of those with
library operations, each text where it first came. A node is innermost if its text
holds one of the calls and that of no child does; its text is shown trimmed, up to
the limit, or without its end if the limit is negative. -/
theorem outline_in_preorder (lang : Language) (limit : Int) (root : Node) :
    let o := outline lang limit root
    let nodes := root.located
    let innermost := fun (calls : List (Scan.Scanner Unit)) (n : Node) =>
      decide ((∃ call ∈ calls, call.occurs n.text = true) ∧
        ∀ m ∈ n.children, ∀ call ∈ calls, call.occurs m.text = false)
    let shown := fun n : Node => String.ofList ((Text.trim n.text).take
      (if 0 ≤ limit then limit else (Text.trim n.text).length + limit).toNat)
    ((∀ p n, (p, n) ∈ nodes ↔ root.at? p = some n) ∧ (nodes.map (·.1)).Pairwise (· < ·)) ∧
    ((∀ k, (afterTurns lang limit root k).2.head?.map (·.1) = nodes[k]?.map (·.2)) ∧
      afterTurns lang limit root nodes.length = (o, [])) ∧
    o.language = lang.name ∧
    o.loops = (nodes.filterMap fun w =>
      (lang.loopKind? w.2.kind).map fun k => treeLoop lang k (loopsTo lang root w.1) w.2) ∧
    o.recursion = ((nodes.map (·.2)).filter (lang.isFunctionKind ·.kind)).filterMap (fun n =>
      Recursion.signal? (nameOf lang n) (Recursion.callCount (nameOf lang n) n.text) n.text) ∧
    o.sorts =
      (((nodes.map (·.2)).filter (innermost lang.profile.tree.sortCalls)).map shown).eraseDups ∧
    o.libraryCalls =
      (((nodes.map (·.2)).filter (innermost lang.profile.tree.libraryCalls)).map
        shown).eraseDups := by
  intro o nodes innermost shown
  have hnodes : nodes.map (·.2) = root.nodes := Node.map_snd_located root
  have hinnermost : isInnermost = innermost :=
    funext fun calls => funext fun n => isInnermost_eq_decide calls n
  have hshown : snippet limit = shown := funext (snippet_eq limit)
  refine ⟨⟨Node.mem_located root, Node.positions_rise root⟩,
    ⟨head?_afterTurns lang limit root, afterTurns_length lang limit root⟩,
    language_outline lang limit root, ?_, ?_, ?_, ?_⟩
  · rw [loops_outline, flatMap_loopAt_visits]
    congr 1
    funext w
    rw [loopIn, Nat.zero_add]
  · rw [hnodes]
    exact recursion_outline_nodes lang limit root
  · rw [hnodes, ← hinnermost, ← hshown]
    exact collected_outline Outline.sorts (fun _ _ _ => rfl) root rfl
  · rw [hnodes, ← hinnermost, ← hshown]
    exact collected_outline Outline.libraryCalls (fun _ _ _ => rfl) root rfl

end BigO.Tree
