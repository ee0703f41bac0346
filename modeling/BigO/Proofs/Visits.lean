-- The walk over a parse tree sees its nodes in pre-order, each with the number
-- of loops around it, so an outline is a fold over that list.
import BigO.Tree.Outline

namespace BigO.Tree

/-! ## Nodes -/

namespace Node

mutual

/-- The nodes of a tree, a node before its children. -/
def nodes : Node → List Node
  | ⟨kind, bytes, hasError, children, fields, detached⟩ =>
    ⟨kind, bytes, hasError, children, fields, detached⟩ :: forestNodes children

/-- The nodes of a list of trees, one tree after the other. -/
def forestNodes : List Node → List Node
  | [] => []
  | n :: ns => n.nodes ++ forestNodes ns

end

theorem nodes_eq (n : Node) : n.nodes = n :: forestNodes n.children := by
  cases n
  simp [nodes]

theorem mem_nodes_self (n : Node) : n ∈ n.nodes := by
  rw [nodes_eq]
  exact List.mem_cons_self ..

theorem mem_forestNodes {m : Node} {ns : List Node} :
    m ∈ forestNodes ns ↔ ∃ n ∈ ns, m ∈ n.nodes := by
  induction ns with
  | nil => simp [forestNodes]
  | cons k ns ih => simp [forestNodes, ih]

theorem mem_nodes_of_child {n m k : Node} (hm : m ∈ n.children) (hk : k ∈ m.nodes) :
    k ∈ n.nodes := by
  rw [nodes_eq]
  exact List.mem_cons_of_mem _ (mem_forestNodes.mpr ⟨m, hm, hk⟩)

/-- The texts of the leaves of a list of trees. -/
def leaves (ns : List Node) : List (List Char) :=
  ((forestNodes ns).filter (·.children.isEmpty)).map text

theorem leaves_cons (n : Node) (ns : List Node) : leaves (n :: ns) = leaves [n] ++ leaves ns := by
  simp [leaves, forestNodes]

end Node

open Node (forestNodes)

/-! ## Visits -/

mutual

/-- The nodes of a tree in the order the walk sees them, with their depths. -/
def visits (lang : Language) (depth : Nat) : Node → List (Node × Nat)
  | ⟨kind, bytes, hasError, children, fields, detached⟩ =>
    (⟨kind, bytes, hasError, children, fields, detached⟩, depth) ::
      forestVisits lang
        (childDepth lang ⟨kind, bytes, hasError, children, fields, detached⟩ depth) children

/-- The nodes of a list of trees, all of them at one depth. -/
def forestVisits (lang : Language) (depth : Nat) : List Node → List (Node × Nat)
  | [] => []
  | n :: ns => visits lang depth n ++ forestVisits lang depth ns

end

theorem visits_eq (lang : Language) (depth : Nat) (n : Node) :
    visits lang depth n =
      (n, depth) :: forestVisits lang (childDepth lang n depth) n.children := by
  cases n
  simp [visits]

theorem forestVisits_append (lang : Language) (depth : Nat) (ns ms : List Node) :
    forestVisits lang depth (ns ++ ms) =
      forestVisits lang depth ns ++ forestVisits lang depth ms := by
  induction ns with
  | nil => simp [forestVisits]
  | cons n ns ih => simp [forestVisits, ih]

theorem flatMap_visits_atDepth (lang : Language) (depth : Nat) (ns : List Node) :
    (atDepth depth ns).flatMap (fun w => visits lang w.2 w.1) = forestVisits lang depth ns := by
  induction ns with
  | nil => simp [atDepth, forestVisits]
  | cons n ns ih =>
    simp only [atDepth, List.map_cons, List.flatMap_cons, forestVisits] at ih ⊢
    rw [ih]

/-- The walk adds the nodes one by one in the order of the visits. -/
theorem walk_eq_foldl (lang : Language) (limit : Int) (o : Outline) (work : List (Node × Nat)) :
    walk lang limit o work =
      (work.flatMap fun w => visits lang w.2 w.1).foldl
        (fun o w => o.addNode lang limit w.1 w.2) o := by
  fun_induction walk lang limit o work with
  | case1 o => rfl
  | case2 o n depth rest ih =>
    -- the children go before what waits, so their visits directly follow the node's own
    rw [ih, List.flatMap_append, flatMap_visits_atDepth, List.flatMap_cons, visits_eq]
    rfl

theorem outline_eq_foldl (lang : Language) (limit : Int) (root : Node) :
    outline lang limit root =
      (visits lang 0 root).foldl (fun o w => o.addNode lang limit w.1 w.2)
        { language := lang.name } := by
  rw [outline, walk_eq_foldl]
  simp

mutual

/-- The walk sees the nodes of the tree and no others. -/
theorem map_fst_visits (lang : Language) (depth : Nat) :
    ∀ n : Node, (visits lang depth n).map (·.1) = n.nodes
  | ⟨kind, bytes, hasError, children, fields, detached⟩ => by
    simp only [visits, Node.nodes, List.map_cons]
    rw [map_fst_forestVisits]

theorem map_fst_forestVisits (lang : Language) (depth : Nat) :
    ∀ ns : List Node, (forestVisits lang depth ns).map (·.1) = forestNodes ns
  | [] => by simp [forestVisits, forestNodes]
  | n :: ns => by
    simp only [forestVisits, forestNodes, List.map_append]
    rw [map_fst_visits, map_fst_forestVisits]

end

theorem mem_forestNodes_of_mem_visits {lang : Language} {depth : Nat} {ns : List Node}
    {w : Node × Nat} (h : w ∈ forestVisits lang depth ns) : w.1 ∈ forestNodes ns := by
  rw [← map_fst_forestVisits lang depth ns]
  exact List.mem_map_of_mem h

theorem mem_nodes_of_mem_visits {lang : Language} {depth : Nat} {n : Node} {w : Node × Nat}
    (h : w ∈ visits lang depth n) : w.1 ∈ n.nodes := by
  rw [← map_fst_visits lang depth n]
  exact List.mem_map_of_mem h

/-! ## What the visits add -/

/-- The loop that a node adds at a depth, if it is one. -/
def loopAt (lang : Language) (w : Node × Nat) : List TreeLoop :=
  ((lang.loopKind? w.1.kind).map fun k => treeLoop lang k (w.2 + 1) w.1).toList

/-- The recursive function that a node adds, if it is one. -/
def recursionAt (lang : Language) (w : Node × Nat) : List Recursion.Signal :=
  if lang.isFunctionKind w.1.kind then (recursionOf? lang w.1).toList else []

theorem language_outline (lang : Language) (limit : Int) (root : Node) :
    (outline lang limit root).language = lang.name := by
  have hfold : ∀ (work : List (Node × Nat)) (o : Outline),
      (work.foldl (fun o w => o.addNode lang limit w.1 w.2) o).language = o.language := by
    intro work
    induction work with
    | nil => exact fun _ => rfl
    | cons w work ih =>
      intro o
      rw [List.foldl_cons, ih]
      rfl
  rw [outline_eq_foldl, hfold]

theorem loops_foldl_addNode (lang : Language) (limit : Int) (work : List (Node × Nat))
    (o : Outline) :
    (work.foldl (fun o w => o.addNode lang limit w.1 w.2) o).loops =
      o.loops ++ work.flatMap (loopAt lang) := by
  induction work generalizing o with
  | nil => simp
  | cons w work ih =>
    rw [List.foldl_cons, ih, List.flatMap_cons]
    simp [Outline.addNode, loopAt]

theorem recursion_foldl_addNode (lang : Language) (limit : Int) (work : List (Node × Nat))
    (o : Outline) :
    (work.foldl (fun o w => o.addNode lang limit w.1 w.2) o).recursion =
      o.recursion ++ work.flatMap (recursionAt lang) := by
  induction work generalizing o with
  | nil => simp
  | cons w work ih =>
    rw [List.foldl_cons, ih, List.flatMap_cons]
    simp [Outline.addNode, recursionAt]

/-- Nodes that hold no call that sorts add none. -/
theorem sorts_foldl_addNode (lang : Language) (limit : Int) {work : List (Node × Nat)}
    (h : ∀ w ∈ work, holds lang.profile.tree.sortCalls w.1 = false) (o : Outline) :
    (work.foldl (fun o w => o.addNode lang limit w.1 w.2) o).sorts = o.sorts := by
  induction work generalizing o with
  | nil => rfl
  | cons w work ih =>
    rw [List.foldl_cons, ih fun v hv => h v (List.mem_cons_of_mem _ hv)]
    simp [Outline.addNode, isInnermost, h w (List.mem_cons_self ..)]

/-- The loops of an outline are those of the tree, in pre-order. -/
theorem loops_outline (lang : Language) (limit : Int) (root : Node) :
    (outline lang limit root).loops = (visits lang 0 root).flatMap (loopAt lang) := by
  rw [outline_eq_foldl, loops_foldl_addNode]
  simp

theorem recursion_outline (lang : Language) (limit : Int) (root : Node) :
    (outline lang limit root).recursion = (visits lang 0 root).flatMap (recursionAt lang) := by
  rw [outline_eq_foldl, recursion_foldl_addNode]
  simp

theorem sorts_outline_eq_nil (lang : Language) (limit : Int) {root : Node}
    (h : ∀ n ∈ root.nodes, holds lang.profile.tree.sortCalls n = false) :
    (outline lang limit root).sorts = [] := by
  rw [outline_eq_foldl, sorts_foldl_addNode lang limit]
  intro w hw
  exact h w.1 (mem_nodes_of_mem_visits hw)

end BigO.Tree
