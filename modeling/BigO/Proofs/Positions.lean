-- Positions in a parse tree. A position tells by the numbers of the children how
-- to go down from the root, so the nodes on the way to it stand at its initial
-- parts. In pre-order the positions rise in the order of the dictionary.
import BigO.Proofs.Visits
import Mathlib.Data.List.Infix

namespace BigO.Tree

/-! ## Nodes at positions -/

namespace Node

/-- The node at a position. -/
def at? : Node → List Nat → Option Node
  | n, [] => some n
  | n, i :: p => n.children[i]?.bind fun m => m.at? p

mutual

/-- The nodes of a tree with their positions, a node before its children. -/
def located : Node → List (List Nat × Node)
  | ⟨kind, bytes, hasError, children, fields, detached⟩ =>
    ([], ⟨kind, bytes, hasError, children, fields, detached⟩) :: forestLocated 0 children

/-- The nodes of some children with their positions, the first child having number `i`. -/
def forestLocated (i : Nat) : List Node → List (List Nat × Node)
  | [] => []
  | n :: ns => n.located.map (fun w => (i :: w.1, w.2)) ++ forestLocated (i + 1) ns

end

mutual

/-- The located nodes are those that positions lead to. -/
theorem mem_located : ∀ (n : Node) (p : List Nat) (m : Node),
    (p, m) ∈ n.located ↔ n.at? p = some m
  | ⟨kind, bytes, hasError, children, fields, detached⟩, [], m => by
    simp [located, mem_forestLocated, at?, eq_comm]
  | ⟨kind, bytes, hasError, children, fields, detached⟩, i :: p, m => by
    simp [located, mem_forestLocated, at?]

theorem mem_forestLocated : ∀ (i : Nat) (ns : List Node) (p : List Nat) (m : Node),
    (p, m) ∈ forestLocated i ns ↔
      ∃ j q, p = (i + j) :: q ∧ (ns[j]?.bind fun n => n.at? q) = some m
  | i, [], p, m => by simp [forestLocated]
  | i, n :: ns, p, m => by
    simp only [forestLocated, List.mem_append, List.mem_map, Prod.mk.injEq, Prod.exists]
    rw [mem_forestLocated (i + 1) ns p m]
    constructor
    · rintro (⟨q, k, hk, rfl, rfl⟩ | ⟨j, q, rfl, hj⟩)
      · exact ⟨0, q, rfl, (mem_located n q k).mp hk⟩
      · exact ⟨j + 1, q, by rw [Nat.add_right_comm, Nat.add_assoc], hj⟩
    · rintro ⟨j, q, rfl, hj⟩
      cases j with
      | zero => exact .inl ⟨q, m, (mem_located n q m).mpr hj, rfl, rfl⟩
      | succ j => exact .inr ⟨j, q, by rw [Nat.add_right_comm, Nat.add_assoc], hj⟩

end

/-- The positions of a tree in pre-order. -/
def positions (n : Node) : List (List Nat) :=
  n.located.map (·.1)

mutual

/-- In pre-order positions rise, so each stands there once. -/
theorem positions_rise : ∀ n : Node, n.positions.Pairwise (· < ·)
  | ⟨kind, bytes, hasError, children, fields, detached⟩ => by
    simp only [positions, located, List.map_cons, List.pairwise_cons]
    refine ⟨?_, forestPositions_rise 0 children⟩
    intro p hp
    obtain ⟨⟨q, m⟩, hm, rfl⟩ := List.mem_map.mp hp
    obtain ⟨j, q, rfl, -⟩ := (mem_forestLocated ..).mp hm
    exact List.nil_lt_cons ..

theorem forestPositions_rise : ∀ (i : Nat) (ns : List Node),
    ((forestLocated i ns).map (·.1)).Pairwise (· < ·)
  | i, [] => by simp [forestLocated]
  | i, n :: ns => by
    simp only [forestLocated, List.map_append, List.map_map, List.pairwise_append]
    refine ⟨?_, forestPositions_rise (i + 1) ns, ?_⟩
    · have hn := positions_rise n
      simp only [positions, List.pairwise_map] at hn ⊢
      exact hn.imp fun h => List.cons_lt_cons_iff.mpr (.inr ⟨rfl, h⟩)
    · -- a later child has a greater number
      intro p hp q hq
      obtain ⟨⟨p, m⟩, -, rfl⟩ := List.mem_map.mp hp
      obtain ⟨⟨q, k⟩, hk, rfl⟩ := List.mem_map.mp hq
      obtain ⟨j, q, rfl, -⟩ := (mem_forestLocated ..).mp hk
      exact List.cons_lt_cons_iff.mpr (.inl (by omega))

end

mutual

theorem map_snd_located : ∀ n : Node, n.located.map (·.2) = n.nodes
  | ⟨kind, bytes, hasError, children, fields, detached⟩ => by
    simp only [located, nodes, List.map_cons]
    rw [map_snd_forestLocated]

theorem map_snd_forestLocated : ∀ (i : Nat) (ns : List Node),
    (forestLocated i ns).map (·.2) = forestNodes ns
  | i, [] => rfl
  | i, n :: ns => by
    simp only [forestLocated, forestNodes, List.map_append, List.map_map]
    rw [map_snd_forestLocated, ← map_snd_located]
    rfl

end

end Node

open Node (located forestLocated)

/-! ## Loops on the way to a position -/

/-- The node at a position is a loop. -/
def isLoopAt (lang : Language) (root : Node) (p : List Nat) : Bool :=
  (root.at? p).any fun n => (lang.loopKind? n.kind).isSome

/-- The number of loops on the way from the root to a position, the node there counted. -/
def loopsTo (lang : Language) (root : Node) (p : List Nat) : Nat :=
  p.inits.countP (isLoopAt lang root)

theorem loopsTo_nil (lang : Language) (root : Node) :
    loopsTo lang root [] = if (lang.loopKind? root.kind).isSome then 1 else 0 := by
  rw [loopsTo, List.inits, List.countP_cons, List.countP_nil, Nat.zero_add]
  rfl

/-- One step down from the root. -/
theorem loopsTo_cons (lang : Language) {root m : Node} {i : Nat} (h : root.children[i]? = some m)
    (p : List Nat) :
    loopsTo lang root (i :: p) =
      (if (lang.loopKind? root.kind).isSome then 1 else 0) + loopsTo lang m p := by
  have hbelow : isLoopAt lang root ∘ (i :: ·) = isLoopAt lang m := by
    funext q
    simp [isLoopAt, Node.at?, h]
  rw [loopsTo, List.inits_cons, List.countP_cons, List.countP_map, hbelow, Nat.add_comm]
  rfl

theorem childDepth_eq (lang : Language) (n : Node) (depth : Nat) :
    childDepth lang n depth = depth + if (lang.loopKind? n.kind).isSome then 1 else 0 := by
  unfold childDepth
  split <;> rfl

/-- The loop that a located node is, if it is one, with so many loops around the root. -/
def loopIn (lang : Language) (depth : Nat) (root : Node) (w : List Nat × Node) :
    Option TreeLoop :=
  (lang.loopKind? w.2.kind).map fun k =>
    treeLoop lang k (depth + loopsTo lang root w.1 : Nat) w.2

/-- A child's loops are those of the tree at the positions that go through it. -/
theorem loopIn_child (lang : Language) (depth : Nat) {root m : Node} {i : Nat}
    (h : root.children[i]? = some m) (w : List Nat × Node) :
    loopIn lang depth root (i :: w.1, w.2) = loopIn lang (childDepth lang root depth) m w := by
  unfold loopIn
  rw [loopsTo_cons lang h, childDepth_eq, Nat.add_assoc]

theorem loopAt_root (lang : Language) (depth : Nat) (n : Node) :
    loopAt lang (n, depth) = (loopIn lang depth n ([], n)).toList := by
  unfold loopAt loopIn
  rw [loopsTo_nil]
  cases lang.loopKind? n.kind <;> rfl

mutual

/-- The loops that the walk adds are those of the located nodes. -/
theorem flatMap_loopAt_visits (lang : Language) : ∀ (depth : Nat) (n : Node),
    (visits lang depth n).flatMap (loopAt lang) = n.located.filterMap (loopIn lang depth n)
  | depth, ⟨kind, bytes, hasError, children, fields, detached⟩ => by
    rw [visits, located, List.flatMap_cons, List.filterMap_cons, loopAt_root,
      flatMap_loopAt_forestVisits lang depth _ 0 children rfl]
    cases loopIn lang depth _ ([], _) <;> rfl

theorem flatMap_loopAt_forestVisits (lang : Language) (depth : Nat) (root : Node) :
    ∀ (i : Nat) (ns : List Node), root.children.drop i = ns →
      (forestVisits lang (childDepth lang root depth) ns).flatMap (loopAt lang) =
        (forestLocated i ns).filterMap (loopIn lang depth root)
  | i, [], _ => by simp [forestVisits, forestLocated]
  | i, n :: ns, h => by
    have hchild : root.children[i]? = some n := by
      rw [← List.head?_drop, h, List.head?_cons]
    have hrest : root.children.drop (i + 1) = ns := by
      rw [← List.tail_drop, h, List.tail_cons]
    rw [forestVisits, forestLocated, List.flatMap_append, List.filterMap_append,
      List.filterMap_map, flatMap_loopAt_visits, flatMap_loopAt_forestVisits _ _ _ (i + 1) ns hrest]
    congr 2
    funext w
    exact (loopIn_child lang depth hchild w).symm

end

end BigO.Tree
