-- The rule of the innermost node. A node that holds a call is passed over where a child
-- of it holds one, of whatever kind, but then the child is looked at in turn: the rule
-- always leaves a node, so no call is lost, and none is told twice.
import BigO.Proofs.EvidenceTable
import BigO.Proofs.SnippetLength
import Mathlib.Data.List.Nodup

namespace BigO.Tree

/-! ## The innermost nodes -/

mutual

/-- The nodes below a node of a tree are nodes of the tree. -/
theorem Node.mem_nodes_trans {n m : Node} (hm : m ∈ n.nodes) :
    ∀ root : Node, n ∈ root.nodes → m ∈ root.nodes
  | ⟨kind, bytes, hasError, children, fields, detached⟩, hn => by
    rw [Node.nodes_eq] at hn
    rcases List.mem_cons.mp hn with rfl | hn
    · exact hm
    · rw [Node.nodes_eq]
      exact List.mem_cons_of_mem _ (Node.mem_forestNodes_trans hm children hn)

theorem Node.mem_forestNodes_trans {n m : Node} (hm : m ∈ n.nodes) :
    ∀ ns : List Node, n ∈ Node.forestNodes ns → m ∈ Node.forestNodes ns
  | [], hn => by simp [Node.forestNodes] at hn
  | k :: ks, hn => by
    rw [Node.forestNodes] at hn ⊢
    rcases List.mem_append.mp hn with hn | hn
    · exact List.mem_append_left _ (Node.mem_nodes_trans hm k hn)
    · exact List.mem_append_right _ (Node.mem_forestNodes_trans hm ks hn)

end

/-- Where a node holds a call, some node below it is the innermost to hold one. -/
theorem exists_isInnermost {calls : List (Scan.Scanner Unit)} (n : Node)
    (h : holds calls n = true) : ∃ m ∈ n.nodes, isInnermost calls m = true := by
  by_cases hchild : ∃ m ∈ n.children, holds calls m = true
  · obtain ⟨m, hm, hholds⟩ := hchild
    obtain ⟨k, hk, hinner⟩ := exists_isInnermost m hholds
    exact ⟨k, Node.mem_nodes_of_child hm hk, hinner⟩
  · refine ⟨n, Node.mem_nodes_self n, ?_⟩
    unfold isInnermost
    rw [h, Bool.true_and, Bool.not_eq_true', List.any_eq_false]
    exact fun m hm hholds => hchild ⟨m, hm, hholds⟩
termination_by sizeOf n
decreasing_by
  have := List.sizeOf_lt_of_mem hm
  cases n
  simp at this ⊢
  omega

theorem filter_isInnermost_eq_nil_iff (calls : List (Scan.Scanner Unit)) (root : Node) :
    root.nodes.filter (isInnermost calls) = [] ↔ ∀ n ∈ root.nodes, holds calls n = false := by
  rw [List.filter_eq_nil_iff]
  constructor
  · intro hnone n hn
    rw [← Bool.not_eq_true]
    intro hholds
    obtain ⟨m, hm, hinner⟩ := exists_isInnermost n hholds
    exact hnone m (Node.mem_nodes_trans hm root hn) hinner
  · intro hnone n hn hinner
    unfold isInnermost at hinner
    rw [hnone n hn, Bool.false_and] at hinner
    cases hinner

/-- A tree has snippets of sorts just if one of its nodes holds a call that sorts. -/
theorem sorts_outline_eq_nil_iff (lang : Language) (limit : Int) (root : Node) :
    (outline lang limit root).sorts = [] ↔
      ∀ n ∈ root.nodes, holds lang.profile.tree.sortCalls n = false := by
  rw [sorts_outline, snippets_eq_nil_iff, filter_isInnermost_eq_nil_iff]

theorem libraryCalls_outline_eq_nil_iff (lang : Language) (limit : Int) (root : Node) :
    (outline lang limit root).libraryCalls = [] ↔
      ∀ n ∈ root.nodes, holds lang.profile.tree.libraryCalls n = false := by
  rw [libraryCalls_outline, snippets_eq_nil_iff, filter_isInnermost_eq_nil_iff]

/-! ## No snippet twice -/

theorem nodup_insertSnippet {snippets : List String} (h : snippets.Nodup) (s : String) :
    (insertSnippet snippets s).Nodup := by
  unfold insertSnippet
  split
  · exact h
  · rename_i hnew
    rw [List.nodup_append]
    refine ⟨h, List.nodup_singleton s, ?_⟩
    intro a ha b hb hab
    rw [hab, List.mem_singleton.mp hb] at ha
    exact hnew ha

theorem nodup_foldl_insertSnippet (new : List String) {snippets : List String}
    (h : snippets.Nodup) : (new.foldl insertSnippet snippets).Nodup := by
  induction new generalizing snippets with
  | nil => exact h
  | cons s new ih => exact ih (nodup_insertSnippet h s)

/-! ## The calls of a tree -/

/-- Some node of the tree has one of the calls in its text. -/
def Mentions (calls : List (Scan.Scanner Unit)) (root : Node) : Prop :=
  ∃ n ∈ root.nodes, ∃ call ∈ calls, call.occurs n.text = true

/-- The snippets tell the calls of a tree: there are some just if a node has one of the
calls in its text, from each such node down one is told, and none is told twice. -/
structure TellsCalls (calls : List (Scan.Scanner Unit)) (limit : Int) (root : Node)
    (snippets : List String) : Prop where
  ne_nil_iff : snippets ≠ [] ↔ Mentions calls root
  below : ∀ n ∈ root.nodes, holds calls n = true →
    ∃ m ∈ n.nodes, holds calls m = true ∧ snippet limit m ∈ snippets
  nodup : snippets.Nodup

theorem mentions_iff (calls : List (Scan.Scanner Unit)) (root : Node) :
    Mentions calls root ↔ ∃ n ∈ root.nodes, holds calls n = true := by
  unfold Mentions holds
  simp only [List.any_eq_true]

theorem tellsCalls_innermost (calls : List (Scan.Scanner Unit)) (limit : Int) (root : Node) :
    TellsCalls calls limit root
      ((root.nodes.filter (isInnermost calls)).map (snippet limit)).eraseDups where
  ne_nil_iff := by
    rw [ne_eq, snippets_eq_nil_iff, filter_isInnermost_eq_nil_iff, mentions_iff]
    simp
  below := by
    intro n hn hholds
    obtain ⟨m, hm, hinner⟩ := exists_isInnermost n hholds
    refine ⟨m, hm, ?_, ?_⟩
    · unfold isInnermost at hinner
      exact (Bool.and_eq_true_iff.mp hinner).1
    · rw [List.mem_eraseDups]
      exact List.mem_map_of_mem (List.mem_filter.mpr ⟨Node.mem_nodes_trans hm root hn, hinner⟩)
  nodup := by
    rw [← foldl_insertSnippet]
    exact nodup_foldl_insertSnippet _ List.nodup_nil

/-! ## The law -/

/-- For every language, tree and length of snippets: the sorts of the outline tell the
calls of the tree that sort, its library operations tell those, and the estimate by the
tree has the tag for either just if some node has such a call in its text. -/
theorem outline_tells_all_calls (lang : Language) (limit : Int) (root : Node) :
    let o := outline lang limit root
    let e := Structural.estimateOf o
    let words := lang.profile.tree
    TellsCalls words.sortCalls limit root o.sorts ∧
      TellsCalls words.libraryCalls limit root o.libraryCalls ∧
      ("sort" ∈ e.tags ↔ Mentions words.sortCalls root) ∧
      ("library-ops" ∈ e.tags ↔ Mentions words.libraryCalls root) := by
  intro o e words
  have hsorts : TellsCalls words.sortCalls limit root o.sorts := by
    show TellsCalls _ limit root (outline lang limit root).sorts
    rw [sorts_outline]
    exact tellsCalls_innermost _ limit root
  have hlibrary : TellsCalls words.libraryCalls limit root o.libraryCalls := by
    show TellsCalls _ limit root (outline lang limit root).libraryCalls
    rw [libraryCalls_outline]
    exact tellsCalls_innermost _ limit root
  have htag : ∀ name, name ∈ e.tags ↔ (name, true) ∈ o.signals.tagTable :=
    Signals.mem_tags_estimate_iff o.signals_showable _ _
  refine ⟨hsorts, hlibrary, ?_, ?_⟩
  · rw [htag, ← hsorts.ne_nil_iff]
    by_cases hnone : o.sorts = [] <;> simp [Signals.tagTable, Outline.signals, hnone]
  · rw [htag, ← hlibrary.ne_nil_iff]
    by_cases hnone : o.libraryCalls = [] <;> simp [Signals.tagTable, Outline.signals, hnone]

end BigO.Tree
