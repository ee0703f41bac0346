-- A loop of a parse tree is judged by its own text. What stands inside the loops in it
-- is never looked at, wherever they are: among its children, as its body, or below
-- nodes that are no loops. So two trees that are the same down to some level of loops
-- show the same loops down to that level, whatever the loops below it are.
import BigO.Proofs.Visits

namespace BigO.Tree

open BigO.Loop

/-! ## Trees that differ inside loops only -/

mutual

/-- Two trees are the same down to so many levels of loops. Below the last level a loop
may be any other loop. The characters that a node covers count for leaves alone, since
those of the others change with what is inside them. -/
inductive SameTo (lang : Language) : Nat → Node → Node → Prop
  | anyLoop {n m : Node} (hn : (lang.loopKind? n.kind).isSome)
      (hm : (lang.loopKind? m.kind).isSome) : SameTo lang 0 n m
  | loop {levels : Nat} {n m : Node} (hn : (lang.loopKind? n.kind).isSome)
      (hkind : n.kind = m.kind) (hfields : n.fields = m.fields)
      (hchildren : AllSameTo lang levels n.children m.children) : SameTo lang (levels + 1) n m
  | leaf {levels : Nat} {n : Node} (hn : lang.loopKind? n.kind = none) (hleaf : n.children = []) :
      SameTo lang levels n n
  | inner {levels : Nat} {n m : Node} (hn : lang.loopKind? n.kind = none) (hkind : n.kind = m.kind)
      (hne : n.children ≠ []) (hchildren : AllSameTo lang levels n.children m.children) :
      SameTo lang levels n m

/-- The trees of two lists are the same down to so many levels, one by one. -/
inductive AllSameTo (lang : Language) : Nat → List Node → List Node → Prop
  | nil {levels : Nat} : AllSameTo lang levels [] []
  | cons {levels : Nat} {n m : Node} {ns ms : List Node} (hn : SameTo lang levels n m)
      (hns : AllSameTo lang levels ns ms) : AllSameTo lang levels (n :: ns) (m :: ms)

end

variable {lang : Language} {levels : Nat}

/-- A loop stands against a loop. -/
theorem SameTo.loopKind_isSome {n m : Node} (h : SameTo lang levels n m) :
    (lang.loopKind? n.kind).isSome = (lang.loopKind? m.kind).isSome := by
  cases h with
  | anyLoop hn hm => rw [hn, hm]
  | loop _ hkind _ _ => rw [hkind]
  | leaf _ _ => rfl
  | inner _ hkind _ _ => rw [hkind]

/-! ## One loop -/

theorem tokens_eq_of_ne_nil (lang : Language) {n : Node} (h : n.children ≠ []) :
    tokens lang n = forestTokens lang n.children := by
  rcases n with ⟨kind, bytes, hasError, children, fields, detached⟩
  cases children with
  | nil => exact absurd rfl h
  | cons c cs => rw [tokens]

mutual

/-- A tree that is no loop has the tokens of its like. -/
theorem tokens_eq_of_sameTo : ∀ (n m : Node), SameTo lang levels n m →
    lang.loopKind? n.kind = none → tokens lang n = tokens lang m
  | ⟨kind, bytes, hasError, children, fields, detached⟩, m, h, hnone => by
    cases h with
    | anyLoop hn _ | loop hn _ _ _ =>
      rw [hnone] at hn
      exact absurd hn (by decide)
    | leaf _ _ => rfl
    | inner _ _ hne hchildren =>
      have hne' : m.children ≠ [] := by
        intro hnil
        rw [hnil] at hchildren
        cases hchildren
        exact hne rfl
      rw [tokens_eq_of_ne_nil lang hne, tokens_eq_of_ne_nil lang hne']
      exact forestTokens_eq_of_sameTo children m.children hchildren

theorem forestTokens_eq_of_sameTo : ∀ ns ms : List Node,
    AllSameTo lang levels ns ms → forestTokens lang ns = forestTokens lang ms
  | [], _, .nil => rfl
  | n :: ns, m :: ms, .cons hm hrest => by
    rw [forestTokens, forestTokens, forestTokens_eq_of_sameTo ns ms hrest, ← hm.loopKind_isSome]
    split
    · rfl
    · rename_i hnone
      rw [tokens_eq_of_sameTo n m hm (by simpa using hnone)]

end

theorem AllSameTo.eraseIdx {ns ms : List Node} (h : AllSameTo lang levels ns ms) (i : Nat) :
    AllSameTo lang levels (ns.eraseIdx i) (ms.eraseIdx i) := by
  induction ns generalizing ms i with
  | nil =>
    cases h
    exact .nil
  | cons n ns ih =>
    obtain _ | ⟨hn, hns⟩ := h
    cases i with
    | zero => exact hns
    | succ i => exact .cons hn (ih hns i)

theorem AllSameTo.getElem? {ns ms : List Node} (h : AllSameTo lang levels ns ms) (i : Nat) :
    AllSameTo lang levels ns[i]?.toList ms[i]?.toList := by
  induction ns generalizing ms i with
  | nil =>
    cases h
    exact .nil
  | cons n ns ih =>
    obtain _ | ⟨hn, hns⟩ := h
    cases i with
    | zero => exact .cons hn .nil
    | succ i => exact ih hns i

section Loop

variable {n m : Node} (hfields : n.fields = m.fields)
  (hchildren : AllSameTo lang levels n.children m.children)

include hfields hchildren

theorem forestTokens_headerOf :
    forestTokens lang (headerOf n) = forestTokens lang (headerOf m) := by
  have hsame : AllSameTo lang levels (headerOf n) (headerOf m) := by
    unfold headerOf
    rw [hfields]
    split
    · exact hchildren.eraseIdx _
    · exact hchildren
  exact forestTokens_eq_of_sameTo _ _ hsame

theorem forestTokens_bodyOf : forestTokens lang (bodyOf n) = forestTokens lang (bodyOf m) := by
  have hsame : AllSameTo lang levels (bodyOf n) (bodyOf m) := by
    unfold bodyOf
    rw [hfields]
    split
    · exact hchildren.getElem? _
    · exact .nil
  exact forestTokens_eq_of_sameTo _ _ hsame

/-- A loop is judged the same whatever the loops in it are. -/
theorem treeLoop_eq_of_sameTo (kind : LoopKind) (depth : Int) :
    treeLoop lang kind depth n = treeLoop lang kind depth m := by
  unfold treeLoop
  rw [forestTokens_headerOf hfields hchildren, forestTokens_bodyOf hfields hchildren]

end Loop

/-! ## All loops down to a level -/

/-- The loops that the nodes of a tree add, down to a depth. -/
def loopsDownTo (lang : Language) (last : Nat) (visited : List (Node × Nat)) : List TreeLoop :=
  (visited.flatMap (loopAt lang)).filter fun l => l.depth ≤ (last : Int)

theorem loopsDownTo_append (lang : Language) (last : Nat) (v w : List (Node × Nat)) :
    loopsDownTo lang last (v ++ w) = loopsDownTo lang last v ++ loopsDownTo lang last w := by
  simp [loopsDownTo]

mutual

theorem depth_le_of_mem_visits : ∀ (depth : Nat) (n : Node), ∀ w ∈ visits lang depth n, depth ≤ w.2
  | depth, ⟨kind, bytes, hasError, children, fields, detached⟩, w, hw => by
    rw [visits, List.mem_cons] at hw
    rcases hw with rfl | hw
    · exact Nat.le_refl depth
    · have hbelow := depth_le_of_mem_forestVisits _ children w hw
      unfold childDepth at hbelow
      split at hbelow
      · omega
      · exact hbelow

theorem depth_le_of_mem_forestVisits : ∀ (depth : Nat) (ns : List Node),
    ∀ w ∈ forestVisits lang depth ns, depth ≤ w.2
  | depth, [], w, hw => by simp [forestVisits] at hw
  | depth, n :: ns, w, hw => by
    rw [forestVisits, List.mem_append] at hw
    rcases hw with hw | hw
    · exact depth_le_of_mem_visits depth n w hw
    · exact depth_le_of_mem_forestVisits depth ns w hw

end

/-- A loop is deeper than the number of loops around it. -/
theorem loopsDownTo_visits_eq_nil (depth : Nat) (n : Node) :
    loopsDownTo lang depth (visits lang depth n) = [] := by
  unfold loopsDownTo
  rw [List.filter_eq_nil_iff]
  intro l hl
  obtain ⟨w, hw, hlw⟩ := List.mem_flatMap.mp hl
  have hdepth := depth_le_of_mem_visits depth n w hw
  unfold loopAt at hlw
  rw [Option.mem_toList, Option.map_eq_some_iff] at hlw
  obtain ⟨kind, -, rfl⟩ := hlw
  show ¬ decide ((w.2 : Int) + 1 ≤ depth) = true
  rw [decide_eq_true_eq]
  omega

theorem loopAt_eq_nil {n : Node} (h : lang.loopKind? n.kind = none) (depth : Nat) :
    loopAt lang (n, depth) = [] := by
  unfold loopAt
  rw [h]
  rfl

theorem SameTo.childDepth {n m : Node} (h : SameTo lang levels n m) (depth : Nat) :
    Tree.childDepth lang n depth = Tree.childDepth lang m depth := by
  unfold Tree.childDepth
  rw [h.loopKind_isSome]

/-- Two nodes that are the same loop show the same, if their children do. -/
theorem loopsDownTo_visits_of_children {n m : Node} {depth last : Nat}
    (hself : loopAt lang (n, depth) = loopAt lang (m, depth))
    (hbelow : loopsDownTo lang last (forestVisits lang (childDepth lang n depth) n.children) =
      loopsDownTo lang last (forestVisits lang (childDepth lang m depth) m.children)) :
    loopsDownTo lang last (visits lang depth n) = loopsDownTo lang last (visits lang depth m) := by
  unfold loopsDownTo at hbelow ⊢
  rw [visits_eq, visits_eq, List.flatMap_cons, List.flatMap_cons, List.filter_append,
    List.filter_append, hself, hbelow]

mutual

/-- The walk finds the same loops in both trees, down to the level they are the same to. -/
theorem loopsDownTo_visits : ∀ (levels depth : Nat) (n m : Node), SameTo lang levels n m →
    loopsDownTo lang (depth + levels) (visits lang depth n) =
      loopsDownTo lang (depth + levels) (visits lang depth m)
  | levels, depth, ⟨kind, bytes, hasError, children, fields, detached⟩, m, h => by
    have hdepth := h.childDepth depth
    cases h with
    | anyLoop _ _ => rw [Nat.add_zero, loopsDownTo_visits_eq_nil, loopsDownTo_visits_eq_nil]
    | @loop levels _ _ hn hkind hfields hchildren =>
      apply loopsDownTo_visits_of_children
      · unfold loopAt
        rw [hkind]
        congr 2
        funext k
        exact treeLoop_eq_of_sameTo hfields hchildren k (depth + 1)
      · have hinside : childDepth lang ⟨kind, bytes, hasError, children, fields, detached⟩ depth =
            depth + 1 := if_pos hn
        have hlevel : depth + (levels + 1) = depth + 1 + levels := by omega
        rw [← hdepth, hinside, hlevel]
        exact loopsDownTo_forestVisits levels (depth + 1) children m.children hchildren
    | leaf _ _ => rfl
    | inner hn hkind _ hchildren =>
      apply loopsDownTo_visits_of_children
      · rw [loopAt_eq_nil hn, loopAt_eq_nil (hkind ▸ hn)]
      · have hbeside : childDepth lang ⟨kind, bytes, hasError, children, fields, detached⟩ depth =
            depth := if_neg (by rw [hn]; decide)
        rw [← hdepth, hbeside]
        exact loopsDownTo_forestVisits levels depth children m.children hchildren

theorem loopsDownTo_forestVisits : ∀ (levels depth : Nat) (ns ms : List Node),
    AllSameTo lang levels ns ms →
    loopsDownTo lang (depth + levels) (forestVisits lang depth ns) =
      loopsDownTo lang (depth + levels) (forestVisits lang depth ms)
  | levels, depth, [], _, .nil => rfl
  | levels, depth, n :: ns, m :: ms, .cons hm hrest => by
    rw [forestVisits, forestVisits, loopsDownTo_append, loopsDownTo_append,
      loopsDownTo_visits levels depth n m hm, loopsDownTo_forestVisits levels depth ns ms hrest]

end

/-! ## The law -/

/-- Two loops that are the same but for the loops in them are judged the same. So are, in
two trees that are the same down to some level, all loops down to that level. -/
theorem loops_judged_by_own_text (lang : Language) :
    (∀ (kind : LoopKind) (depth : Int) (n m : Node), (lang.loopKind? n.kind).isSome →
      SameTo lang 1 n m → treeLoop lang kind depth n = treeLoop lang kind depth m) ∧
    ∀ (levels : Nat) (limit limit' : Int) (n m : Node), SameTo lang levels n m →
      (outline lang limit n).loops.filter (fun l => l.depth ≤ (levels : Int)) =
        (outline lang limit' m).loops.filter fun l => l.depth ≤ (levels : Int) := by
  constructor
  · intro kind depth n m hn h
    cases h with
    | loop _ _ hfields hchildren => exact treeLoop_eq_of_sameTo hfields hchildren kind depth
    | leaf _ _ => rfl
    | inner hnone _ _ _ =>
      rw [hnone] at hn
      exact absurd hn (by decide)
  · intro levels limit limit' n m h
    have hloops := loopsDownTo_visits levels 0 n m h
    unfold loopsDownTo at hloops
    rw [Nat.zero_add] at hloops
    rw [loops_outline, loops_outline]
    exact hloops

/-! ## A sample -/

/-- A leaf with a text of ASCII. -/
def wordOf (kind text : String) : Node :=
  { kind := kind, bytes := text.toList.map fun c => UInt8.ofNat c.toNat }

/-- A loop with three loops in it: one deep in its condition, one as its body, and one
after that. -/
def loopAround (deep body last : Node) : Node :=
  { kind := "for_statement"
    fields := [("body", 3)]
    children := [wordOf "for" "for ( ;",
      { kind := "condition"
        children := [wordOf "less" "i < n", { kind := "call", children := [deep] }] },
      wordOf ")" "; i ++ )", body, last] }

/-- A loop that doubles. -/
def doublingLoop : Node :=
  { kind := "while_statement", children := [wordOf "while" "while ( k < 9 ) k *= 2 ;"] }

theorem sameTo_loopAround {deep body last deep' body' last' : Node}
    (hdeep : SameTo .c 0 deep deep') (hbody : SameTo .c 0 body body')
    (hlast : SameTo .c 0 last last') :
    SameTo .c 1 (loopAround deep body last) (loopAround deep' body' last') := by
  have hword : ∀ {kind text : String}, Language.c.loopKind? kind = none →
      SameTo .c 0 (wordOf kind text) (wordOf kind text) := fun h => .leaf h rfl
  have hcall : SameTo .c 0 { kind := "call", children := [deep] }
      { kind := "call", children := [deep'] } :=
    .inner rfl rfl (by simp) (.cons hdeep .nil)
  refine .loop rfl rfl rfl (.cons (hword rfl) (.cons ?_ (.cons (hword rfl) ?_)))
  · exact .inner rfl rfl (by simp) (.cons (hword rfl) (.cons hcall .nil))
  · exact .cons hbody (.cons hlast .nil)

/-- A loop around loops that double is as linear as one around loops that do nothing. -/
theorem loops_judged_by_own_text_loopAround :
    let idle : Node := { kind := "do_statement" }
    let n := loopAround doublingLoop doublingLoop doublingLoop
    let m := loopAround idle { kind := "for_statement" } idle
    SameTo .c 1 n m ∧ treeLoop .c .forLoop 1 n = treeLoop .c .forLoop 1 m ∧
      treeLoop .c .forLoop 1 n = ⟨.forLoop, 1, .linear, false⟩ ∧
      treeLoop .c .whileLoop 2 doublingLoop = ⟨.whileLoop, 2, .logarithmic, true⟩ := by
  intro idle n m
  have hsame : SameTo .c 1 n m :=
    sameTo_loopAround (.anyLoop rfl rfl) (.anyLoop rfl rfl) (.anyLoop rfl rfl)
  refine ⟨hsame, (loops_judged_by_own_text .c).1 .forLoop 1 n m rfl hsame, ?_, ?_⟩
  · decide +kernel
  · decide +kernel

end BigO.Tree
