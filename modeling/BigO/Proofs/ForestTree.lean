-- The signals that a parse tree of a forest gives. They are those that the text
-- gives, but for the way bounds are shown.
import BigO.Proofs.ForestText
import BigO.Structural

/-! ## Loops alone -/

namespace BigO.Signals

theorem candidates_noteLibraryCalls (s : Signals) (p : Pool) :
    (s.noteLibraryCalls p).candidates = p.candidates := by
  unfold noteLibraryCalls
  split
  · rfl
  · unfold Pool.note Pool.tag
    split <;> rfl

/-- Signals with no evidence but loops give the class of their nest. -/
theorem growth_of_loops {s : Signals} (hprogresses : s.progresses = false) (hsorts : s.sorts = [])
    (hrecursion : s.recursion = []) (h : s.Showable) (tier : Tier) (notes : List String) :
    (s.estimate h tier notes).time.growth = Nest.growth s.factors := by
  have hpool : s.pool h tier notes = addNothing tier (s.noteLibraryCalls
      (s.addLoops h tier { why := notes })) := by
    simp [pool, addProgression, addSort, addSortBesideLoop, addRecursion, worstRecursion?,
      hprogresses, hsorts, hrecursion]
  show (s.pool h tier notes).dominant.growth = _
  rw [hpool]
  unfold addLoops
  split
  · rename_i hfactors
    have hnone := candidates_noteLibraryCalls s { why := notes }
    rw [addNothing, if_pos hnone, hfactors, Pool.dominant, Pool.add, hnone]
    rfl
  · have hone := candidates_noteLibraryCalls s
      (Pool.add { why := notes } (Nest.growth s.factors) (s.loopConfidence tier) (s.loopReason h))
    rw [addNothing, if_neg (by rw [hone]; simp [Pool.add]), Pool.dominant, hone]
    rfl

end BigO.Signals

namespace BigO.Loop.Forest

open BigO.Text BigO.Tree BigO.Tree.Node BigO.Scan

/-! ## Plain trees -/

mutual

/-- Without loops in it, a tree has its leaves for tokens. -/
theorem tokens_of_isPlain {lang : Language} :
    ∀ n : Node, IsPlain lang n → tokens lang n = leaves [n]
  | ⟨kind, bytes, hasError, [], fields, detached⟩, _ => by
    simp [tokens, leaves, forestNodes, nodes]
  | ⟨kind, bytes, hasError, m :: ms, fields, detached⟩, h => by
    have hchildren : ∀ k ∈ m :: ms, IsPlain lang k := by
      intro k hk l hl
      exact h l (mem_nodes_of_child hk hl)
    rw [tokens, forestTokens_of_isPlain (m :: ms) hchildren]
    simp [leaves, forestNodes, nodes]

theorem forestTokens_of_isPlain {lang : Language} :
    ∀ ns : List Node, (∀ n ∈ ns, IsPlain lang n) → forestTokens lang ns = leaves ns
  | [], _ => rfl
  | n :: ns, h => by
    have hn := h n (List.mem_cons_self ..)
    have hkind : lang.loopKind? n.kind = none := (hn n (mem_nodes_self n)).1
    rw [forestTokens, hkind, tokens_of_isPlain n hn,
      forestTokens_of_isPlain ns fun k hk => h k (List.mem_cons_of_mem _ hk), leaves_cons n ns]
    rfl

end

theorem loopAt_of_isPlainKind {lang : Language} (w : Node × Nat)
    (h : IsPlainKind lang w.1.kind) : loopAt lang w = [] := by
  simp [loopAt, h.1]

theorem recursionAt_of_isPlainKind {lang : Language} (w : Node × Nat)
    (h : IsPlainKind lang w.1.kind) : recursionAt lang w = [] := by
  simp [recursionAt, h.2]

section Visits

-- what the nodes add, where those of plain kinds add nothing
variable {α : Type} {lang : Language} {g : Node × Nat → List α}
  (hg : ∀ w, IsPlainKind lang w.1.kind → g w = [])

include hg

theorem flatMap_visits_of_isPlain {n : Node} (h : IsPlain lang n) (depth : Nat) :
    (visits lang depth n).flatMap g = [] := by
  rw [List.flatMap_eq_nil_iff]
  intro w hw
  exact hg w (h w.1 (mem_nodes_of_mem_visits hw))

theorem flatMap_forestVisits_of_isPlain {ns : List Node} (h : ∀ n ∈ ns, IsPlain lang n)
    (depth : Nat) : (forestVisits lang depth ns).flatMap g = [] := by
  rw [List.flatMap_eq_nil_iff]
  intro w hw
  obtain ⟨n, hn, hw⟩ := mem_forestNodes.mp (mem_forestNodes_of_mem_visits hw)
  exact hg w (h n hn w.1 hw)

/-- Of a loop only the node itself and what is in its body count. -/
theorem flatMap_visits_loop {n body : Node} {before after : List Node}
    (hloop : (lang.loopKind? n.kind).isSome = true)
    (hchildren : n.children = before ++ body :: after)
    (hplain : ∀ m ∈ before ++ after, IsPlain lang m) (hbody : IsPlainKind lang body.kind)
    (depth : Nat) :
    (visits lang depth n).flatMap g =
      g (n, depth) ++ (forestVisits lang (depth + 1) body.children).flatMap g := by
  have hdepth : childDepth lang n depth = depth + 1 := if_pos hloop
  have hdepthBody : childDepth lang body (depth + 1) = depth + 1 := by
    simp [childDepth, hbody.1]
  have hbefore := flatMap_forestVisits_of_isPlain hg
    (fun m hm => hplain m (List.mem_append_left after hm)) (depth + 1)
  have hafter := flatMap_forestVisits_of_isPlain hg
    (fun m hm => hplain m (List.mem_append_right before hm)) (depth + 1)
  rw [visits_eq, hdepth, hchildren, forestVisits_append, forestVisits,
    visits_eq lang (depth + 1) body, hdepthBody]
  simp only [List.flatMap_append, List.flatMap_cons]
  rw [hbefore, hafter, hg (body, depth + 1) hbody]
  simp

end Visits

/-! ## One loop -/

/-- The loop that the walk makes of a bound at a depth. -/
def treeLoopAt (depth : Nat) (b : Bound) : TreeLoop :=
  ⟨.forLoop, depth + 1, b.factor, false⟩

theorem loopKind_for (lang : Language) : lang.loopKind? "for_statement" = some .forLoop := by
  cases lang <;> decide

/-- The loop that the walk makes of a loop node is the one it was made for. -/
theorem treeLoop_eq {lang : Language} {b : Bound} {inner : Forest} {n body : Node}
    {before after : List Node} (hchildren : n.children = before ++ body :: after)
    (hbody : n.fields.lookup "body" = some before.length)
    (hheader : forestTokens lang (before ++ after) = headerTokens lang b)
    (htokens : forestTokens lang [body] = bodyTokens lang inner) (depth : Nat) :
    treeLoop lang .forLoop (depth + 1) n = treeLoopAt depth b := by
  have hheaderOf : headerOf n = before ++ after := by
    simp [headerOf, hbody, hchildren, List.eraseIdx_append_of_length_le]
  have hbodyOf : bodyOf n = [body] := by
    simp [bodyOf, hbody, hchildren]
  rw [treeLoop, hheaderOf, hbodyOf, hheader, htokens]
  simp [treeLoopAt, not_scales_tokens, loopBound_headerTokens, Bound.factor]

/-! ## All the loops -/

/-- The loops of a forest in the order of the source. -/
def treeLoops : Nat → Forest → List TreeLoop
  | _, empty => []
  | depth, loop b inner rest =>
    treeLoopAt depth b :: (treeLoops (depth + 1) inner ++ treeLoops depth rest)

/-- Trees that hold a forest have its tokens beside the loops. -/
theorem Holds.forestTokens {lang : Language} {f : Forest} {ts : List (List Char)}
    {ns : List Node} (h : Holds lang f ts ns) : Tree.forestTokens lang ns = ts := by
  induction h with
  | nil => rfl
  | @aside f ts n ns hn _ ih =>
    have hkind : lang.loopKind? n.kind = none := (hn n (mem_nodes_self n)).1
    rw [Tree.forestTokens, hkind, ih, tokens_of_isPlain n hn]
    rfl
  | loop before body after hkind _ _ _ _ _ _ _ _ ih =>
    rw [Tree.forestTokens, hkind, loopKind_for, ih]
    rfl

/-- The body of a loop has something in it. -/
theorem Holds.ne_nil {lang : Language} {f : Forest} {ns : List Node}
    (h : Holds lang f (bodyTokens lang f) ns) : ns ≠ [] := by
  rintro rfl
  generalize hts : bodyTokens lang f = ts at h
  cases h
  cases lang <;> exact absurd hts (by decide)

theorem forestTokens_body {lang : Language} {inner : Forest} {body : Node}
    (hkind : IsPlainKind lang body.kind)
    (h : Holds lang inner (bodyTokens lang inner) body.children) :
    Tree.forestTokens lang [body] = bodyTokens lang inner := by
  rcases body with ⟨kind, bytes, hasError, children, fields, detached⟩
  obtain ⟨m, ms, rfl⟩ := List.exists_cons_of_ne_nil h.ne_nil
  rw [Tree.forestTokens, hkind.1, tokens, h.forestTokens]
  simp [Tree.forestTokens]

theorem Holds.loops {lang : Language} {f : Forest} {ts : List (List Char)} {ns : List Node}
    (h : Holds lang f ts ns) :
    ∀ depth, (forestVisits lang depth ns).flatMap (loopAt lang) = f.treeLoops depth := by
  induction h with
  | nil => exact fun _ => rfl
  | aside hn _ ih =>
    intro depth
    rw [forestVisits, List.flatMap_append,
      flatMap_visits_of_isPlain loopAt_of_isPlainKind hn, ih depth]
    rfl
  | @loop b inner rest ts n ns before body after hfor hchildren hfield hplain hheader hbody
      hinner _ ihi ihr =>
    intro depth
    have hkind : lang.loopKind? n.kind = some .forLoop := by rw [hfor, loopKind_for]
    have htokens : Tree.forestTokens lang (before ++ after) = headerTokens lang b := by
      rw [forestTokens_of_isPlain _ hplain, hheader]
    have hloop : loopAt lang (n, depth) = [treeLoopAt depth b] := by
      have := treeLoop_eq hchildren hfield htokens (forestTokens_body hbody hinner) depth
      simp [loopAt, hkind, this]
    rw [forestVisits, List.flatMap_append, flatMap_visits_loop loopAt_of_isPlainKind
      (by rw [hkind]; rfl) hchildren hplain hbody, hloop, ihi (depth + 1), ihr depth]
    simp [treeLoops]

theorem Holds.recursion {lang : Language} {f : Forest} {ts : List (List Char)} {ns : List Node}
    (h : Holds lang f ts ns) :
    ∀ depth, (forestVisits lang depth ns).flatMap (recursionAt lang) = [] := by
  induction h with
  | nil => exact fun _ => rfl
  | aside hn _ ih =>
    intro depth
    rw [forestVisits, List.flatMap_append,
      flatMap_visits_of_isPlain recursionAt_of_isPlainKind hn, ih depth]
    rfl
  | loop before body after hfor hchildren _ hplain _ hbody _ _ ihi ihr =>
    intro depth
    have hfunction : lang.isFunctionKind "for_statement" = false := by cases lang <;> decide
    rw [forestVisits, List.flatMap_append, flatMap_visits_loop recursionAt_of_isPlainKind
      (by rw [hfor, loopKind_for]; rfl) hchildren hplain hbody, ihi (depth + 1), ihr depth]
    simp [recursionAt, hfor, hfunction]

/-! ## The longest nest -/

/-- What has been met between two states of the search for the longest nest:
the loops of a forest. -/
structure Nests (depth : Nat) (f : Forest) (s t : List TreeLoop × List TreeLoop) : Prop where
  best : t.2 = longer s.2 (s.1.take depth ++ f.path treeLoopAt depth)
  around : t.1.take depth = s.1.take depth
  deep : depth ≤ t.1.length
  height : t.1.length ≤ t.2.length

theorem nestStep_treeLoopAt (s : List TreeLoop × List TreeLoop) (depth : Nat) (b : Bound) :
    nestStep s (treeLoopAt depth b) =
      (s.1.take depth ++ [treeLoopAt depth b],
        longer s.2 (s.1.take depth ++ [treeLoopAt depth b])) := by
  have habove : above (treeLoopAt depth b).depth s.1 = s.1.take depth := by
    unfold above treeLoopAt
    rw [if_pos (by simp only; omega)]
    simp
  rw [nestStep, habove]
  rfl

/-- The loops of a forest leave what is open around it, and show its nests. -/
theorem nests_treeLoops (f : Forest) :
    ∀ (depth : Nat) (s : List TreeLoop × List TreeLoop), depth ≤ s.1.length →
      s.1.length ≤ s.2.length → Nests depth f s ((f.treeLoops depth).foldl nestStep s) := by
  induction f with
  | empty =>
    intro depth s hdeep hheight
    refine ⟨?_, rfl, hdeep, hheight⟩
    rw [path, List.append_nil, longer_eq_left (by rw [List.length_take]; omega)]
    rfl
  | loop b inner rest ihi ihr =>
    intro depth s hdeep hheight
    rw [treeLoops, List.foldl_cons, List.foldl_append, nestStep_treeLoopAt]
    have hlength : (s.1.take depth ++ [treeLoopAt depth b]).length = depth + 1 := by
      rw [List.length_append, List.length_take, List.length_singleton]
      omega
    have hinner := ihi (depth + 1) (s.1.take depth ++ [treeLoopAt depth b],
      longer s.2 (s.1.take depth ++ [treeLoopAt depth b])) (by simp only; omega)
      (by simp only [length_longer]; omega)
    generalize (inner.treeLoops (depth + 1)).foldl nestStep _ = t at hinner ⊢
    have hrest := ihr depth t (by have := hinner.deep; omega) hinner.height
    -- the loops around are the first ones of the stack that the loop itself ends
    have haround : t.1.take depth = s.1.take depth := by
      have hdepth : (s.1.take depth).length = depth := by
        rw [List.length_take]
        omega
      have htake := congrArg (List.take depth) hinner.around
      rw [List.take_take, List.take_take, Nat.min_eq_left (Nat.le_succ depth)] at htake
      rw [htake, List.take_append_of_le_length (Nat.le_of_eq hdepth.symm), List.take_take,
        Nat.min_self]
    refine ⟨?_, hrest.around.trans haround, hrest.deep, hrest.height⟩
    have hbest := hinner.best
    simp only at hbest
    rw [List.take_of_length_le (Nat.le_of_eq hlength)] at hbest
    rw [hrest.best, haround, hbest, path, longer_nest]

theorem longestNest_treeLoops (f : Forest) : longestNest (f.treeLoops 0) = f.path treeLoopAt 0 := by
  have h := (nests_treeLoops f 0 ([], []) (Nat.le_refl 0) (Nat.le_refl 0)).best
  rw [longestNest, h, longer_nil_left]
  rfl

theorem length_treeLoops (depth : Nat) (f : Forest) : (f.treeLoops depth).length = f.count := by
  induction f generalizing depth with
  | empty => rfl
  | loop b inner rest ihi ihr =>
    rw [treeLoops, List.length_cons, List.length_append, ihi, ihr, count]
    omega

theorem progresses_treeLoops (depth : Nat) (f : Forest) :
    (f.treeLoops depth).any (·.progresses) = false := by
  induction f generalizing depth with
  | empty => rfl
  | loop b inner rest ihi ihr =>
    rw [treeLoops, List.any_cons, List.any_append, ihi, ihr]
    rfl

/-- The greatest depth of the loops of a forest, from any depth on. -/
theorem foldl_max_treeLoops (f : Forest) :
    ∀ (depth : Nat) (d : Int), (depth : Int) ≤ d →
      (f.treeLoops depth).foldl (fun d l => max d l.depth) d = max d (depth + f.height) := by
  induction f with
  | empty =>
    intro depth d hd
    rw [height, treeLoops, List.foldl_nil]
    omega
  | loop b inner rest ihi ihr =>
    intro depth d hd
    rw [treeLoops, List.foldl_cons, List.foldl_append]
    have hloop : (treeLoopAt depth b).depth = depth + 1 := rfl
    rw [hloop, ihi (depth + 1) _ (by omega), ihr depth _ (by omega), height]
    omega

theorem greatestDepth_treeLoops (f : Forest) : greatestDepth (f.treeLoops 0) = f.height := by
  cases f with
  | empty => rfl
  | loop b inner rest =>
    have h := foldl_max_treeLoops (loop b inner rest) 0 0 (Int.le_refl 0)
    rw [treeLoops, List.foldl_cons] at h
    rw [treeLoops, greatestDepth]
    have hfirst : max 0 (treeLoopAt 0 b).depth = (treeLoopAt 0 b).depth := by
      rfl
    rw [← hfirst, h]
    omega

/-! ## Signals -/

/-- The tree of a forest gives the loops of the forest and no other evidence. -/
theorem signals_tree {lang : Language} {unit : Nat} {f : Forest} {root : Node}
    (h : IsTreeOf lang (f.source lang unit) f root) (limit : Int) :
    ∃ calls, (Tree.outline lang limit root).signals =
      { language := lang.name
        loops := f.count
        depth := f.height
        bounds := f.deepest.map fun b => (treeLoopAt 0 b).label
        factors := f.deepest.map Bound.factor
        libraryCalls := calls } := by
  have hroot : childDepth lang root 0 = 0 := by simp [childDepth, h.plain.1]
  have hloops : (Tree.outline lang limit root).loops = f.treeLoops 0 := by
    rw [loops_outline, visits_eq, hroot, List.flatMap_cons, h.holds.loops,
      loopAt_of_isPlainKind _ h.plain]
    rfl
  have hrecursion : (Tree.outline lang limit root).recursion = [] := by
    rw [recursion_outline, visits_eq, hroot, List.flatMap_cons, h.holds.recursion,
      recursionAt_of_isPlainKind _ h.plain]
    rfl
  have hsorts : (Tree.outline lang limit root).sorts = [] := by
    refine sorts_outline_eq_nil lang limit fun n hn => ?_
    rw [Tree.holds, List.any_eq_false]
    intro s hs
    have hcall : ¬ HasCall n.text :=
      fun hc => not_hasCall_source lang unit f (hc.of_isInfix (h.within n hn))
    rw [not_occurs_sortCall hcall (List.mem_append_right _ hs)]
    decide
  have hlabels : (f.path treeLoopAt 0).map (·.label) =
      f.deepest.map fun b => (treeLoopAt 0 b).label := by
    refine map_path (fun level b => ?_) 0 f
    rfl
  have hfactors : (f.path treeLoopAt 0).map (·.factor) = f.deepest.map Bound.factor := by
    refine map_path (fun level b => ?_) 0 f
    rfl
  refine ⟨(Tree.outline lang limit root).libraryCalls, ?_⟩
  rw [Outline.signals, language_outline, hloops, hrecursion, hsorts, longestNest_treeLoops,
    greatestDepth_treeLoops, length_treeLoops, progresses_treeLoops, hlabels, hfactors]

/-! ## Agreement -/

/-- On every forest the text and the parse tree lead to the same number of loops,
the same depth, the same factors and the same class, and these are those of the
forest: its number of loops, its height, the factors on the way to its first
deepest loop, and the class of their nest. -/
theorem text_and_tree_agree {lang : Language} {unit : Nat}
    (hunit : 0 < unit ∨ lang.profile.usesBraces = true) (f : Forest) {root : Node}
    (hroot : IsTreeOf lang (f.source lang unit) f root) (limit : Int) :
    let text := Lexical.signals lang (String.ofList (f.source lang unit))
    let tree := (Tree.outline lang limit root).signals
    let byText := Lexical.estimate lang (String.ofList (f.source lang unit))
    let byTree := Structural.estimateOf (Tree.outline lang limit root)
    (text.loops = tree.loops ∧ tree.loops = f.count) ∧
      (text.depth = tree.depth ∧ tree.depth = f.height) ∧
      (text.factors = tree.factors ∧ tree.factors = f.deepest.map Bound.factor) ∧
      byText.time.growth = byTree.time.growth ∧
      byTree.time.growth = Nest.growth (f.deepest.map Bound.factor) := by
  have htext := signals_source hunit f
  obtain ⟨calls, htree⟩ := signals_tree hroot limit
  have hbyText : (Lexical.estimate lang (String.ofList (f.source lang unit))).time.growth =
      Nest.growth (f.deepest.map Bound.factor) := by
    rw [Lexical.estimate, Signals.growth_of_loops (by rw [htext]) (by rw [htext]) (by rw [htext]),
      htext]
  have hbyTree : (Structural.estimateOf (Tree.outline lang limit root)).time.growth =
      Nest.growth (f.deepest.map Bound.factor) := by
    rw [Structural.estimateOf, Signals.growth_of_loops (by rw [htree]) (by rw [htree])
      (by rw [htree]), htree]
  refine ⟨⟨?_, ?_⟩, ⟨?_, ?_⟩, ⟨?_, ?_⟩, hbyText.trans hbyTree.symm, hbyTree⟩
  · rw [htext, htree]
  · rw [htree]
  · rw [htext, htree]
  · rw [htree]
  · rw [htext, htree]
  · rw [htree]

/-! ## A sample -/

/-- A node with a text of its own. -/
def nodeOf (kind text : String) (children : List Node) : Node :=
  { kind := kind, bytes := text.toList.map fun c => UInt8.ofNat c.toNat, children := children }

/-- A loop over `n` with one of ten turns inside it, and a loop over `m` after them. -/
def sampleForest : Forest :=
  loop ⟨['n'], by decide, by decide⟩ (loop ⟨['1', '0'], by decide, by decide⟩ empty empty)
    (loop ⟨['m'], by decide, by decide⟩ empty empty)

def sampleHeader (bound : String) : List Node :=
  [nodeOf "for" "for" [], nodeOf "identifier" "i" [], nodeOf "in" "in" [],
    nodeOf "call" ("range(" ++ bound ++ ")")
      [nodeOf "identifier" "range" [],
        nodeOf "argument_list" ("(" ++ bound ++ ")")
          [nodeOf "(" "(" [], nodeOf "identifier" bound [], nodeOf ")" ")" []]],
    nodeOf ":" ":" []]

def sampleLoop (text bound : String) (body : Node) : Node :=
  { nodeOf "for_statement" text (sampleHeader bound ++ [body]) with fields := [("body", 5)] }

def samplePass : Node :=
  nodeOf "pass_statement" "pass" [nodeOf "pass" "pass" []]

/-- The parse tree of the sample, indented by one column a level. -/
def sampleTree : Node :=
  let pass := nodeOf "block" "pass" [samplePass]
  let inner := sampleLoop "for i in range(10):\n  pass" "10" pass
  let block := nodeOf "block" "for i in range(10):\n  pass" [inner]
  let first := sampleLoop "for i in range(n):\n for i in range(10):\n  pass" "n" block
  let second := sampleLoop "for i in range(m):\n pass" "m" pass
  nodeOf "module" (String.ofList (sampleForest.source .python 1)) [first, second]

theorem isTreeOf_sampleTree :
    IsTreeOf .python (sampleForest.source .python 1) sampleForest sampleTree where
  plain := by decide
  holds := by
    have hplain : IsPlain .python samplePass := by decide
    have hpass : Holds .python empty (bodyTokens .python empty) [samplePass] := .aside hplain .nil
    refine .loop (sampleHeader "n") _ [] rfl rfl rfl (by decide) (by decide) (by decide) ?_ ?_
    · exact .loop (sampleHeader "10") _ [] rfl rfl rfl (by decide) (by decide) (by decide)
        hpass .nil
    · exact .loop (sampleHeader "m") _ [] rfl rfl rfl (by decide) (by decide) (by decide)
        hpass .nil
  within := by decide +kernel

/-- The sample has three loops, two deep, by its text and by its tree. -/
theorem text_and_tree_agree_sampleTree :
    IsTreeOf .python (sampleForest.source .python 1) sampleForest sampleTree ∧
      (Lexical.signals .python (String.ofList (sampleForest.source .python 1))).loops = 3 ∧
      (Tree.outline .python 80 sampleTree).signals.loops = 3 ∧
      (Tree.outline .python 80 sampleTree).signals.depth = 2 := by
  obtain ⟨⟨hloops, hcount⟩, ⟨-, hheight⟩, -⟩ :=
    text_and_tree_agree (.inl (by decide)) sampleForest isTreeOf_sampleTree 80
  exact ⟨isTreeOf_sampleTree, hloops.trans hcount, hcount, hheight⟩

end BigO.Loop.Forest
