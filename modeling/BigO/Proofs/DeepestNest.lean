-- The longest nest that is read off the depths of the loops alone is a way down the
-- tree: the one to the first of the deepest loops. For in pre-order the loops around
-- a loop are around the one before it too, or are that one itself.
import BigO.Proofs.LoopForest
import BigO.Proofs.Preorder
import BigO.Tree.Nest
import Mathlib.Data.List.Sort

namespace BigO.Tree

open BigO.Loop (longer)

/-! ## Positions on the way to each other -/

section Prefixes

variable {p q r : List Nat}

/-- What leads to a position leads to any position before it that is not before the way. -/
theorem prefix_of_not_lt_of_lt (hp : p <+: r) (hpq : ¬ q < p) (hqr : q < r) : p <+: q := by
  induction p generalizing q r with
  | nil => exact List.nil_prefix
  | cons i p ih =>
    obtain ⟨rest, rfl⟩ := hp
    cases q with
    | nil => exact absurd (List.nil_lt_cons i p) hpq
    | cons j q =>
      rw [List.cons_lt_cons_iff, not_or, not_and] at hpq
      rw [List.cons_append, List.cons_lt_cons_iff] at hqr
      have hij : j = i := by omega
      subst hij
      have hqr' : q < p ++ rest := by
        rcases hqr with h | h
        · omega
        · exact h.2
      exact List.cons_prefix_cons.mpr ⟨rfl, ih (List.prefix_append p rest) (hpq.2 rfl) hqr'⟩

theorem not_prefix_of_lt (h : p < q) : ¬ q <+: p :=
  fun hqp => hqp.le h

/-- Of two positions on one way the smaller leads to the greater. -/
theorem prefix_of_lt_on_way (hp : p <+: r) (hq : q <+: r) (hpq : p < q) : p <+: q := by
  rcases List.prefix_or_prefix_of_prefix hp hq with h | h
  · exact h
  · exact absurd h (not_prefix_of_lt hpq)

theorem inits_rise (p : List Nat) : p.inits.Pairwise (· < ·) := by
  induction p with
  | nil => simp
  | cons i p ih =>
    rw [List.inits_cons, List.pairwise_cons, List.pairwise_map]
    refine ⟨?_, ih.imp fun h => List.cons_lt_cons_iff.mpr (.inr ⟨rfl, h⟩)⟩
    intro q hq
    obtain ⟨s, -, rfl⟩ := List.mem_map.mp hq
    exact List.nil_lt_cons ..

end Prefixes

/-- Where the elements that a test holds for come first, they are taken from the front. -/
theorem filter_eq_take {α : Type} {p : α → Bool} {xs : List α}
    (h : xs.Pairwise fun a b => p b = true → p a = true) :
    xs.filter p = xs.take (xs.filter p).length := by
  induction xs with
  | nil => rfl
  | cons a xs ih =>
    obtain ⟨hhead, htail⟩ := List.pairwise_cons.mp h
    by_cases ha : p a = true
    · rw [List.filter_cons_of_pos ha, List.length_cons, List.take_succ_cons, ← ih htail]
    · have hnone : (a :: xs).filter p = [] := by
        rw [List.filter_eq_nil_iff]
        intro b hb
        rcases List.mem_cons.mp hb with rfl | hb
        · exact ha
        · exact fun hpb => ha (hhead b hb hpb)
      rw [hnone]
      rfl

/-! ## Loops in pre-order -/

/-- The loops among some that stand on the way to a position, outermost first. -/
def onWay (ls : List (List Nat × TreeLoop)) (p : List Nat) : List TreeLoop :=
  (ls.filter (·.1 <+: p)).map (·.2)

/-- Loops with rising positions, each as deep as there are loops on the way to it. -/
structure InPreorder (ls : List (List Nat × TreeLoop)) : Prop where
  rise : ls.Pairwise fun v w => v.1 < w.1
  depth : ∀ w ∈ ls, w.2.depth = (onWay ls w.1).length

section Snoc

variable {ls : List (List Nat × TreeLoop)} {w : List Nat × TreeLoop}

theorem onWay_snoc_of_lt {p : List Nat} (h : p < w.1) : onWay (ls ++ [w]) p = onWay ls p := by
  simp [onWay, List.filter_append, not_prefix_of_lt h]

theorem onWay_snoc_self : onWay (ls ++ [w]) w.1 = onWay ls w.1 ++ [w.2] := by
  simp [onWay, List.filter_append]

theorem lt_of_rise (h : (ls ++ [w]).Pairwise fun v w => v.1 < w.1) {v : List Nat × TreeLoop}
    (hv : v ∈ ls) : v.1 < w.1 :=
  (List.pairwise_append.mp h).2.2 v hv w (List.mem_singleton_self w)

theorem InPreorder.init (h : InPreorder (ls ++ [w])) : InPreorder ls where
  rise := (List.pairwise_append.mp h.rise).1
  depth := by
    intro v hv
    rw [h.depth v (List.mem_append_left _ hv), onWay_snoc_of_lt (lt_of_rise h.rise hv)]

/-- The loops around a loop are the outermost ones of those on the way to the loop
before it. -/
theorem onWay_eq_take {a : List Nat × TreeLoop}
    (h : (ls ++ [a] ++ [w]).Pairwise fun v w => v.1 < w.1) :
    onWay (ls ++ [a]) w.1 =
      (onWay (ls ++ [a]) a.1).take (onWay (ls ++ [a]) w.1).length := by
  have hrise := (List.pairwise_append.mp h).1
  have haw : a.1 < w.1 := lt_of_rise h (by simp)
  have hlast : ∀ v ∈ ls ++ [a], ¬ a.1 < v.1 := by
    intro v hv
    rcases List.mem_append.mp hv with hv | hv
    · exact List.lt_asymm (lt_of_rise hrise hv)
    · rw [List.mem_singleton.mp hv]
      exact List.lt_irrefl a.1
  -- what leads to the next loop leads to this one
  have hsub : (ls ++ [a]).filter (fun v => decide (v.1 <+: w.1)) =
      ((ls ++ [a]).filter fun v => decide (v.1 <+: a.1)).filter fun v =>
        decide (v.1 <+: w.1) := by
    rw [List.filter_filter]
    apply List.filter_congr
    intro v hv
    by_cases hvw : v.1 <+: w.1
    · simp [hvw, prefix_of_not_lt_of_lt hvw (hlast v hv) haw]
    · simp [hvw]
  have hfront : ((ls ++ [a]).filter fun v => decide (v.1 <+: a.1)).Pairwise fun u v =>
      decide (v.1 <+: w.1) = true → decide (u.1 <+: w.1) = true := by
    rw [List.pairwise_filter]
    refine hrise.imp fun {u v} huv => ?_
    simp only [decide_eq_true_eq]
    intro hu hv hvw
    exact (prefix_of_lt_on_way hu hv huv).trans hvw
  unfold onWay
  rw [List.length_map, ← List.map_take]
  congr 1
  rw [hsub]
  exact filter_eq_take hfront

end Snoc

/-- The depths on the way to a loop count up from one. -/
theorem map_depth_onWay {ls : List (List Nat × TreeLoop)} (h : InPreorder ls) :
    ∀ w ∈ ls, (onWay ls w.1).map (·.depth) =
      (List.range (onWay ls w.1).length).map fun i : Nat => (i : Int) + 1 := by
  induction ls using List.reverseRecOn with
  | nil => simp
  | append_singleton ls w ih =>
    intro v hv
    rcases List.mem_append.mp hv with hv | hv
    · rw [onWay_snoc_of_lt (lt_of_rise h.rise hv)]
      exact ih h.init v hv
    · rw [List.mem_singleton.mp hv]
      have hdepth := h.depth w (by simp)
      rw [onWay_snoc_self, List.length_append, List.length_singleton] at hdepth ⊢
      have haround : (onWay ls w.1).map (·.depth) =
          (List.range (onWay ls w.1).length).map fun i : Nat => (i : Int) + 1 := by
        cases ls using List.reverseRecOn with
        | nil => rfl
        | append_singleton ls a =>
          have htake := onWay_eq_take h.rise
          have hlength := congrArg List.length htake
          rw [List.length_take] at hlength
          have hway := ih h.init a (by simp)
          rw [htake, List.map_take, hway, ← List.map_take, List.take_range, List.length_take,
            Nat.min_eq_left (by omega)]
      rw [List.map_append, haround, List.range_succ, List.map_append]
      simp [hdepth]

/-! ## The search for the longest nest -/

/-- A loop as deep as the stack has room for goes on top of those around it. -/
theorem nestStep_eq (s : List TreeLoop × List TreeLoop) (loop : TreeLoop) {n : Nat}
    (h : loop.depth = (n + 1 : Nat)) :
    nestStep s loop =
      (s.1.take n ++ [loop], longer s.2 (s.1.take n ++ [loop])) := by
  have habove : above loop.depth s.1 = s.1.take n := by
    unfold above
    rw [if_pos (by omega), h]
    simp
  rw [nestStep, habove]
  rfl

/-- After some loops the stack holds those on the way to the last, and the best nest
is the longest of the ways to all of them. -/
theorem foldl_nestStep {ls : List (List Nat × TreeLoop)} (h : InPreorder ls) :
    (ls.map (·.2)).foldl nestStep ([], []) =
      ((ls.getLast?.map fun w => onWay ls w.1).getD [],
        (ls.map fun w => onWay ls w.1).foldl longer []) := by
  induction ls using List.reverseRecOn with
  | nil => rfl
  | append_singleton ls w ih =>
    have hdepth := h.depth w (by simp)
    rw [onWay_snoc_self, List.length_append, List.length_singleton] at hdepth
    have hways : ls.map (fun v => onWay (ls ++ [w]) v.1) = ls.map fun v => onWay ls v.1 :=
      List.map_congr_left fun v hv => onWay_snoc_of_lt (lt_of_rise h.rise hv)
    have hstack : ((ls.getLast?.map fun v => onWay ls v.1).getD []).take
        (onWay ls w.1).length = onWay ls w.1 := by
      cases ls using List.reverseRecOn with
      | nil => rfl
      | append_singleton ls a =>
        rw [List.getLast?_concat]
        exact (onWay_eq_take h.rise).symm
    rw [List.map_append, List.foldl_append, ih h.init, List.map_singleton, List.foldl_cons,
      List.foldl_nil, nestStep_eq _ _ hdepth, hstack, ← onWay_snoc_self, List.map_append, hways,
      List.foldl_append, List.getLast?_concat]
    rfl

/-- The longest of some lists is the first of those that none is longer than. -/
theorem foldl_longer_first {α β : Type} (f : β → List α) (xs : List β) :
    xs = [] ∨ ∃ before x after, xs = before ++ x :: after ∧
      (∀ y ∈ before, (f y).length < (f x).length) ∧
      (∀ y ∈ after, (f y).length ≤ (f x).length) ∧
      (xs.map f).foldl longer [] = f x := by
  induction xs using List.reverseRecOn with
  | nil => exact .inl rfl
  | append_singleton xs z ih =>
    right
    have hsnoc : ((xs ++ [z]).map f).foldl longer [] =
        longer ((xs.map f).foldl longer []) (f z) := by
      simp
    rw [hsnoc]
    rcases ih with rfl | ⟨before, x, after, rfl, hbefore, hafter, hx⟩
    · exact ⟨[], z, [], rfl, by simp, by simp, BigO.Loop.longer_nil_left _⟩
    · rw [hx]
      by_cases hlt : (f x).length < (f z).length
      · refine ⟨before ++ x :: after, z, [], rfl, ?_, by simp, if_pos hlt⟩
        intro y hy
        rcases List.mem_append.mp hy with hy | hy
        · exact Nat.lt_trans (hbefore y hy) hlt
        · rcases List.mem_cons.mp hy with rfl | hy
          · exact hlt
          · exact Nat.lt_of_le_of_lt (hafter y hy) hlt
      · refine ⟨before, x, after ++ [z], by simp, hbefore, ?_, if_neg hlt⟩
        intro y hy
        rcases List.mem_append.mp hy with hy | hy
        · exact hafter y hy
        · rw [List.mem_singleton.mp hy]
          omega

/-! ## The loops of a tree -/

/-- The loops of a tree with their positions, in pre-order. -/
def locatedLoops (lang : Language) (root : Node) : List (List Nat × TreeLoop) :=
  root.located.filterMap fun w =>
    (lang.loopKind? w.2.kind).map fun k => (w.1, treeLoop lang k (loopsTo lang root w.1) w.2)

section Located

variable (lang : Language) (root : Node)

theorem mem_locatedLoops (p : List Nat) (t : TreeLoop) :
    (p, t) ∈ locatedLoops lang root ↔ ∃ n k, root.at? p = some n ∧
      lang.loopKind? n.kind = some k ∧ treeLoop lang k (loopsTo lang root p) n = t := by
  simp only [locatedLoops, List.mem_filterMap, Option.map_eq_some_iff, Prod.exists, Prod.mk.injEq]
  constructor
  · rintro ⟨q, n, hn, k, hk, rfl, ht⟩
    exact ⟨n, k, (Node.mem_located root q n).mp hn, hk, ht⟩
  · rintro ⟨n, k, hn, hk, ht⟩
    exact ⟨p, n, (Node.mem_located root p n).mpr hn, k, hk, rfl, ht⟩

theorem isLoopAt_iff (p : List Nat) :
    isLoopAt lang root p = true ↔ ∃ t, (p, t) ∈ locatedLoops lang root := by
  simp only [mem_locatedLoops, isLoopAt, Option.any_eq_true, Option.isSome_iff_exists]
  constructor
  · rintro ⟨n, hn, k, hk⟩
    exact ⟨_, n, k, hn, hk, rfl⟩
  · rintro ⟨t, n, k, hn, hk, -⟩
    exact ⟨n, hn, k, hk⟩

theorem locatedLoops_rise : (locatedLoops lang root).Pairwise fun v w => v.1 < w.1 := by
  have hnodes := List.pairwise_map.mp (Node.positions_rise root)
  refine hnodes.filterMap _ fun v w hvw a ha b hb => ?_
  obtain ⟨k, -, rfl⟩ := Option.map_eq_some_iff.mp ha
  obtain ⟨l, -, rfl⟩ := Option.map_eq_some_iff.mp hb
  exact hvw

/-- The loops on the way to a position stand at those initial parts of it that are loops. -/
theorem loopsTo_eq_length_onWay (p : List Nat) :
    loopsTo lang root p = (onWay (locatedLoops lang root) p).length := by
  have hway : p.inits.filter (isLoopAt lang root) =
      ((locatedLoops lang root).filter (·.1 <+: p)).map (·.1) := by
    refine ((inits_rise p).filter _).eq_of_mem_iff
      (List.pairwise_map.mpr ((locatedLoops_rise lang root).filter _)) fun q => ?_
    simp only [List.mem_filter, List.mem_inits, isLoopAt_iff, List.mem_map, Prod.exists,
      decide_eq_true_eq]
    constructor
    · rintro ⟨hq, t, ht⟩
      exact ⟨q, t, ⟨ht, hq⟩, rfl⟩
    · rintro ⟨q, t, ⟨ht, hq⟩, rfl⟩
      exact ⟨hq, t, ht⟩
  rw [loopsTo, List.countP_eq_length_filter, hway, onWay, List.length_map, List.length_map]

theorem inPreorder_locatedLoops : InPreorder (locatedLoops lang root) where
  rise := locatedLoops_rise lang root
  depth := by
    rintro ⟨p, t⟩ hw
    obtain ⟨n, k, -, -, rfl⟩ := (mem_locatedLoops lang root p t).mp hw
    rw [← loopsTo_eq_length_onWay]
    rfl

theorem loops_outline_eq_located (limit : Int) :
    (outline lang limit root).loops = (locatedLoops lang root).map (·.2) := by
  rw [loops_outline, flatMap_loopAt_visits, locatedLoops, List.map_filterMap]
  congr 1
  funext w
  rw [loopIn, Nat.zero_add, Option.map_map]
  rfl

end Located

/-! ## The greatest depth -/

theorem greatestDepth_eq_max? (loops : List TreeLoop) :
    greatestDepth loops = (loops.map (·.depth)).max?.getD 0 := by
  cases loops with
  | nil => rfl
  | cons l ls => rw [List.map_cons, List.max?_cons', List.foldl_map]; rfl

theorem greatestDepth_eq {loops : List TreeLoop} {l : TreeLoop} (hl : l ∈ loops)
    (h : ∀ m ∈ loops, m.depth ≤ l.depth) : greatestDepth loops = l.depth := by
  have hmax : (loops.map (·.depth)).max? = some l.depth := by
    rw [List.max?_eq_some_iff]
    refine ⟨List.mem_map_of_mem hl, fun d hd => ?_⟩
    obtain ⟨m, hm, rfl⟩ := List.mem_map.mp hd
    exact h m hm
  rw [greatestDepth_eq_max?, hmax]
  rfl

/-! ## The way to the deepest loop -/

/-- No loops where there are none, else those on the way to the first of the deepest. -/
inductive IsWayToDeepest (ls : List (List Nat × TreeLoop)) : List TreeLoop → Prop
  | noLoops : ls = [] → IsWayToDeepest ls []
  | way (before : List (List Nat × TreeLoop)) (w : List Nat × TreeLoop)
      (after : List (List Nat × TreeLoop)) :
      ls = before ++ w :: after →
      (∀ v ∈ before, v.2.depth < w.2.depth) → (∀ v ∈ after, v.2.depth ≤ w.2.depth) →
      IsWayToDeepest ls (onWay ls w.1)

section Deepest

variable {ls : List (List Nat × TreeLoop)}

theorem isWayToDeepest_longestNest (h : InPreorder ls) :
    IsWayToDeepest ls (longestNest (ls.map (·.2))) := by
  have hbest : longestNest (ls.map (·.2)) = (ls.map fun w => onWay ls w.1).foldl longer [] := by
    rw [longestNest, foldl_nestStep h]
  rw [hbest]
  rcases foldl_longer_first (fun w => onWay ls w.1) ls with
    rfl | ⟨before, w, after, hls, hbefore, hafter, hw⟩
  · exact .noLoops rfl
  · rw [hw]
    have hdepth : ∀ v ∈ before ++ w :: after, v.2.depth = (onWay ls v.1).length :=
      hls ▸ h.depth
    have hdeepest := hdepth w (by simp)
    refine .way before w after hls (fun v hv => ?_) (fun v hv => ?_)
    · have hlt := hbefore v hv
      rw [hdepth v (by simp [hv]), hdeepest]
      omega
    · have hle := hafter v hv
      rw [hdepth v (by simp [hv]), hdeepest]
      omega

/-- The way has as many loops as its last one is deep, and their depths count up to that. -/
structure CountsUp (ls : List (List Nat × TreeLoop)) (nest : List TreeLoop) : Prop where
  depths : nest.map (·.depth) = (List.range nest.length).map fun i : Nat => (i : Int) + 1
  greatest : (nest.length : Int) = greatestDepth (ls.map (·.2))
  length_le : nest.length ≤ ls.length
  eq_zero_iff : nest.length = 0 ↔ ls = []

theorem IsWayToDeepest.countsUp {nest : List TreeLoop} (h : InPreorder ls)
    (hnest : IsWayToDeepest ls nest) : CountsUp ls nest := by
  cases hnest with
  | noLoops hls =>
    subst hls
    exact ⟨rfl, rfl, Nat.le_refl 0, iff_of_true rfl rfl⟩
  | way before w after hls hbefore hafter =>
    have hw : w ∈ ls := by simp [hls]
    have hdepth := h.depth w hw
    have hdeepest : ∀ m ∈ ls.map (·.2), m.depth ≤ w.2.depth := by
      intro m hm
      obtain ⟨v, hv, rfl⟩ := List.mem_map.mp hm
      rw [hls, List.mem_append, List.mem_cons] at hv
      rcases hv with hv | rfl | hv
      · exact Int.le_of_lt (hbefore v hv)
      · exact Int.le_refl _
      · exact hafter v hv
    have hself : (onWay ls w.1).length ≠ 0 := by
      have hmem : w ∈ ls.filter (·.1 <+: w.1) := List.mem_filter.mpr ⟨hw, by simp⟩
      rw [onWay, List.length_map]
      exact Nat.ne_of_gt (List.length_pos_of_mem hmem)
    refine ⟨map_depth_onWay h w hw, ?_, ?_, iff_of_false hself (List.ne_nil_of_mem hw)⟩
    · rw [greatestDepth_eq (List.mem_map_of_mem hw) hdeepest, hdepth]
    · rw [onWay, List.length_map]
      exact List.length_filter_le _ _

end Deepest

theorem countsUp_outline (lang : Language) (limit : Int) (root : Node) :
    CountsUp (locatedLoops lang root) (longestNest (outline lang limit root).loops) := by
  have h := inPreorder_locatedLoops lang root
  rw [loops_outline_eq_located]
  exact (isWayToDeepest_longestNest h).countsUp h

/-! ## The law -/

/-- The longest nest that is found among the loops of an outline is the list of the
loops on the way from the root to the first of the deepest loops in pre-order. Their
depths are one, two and so on up to the greatest, which is zero just if there are
no loops; so the signals have a factor and a bound for each level of the depth, and
no more levels than loops. -/
theorem longestNest_outline (lang : Language) (limit : Int) (root : Node) :
    let o := outline lang limit root
    let nest := longestNest o.loops
    (o.loops = (locatedLoops lang root).map (·.2) ∧
      IsWayToDeepest (locatedLoops lang root) nest) ∧
    (nest.map (·.depth) = (List.range nest.length).map (fun i : Nat => (i : Int) + 1) ∧
      (nest.length : Int) = greatestDepth o.loops ∧ (nest.length = 0 ↔ o.loops = [])) ∧
    o.signals.depth = o.signals.factors.length ∧
      o.signals.factors.length = o.signals.bounds.length ∧
      (o.signals.bounds.length : Int) ≤ o.signals.loops := by
  intro o nest
  have hloops : o.loops = (locatedLoops lang root).map (·.2) :=
    loops_outline_eq_located lang root limit
  have hway : IsWayToDeepest (locatedLoops lang root) nest := by
    have h := isWayToDeepest_longestNest (inPreorder_locatedLoops lang root)
    rwa [← hloops] at h
  have hcount : CountsUp (locatedLoops lang root) nest := countsUp_outline lang limit root
  have hgreatest : (nest.length : Int) = greatestDepth o.loops := by
    rw [hloops]
    exact hcount.greatest
  have hnone : nest.length = 0 ↔ o.loops = [] := by
    rw [hcount.eq_zero_iff, hloops, List.map_eq_nil_iff]
  refine ⟨⟨hloops, hway⟩, ⟨hcount.depths, hgreatest, hnone⟩, ?_, ?_, ?_⟩
  · simp only [Outline.signals, List.length_map]
    exact hgreatest.symm
  · simp only [Outline.signals, List.length_map]
  · have hle : nest.length ≤ o.loops.length := by
      rw [hloops, List.length_map]
      exact hcount.length_le
    simp only [Outline.signals, List.length_map]
    exact Int.ofNat_le.mpr hle

end BigO.Tree
