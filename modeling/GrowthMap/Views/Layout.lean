import GrowthMap.Lib.Rose
import Mathlib.Algebra.Order.Field.Rat
import Mathlib.Tactic.Linarith
import Mathlib.Tactic.Ring

/- The layout of the tree on the map (components/MindMap.tsx, `treeToFlow` in tree mode).

   Two recursions meet: `calcWidth` gives each subtree a width from the leaves up,
   `place` hands the width out from the root down. Each node gets the strip of its
   subtree's width centred on it: the strips of its children lie in it side by side
   (`children_strips`), so everything of a subtree stays in its strip
   (`spots_in_strip`), and two nodes of one depth are in two strips that are apart
   (`spots_apart`). The places of nodes that are not shown are worked out all the
   same, so what is shown does not move anything (`place_nodes`).

   Positions are rationals; of a node only what its place and its edges need is kept. -/
namespace GrowthMap.Layout

structure GNode where
  id : String
  isMainline : Bool

abbrev Tree := Rose GNode

def nodeW : Rat := 220
def nodeGap : Rat := 40
def levelH : Rat := 150

structure FlowNode where
  id : String
  x : Rat
  y : Rat

structure FlowEdge where
  source : String
  target : String
  isMainline : Bool

/-- The nodes and the edges pushed so far. -/
structure Flow where
  nodes : List FlowNode
  edges : List FlowEdge

def Flow.append (f g : Flow) : Flow := ⟨f.nodes ++ g.nodes, f.edges ++ g.edges⟩

mutual

def calcWidth : Tree → Rat
  | .node _ children => if children.isEmpty then nodeW else widths children + (children.length - 1) * nodeGap

/-- `children.reduce((sum, c) => sum + calcWidth(c), 0)` -/
def widths : List Tree → Rat
  | [] => 0
  | c :: children => calcWidth c + widths children

end

/-- `totalWidth` -/
def totalWidth (children : List Tree) : Rat := widths children + (children.length - 1) * nodeGap

section Place

-- `visibleSet`, when there is one
variable (visibleSet : Option (String → Bool))

/-- `!visibleSet || visibleSet.has(id)` -/
def shown (id : String) : Bool := visibleSet.all (fun s => s id)

mutual

def place : Tree → Rat → Rat → Flow
  | .node a children, x, y =>
    if shown visibleSet a.id then
      Flow.append ⟨[⟨a.id, x, y⟩], []⟩
        (placeAll (some a.id) children (x + nodeW / 2 - totalWidth children / 2) (y + levelH))
    else placeAll none children (x + nodeW / 2 - totalWidth children / 2) (y + levelH)

/-- The loop over the children from `cx` on; under a node that is shown it pushes their edges. -/
def placeAll (parent : Option String) : List Tree → Rat → Rat → Flow
  | [], _, _ => ⟨[], []⟩
  | c :: children, cx, y =>
    let cw := calcWidth c
    let childX := cx + cw / 2 - nodeW / 2
    let edges := match parent with
      | some id => if shown visibleSet c.label.id then [⟨id, c.label.id, c.label.isMainline⟩] else []
      | none => []
    Flow.append ⟨[], edges⟩ (Flow.append (place c childX y) (placeAll parent children (cx + cw + nodeGap) y))

end

/-- `treeToFlow` in tree mode. -/
def treeToFlow (root : Tree) : Flow := place visibleSet root 400 0

end Place

/-! Widths -/

theorem widths_nonneg {children : List Tree} (h : ∀ c ∈ children, nodeW ≤ calcWidth c) : children.length * nodeW ≤ widths children := by
  induction children with
  | nil => simp [widths]
  | cons c children ih =>
    have hc := h c List.mem_cons_self
    have hrest := ih fun d hd => h d (List.mem_cons_of_mem _ hd)
    rw [widths, List.length_cons]
    push_cast
    linarith

theorem nodeW_le_calcWidth (t : Tree) : nodeW ≤ calcWidth t := by
  induction t using Rose.induction with
  | h a children ih =>
    cases children with
    | nil => simp [calcWidth]
    | cons c children =>
      have hc := ih c List.mem_cons_self
      have hrest := widths_nonneg fun d hd => ih d (List.mem_cons_of_mem _ hd)
      have hlen : (0 : Rat) ≤ children.length := Nat.cast_nonneg _
      simp only [calcWidth, widths, List.isEmpty_cons, List.length_cons, Nat.cast_add, Nat.cast_one, Bool.false_eq_true, if_false]
      simp only [nodeW, nodeGap] at hc hrest ⊢
      linarith

theorem calcWidth_node (a : GNode) {children : List Tree} (h : children ≠ []) :
    calcWidth (.node a children) = totalWidth children := by
  rw [calcWidth, totalWidth, if_neg (by simpa using h)]

/-! Strips -/

/-- A subtree with its root at `x` and at a depth: its strip is centred on the root. -/
structure Spot where
  tree : Tree
  x : Rat
  depth : Nat

def Spot.left (s : Spot) : Rat := s.x + nodeW / 2 - calcWidth s.tree / 2
def Spot.right (s : Spot) : Rat := s.x + nodeW / 2 + calcWidth s.tree / 2

/-- The places that the loop gives to children from `cx` on. -/
def childSpots (depth : Nat) : List Tree → Rat → List Spot
  | [], _ => []
  | c :: children, cx => ⟨c, cx + calcWidth c / 2 - nodeW / 2, depth⟩ :: childSpots depth children (cx + calcWidth c + nodeGap)

def Spot.children (s : Spot) : List Spot :=
  childSpots (s.depth + 1) s.tree.children (s.x + nodeW / 2 - totalWidth s.tree.children / 2)

theorem Spot.left_le (s : Spot) : s.left ≤ s.x := by
  have := nodeW_le_calcWidth s.tree
  simp only [Spot.left]
  linarith

theorem Spot.le_right (s : Spot) : s.x + nodeW ≤ s.right := by
  have := nodeW_le_calcWidth s.tree
  simp only [Spot.right]
  linarith

/-- The strips of the children fill the total width from `cx` on. -/
theorem childSpots_between (depth : Nat) (children : List Tree) (cx : Rat) :
    ∀ s ∈ childSpots depth children cx, cx ≤ s.left ∧ s.right ≤ cx + totalWidth children := by
  induction children generalizing cx with
  | nil => simp [childSpots]
  | cons c children ih =>
    have hwidth : totalWidth (c :: children) = calcWidth c + nodeGap + totalWidth children := by
      simp only [totalWidth, widths, List.length_cons, Nat.cast_add, Nat.cast_one]
      ring
    have hc := nodeW_le_calcWidth c
    intro s hs
    rcases List.mem_cons.mp hs with rfl | hs
    · have hrest : -nodeGap ≤ totalWidth children := by
        have hw := widths_nonneg (fun d _ => nodeW_le_calcWidth d : ∀ d ∈ children, nodeW ≤ calcWidth d)
        have hlen : (0 : Rat) ≤ children.length := Nat.cast_nonneg _
        simp only [totalWidth, nodeW, nodeGap] at hw ⊢
        linarith
      simp only [Spot.left, Spot.right]
      constructor <;> linarith
    · obtain ⟨hl, hr⟩ := ih _ s hs
      simp only [nodeW, nodeGap] at *
      constructor <;> linarith

theorem childSpots_apart (depth : Nat) (children : List Tree) (cx : Rat) :
    (childSpots depth children cx).Pairwise (fun s s' => s.right + nodeGap ≤ s'.left) := by
  induction children generalizing cx with
  | nil => exact .nil
  | cons c children ih =>
    refine .cons (fun s hs => ?_) (ih _)
    have := (childSpots_between depth children _ s hs).1
    simp only [Spot.right]
    linarith

theorem children_between (s : Spot) : ∀ c ∈ s.children, s.left ≤ c.left ∧ c.right ≤ s.right := by
  obtain ⟨⟨a, children⟩, x, depth⟩ := s
  intro c hc
  have hne : children ≠ [] := by
    rintro rfl
    cases hc
  have hbetween := childSpots_between _ _ _ c hc
  simp only [Rose.children_node] at hbetween
  simp only [Spot.left, Spot.right, calcWidth_node a hne] at hbetween ⊢
  constructor <;> linarith

/-! Every node of a tree -/

mutual

/-- Every subtree with the place of its root, in the order of `place`. -/
def spots : Tree → Rat → Nat → List Spot
  | .node a children, x, depth =>
    ⟨.node a children, x, depth⟩ :: spotsAll children (x + nodeW / 2 - totalWidth children / 2) (depth + 1)

def spotsAll : List Tree → Rat → Nat → List Spot
  | [], _, _ => []
  | c :: children, cx, depth =>
    spots c (cx + calcWidth c / 2 - nodeW / 2) depth ++ spotsAll children (cx + calcWidth c + nodeGap) depth

end

/-- The spots of the subtree at `s`. -/
def Spot.below (s : Spot) : List Spot := spots s.tree s.x s.depth

theorem spotsAll_eq (children : List Tree) (cx : Rat) (depth : Nat) :
    spotsAll children cx depth = (childSpots depth children cx).flatMap Spot.below := by
  induction children generalizing cx with
  | nil => rfl
  | cons c children ih => rw [spotsAll, childSpots, List.flatMap_cons, ih, Spot.below]

theorem below_eq (s : Spot) : s.below = s :: s.children.flatMap Spot.below := by
  obtain ⟨⟨a, children⟩, x, depth⟩ := s
  rw [Spot.below, spots, spotsAll_eq]
  rfl

theorem childSpots_tree (depth : Nat) (children : List Tree) (cx : Rat) :
    (childSpots depth children cx).map Spot.tree = children := by
  induction children generalizing cx with
  | nil => rfl
  | cons c children ih => rw [childSpots, List.map_cons, ih]

theorem childSpots_depth (depth : Nat) (children : List Tree) (cx : Rat) :
    ∀ s ∈ childSpots depth children cx, s.depth = depth := by
  induction children generalizing cx with
  | nil =>
    intro s hs
    cases hs
  | cons c children ih =>
    intro s hs
    cases hs with
    | head => rfl
    | tail _ hs => exact ih _ s hs

theorem Spot.children_tree (s : Spot) : s.children.map Spot.tree = s.tree.children := childSpots_tree _ _ _

theorem Spot.induction {P : Spot → Prop} (h : ∀ s, (∀ c ∈ s.children, P c) → P s) (s : Spot) : P s := by
  obtain ⟨t, x, depth⟩ := s
  induction t using Rose.induction generalizing x depth with
  | h a children ih =>
    apply h
    intro c hc
    have htree : c.tree ∈ children := by
      have hmem := List.mem_map_of_mem (f := Spot.tree) hc
      rwa [Spot.children_tree] at hmem
    exact ih c.tree htree c.x c.depth

theorem below_trees (s : Spot) : s.below.map Spot.tree = s.tree.subtrees := by
  induction s using Spot.induction with
  | h s ih =>
    rw [below_eq, List.map_cons, List.map_flatMap, Rose.subtrees_eq, ← s.children_tree, List.flatMap_map]
    exact congrArg _ (List.flatMap_congr ih)

theorem spots_in_strip (s : Spot) : ∀ d ∈ s.below, s.left ≤ d.left ∧ d.right ≤ s.right ∧ s.depth ≤ d.depth := by
  induction s using Spot.induction with
  | h s ih =>
    intro d hd
    rw [below_eq] at hd
    cases hd with
    | head => exact ⟨le_refl _, le_refl _, le_refl _⟩
    | tail _ hd =>
      obtain ⟨c, hc, hd⟩ := List.mem_flatMap.mp hd
      obtain ⟨hl, hr, hdepth⟩ := ih c hc d hd
      obtain ⟨hcl, hcr⟩ := children_between s c hc
      have hcd : c.depth = s.depth + 1 := childSpots_depth _ _ _ c hc
      exact ⟨hcl.trans hl, hr.trans hcr, by omega⟩

theorem children_below {root : Spot} (s : Spot) (hs : s ∈ root.below) : s.children ⊆ root.below := by
  induction root using Spot.induction with
  | h root ih =>
    rw [below_eq] at hs ⊢
    intro c hc
    apply List.mem_cons_of_mem
    cases hs with
    | head =>
      refine List.mem_flatMap.mpr ⟨c, hc, ?_⟩
      rw [below_eq]
      exact List.mem_cons_self
    | tail _ hs =>
      obtain ⟨r, hr, hs⟩ := List.mem_flatMap.mp hs
      exact List.mem_flatMap.mpr ⟨r, hr, ih r hr hs hc⟩

/-- Two nodes of one depth: the earlier one is to the left, a width and a gap away. -/
def Apart (s s' : Spot) : Prop := s.depth = s'.depth → s.x + nodeW + nodeGap ≤ s'.x

theorem spots_apart (s : Spot) : s.below.Pairwise Apart := by
  induction s using Spot.induction with
  | h s ih =>
    rw [below_eq]
    refine .cons ?_ (List.pairwise_flatMap.mpr ⟨ih, ?_⟩)
    · -- the root is alone at its depth
      intro d hd hdepth
      obtain ⟨c, hc, hd⟩ := List.mem_flatMap.mp hd
      have hcd : c.depth = s.depth + 1 := childSpots_depth _ _ _ c hc
      have := (spots_in_strip c d hd).2.2
      omega
    · -- two children: their strips are apart, and each keeps what is below it in its strip
      refine (childSpots_apart _ _ _).imp ?_
      intro c c' hgap d hd d' hd' _
      calc d.x + nodeW + nodeGap
          ≤ d.right + nodeGap := by linarith [d.le_right]
        _ ≤ c.right + nodeGap := by linarith [(spots_in_strip c d hd).2.1]
        _ ≤ c'.left := hgap
        _ ≤ d'.left := (spots_in_strip c' d' hd').1
        _ ≤ d'.x := d'.left_le

/-! What is pushed -/

/-- The node that `place` pushes at a spot. -/
def Spot.node (s : Spot) : FlowNode := ⟨s.tree.label.id, s.x, levelH * s.depth⟩

theorem placeAll_nodes (visibleSet : Option (String → Bool)) (parent : Option String) (depth : Nat) (y : Rat)
    (children : List Tree) (cx : Rat) :
    (placeAll visibleSet parent children cx y).nodes =
      (childSpots depth children cx).flatMap (fun s => (place visibleSet s.tree s.x y).nodes) := by
  induction children generalizing cx with
  | nil => rfl
  | cons c children ih =>
    rw [placeAll.eq_def, childSpots, List.flatMap_cons, ← ih]
    rfl

/-- The nodes pushed for a subtree are the shown ones of its spots. -/
theorem place_nodes (visibleSet : Option (String → Bool)) (s : Spot) :
    (place visibleSet s.tree s.x (levelH * s.depth)).nodes =
      (s.below.filter (fun d => shown visibleSet d.tree.label.id)).map Spot.node := by
  induction s using Spot.induction with
  | h s ih =>
    have hchildren : ∀ parent, (placeAll visibleSet parent s.tree.children (s.x + nodeW / 2 - totalWidth s.tree.children / 2)
        (levelH * s.depth + levelH)).nodes =
        ((s.children.flatMap Spot.below).filter (fun d => shown visibleSet d.tree.label.id)).map Spot.node := by
      intro parent
      rw [placeAll_nodes visibleSet parent (s.depth + 1), List.filter_flatMap, List.map_flatMap]
      apply List.flatMap_congr
      intro c hc
      have hcd : c.depth = s.depth + 1 := childSpots_depth _ _ _ c hc
      rw [← ih c hc, hcd]
      push_cast
      rw [mul_add, mul_one]
    rw [below_eq]
    obtain ⟨⟨a, children⟩, x, depth⟩ := s
    rw [place]
    split
    · rename_i hshown
      have hkeep := List.filter_cons_of_pos (p := fun d : Spot => shown visibleSet d.tree.label.id)
        (a := ⟨.node a children, x, depth⟩) (l := (Spot.mk (.node a children) x depth).children.flatMap Spot.below) hshown
      rw [hkeep, List.map_cons, ← hchildren (some a.id)]
      rfl
    · rename_i hshown
      have hdrop := List.filter_cons_of_neg (p := fun d : Spot => shown visibleSet d.tree.label.id)
        (a := ⟨.node a children, x, depth⟩) (l := (Spot.mk (.node a children) x depth).children.flatMap Spot.below) hshown
      rw [hdrop, ← hchildren none]
      rfl

def layout (root : Tree) : List Spot := (Spot.mk root 400 0).below

/-- The layout never overlaps: each node of the tree has one spot, worked out without the
    visible set, and is pushed there when it is shown; nodes of one depth are a width and a
    gap apart; the strip of a node contains the strips of its children, and these are a gap
    apart. -/
theorem layout_never_overlaps (root : Tree) (visibleSet : Option (String → Bool)) :
    (layout root).map Spot.tree = root.subtrees ∧
    (treeToFlow visibleSet root).nodes =
      ((layout root).filter (fun s => shown visibleSet s.tree.label.id)).map Spot.node ∧
    (layout root).Pairwise (fun s s' => s.depth = s'.depth → nodeW + nodeGap ≤ |s.x - s'.x|) ∧
    ∀ s ∈ layout root,
      s.children ⊆ layout root ∧ s.children.map Spot.tree = s.tree.children ∧
      (∀ c ∈ s.children, s.left ≤ c.left ∧ c.right ≤ s.right) ∧
      s.children.Pairwise (fun c c' => c.right + nodeGap ≤ c'.left) := by
  refine ⟨below_trees _, ?_, ?_, ?_⟩
  · have hplace := place_nodes visibleSet ⟨root, 400, 0⟩
    rwa [Nat.cast_zero, mul_zero] at hplace
  · refine (spots_apart _).imp ?_
    intro s s' hapart hdepth
    rw [abs_sub_comm]
    exact (le_sub_iff_add_le'.mpr (by linarith [hapart hdepth])).trans (le_abs_self _)
  · intro s hs
    exact ⟨children_below s hs, s.children_tree, children_between s, childSpots_apart _ _ _⟩

end GrowthMap.Layout
