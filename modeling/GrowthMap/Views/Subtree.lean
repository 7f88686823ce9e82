import GrowthMap.Canon.BranchCopy
import GrowthMap.Client.Server

/- The two answers of `get_subtree`.

   One reads objects the ORM decoded, the other, when the database may only be read, the raw
   rows. A JSON column with a number comes as a number from a raw row, everything else as its
   text; what is read from the text is what the ORM has. -/
namespace GrowthMap.Views

open Canon (Graph Node Edge ContentBlock NodeField Value Err orOne truthy childrenIn projectContainment)
open Client (treeField blocksOf)
open Relational

/-! What is shown -/

structure EdgeMeta where
  edgeId : String
  edgeRevision : Int
  isMainline : Bool
  deriving DecidableEq

structure BlockView where
  id : String
  nodeId : String
  blockType : String
  content : Value
  orderIndex : Int
  revision : Int
  deriving DecidableEq

structure Step where
  id : String
  title : Value
  nodeType : Value

structure TreeNode where
  id : String
  projectId : String
  branchId : Option String
  fields : NodeField → Value
  createdBy : String
  lastEditedBy : String
  edgeMeta : Option EdgeMeta
  contentBlocks : List BlockView
  ancestorPath : List Step
  revision : Int

def step (n : Node) : Step := ⟨n.id, n.fields .title, n.fields .nodeType⟩

/-- `build_tree`, with the levels that are left; `load` has the nodes that were loaded. -/
def buildTree (g : Graph) (p : String) (load : String → Option Node) (shown : Node → List Step → TreeNode) :
    Nat → Node → List Step → Rose TreeNode
  | 0, n, path => .node (shown n path) []
  | levels + 1, n, path =>
    .node (shown n path) (((childrenIn g p n.id).filterMap load).map
      (fun c => buildTree g p load shown levels c (path ++ [step n])))

def lastEdge (g : Graph) (p x : String) : Option Edge := (projectContainment g p).findRev? (fun e => decide (e.toNodeId = x))

/-! Writable -/

def shown (g : Graph) (p : String) (n : Node) (path : List Step) : TreeNode where
  id := n.id
  projectId := n.projectId
  branchId := truthy n.branchId
  fields := fun c => treeField c (n.fields c)
  createdBy := n.createdBy
  lastEditedBy := n.lastEditedBy
  edgeMeta := (lastEdge g p n.id).map (fun e => ⟨e.id, orOne e.revision, e.isMainline⟩)
  contentBlocks := (blocksOf g n.id).map (fun b => ⟨b.id, b.nodeId, b.blockType, b.content, b.orderIndex, orOne b.revision⟩)
  ancestorPath := path
  revision := orOne n.revision

/-- `subtree_ids` -/
def subtreeIds (g : Graph) (p nodeId : String) : List String := Forest.levels (childrenIn g p) 10 ([nodeId], [nodeId])

/-- `nodes_by_id` -/
def loadedNode (g : Graph) (p nodeId x : String) : Option Node := if x ∈ subtreeIds g p nodeId then g.nodes.get x else none

/-- `get_subtree` -/
def getSubtree (nodeId : String) (g : Graph) : Except Err (Rose TreeNode) :=
  match g.nodes.get nodeId with
  | none => .error (.http 404 "Node not found")
  | some node => .ok (buildTree g node.projectId (loadedNode g node.projectId nodeId) (shown g node.projectId) 10 node [])

/-! Query-only -/

def isZero : Value → Bool
  | .int n => decide (n = 0)
  | .real q => decide (q = 0)
  | .json s => decide (s = "0")
  | _ => false

def isEmptyList : Value → Bool
  | .list xs => xs.isEmpty
  | .json s => decide (s = "[]")
  | _ => false

/-- A column of a node: `value`, and `sequence` for the lists. Only a zero is replaced in those. -/
def rawField (c : NodeField) (v : Value) : Value :=
  match c with
  | .title | .nodeType | .status | .maturity => v
  | .priority | .positionX | .positionY => if v = .null then .int 0 else v
  | .confidence => if v = .null then .real (1 / 2) else v
  | .summary | .description | .rulesText | .constraintsText | .examplesText | .questionsText | .decisionNotes =>
    if v = .null then .text "" else v
  | .workflowStatus => if v = .null then .text "draft" else v
  | .tags | .filePaths => if isZero v || isEmptyList v then .list [] else v

def rawContent (v : Value) : Value := if isZero v then .json "{}" else v

def rawShown (g : Graph) (p : String) (n : Node) (path : List Step) : TreeNode where
  id := n.id
  projectId := n.projectId
  branchId := truthy n.branchId
  fields := fun c => rawField c (n.fields c)
  createdBy := n.createdBy
  lastEditedBy := n.lastEditedBy
  edgeMeta := (lastEdge g p n.id).map (fun e => ⟨e.id, 1, e.isMainline⟩)
  contentBlocks := (blocksOf g n.id).map (fun b => ⟨b.id, b.nodeId, b.blockType, rawContent b.content, b.orderIndex, 1⟩)
  ancestorPath := path
  revision := 1

def projectNode (g : Graph) (p x : String) : Option Node := (g.nodes.get x).filter (fun n => decide (n.projectId = p))

/-- `get_subtree`, query-only -/
def getSubtreeQueryOnly (nodeId : String) (g : Graph) : Except Err (Rose TreeNode) :=
  match g.nodes.get nodeId with
  | none => .error (.http 404 "Node not found")
  | some node => .ok (buildTree g node.projectId (projectNode g node.projectId) (rawShown g node.projectId) 10 node [])

/-! Where they differ -/

def TreeNode.unrevised (t : TreeNode) : TreeNode :=
  { t with
    edgeMeta := t.edgeMeta.map (fun m => { m with edgeRevision := 1 })
    contentBlocks := t.contentBlocks.map (fun b => { b with revision := 1 })
    revision := 1 }

/-- A value the two read differently: a null summary, an empty workflow status, a list that is null or another false value
that is no number; the other texts differ on no text. -/
def differs (c : NodeField) (v : Value) : Bool :=
  match c with
  | .summary => decide (v = .null)
  | .workflowStatus => v.falsy && decide (v ≠ .null)
  | .description | .rulesText | .constraintsText | .examplesText | .questionsText | .decisionNotes =>
    v.falsy && decide (v ≠ .null) && decide (v ≠ .text "")
  | .tags | .filePaths => v.falsy && !isZero v && !isEmptyList v
  | .title | .nodeType | .status | .maturity | .priority | .confidence | .positionX | .positionY => false

theorem isZero_falsy {v : Value} (h : isZero v = true) : v.falsy = true := by
  cases v with
  | int n =>
    have hn : n = 0 := of_decide_eq_true h
    rw [hn]
    rfl
  | real => exact h
  | json s =>
    have hs : s = "0" := of_decide_eq_true h
    rw [hs]
    decide
  | _ => cases h

theorem isEmptyList_falsy {v : Value} (h : isEmptyList v = true) : v.falsy = true := by
  cases v with
  | list xs =>
    have hxs : xs = [] := List.isEmpty_iff.mp h
    rw [hxs]
    rfl
  | json s =>
    have hs : s = "[]" := of_decide_eq_true h
    rw [hs]
    decide
  | _ => cases h

theorem text_iff (v : Value) : v.or (.text "") = (if v = .null then .text "" else v) ↔
    (v.falsy && decide (v ≠ .null) && decide (v ≠ .text "")) = false := by
  by_cases hnull : v = .null
  · subst hnull
    decide
  · cases hv : v.falsy with
    | false => simp [Value.or, hv, hnull]
    | true =>
      by_cases htext : v = .text ""
      · simp [Value.or, htext, Value.falsy]
      · simp [Value.or, hv, hnull, htext, Ne.symm htext]

theorem status_iff (v : Value) : v.or (.text "draft") = (if v = .null then .text "draft" else v) ↔
    (v.falsy && decide (v ≠ .null)) = false := by
  by_cases hnull : v = .null
  · subst hnull
    decide
  · cases hv : v.falsy with
    | false => simp [Value.or, hv, hnull]
    | true =>
      -- a draft is no empty text
      have hne : v ≠ .text "draft" := by
        rintro rfl
        cases hv
      simp [Value.or, hv, hnull, hne.symm]

theorem list_iff (v : Value) : v.or (.list []) = (if isZero v || isEmptyList v then .list [] else v) ↔
    (v.falsy && !isZero v && !isEmptyList v) = false := by
  cases hzero : isZero v with
  | true => simp [Value.or, isZero_falsy hzero]
  | false =>
    cases hempty : isEmptyList v with
    | true => simp [Value.or, isEmptyList_falsy hempty]
    | false =>
      cases hv : v.falsy with
      | false => simp [Value.or, hv]
      | true =>
        have hne : v ≠ .list [] := by
          rintro rfl
          cases hempty
        simp [Value.or, hv, hne.symm]

theorem rawField_iff (c : NodeField) (v : Value) : treeField c v = rawField c v ↔ differs c v = false := by
  cases c with
  | title => simp [treeField, rawField, differs]
  | nodeType => simp [treeField, rawField, differs]
  | status => simp [treeField, rawField, differs]
  | maturity => simp [treeField, rawField, differs]
  | priority => simp [treeField, rawField, differs]
  | confidence => simp [treeField, rawField, differs]
  | positionX => simp [treeField, rawField, differs]
  | positionY => simp [treeField, rawField, differs]
  | summary =>
    by_cases hv : v = .null
    · simp [treeField, rawField, differs, hv]
    · simp [treeField, rawField, differs, hv]
  | workflowStatus => exact status_iff v
  | tags => exact list_iff v
  | filePaths => exact list_iff v
  | description => exact text_iff v
  | rulesText => exact text_iff v
  | constraintsText => exact text_iff v
  | examplesText => exact text_iff v
  | questionsText => exact text_iff v
  | decisionNotes => exact text_iff v

theorem rawContent_iff (v : Value) : v = rawContent v ↔ isZero v = false := by
  unfold rawContent
  cases hzero : isZero v with
  | false => simp
  | true =>
    have hne : v ≠ .json "{}" := by
      rintro rfl
      cases hzero
    simp [hne]

/-- A node of which the two views differ: in a column, or in the content of a block. -/
def Differs (g : Graph) (n : Node) : Prop :=
  (∃ c, differs c (n.fields c) = true) ∨ ∃ b ∈ g.blocks.rows, b.nodeId = n.id ∧ isZero b.content = true

theorem shown_iff (g : Graph) (p : String) (n : Node) (path : List Step) :
    (shown g p n path).unrevised = rawShown g p n path ↔ ¬ Differs g n := by
  have hblocks : (blocksOf g n.id).map (fun b => (⟨b.id, b.nodeId, b.blockType, b.content, b.orderIndex, 1⟩ : BlockView)) =
      (blocksOf g n.id).map (fun b => ⟨b.id, b.nodeId, b.blockType, rawContent b.content, b.orderIndex, 1⟩) ↔
      ∀ b ∈ g.blocks.rows, b.nodeId = n.id → isZero b.content = false := by
    rw [List.map_inj_left]
    constructor
    · intro h b hb hown
      have hmem : b ∈ blocksOf g n.id :=
        (List.mergeSort_perm _ _).mem_iff.mpr (List.mem_filter.mpr ⟨hb, decide_eq_true hown⟩)
      have heq := h b hmem
      rw [BlockView.mk.injEq] at heq
      exact (rawContent_iff _).mp heq.2.2.2.1
    · intro h b hmem
      obtain ⟨hb, hown⟩ := List.mem_filter.mp ((List.mergeSort_perm _ _).mem_iff.mp hmem)
      rw [← (rawContent_iff b.content).mpr (h b hb (of_decide_eq_true hown))]
  have hfields : (fun c => treeField c (n.fields c)) = (fun c => rawField c (n.fields c)) ↔
      ∀ c, differs c (n.fields c) = false := by
    rw [funext_iff]
    exact forall_congr' (fun c => rawField_iff c (n.fields c))
  have hviews : (shown g p n path).unrevised = rawShown g p n path ↔
      (fun c => treeField c (n.fields c)) = (fun c => rawField c (n.fields c)) ∧
      (blocksOf g n.id).map (fun b => (⟨b.id, b.nodeId, b.blockType, b.content, b.orderIndex, 1⟩ : BlockView)) =
        (blocksOf g n.id).map (fun b => ⟨b.id, b.nodeId, b.blockType, rawContent b.content, b.orderIndex, 1⟩) := by
    simp only [TreeNode.unrevised, shown, rawShown, List.map_map, Option.map_map, Function.comp_def, TreeNode.mk.injEq, true_and,
      and_true]
  rw [hviews, hfields, hblocks, Differs, not_or]
  simp only [not_exists, not_and, Bool.not_eq_true]

/-! The trees -/

section Trees

variable {g : Graph} {p : String}

theorem buildTree_congr {load load' : String → Option Node} {s : Node → List Step → TreeNode}
    (hid : ∀ x n, load x = some n → n.id = x) {levels : Nat} {n : Node} {path : List Step}
    (h : ∀ x, Forest.Within (childrenIn g p) levels n.id x → load x = load' x) :
    buildTree g p load s levels n path = buildTree g p load' s levels n path := by
  induction levels generalizing n path with
  | zero => rfl
  | succ levels ih =>
    have hloads : (childrenIn g p n.id).filterMap load = (childrenIn g p n.id).filterMap load' :=
      List.filterMap_congr (fun c hc => h c (.head hc (.refl _ _)))
    unfold buildTree
    rw [← hloads]
    congr 1
    refine List.map_congr_left ?_
    intro c hc
    obtain ⟨x, hx, hload⟩ := List.mem_filterMap.mp hc
    refine ih ?_
    intro y hy
    rw [hid x c hload] at hy
    exact h y (.head hx hy)

/-- Two trees of one shape are equal if all their nodes are. -/
theorem buildTree_iff {load : String → Option Node} {f : TreeNode → TreeNode} {s s' : Node → List Step → TreeNode}
    {good : Node → Prop} (hgood : ∀ n path, f (s n path) = s' n path ↔ good n) (hid : ∀ x n, load x = some n → n.id = x)
    {levels : Nat} {n : Node} (hn : load n.id = some n) {path : List Step}
    (hloads : ∀ x y, (load x).isSome = true → y ∈ childrenIn g p x → (load y).isSome = true) :
    (buildTree g p load s levels n path).map f = buildTree g p load s' levels n path ↔
      ∀ x m, Forest.Within (childrenIn g p) levels n.id x → load x = some m → good m := by
  induction levels generalizing n path with
  | zero =>
    rw [buildTree, buildTree, Rose.map_node, Rose.node.injEq, hgood, List.map_nil]
    constructor
    · rintro ⟨hn', -⟩ x m hwithin hm
      cases hwithin
      rw [hn] at hm
      cases hm
      exact hn'
    · intro h
      exact ⟨h _ _ (.refl _ _) hn, rfl⟩
  | succ levels ih =>
    rw [buildTree, buildTree, Rose.map_node, Rose.node.injEq, hgood, List.map_map, List.map_inj_left]
    have hchild : ∀ x ∈ childrenIn g p n.id, ∃ c, load x = some c ∧ c.id = x ∧ load c.id = some c := by
      intro x hx
      obtain ⟨c, hc⟩ := Option.isSome_iff_exists.mp (hloads n.id x (by rw [hn]; rfl) hx)
      exact ⟨c, hc, hid x c hc, by rw [hid x c hc, hc]⟩
    constructor
    · rintro ⟨hn', hbelow⟩ x m hwithin hm
      cases hwithin with
      | refl =>
        rw [hn] at hm
        cases hm
        exact hn'
      | head hb hrest =>
        obtain ⟨c, hc, hcid, hself⟩ := hchild _ hb
        have htree := hbelow c (List.mem_filterMap.mpr ⟨_, hb, hc⟩)
        exact (ih hself).mp htree x m (by rw [hcid]; exact hrest) hm
    · intro h
      refine ⟨h _ _ (.refl _ _) hn, ?_⟩
      intro c hc
      obtain ⟨x, hx, hload⟩ := List.mem_filterMap.mp hc
      obtain ⟨c', hc', hcid, hself⟩ := hchild x hx
      rw [hload] at hc'
      cases hc'
      refine (ih hself).mpr ?_
      intro y m hy hm
      rw [hcid] at hy
      exact h y m (.head hx hy) hm

end Trees

/-! What is loaded -/

section Loaded

variable {g : Graph} {p : String} {x y : String}

theorem childrenIn_has (hw : Canon.Wf g) (hy : y ∈ childrenIn g p x) : g.Has p y := by
  obtain ⟨e, he, -, rfl⟩ := Canon.mem_childrenIn.mp hy
  obtain ⟨hrow, hcond⟩ := List.mem_filter.mp he
  have hproject : e.projectId = p := of_decide_eq_true (Bool.and_eq_true_iff.mp hcond).1
  exact hproject ▸ hw.to_has hrow

theorem within_has (hw : Canon.Wf g) {n : Nat} (hx : g.Has p x) (h : Forest.Within (childrenIn g p) n x y) :
    g.Has p y := by
  induction h with
  | refl => exact hx
  | head hb _ ih => exact ih (childrenIn_has hw hb)

theorem projectNode_eq (hx : g.Has p x) : projectNode g p x = g.nodes.get x := by
  obtain ⟨n, hn, hproject⟩ := hx
  rw [projectNode, hn, Option.filter_some, if_pos (decide_eq_true hproject)]

theorem loadedNode_eq {nodeId : String} (h : Forest.Within (childrenIn g p) 10 nodeId x) : loadedNode g p nodeId x = g.nodes.get x := by
  have hmem : x ∈ subtreeIds g p nodeId :=
    Forest.mem_levels (fun z hz => .inl hz) List.mem_cons_self h
  exact if_pos hmem

end Loaded

/-- For every stored project and node the two views show the same tree, up to revisions, exactly if no node within ten
levels is one they read differently. -/
theorem subtree_views_iff (es : List Canon.Event) (nodeId : String) :
    getSubtreeQueryOnly nodeId (Runs.run Graph.after Graph.empty es) =
        (getSubtree nodeId (Runs.run Graph.after Graph.empty es)).map (Rose.map TreeNode.unrevised) ↔
      ∀ node, (Runs.run Graph.after Graph.empty es).nodes.get nodeId = some node →
        ∀ x n, Forest.Within (childrenIn (Runs.run Graph.after Graph.empty es) node.projectId) 10 nodeId x →
          (Runs.run Graph.after Graph.empty es).nodes.get x = some n → ¬ Differs (Runs.run Graph.after Graph.empty es) n := by
  have hw := (Canon.reached_sound es).1
  generalize Runs.run Graph.after Graph.empty es = g at hw ⊢
  unfold getSubtreeQueryOnly getSubtree
  cases hnode : g.nodes.get nodeId with
  | none => simp [Except.map]
  | some node =>
    have hid : node.id = nodeId := Table.get_key hnode
    have hhas : g.Has node.projectId nodeId := ⟨node, hnode, rfl⟩
    have hkey : ∀ x n, projectNode g node.projectId x = some n → n.id = x := by
      intro x n hn
      exact Table.get_key (Option.filter_eq_some_iff.mp hn).1
    have hself : projectNode g node.projectId node.id = some node := by
      rw [hid, projectNode_eq hhas, hnode]
    have hloads : ∀ x y, (projectNode g node.projectId x).isSome = true → y ∈ childrenIn g node.projectId x →
        (projectNode g node.projectId y).isSome = true := by
      intro x y _ hy
      obtain ⟨n, hn, hproject⟩ := childrenIn_has hw hy
      rw [projectNode_eq ⟨n, hn, hproject⟩, hn]
      rfl
    -- both load the same nodes
    have hsame : buildTree g node.projectId (loadedNode g node.projectId nodeId) (shown g node.projectId) 10 node [] =
        buildTree g node.projectId (projectNode g node.projectId) (shown g node.projectId) 10 node [] := by
      symm
      refine buildTree_congr hkey ?_
      intro x hx
      rw [hid] at hx
      rw [loadedNode_eq hx, projectNode_eq (within_has hw hhas hx)]
    have htrees := @buildTree_iff g node.projectId _ _ _ _ _ (shown_iff g node.projectId) hkey 10 node hself [] hloads
    simp only [hsame, Except.map, Except.ok.injEq, Option.some.injEq, forall_eq']
    rw [eq_comm, htrees, hid]
    constructor
    · intro h x n hx hn
      exact h x n hx (by rw [projectNode_eq (within_has hw hhas hx), hn])
    · intro h x n hx hn
      rw [projectNode_eq (within_has hw hhas hx)] at hn
      exact h x n hx hn

/-- A node whose summary was set to null. -/
def unsummarised : Graph :=
  Runs.run Graph.after Graph.empty
    (Canon.sampleProject ++ [Canon.sampleEvent 4 (.updateNode (Canon.sampleId 2) ⟨2, 1, [(.summary, .null)]⟩)])

theorem subtree_views_differ : getSubtreeQueryOnly (Canon.sampleId 2) unsummarised ≠
    (getSubtree (Canon.sampleId 2) unsummarised).map (Rose.map TreeNode.unrevised) := by
  intro h
  have hraw : (getSubtreeQueryOnly (Canon.sampleId 2) unsummarised).toOption.map (fun t => t.label.fields .summary) =
      some (.text "") := by decide +kernel
  have hnull : ((getSubtree (Canon.sampleId 2) unsummarised).map (Rose.map TreeNode.unrevised)).toOption.map
      (fun t => t.label.fields .summary) = some .null := by decide +kernel
  rw [h, hnull] at hraw
  cases hraw

end GrowthMap.Views
