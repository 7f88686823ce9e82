import GrowthMap.Canon.Serial

/- The routes that write many rows at once: the copy of a subtree into a branch, the merge of a
   branch, and the import of a project. -/
namespace GrowthMap.Canon

open Relational Relation Fallible Table

section Routes

variable {guard : Graph → List Edge → Prop} {g g' : Graph}

/-! Rows in bulk -/

variable {p x c branchId actor description : String} {ns : List Node} {subtree : List String} {old : Option Edge}
  {d : BranchMerge} {f : ImportFile}

theorem writes_nodes (hp : ∀ n ∈ ns, n.projectId = p ∧ g.HasBranch p n.branchId)
    (h : Fallible.each insertNode ns g = .ok g') : Writes guard p g g' := by
  induction ns generalizing g with
  | nil =>
    rw [each_nil, Except.ok.injEq] at h
    subst h
    exact .refl
  | cons n ns ih =>
    obtain ⟨g₁, hn, h⟩ := bind_ok h
    obtain ⟨hproject, hbranch⟩ := hp n List.mem_cons_self
    have hfirst : Write guard p g g₁ := .node hproject hbranch hn
    obtain ⟨-, nodes, hins, rfl⟩ := insertNode_ok hn
    exact .head hfirst (ih (fun m hm => hp m (List.mem_cons_of_mem _ hm)) h)

theorem writes_blocks {bs : List ContentBlock} (hp : ∀ b ∈ bs, g.Has p b.nodeId)
    (h : Fallible.each insertBlock bs g = .ok g') : Writes guard p g g' := by
  induction bs generalizing g with
  | nil =>
    rw [each_nil, Except.ok.injEq] at h
    subst h
    exact .refl
  | cons b bs ih =>
    obtain ⟨g₁, hb, h⟩ := bind_ok h
    have hfirst : Write guard p g g₁ := .block (hp b List.mem_cons_self) hb
    obtain ⟨blocks, hins, rfl⟩ := insertBlock_ok hb
    exact .head hfirst (ih (fun m hm => hp m (List.mem_cons_of_mem _ hm)) h)

/-- What rows that were added are: they are there, under ids that were free, each under its own. -/
structure Added (g : Graph) (nodes : Nodes) (ns : List Node) : Prop where
  get : ∀ n ∈ ns, nodes.get n.id = some n
  old : ∀ x n, g.nodes.get x = some n → nodes.get x = some n
  fresh : ∀ n ∈ ns, g.nodes.get n.id = none
  nodup : (ns.map Node.id).Nodup

theorem added_of_rows {nodes : Nodes} (h : nodes.rows = g.nodes.rows ++ ns) : Added g nodes ns := by
  have hnodup := nodes.distinct
  rw [h, List.map_append, List.nodup_append] at hnodup
  refine ⟨?_, ?_, fresh_of_append h, hnodup.2.1⟩
  · intro n hn
    exact get_of_mem (by simp [h, hn])
  · intro x n hn
    rw [Table.get_eq_some] at hn ⊢
    exact ⟨by simp [h, hn.1], hn.2⟩

/-! The copy of a subtree -/

variable {uuid : Nat → String} {load : String → Option Node} {now : Int} {source name : String} {root target : Node}

theorem mem_of_idMap (h : idMap uuid subtree x = some c) :
    x ∈ subtree := by
  obtain ⟨i, hi, -⟩ := Option.map_eq_some_iff.mp h
  exact List.isSome_idxOf?.mp (by simp [hi])

theorem mem_copiedNodes {n : Node} (h : n ∈ copiedNodes uuid load subtree branchId actor) :
    ∃ x ∈ subtree, ∃ old id, load x = some old ∧ idMap uuid subtree x = some id ∧ n = old.copy id branchId actor := by
  obtain ⟨x, hx, hn⟩ := List.mem_filterMap.mp h
  obtain ⟨old, hold, hn⟩ := Option.bind_eq_some_iff.mp hn
  obtain ⟨id, hid, hn⟩ := Option.bind_eq_some_iff.mp hn
  cases hn
  exact ⟨x, hx, old, id, hold, hid, rfl⟩

theorem copiedNodes_mem (branchId actor : String)
    {id : String} {old : Node} (hx : x ∈ subtree) (hold : load x = some old) (hid : idMap uuid subtree x = some id) :
    old.copy id branchId actor ∈ copiedNodes uuid load subtree branchId actor := by
  refine List.mem_filterMap.mpr ⟨x, hx, ?_⟩
  simp [hold, hid]

theorem idMap_injective (hload : ∀ x ∈ subtree, ∃ old, load x = some old)
    (hnodup : ((copiedNodes uuid load subtree branchId actor).map Node.id).Nodup) {a b : String}
    (ha : idMap uuid subtree a = some c) (hb : idMap uuid subtree b = some c) : a = b := by
  have hpair : (subtree.map (idMap uuid subtree)).Nodup := by
    rw [List.Nodup, List.pairwise_map]
    refine (List.pairwise_filterMap.mp (List.pairwise_map.mp hnodup)).imp_of_mem ?_
    intro x y hx hy hdiff heq
    obtain ⟨oldx, holdx⟩ := hload x hx
    obtain ⟨oldy, holdy⟩ := hload y hy
    obtain ⟨i, hi⟩ := Option.isSome_iff_exists.mp (List.isSome_idxOf?.mpr hx)
    have hidx : idMap uuid subtree x = some (uuid i) := by simp [idMap, hi]
    have hidy : idMap uuid subtree y = some (uuid i) := heq ▸ hidx
    exact hdiff (oldx.copy (uuid i) branchId actor) (by simp [holdx, hidx]) (oldy.copy (uuid i) branchId actor)
      (by simp [holdy, hidy]) rfl
  exact List.inj_on_of_nodup_map hpair (mem_of_idMap ha) (mem_of_idMap hb) (ha.trans hb.symm)

theorem mem_copiedBlocks {b : ContentBlock}
    (h : b ∈ copiedBlocks uuid g subtree actor now) : ∃ x, idMap uuid subtree x = some b.nodeId := by
  obtain ⟨⟨old, i⟩, -, hb⟩ := List.mem_filterMap.mp h
  obtain ⟨id, hid, hb⟩ := Option.bind_eq_some_iff.mp hb
  cases hb
  exact ⟨old.nodeId, hid⟩

theorem mem_copiedEdges {e : Edge} (h : e ∈ copiedEdges uuid g p subtree) :
    e.projectId = p ∧ ∃ a b, idMap uuid subtree a = some e.fromNodeId ∧ idMap uuid subtree b = some e.toNodeId := by
  obtain ⟨⟨old, i⟩, hold, he⟩ := List.mem_filterMap.mp h
  obtain ⟨a, ha, he⟩ := Option.bind_eq_some_iff.mp he
  obtain ⟨b, hb, he⟩ := Option.bind_eq_some_iff.mp he
  cases he
  have hmem := (List.mem_filter.mp (List.fst_mem_of_mem_zipIdx hold)).2
  simp only [Bool.and_eq_true, decide_eq_true_eq] at hmem
  exact ⟨hmem.1, old.fromNodeId, old.toNodeId, ha, hb⟩

/-- Edges under new ids are arcs under new ids. -/
theorem arcs_renamed {f : String → Option String} {new : Edge → Nat → String → String → Edge}
    (hnew : ∀ e i a b, (new e i a b).relationType = e.relationType ∧ (new e i a b).fromNodeId = a ∧ (new e i a b).toNodeId = b)
    {es : List Edge} (hes : ∀ e ∈ es, e.isContainment = true) (k : Nat) :
    arcs ((es.zipIdx k).filterMap (fun x => (f x.1.fromNodeId).bind (fun a =>
      (f x.1.toNodeId).bind (fun b => some (new x.1 x.2 a b))))) =
      Forest.rename f (arcs es) := by
  induction es generalizing k with
  | nil => rfl
  | cons e es ih =>
    have hc := hes e List.mem_cons_self
    have hrest := ih (fun x hx => hes x (List.mem_cons_of_mem _ hx)) (k + 1)
    simp only [arcs, Forest.rename, List.zipIdx_cons, List.filter_cons, hc, if_true, List.map_cons] at hrest ⊢
    cases ha : f e.fromNodeId with
    | none => simpa [ha] using hrest
    | some a =>
      cases hb : f e.toNodeId with
      | none => simpa [ha, hb] using hrest
      | some b =>
        obtain ⟨hrel, hfrom, hto⟩ := hnew e k a b
        have hcontain : (new e k a b).isContainment = true := by
          rw [Edge.isContainment, hrel]
          exact hc
        simp only [ha, hb, Option.bind_some, Option.map_some, List.filterMap_cons, List.filter_cons, hcontain, if_true,
          List.map_cons, hfrom, hto, hrest]

theorem arcs_copiedEdges :
    arcs (copiedEdges uuid g p subtree) = Forest.rename (idMap uuid subtree) (arcs (projectContainment g p)) := by
  have hes : ∀ e ∈ projectContainment g p, e.isContainment = true := by
    intro e he
    exact (Bool.and_eq_true_iff.mp (List.mem_filter.mp he).2).2
  exact @arcs_renamed _ (fun e i a b => { e with
    id := uuid (subtree.length + g.blocks.rows.length + i), fromNodeId := a, toNodeId := b, revision := 1 })
    (fun _ _ _ _ => ⟨rfl, rfl, rfl⟩) _ hes 0

/-- What a copy writes, one table after the other. -/
structure Copied (uuid : Nat → String) (load : String → Option Node) (p source name description branchId actor : String)
    (now : Int) (g g' : Graph) : Prop where
  has : ∀ x ∈ subtreeOf g p source, g.Has p x
  start : ∃ n, load source = some n ∧ n.projectId = p
  rows : ∃ g₁ g₂ g₃, insertBranch ⟨branchId, p, name, description, some source, .active, 1⟩ g = .ok g₁ ∧
    Fallible.each insertNode (copiedNodes uuid load (subtreeOf g p source) branchId actor) g₁ = .ok g₂ ∧
    Fallible.each insertBlock (copiedBlocks uuid g (subtreeOf g p source) actor now) g₂ = .ok g₃ ∧
    Fallible.each insertEdge (copiedEdges uuid g p (subtreeOf g p source)) g₃ = .ok g'

theorem deepCopyBranch_ok
    (h : deepCopyBranch uuid load p source name description branchId actor now g = .ok g') :
    Copied uuid load p source name description branchId actor now g g' := by
  unfold deepCopyBranch at h
  cases hsource : load source with
  | none => simp [hsource] at h
  | some n =>
    simp only [hsource] at h
    obtain ⟨hproject, h⟩ := guard_ok h
    obtain ⟨hsubtree, h⟩ := guard_ok h
    obtain ⟨g₁, hbranch, h⟩ := bind_ok h
    obtain ⟨g₂, hnodes, h⟩ := bind_ok h
    obtain ⟨g₃, hblocks, h⟩ := bind_ok h
    refine ⟨?_, ⟨n, hsource, not_not.mp hproject⟩, g₁, g₂, g₃, hbranch, hnodes, hblocks, h⟩
    intro x hx
    have hall : ¬ ((g.nodes.get x).all (fun n => decide (n.projectId ≠ p)) = true) :=
      fun hall => hsubtree (List.any_eq_true.mpr ⟨x, hx, hall⟩)
    cases hn : g.nodes.get x with
    | none => simp [hn] at hall
    | some m => exact ⟨m, hn, by simpa [hn] using hall⟩

/-- The rows after a copy. -/
structure Copied.Rows (uuid : Nat → String) (load : String → Option Node) (p source name description branchId actor : String)
    (now : Int) (g g' : Graph) : Prop where
  projects : g'.projects = g.projects
  branches : g'.branches.rows = g.branches.rows ++ [⟨branchId, p, name, description, some source, .active, 1⟩]
  nodes : g'.nodes.rows = g.nodes.rows ++ copiedNodes uuid load (subtreeOf g p source) branchId actor
  blocks : g'.blocks.rows = g.blocks.rows ++ copiedBlocks uuid g (subtreeOf g p source) actor now
  edges : g'.edges.rows = g.edges.rows ++ copiedEdges uuid g p (subtreeOf g p source)

theorem Copied.rowsOf (h : Copied uuid load p source name description branchId actor now g g') :
    Copied.Rows uuid load p source name description branchId actor now g g' := by
  obtain ⟨-, -, g₁, g₂, g₃, hbranch, hnodes, hblocks, hedges⟩ := h
  obtain ⟨branches, hins, rfl⟩ := insertBranch_ok hbranch
  obtain ⟨nodes, hrows, rfl⟩ := insertNodes_ok hnodes
  obtain ⟨blocks, hrows', rfl⟩ := insertBlocks_ok hblocks
  obtain ⟨edges, hrows'', rfl⟩ := insertEdges_ok hedges
  exact ⟨rfl, insert_rows hins, hrows, hrows', hrows''⟩

theorem Copied.writes (pol : Policy guard) (hw : Wf g)
    (hid : branchId ≠ "") (h : Copied uuid g.nodes.get p source name description branchId actor now g g') :
    Writes guard p g g' := by
  obtain ⟨hhas, ⟨n, hn, hproject⟩, g₁, g₂, g₃, hbranch, hnodes, hblocks, hedges⟩ := h
  have hfirst : Write guard p g g₁ := by
    refine .branch rfl ?_ hid hbranch
    rintro x ⟨⟩
    exact ⟨n, hn, hproject⟩
  have hw₁ := wf_write hw hfirst
  obtain ⟨branches, hins, rfl⟩ := insertBranch_ok hbranch
  -- the copies of the nodes
  have hcopies : ∀ m ∈ copiedNodes uuid g.nodes.get (subtreeOf g p source) branchId actor,
      m.projectId = p ∧ m.branchId = some branchId := by
    intro m hm
    obtain ⟨x, hx, old, id, hold, -, rfl⟩ := mem_copiedNodes hm
    obtain ⟨old', hold', hp⟩ := hhas x hx
    rw [hold] at hold'
    cases hold'
    exact ⟨hp, rfl⟩
  have hwrites₂ : Writes guard p _ g₂ := writes_nodes (by
    intro m hm
    obtain ⟨hmp, hmb⟩ := hcopies m hm
    refine ⟨hmp, ?_⟩
    intro b hb
    rw [hmb] at hb
    cases hb
    exact ⟨_, get_insert_self hins, rfl⟩) hnodes
  obtain ⟨nodes, hrows, rfl⟩ := insertNodes_ok hnodes
  have hadded : Added g nodes _ := added_of_rows hrows
  have hcopy : ∀ x c, idMap uuid (subtreeOf g p source) x = some c →
      ∃ m, nodes.get c = some m ∧ m.projectId = p ∧ m.branchId = some branchId ∧ g.nodes.get c = none := by
    intro x c hc
    obtain ⟨old, hold, -⟩ := hhas x (mem_of_idMap hc)
    have hm := copiedNodes_mem branchId actor (mem_of_idMap hc) hold hc
    exact ⟨_, hadded.get _ hm, (hcopies _ hm).1, (hcopies _ hm).2, hadded.fresh _ hm⟩
  -- the blocks and edges between them
  have hwrites₃ : Writes guard p _ g₃ := writes_blocks (by
    intro b hb
    obtain ⟨x, hx⟩ := mem_copiedBlocks hb
    obtain ⟨m, hm, hmp, -, -⟩ := hcopy x _ hx
    exact ⟨m, hm, hmp⟩) hblocks
  obtain ⟨blocks, -, rfl⟩ := insertBlocks_ok hblocks
  refine ((hfirst.single.trans hwrites₂).trans hwrites₃).tail (.edges ?_ ?_ hedges)
  · intro e he
    obtain ⟨hep, a, b, ha, hb⟩ := mem_copiedEdges he
    obtain ⟨m, hm, hmp, -, -⟩ := hcopy a _ ha
    obtain ⟨m', hm', hmp', -, -⟩ := hcopy b _ hb
    exact ⟨hep, ⟨m, hm, hmp⟩, m', hm', hmp'⟩
  · refine pol.copy arcs_copiedEdges ?_ ?_ ?_ ?_
    · exact ((List.filter_sublist (p := fun e : Edge => decide (e.projectId = p) && e.isContainment)).filter _).map _
    · intro a b c ha hb
      exact idMap_injective (fun x hx => (hhas x hx).imp fun _ h => h.1) hadded.nodup ha hb
    · intro a c ha x hx
      obtain ⟨-, -, -, -, hfree⟩ := hcopy a c ha
      exact ends_ne hw hfree x hx
    · intro e he
      obtain ⟨-, a, b, ha, hb⟩ := mem_copiedEdges he
      obtain ⟨m, hm, -, hmb, -⟩ := hcopy a _ ha
      obtain ⟨m', hm', -, hmb', -⟩ := hcopy b _ hb
      show (nodes.get e.fromNodeId).map Node.branchId = (nodes.get e.toNodeId).map Node.branchId
      rw [hm, hm', Option.map_some, Option.map_some, hmb, hmb']

theorem createBranch_commit (pol : Policy guard) (hw : Wf g) {projectId : String}
    {d : BranchCreate} (hid : uuid 0 ≠ "") (h : createBranch (fun _ => g) uuid now projectId d g = .ok g') :
    Commit guard g g' (some (projectId, d.expectedProjectRevision)) := by
  obtain ⟨-, h⟩ := guard_ok h
  cases hn : g.nodes.get d.sourceNodeId with
  | none => simp [hn] at h
  | some source =>
    simp only [hn] at h
    obtain ⟨-, h⟩ := guard_ok h
    obtain ⟨g₁, hclaim, h⟩ := bind_ok h
    have hload : (fun x => if x = source.id then some source else g₁.nodes.get x) = g₁.nodes.get := by
      funext x
      split
      · rename_i hx
        rw [hx, (claim_rows hclaim).1, get_key hn, hn]
      · rfl
    simp only [hload] at h
    exact .claimed hclaim ((deepCopyBranch_ok h).writes pol (wf_claim hw hclaim) hid)

/-! The merge of a branch -/

def mainlined (branchId : String) (g : Graph) : Graph :=
  { g with nodes := g.nodes.update (fun n => decide (n.branchId = some branchId)) Node.toMain Node.toMain_key }

theorem has_mainlined {p x branchId : String} (h : g.Has p x) : (mainlined branchId g).Has p x :=
  (keepsNodes_update g.nodes Node.toMain_key (fun _ => rfl)).has h

theorem branchRoot_ok (h : branchRoot g branchId = some root) :
    root ∈ g.nodes.rows ∧ root.branchId = some branchId := by
  have hmem := List.mem_filter.mp (List.mem_of_find?_eq_some h)
  exact ⟨hmem.1, by simpa using hmem.2⟩

theorem target_ne_root {targetId : String} (htarget : g.nodes.get targetId = some target)
    (hmain : target.branchId = none) (hroot : branchRoot g branchId = some root) : targetId ≠ root.id := by
  rintro rfl
  obtain ⟨hmem, hbranch⟩ := branchRoot_ok hroot
  rw [get_of_mem hmem] at htarget
  cases htarget
  rw [hmain] at hbranch
  cases hbranch

/-- The one edge into a node is deleted, and another one added. -/
theorem writes_rejoin (pol : Policy guard) (hw : Wf g) {edgeId parentId nodeId : String}
    (hparent : g.Has p parentId) (hnode : g.Has p nodeId) (hold : g.parentEdges nodeId = old.toList)
    (hguard : ∀ e : Edge, e.Joins parentId nodeId → guard (detach nodeId g) [e])
    (h : insertChild edgeId p parentId nodeId (deleteEdges (fun e => decide (some e.id = old.map Edge.id)) g) = .ok g') :
    Writes guard p g g' ∧ g'.nodes = g.nodes ∧ g'.branches = g.branches := by
  have hgone : Write guard p g (deleteEdges (fun e => decide (some e.id = old.map Edge.id)) g) := by
    refine .edgesGone ?_
    intro e he hdel
    cases hedge : old with
    | none => simp [hedge] at hdel
    | some o =>
      have hmem : o ∈ g.parentEdges nodeId := by rw [hold, hedge]; simp
      obtain ⟨hrow, hsel⟩ := List.mem_filter.mp hmem
      have hto : o.toNodeId = nodeId := by simpa using (Bool.and_eq_true_iff.mp hsel).2
      have hids : e.id = o.id := by simpa [hedge] using hdel
      have hget := get_of_mem he
      rw [hids, get_of_mem hrow] at hget
      cases hget
      have hhas := hw.to_has hrow
      rw [hto] at hhas
      exact hhas.unique hnode
  refine ⟨hgone.single.tail (.edges ?_ ?_ (each_single h)), ?_⟩
  · intro e he
    rw [List.mem_singleton.mp he]
    exact ⟨rfl, hparent, hnode⟩
  · exact pol.similar (similar_detach hold) (hguard _ ⟨rfl, rfl, rfl⟩)
  · obtain ⟨-, edges, -, rfl⟩ := insertEdge_ok h
    exact ⟨rfl, rfl⟩

/-- What a merge found, and the graphs it went through. -/
structure MergeRun (uuid : Nat → String) (branchId : String) (d : BranchMerge) (g g' : Graph) (branch : Branch)
    (target root : Node) (old : Option Edge) (g₁ g₂ g₃ : Graph) : Prop where
  branchRow : g.branches.get branchId = some branch
  claimed : claimProjectRevision branch.projectId d.expectedProjectRevision g = .ok g₁
  expected : d.expectedRevision = orOne branch.revision
  targetRow : g₁.nodes.get d.targetNodeId = some target
  project : target.projectId = branch.projectId
  main : truthy target.branchId = none
  expectedTarget : d.expectedTargetRevision = orOne target.revision
  rootRow : branchRoot g₁ branchId = some root
  single : (mainlined branchId g₁).parentEdges root.id = old.toList
  child : insertChild (uuid 0) branch.projectId d.targetNodeId root.id
    (deleteEdges (fun e => decide (some e.id = old.map Edge.id)) (mainlined branchId g₁)) = .ok g₂
  status : flushBranch branch { branch with status := .merged, revision := bumped branch.revision } g₂ = .ok g₃
  flushed : flushNode target { target with revision := bumped target.revision } g₃ = .ok g'

theorem mergeBranch_ok (h : mergeBranch (fun _ => g) uuid branchId d g = .ok g') :
    ∃ branch target root old g₁ g₂ g₃, MergeRun uuid branchId d g g' branch target root old g₁ g₂ g₃ := by
  unfold mergeBranch at h
  cases hb : g.branches.get branchId with
  | none => simp [hb] at h
  | some branch =>
    simp only [hb] at h
    obtain ⟨-, h⟩ := guard_ok h
    obtain ⟨g₁, hclaim, h⟩ := bind_ok h
    obtain ⟨_, hcheck, h⟩ := bind_ok h
    cases ht : g₁.nodes.get d.targetNodeId with
    | none => simp [ht] at h
    | some target =>
      simp only [ht] at h
      obtain ⟨hmain, h⟩ := guard_ok h
      obtain ⟨_, hcheck', h⟩ := bind_ok h
      cases hr : branchRoot g₁ branchId with
      | none => simp [hr] at h
      | some root =>
        simp only [hr] at h
        obtain ⟨old, hold, h⟩ := bind_ok h
        obtain ⟨g₂, hchild, h⟩ := bind_ok h
        obtain ⟨g₃, hflush, h⟩ := bind_ok h
        have hnone : truthy target.branchId = none := by
          by_contra hsome
          exact hmain (.inr (Option.isSome_iff_ne_none.mpr hsome))
        exact ⟨branch, target, root, old, g₁, g₂, g₃, hb, hclaim, checkEntityRevision_ok hcheck, ht,
          not_not.mp fun hne => hmain (.inl hne), hnone, checkEntityRevision_ok hcheck', hr, oneOrNone_ok hold, hchild, hflush, h⟩

theorem MergeRun.mainline (hw : Wf g) {branch : Branch}
    {g₁ g₂ g₃ : Graph} (m : MergeRun uuid branchId d g g' branch target root old g₁ g₂ g₃) :
    target.branchId = none :=
  (truthy_branch (wf_claim hw m.claimed) m.targetRow).symm.trans m.main

theorem mergeBranch_commit (pol : Policy guard) (hw : Wf g)
    (hguard : ∀ target root, g.nodes.get d.targetNodeId = some target → target.branchId = none →
      branchRoot g branchId = some root → (g.parentEdges root.id).length ≤ 1 →
      ∀ e : Edge, e.Joins d.targetNodeId root.id → guard (detach root.id (mainlined branchId g)) [e])
    (h : mergeBranch (fun _ => g) uuid branchId d g = .ok g') :
    ∃ b n, g.branches.get branchId = some b ∧ g.nodes.get d.targetNodeId = some n ∧ d.expectedRevision = orOne b.revision ∧
      d.expectedTargetRevision = orOne n.revision ∧ Commit guard g g' (some (b.projectId, d.expectedProjectRevision)) := by
  obtain ⟨branch, target, root, old, g₁, g₂, g₃, m⟩ := mergeBranch_ok h
  have hb := m.branchRow
  have ht := m.targetRow
  have hproject := m.project
  have hr := m.rootRow
  obtain ⟨hnodes, hedges, -, hbranches⟩ := claim_rows m.claimed
  have hw₁ := wf_claim hw m.claimed
  have ht₀ : g.nodes.get d.targetNodeId = some target := hnodes ▸ ht
  have hid : target.id = d.targetNodeId := get_key ht
  have hmainline := m.mainline hw
  obtain ⟨hroot, hrootb⟩ := branchRoot_ok hr
  have hb₁ : ∃ row, g₁.branches.get branchId = some row ∧ row.projectId = branch.projectId :=
    ⟨branch, hbranches ▸ hb, rfl⟩
  have hrootp : g₁.Has branch.projectId root.id := by
    obtain ⟨row, hrow, hp⟩ := hw₁.branch root hroot branchId hrootb
    rw [hbranches, hb] at hrow
    cases hrow
    exact ⟨root, get_of_mem hroot, hp.symm⟩
  refine ⟨branch, target, hb, ht₀, m.expected, m.expectedTarget, .claimed m.claimed ?_⟩
  have hstep : Write guard branch.projectId g₁ (mainlined branchId g₁) := .toMain hb₁
  have hold' := m.single
  have hsimilar : Similar (detach root.id (mainlined branchId g)) (detach root.id (mainlined branchId g₁)) := by
    refine ⟨fun x => ?_, ?_⟩
    · show ((mainlined branchId g₁).nodes.get x).map _ = ((mainlined branchId g).nodes.get x).map _
      simp only [mainlined, hnodes]
    · simp only [detach, deleteEdges, mainlined, hedges]
  have hr₀ : branchRoot g branchId = some root := by
    rw [← hr, branchRoot, branchRoot, hnodes, hedges]
  have hone : (g.parentEdges root.id).length ≤ 1 := by
    have heq : g.parentEdges root.id = old.toList := by
      rw [← hold', Graph.parentEdges, Graph.parentEdges]
      simp only [mainlined, hedges]
    rw [heq]
    exact Option.length_toList_le
  obtain ⟨hwrites, hnodes₂, hbranches₂⟩ := writes_rejoin pol (wf_write hw₁ hstep)
    (@has_mainlined _ branch.projectId _ branchId ⟨target, ht, hproject⟩) (has_mainlined hrootp) hold'
    (fun e he => pol.similar hsimilar (hguard target root ht₀ hmainline hr₀ hone e he)) m.child
  have hrow : ∀ b, g₂.branches.get branch.id = some b → b.projectId = branch.projectId := by
    intro b hget
    have hsame : g₂.branches = g.branches := hbranches₂.trans hbranches
    rw [hsame, get_key hb, hb] at hget
    cases hget
    rfl
  have htarget : g₃.Has branch.projectId target.id := by
    rw [flushBranch_ok m.status, hid]
    show g₂.Has _ _
    rw [Graph.Has, hnodes₂]
    exact has_mainlined ⟨target, ht, hproject⟩
  exact ((hwrites.head hstep).tail (.branchRow hrow m.status)).tail (.nodeRow htarget (by rfl) m.flushed)

theorem archiveBranch_commit {expectedProject expected : Int}
    (h : archiveBranch (fun _ => g) branchId expectedProject expected g = .ok g') :
    ∃ b, g.branches.get branchId = some b ∧ expected = orOne b.revision ∧
      Commit guard g g' (some (b.projectId, expectedProject)) := by
  unfold archiveBranch at h
  cases hb : g.branches.get branchId with
  | none => simp [hb] at h
  | some branch =>
    simp only [hb] at h
    obtain ⟨-, h⟩ := guard_ok h
    obtain ⟨g₁, hclaim, h⟩ := bind_ok h
    obtain ⟨_, hcheck, h⟩ := bind_ok h
    refine ⟨branch, rfl, checkEntityRevision_ok hcheck, .claimed hclaim (Write.single (.branchRow ?_ h))⟩
    intro row hrow
    rw [(claim_rows hclaim).2.2.2, get_key hb, hb] at hrow
    cases hrow
    rfl

/-! Import -/

def ImportFile.arcs (f : ImportFile) : List (String × String) :=
  (f.edges.filter (fun e => decide (e.relationType = "child_of"))).map (fun e => (e.fromNodeId, e.toNodeId))

theorem ImportFile.idMap_ok (h : f.idMap uuid x = some c) :
    ∃ n ∈ f.nodes.zipIdx, n.1.id = x ∧ c = uuid (n.2 + 1) := by
  obtain ⟨n, hn, rfl⟩ := Option.map_eq_some_iff.mp h
  rw [List.findRev?_eq_find?_reverse] at hn
  exact ⟨n, List.mem_reverse.mp (List.mem_of_find?_eq_some hn), by simpa using List.find?_some hn, rfl⟩

theorem importEdges_ends {idMap : String → Option String} {es : List (ImportEdge × Nat)}
    {mainlines : List String} {e : Edge} (h : e ∈ importEdges p idMap uuid es mainlines) :
    e.projectId = p ∧ (∃ a, idMap a = some e.fromNodeId) ∧ ∃ b, idMap b = some e.toNodeId := by
  induction es generalizing mainlines with
  | nil => cases h
  | cons x es ih =>
    unfold importEdges at h
    cases ha : idMap x.1.fromNodeId with
    | none =>
      simp only [ha] at h
      exact ih h
    | some =>
      cases hb : idMap x.1.toNodeId with
      | none =>
        simp only [ha, hb] at h
        exact ih h
      | some =>
        simp only [ha, hb, List.mem_cons] at h
        rcases h with rfl | h
        · exact ⟨rfl, ⟨_, ha⟩, _, hb⟩
        · exact ih h

theorem arcs_importEdges {idMap : String → Option String} (es : List ImportEdge) (k : Nat)
    (mainlines : List String) :
    arcs (importEdges p idMap uuid (es.zipIdx k) mainlines) =
      Forest.rename idMap ((es.filter (fun e => decide (e.relationType = "child_of"))).map
        (fun e => (e.fromNodeId, e.toNodeId))) := by
  induction es generalizing k mainlines with
  | nil => rfl
  | cons e es ih =>
    have hrest := fun mainlines => ih (k + 1) mainlines
    simp only [List.zipIdx_cons, importEdges]
    by_cases hc : e.relationType = "child_of"
    · simp only [List.filter_cons, hc, decide_true, if_true, List.map_cons]
      cases ha : idMap e.fromNodeId with
      | none => simpa [Forest.rename, ha] using hrest mainlines
      | some =>
        cases hb : idMap e.toNodeId with
        | none => simpa [Forest.rename, ha, hb] using hrest mainlines
        | some =>
          simp only [arcs, Forest.rename] at hrest
          simp only [arcs, Forest.rename, List.filter_cons, Edge.isContainment, decide_true, if_true, List.map_cons,
            List.filterMap_cons, ha, hb, Option.bind_some, Option.map_some, List.cons.injEq, true_and]
          exact hrest _
    · simp only [List.filter_cons, hc, decide_false]
      cases ha : idMap e.fromNodeId with
      | none => exact hrest mainlines
      | some =>
        cases hb : idMap e.toNodeId with
        | none => exact hrest mainlines
        | some =>
          simp only [arcs] at hrest
          simp only [arcs, List.filter_cons, Edge.isContainment, hc, decide_false]
          exact hrest _

theorem arcs_newEdges (f : ImportFile) (uuid : Nat → String) :
    Canon.arcs (f.newEdges uuid) = Forest.rename (f.idMap uuid) f.arcs :=
  arcs_importEdges f.edges 0 []

/-- The nodes of an import are new, on the mainline of the new project, and each has its own id. -/
theorem importCommitted_commit (hw : Wf g)
    (hguard : ∀ g₁ : Graph, g₁.edges = g.edges → (∀ x c, f.idMap uuid x = some c → g₁.branchOf c = some none ∧
        ∀ e ∈ g.edges.rows, e.fromNodeId ≠ c ∧ e.toNodeId ≠ c) →
      (∀ a b c, f.idMap uuid a = some c → f.idMap uuid b = some c → a = b) → guard g₁ (f.newEdges uuid))
    (h : importCommitted uuid now f g = .ok g') : Commit guard g g' none := by
  obtain ⟨g₁, hproject, h⟩ := bind_ok h
  obtain ⟨g₂, hnodes, h⟩ := bind_ok h
  obtain ⟨g₃, hroot, h⟩ := bind_ok h
  obtain ⟨g₄, hedges, hblocks⟩ := bind_ok h
  refine .created rfl rfl hproject ?_
  obtain ⟨projects, -, rfl⟩ := insertProject_ok hproject
  have hnew : ∀ n ∈ f.newNodes uuid, n.projectId = uuid 0 ∧ n.branchId = none := by
    intro n hn
    obtain ⟨x, -, rfl⟩ := List.mem_map.mp hn
    exact ⟨rfl, rfl⟩
  have hwrites : Writes guard (uuid 0) _ g₂ := writes_nodes (by
    intro n hn
    refine ⟨(hnew n hn).1, ?_⟩
    intro b hb
    rw [(hnew n hn).2] at hb
    cases hb) hnodes
  obtain ⟨nodes, hrows, rfl⟩ := insertNodes_ok hnodes
  have hadded : Added g nodes (f.newNodes uuid) := added_of_rows hrows
  have hmapped : ∀ x c, f.idMap uuid x = some c →
      ∃ m, nodes.get c = some m ∧ m.projectId = uuid 0 ∧ m.branchId = none ∧ g.nodes.get c = none := by
    intro x c hc
    obtain ⟨n, hn, -, rfl⟩ := ImportFile.idMap_ok hc
    have hm : _ ∈ f.newNodes uuid := List.mem_map_of_mem hn
    exact ⟨_, hadded.get _ hm, (hnew _ hm).1, (hnew _ hm).2, hadded.fresh _ hm⟩
  have hinj : ∀ a b c, f.idMap uuid a = some c → f.idMap uuid b = some c → a = b := by
    intro a b c ha hb
    obtain ⟨n, hn, rfl, hc⟩ := ImportFile.idMap_ok ha
    obtain ⟨m, hm, rfl, hc'⟩ := ImportFile.idMap_ok hb
    have hnodup := hadded.nodup
    rw [ImportFile.newNodes, List.map_map] at hnodup
    have heq : n = m := List.inj_on_of_nodup_map hnodup hn hm (hc.symm.trans hc')
    rw [heq]
  have hset : Writes guard (uuid 0) { g with projects, nodes } g₃ ∧ g₃.nodes = nodes ∧ g₃.edges = g.edges := by
    unfold ImportFile.setRoot at hroot
    split at hroot
    · cases hroot
      exact ⟨.refl, rfl, rfl⟩
    · rename_i root hsome
      obtain ⟨x, -, hx⟩ := Option.bind_eq_some_iff.mp hsome
      obtain ⟨m, hm, hmp, hmb, -⟩ := hmapped x root hx
      refine ⟨Write.single (.projectRow rfl (.inr ⟨root, rfl, m, hm, hmp, hmb⟩) hroot), ?_⟩
      rw [flushProject_ok hroot]
      exact ⟨rfl, rfl⟩
  obtain ⟨hwrites₃, hnodes₃, hedges₃⟩ := hset
  have hhas : ∀ x c, f.idMap uuid x = some c → g₃.Has (uuid 0) c := by
    intro x c hc
    obtain ⟨m, hm, hmp, -, -⟩ := hmapped x c hc
    exact ⟨m, hnodes₃ ▸ hm, hmp⟩
  have hadd : Write guard (uuid 0) g₃ g₄ := by
    refine .edges ?_ (hguard g₃ hedges₃ ?_ hinj) hedges
    · intro e he
      obtain ⟨hp, ⟨a, ha⟩, b, hb⟩ := importEdges_ends he
      exact ⟨hp, hhas a _ ha, hhas b _ hb⟩
    · intro x c hc
      obtain ⟨m, hm, -, hmb, hfree⟩ := hmapped x c hc
      refine ⟨?_, ends_ne hw hfree⟩
      rw [Graph.branchOf, hnodes₃, hm, Option.map_some, hmb]
  have hhas₄ : ∀ x c, f.idMap uuid x = some c → g₄.Has (uuid 0) c := by
    intro x c hc
    obtain ⟨edges, -, rfl⟩ := insertEdges_ok hedges
    exact hhas x c hc
  have hwrites₅ : Writes guard (uuid 0) g₄ g' := writes_blocks (by
    intro b hb
    obtain ⟨x, -, hb⟩ := List.mem_filterMap.mp hb
    obtain ⟨c, hc, hb⟩ := Option.bind_eq_some_iff.mp hb
    cases hb
    exact hhas₄ _ c hc) hblocks
  exact ((hwrites.trans hwrites₃).tail hadd).trans hwrites₅

theorem importProject_commit (hw : Wf g) {seats : Option Nat}
    (hguard : ∀ g₁ : Graph, g₁.edges = g.edges → (∀ x c, f.idMap uuid x = some c → g₁.branchOf c = some none ∧
        ∀ e ∈ g.edges.rows, e.fromNodeId ≠ c ∧ e.toNodeId ≠ c) →
      (∀ a b c, f.idMap uuid a = some c → f.idMap uuid b = some c → a = b) → guard g₁ (f.newEdges uuid))
    (h : importProjectJson (fun _ => g) uuid seats now f g = .ok g') : Commit guard g g' none := by
  unfold importProjectJson at h
  split at h
  · exact importCommitted_commit hw hguard h
  · obtain ⟨_, -, h⟩ := bind_ok h
    exact importCommitted_commit hw hguard h

end Routes

end GrowthMap.Canon
