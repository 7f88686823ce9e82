import GrowthMap.Canon.Closure

/- The human routes are commits.

   Here a request reads the state it claims in. Each route is shown to be a claim followed by
   writes; where it adds edges, what the guard asks of them is either one of the rules every
   guard has to keep (`Policy`), or an assumption of the route's lemma. -/
namespace GrowthMap.Canon

open Relational Relation Fallible Table

/-! Guards -/

def arcs (es : List Edge) : List (String × String) :=
  (es.filter Edge.isContainment).map (fun e => (e.fromNodeId, e.toNodeId))

variable {f : Edge → Edge} {es : List Edge} {g₁ : Graph}

theorem arcs_map (hf : ∀ e, (f e).relationType = e.relationType ∧ (f e).fromNodeId = e.fromNodeId ∧
    (f e).toNodeId = e.toNodeId) (es : List Edge) : arcs (es.map f) = arcs es := by
  induction es with
  | nil => rfl
  | cons e es ih =>
    obtain ⟨hrel, hfrom, hto⟩ := hf e
    have hsame : (f e).isContainment = e.isContainment := by rw [Edge.isContainment, hrel, Edge.isContainment]
    simp only [arcs, List.map_cons, List.filter_cons, hsame] at ih ⊢
    by_cases hc : e.isContainment = true
    · simp only [hc, if_true, List.map_cons, hfrom, hto, ih]
    · simp only [hc]
      exact ih

theorem arcs_append (es es' : List Edge) : arcs (es ++ es') = arcs es ++ arcs es' := by
  simp [arcs]

theorem mem_arcs {a b : String} :
    (a, b) ∈ arcs es ↔ ∃ e ∈ es, e.isContainment = true ∧ e.fromNodeId = a ∧ e.toNodeId = b := by
  simp only [arcs, List.mem_map, List.mem_filter, Prod.mk.injEq]
  constructor
  · rintro ⟨e, ⟨he, hc⟩, hf, ht⟩
    exact ⟨e, he, hc, hf, ht⟩
  · rintro ⟨e, he, hc, hf, ht⟩
    exact ⟨e, ⟨he, hc⟩, hf, ht⟩

theorem arcs_patch (edges : Edges) {old new : Edge} {k : String} :
    arcs (edges.modify k (old.patch new) Edge.patch_key).rows = arcs edges.rows := by
  apply arcs_map
  intro e
  split
  · exact ⟨rfl, rfl, rfl⟩
  · exact ⟨rfl, rfl, rfl⟩

def Graph.branchOf (g : Graph) (x : String) : Option (Option String) := (g.nodes.get x).map Node.branchId

/-- The same containment, and the same branches. -/
structure Similar (g g' : Graph) : Prop where
  branches : ∀ x, g'.branchOf x = g.branchOf x
  arcs : arcs g'.edges.rows = arcs g.edges.rows

theorem Similar.trans {g₂ g₃ : Graph} (h₁ : Similar g₁ g₂) (h₂ : Similar g₂ g₃) : Similar g₁ g₃ :=
  ⟨fun x => (h₂.branches x).trans (h₁.branches x), h₂.arcs.trans h₁.arcs⟩

/-- What a guard lets through without a further condition: edges that are no containment, the
edge to a new node in the branch of its parent, and the copy of a subtree. -/
structure Policy (guard : Graph → List Edge → Prop) : Prop where
  similar : ∀ {g g' : Graph} {es : List Edge}, Similar g g' → guard g es → guard g' es
  loose : ∀ {g : Graph} {es : List Edge}, arcs es = [] → guard g es
  leaf : ∀ {g : Graph} {e : Edge}, (∀ x ∈ g.edges.rows, x.fromNodeId ≠ e.toNodeId ∧ x.toNodeId ≠ e.toNodeId) →
    e.fromNodeId ≠ e.toNodeId → g.branchOf e.fromNodeId = g.branchOf e.toNodeId → guard g [e]
  copy : ∀ {g : Graph} {es : List Edge} {l : List (String × String)} {f : String → Option String},
    arcs es = Forest.rename f l → l.Sublist (arcs g.edges.rows) → (∀ a b c, f a = some c → f b = some c → a = b) →
    (∀ a c, f a = some c → ∀ x ∈ g.edges.rows, x.fromNodeId ≠ c ∧ x.toNodeId ≠ c) →
    (∀ e ∈ es, g.branchOf e.fromNodeId = g.branchOf e.toNodeId) → guard g es

theorem policy_true : Policy (fun _ _ => True) :=
  ⟨fun _ _ => trivial, fun _ => trivial, fun _ _ _ => trivial, fun _ _ _ _ _ => trivial⟩

section Routes

variable {guard : Graph → List Edge → Prop} {g g' : Graph}

/-! Steps the routes share -/

variable {p x edgeId parentId projectId nodeId blockId : String} {r expectedProject expected : Int} {n : Node}
  {d : NodeMove} {l : Loaded} {old : Option Edge} {b : ContentBlock} {seats : Option Nat}

theorem claim_rows (h : claimProjectRevision p r g = .ok g') :
    g'.nodes = g.nodes ∧ g'.edges = g.edges ∧ g'.blocks = g.blocks ∧ g'.branches = g.branches := by
  obtain ⟨_, -, -, rfl⟩ := claimProjectRevision_ok h
  exact ⟨rfl, rfl, rfl, rfl⟩

theorem similar_claim (h : claimProjectRevision p r g = .ok g') : Similar g g' := by
  obtain ⟨hnodes, hedges, -, -⟩ := claim_rows h
  exact ⟨fun x => by rw [Graph.branchOf, hnodes]; rfl, by rw [hedges]⟩

theorem has_claim {q : String} (h : claimProjectRevision p r g = .ok g') (hx : g.Has q x) : g'.Has q x := by
  rw [Graph.Has, (claim_rows h).1]
  exact hx

theorem descendants_claim (h : claimProjectRevision p r g = .ok g') :
    g'.descendants x = g.descendants x := by
  obtain ⟨_, -, -, rfl⟩ := claimProjectRevision_ok h
  rfl

theorem Write.single (h : Write guard p g g') : Writes guard p g g' := ReflTransGen.single h

theorem ends_ne (hw : Wf g) {c : String} (hc : g.nodes.get c = none) (x : Edge) (hx : x ∈ g.edges.rows) :
    x.fromNodeId ≠ c ∧ x.toNodeId ≠ c := by
  obtain ⟨a, b, ha, hb, -, -⟩ := hw.edge x hx
  constructor
  · intro heq
    rw [heq, hc] at ha
    cases ha
  · intro heq
    rw [heq, hc] at hb
    cases hb

theorem fresh_ends (hw : Wf g) (h : insertNode n g = .ok g') (x : Edge) (hx : x ∈ g.edges.rows) :
    x.fromNodeId ≠ n.id ∧ x.toNodeId ≠ n.id := by
  obtain ⟨-, nodes, hins, -⟩ := insertNode_ok h
  exact ends_ne hw (insert_fresh hins) x hx

theorem has_insertNode (h : insertNode n g = .ok g') (hx : g.Has p x) : g'.Has p x := by
  obtain ⟨-, nodes, hins, rfl⟩ := insertNode_ok h
  obtain ⟨m, hm, rfl⟩ := hx
  exact ⟨m, get_insert_old hins hm, rfl⟩

theorem has_inserted (h : insertNode n g = .ok g') : g'.Has n.projectId n.id := by
  obtain ⟨-, nodes, hins, rfl⟩ := insertNode_ok h
  exact ⟨n, get_insert_self hins, rfl⟩

theorem truthy_inserted (hw : Wf g) (h : insertNode n g = .ok g') : truthy n.branchId = n.branchId := by
  cases hb : n.branchId with
  | none => rfl
  | some b =>
    obtain ⟨row, hrow⟩ := (insertNode_ok h).1 b hb
    have hne : b ≠ "" := get_key hrow ▸ hw.named row (get_mem hrow)
    simp [truthy, Option.filter, hne]

theorem truthy_branch (hw : Wf g) (hn : g.nodes.get x = some n) : truthy n.branchId = n.branchId := by
  cases hb : n.branchId with
  | none => rfl
  | some b =>
    obtain ⟨row, hrow, -⟩ := hw.branch n (get_mem hn) b hb
    have hne : b ≠ "" := get_key hrow ▸ hw.named row (get_mem hrow)
    simp [truthy, Option.filter, hne]

/-- A new node with its edge. -/
theorem writes_child (pol : Policy guard) (hw : Wf g) {parent : Node}
    (hnode : insertNode n g = .ok g₁) (hb : g.HasBranch n.projectId n.branchId)
    (hparent : g.nodes.get parentId = some parent) (hproject : parent.projectId = n.projectId)
    (hbranch : parent.branchId = n.branchId) (hchild : insertChild edgeId n.projectId parentId n.id g₁ = .ok g') :
    Writes guard n.projectId g g' ∧ g'.Has n.projectId parentId := by
  have hhas : g₁.Has n.projectId parentId := has_insertNode hnode ⟨parent, hparent, hproject⟩
  have hne : parentId ≠ n.id := by
    rintro rfl
    obtain ⟨-, nodes, hins, -⟩ := insertNode_ok hnode
    rw [insert_fresh hins] at hparent
    cases hparent
  have hedges : g₁.edges = g.edges := by
    obtain ⟨-, nodes, -, rfl⟩ := insertNode_ok hnode
    rfl
  have hsame : g₁.branchOf parentId = g₁.branchOf n.id := by
    obtain ⟨-, nodes, hins, rfl⟩ := insertNode_ok hnode
    simp only [Graph.branchOf, get_insert_old hins hparent, get_insert_self hins, Option.map_some, hbranch]
  have hwrite : Write guard n.projectId g₁ g' := by
    refine @Write.edges _ _ _ [_] _ ?_ ?_ (by rw [each_cons]; exact (bind_eq_ok.mpr ⟨g', hchild, rfl⟩))
    · intro e he
      rw [List.mem_singleton.mp he]
      exact ⟨rfl, hhas, has_inserted hnode⟩
    · exact pol.leaf (fun x hx => fresh_ends hw hnode x (hedges ▸ hx)) hne hsame
  refine ⟨(Write.node rfl hb hnode).single.tail hwrite, ?_⟩
  obtain ⟨-, edges, -, rfl⟩ := insertEdge_ok hchild
  exact hhas

/-! Nodes -/

theorem loadParent_ok {d : NodeCreate} {parent : Option Node}
    (h : loadParent (fun _ => g) projectId d = .ok parent) :
    (parent = none ∧ truthy d.parentId = none) ∨ ∃ x n, parent = some n ∧ truthy d.parentId = some x ∧ g.nodes.get x = some n ∧
      n.projectId = projectId ∧ d.expectedParentRevision = some (orOne n.revision) ∧ truthy n.branchId = truthy d.branchId := by
  unfold loadParent at h
  cases hx : truthy d.parentId with
  | none =>
    simp only [hx, Except.ok.injEq] at h
    exact .inl ⟨h.symm, rfl⟩
  | some x =>
    cases hn : g.nodes.get x with
    | none => simp [hx, hn] at h
    | some n =>
      simp only [hx, hn] at h
      obtain ⟨hproject, h⟩ := guard_ok h
      obtain ⟨hrevision, h⟩ := guard_ok h
      obtain ⟨hbranch, h⟩ := guard_ok h
      cases h
      exact .inr ⟨x, n, rfl, rfl, hn, by simpa using hproject, by simpa using hrevision, by simpa using hbranch⟩

theorem checkActiveBranch_ok {branchId : Option String} {u : Unit}
    (h : checkActiveBranch g projectId branchId = .ok u) (b : String) (hb : truthy branchId = some b) :
    ∃ row, g.branches.get b = some row ∧ row.projectId = projectId := by
  unfold checkActiveBranch at h
  simp only [hb] at h
  cases hrow : g.branches.get b with
  | none => simp [hrow] at h
  | some row =>
    simp only [hrow] at h
    obtain ⟨hno, -⟩ := guard_ok h
    exact ⟨row, rfl, by simpa using fun hne => hno (.inl hne)⟩

variable {uuid : Nat → String} {edge : Edge} {now : Int} {block : ContentBlock} {payload : ArtifactPayload}

theorem createNode_commit (pol : Policy guard) (hw : Wf g) {d : NodeCreate}
    (h : createNode (fun _ => g) uuid projectId d g = .ok g') :
    (∀ x, truthy d.parentId = some x → ∃ n, g.nodes.get x = some n ∧ d.expectedParentRevision = some (orOne n.revision)) ∧
      Commit guard g g' (some (projectId, d.expectedProjectRevision)) := by
  obtain ⟨-, h⟩ := guard_ok h
  obtain ⟨parent, hparent, h⟩ := bind_ok h
  obtain ⟨g₁, hclaim, h⟩ := bind_ok h
  obtain ⟨_, hactive, h⟩ := bind_ok h
  obtain ⟨g₂, hnode, h⟩ := bind_ok h
  have hw₁ := wf_claim hw hclaim
  have htruthy : truthy d.branchId = d.branchId := truthy_inserted hw₁ hnode
  have hb : g₁.HasBranch projectId d.branchId := fun b hb => checkActiveBranch_ok hactive b (htruthy.trans hb)
  rcases loadParent_ok hparent with ⟨rfl, hnone⟩ | ⟨x, n, rfl, hx, hn, hproject, hrevision, hbranch⟩
  · cases h
    exact ⟨by simp [hnone], .claimed hclaim (Write.node rfl hb hnode).single⟩
  · refine ⟨fun y hy => ⟨n, by rw [hx] at hy; cases hy; exact hn, hrevision⟩, .claimed hclaim ?_⟩
    obtain ⟨g₃, hchild, h⟩ := bind_ok h
    have hid : n.id = x := get_key hn
    subst hid
    have hn₁ : g₁.nodes.get n.id = some n := by rw [(claim_rows hclaim).1]; exact hn
    have hbranch : n.branchId = d.branchId := by rw [← truthy_branch hw hn, hbranch, htruthy]
    obtain ⟨hwrites, hhas⟩ := writes_child pol hw₁ hnode hb hn₁ hproject hbranch hchild
    exact hwrites.tail (.nodeRow hhas (by rfl) h)

theorem updateNode_commit {d : NodeUpdate} (h : updateNode (fun _ => g) nodeId d g = .ok g') :
    ∃ n, g.nodes.get nodeId = some n ∧ d.expectedRevision = orOne n.revision ∧
      Commit guard g g' (some (n.projectId, d.expectedProjectRevision)) := by
  unfold updateNode at h
  cases hn : g.nodes.get nodeId with
  | none => simp [hn] at h
  | some n =>
    simp only [hn] at h
    obtain ⟨g₁, hclaim, h⟩ := bind_ok h
    obtain ⟨_, hcheck, h⟩ := bind_ok h
    refine ⟨n, rfl, checkEntityRevision_ok hcheck, .claimed hclaim (Write.single ?_)⟩
    have hhas : g.Has n.projectId n.id := ⟨n, by rw [get_key hn]; exact hn, rfl⟩
    exact .nodeRow (has_claim hclaim hhas) (by rfl) h

theorem deleteNode_commit (hw : Wf g)
    (h : deleteNode (fun _ => g) nodeId expectedProject expected g = .ok g') :
    ∃ n, g.nodes.get nodeId = some n ∧ expected = orOne n.revision ∧ Commit guard g g' (some (n.projectId, expectedProject)) := by
  unfold deleteNode at h
  cases hn : g.nodes.get nodeId with
  | none => simp [hn] at h
  | some n =>
    simp only [hn] at h
    obtain ⟨hnotRoot, h⟩ := guard_ok h
    obtain ⟨_, hcheck, h⟩ := bind_ok h
    obtain ⟨_, -, h⟩ := bind_ok h
    obtain ⟨g₁, hclaim, h⟩ := bind_ok h
    obtain ⟨subtree, hclosure, h⟩ := bind_ok h
    cases h
    refine ⟨n, rfl, checkEntityRevision_ok hcheck, .claimed hclaim ?_⟩
    have hw₁ := wf_claim hw hclaim
    have hhas : ∀ x ∈ subtree, g₁.Has n.projectId x := fun x hx => ((closure_ok hclosure).2.1 x hx).has
    have hedges : Write guard n.projectId g₁
        (deleteEdges (fun e => decide (e.fromNodeId ∈ subtree ∨ e.toNodeId ∈ subtree)) g₁) := by
      refine .edgesGone ?_
      intro e he hin
      rcases of_decide_eq_true hin with hin | hin
      · exact (hw₁.from_has he).unique (hhas _ hin)
      · exact (hw₁.to_has he).unique (hhas _ hin)
    refine hedges.single.tail (.nodesGone hhas ?_)
    -- neither the node nor what is below it is the root of a project
    intro row hrow x hx hroot
    obtain ⟨row₀, hrow₀, -, rfl⟩ := claimProjectRevision_ok hclaim
    rcases closure_free hclosure x hx with rfl | hfree
    · apply hnotRoot
      have hget : row = row₀.claim := by
        have hmod := hrow
        simp only [deleteEdges] at hmod
        rw [get_modify, if_pos rfl, hrow₀] at hmod
        exact (Option.some.inj hmod).symm
      rw [hrow₀]
      rw [hget, get_key hn] at hroot
      simpa [Project.claim] using hroot
    · have hany := List.any_eq_false.mp hfree row (get_mem hrow)
      simp [hroot] at hany

/-! Edges -/

/-- Rows of edges of one project, written one after the other. -/
theorem writes_edgeRows (hp : ∀ e ∈ es, ∀ row, g.edges.get e.id = some row → row.projectId = p)
    (h : Fallible.each (fun e => flushEdge e (f e)) es g = .ok g') :
    Writes guard p g g' ∧ g'.nodes = g.nodes ∧ arcs g'.edges.rows = arcs g.edges.rows ∧
      ∀ x row', g'.edges.get x = some row' → ∃ row, g.edges.get x = some row ∧ row.projectId = row'.projectId := by
  refine each_invariant (I := fun s => Writes guard p g s ∧ s.nodes = g.nodes ∧ arcs s.edges.rows = arcs g.edges.rows ∧
    ∀ x row', s.edges.get x = some row' → ∃ row, g.edges.get x = some row ∧ row.projectId = row'.projectId) ?_
    ⟨.refl, rfl, rfl, fun _ row hrow => ⟨row, hrow, rfl⟩⟩ h
  rintro e he s s' ⟨hwrites, hnodes, harcs, hback⟩ hflush
  have hs' := flushEdge_ok hflush
  refine ⟨hwrites.tail (.edgeRow ?_ hflush), by rw [hs', hnodes], ?_, ?_⟩
  · intro row hrow
    obtain ⟨row₀, hrow₀, hproject⟩ := hback _ row hrow
    exact hproject ▸ hp e he row₀ hrow₀
  · rw [hs']
    exact (arcs_patch s.edges).trans harcs
  · intro x row' hrow
    rw [hs'] at hrow
    rcases get_modify_cases Edge.patch_key hrow with ⟨rfl, row, hrow₀, rfl⟩ | ⟨-, hrow⟩
    · exact hback _ row hrow₀
    · exact hback x row' hrow

theorem demote_writes (hw : Wf g) {p parentId : String} {except_ : Option String} (hp : g.Has p parentId)
    (h : demoteMainlineSiblings parentId except_ g = .ok g') :
    Writes guard p g g' ∧ g'.nodes = g.nodes ∧ arcs g'.edges.rows = arcs g.edges.rows ∧
      ∀ x row', g'.edges.get x = some row' → ∃ row, g.edges.get x = some row ∧ row.projectId = row'.projectId := by
  refine writes_edgeRows ?_ h
  intro e he row hrow
  obtain ⟨hmem, hsel⟩ := List.mem_filter.mp he
  rw [get_of_mem hmem] at hrow
  cases hrow
  simp only [Bool.and_eq_true, decide_eq_true_eq] at hsel
  have hfrom := hw.from_has hmem
  rw [hsel.1.1.1] at hfrom
  exact hfrom.unique hp

theorem similar_of_rows (hnodes : g'.nodes = g.nodes) (harcs : arcs g'.edges.rows = arcs g.edges.rows) : Similar g g' :=
  ⟨fun x => by rw [Graph.branchOf, hnodes]; rfl, harcs⟩

theorem each_single {e : Edge} (h : insertEdge e g = .ok g') : Fallible.each insertEdge [e] g = .ok g' := by
  rw [each_cons, h]
  rfl

def Edge.Joins (e : Edge) (a b : String) : Prop := e.isContainment = true ∧ e.fromNodeId = a ∧ e.toNodeId = b

theorem createEdge_commit (pol : Policy guard) (hw : Wf g) {d : EdgeCreate}
    (hguard : d.relationType = "child_of" → d.fromNodeId ≠ d.toNodeId → ∀ e : Edge, e.Joins d.fromNodeId d.toNodeId → guard g [e])
    (h : createEdge (fun _ => g) uuid d g = .ok g') :
    ∃ n, g.nodes.get d.fromNodeId = some n ∧ Commit guard g g' (some (n.projectId, d.expectedProjectRevision)) := by
  unfold createEdge at h
  cases ha : g.nodes.get d.fromNodeId with
  | none => simp [ha] at h
  | some source =>
    cases hb : g.nodes.get d.toNodeId with
    | none => simp [ha, hb] at h
    | some target =>
      simp only [ha, hb] at h
      obtain ⟨hproject, h⟩ := guard_ok h
      obtain ⟨hself, h⟩ := guard_ok h
      obtain ⟨-, h⟩ := guard_ok h
      obtain ⟨duplicate, -, h⟩ := bind_ok h
      obtain ⟨-, h⟩ := guard_ok h
      obtain ⟨g₁, hclaim, h⟩ := bind_ok h
      refine ⟨source, rfl, .claimed hclaim ?_⟩
      have hw₁ := wf_claim hw hclaim
      have hsource : g₁.Has source.projectId d.fromNodeId := has_claim hclaim ⟨source, ha, rfl⟩
      have htarget : g₁.Has source.projectId d.toNodeId := has_claim hclaim ⟨target, hb, (not_not.mp hproject).symm⟩
      have hdemoted : ∃ g₂, (Writes guard source.projectId g₁ g₂ ∧ g₂.nodes = g₁.nodes ∧
          arcs g₂.edges.rows = arcs g₁.edges.rows) ∧ insertEdge ⟨uuid 0, source.projectId, d.fromNodeId, d.toNodeId,
            d.relationType, d.weight, d.note, d.isMainline, 1⟩ g₂ = .ok g' := by
        split at h
        · obtain ⟨g₂, hdemote, h⟩ := bind_ok h
          obtain ⟨hwrites, hnodes, harcs, -⟩ := @demote_writes guard _ _ hw₁ _ _ _ hsource hdemote
          exact ⟨g₂, ⟨hwrites, hnodes, harcs⟩, h⟩
        · exact ⟨g₁, ⟨.refl, rfl, rfl⟩, h⟩
      obtain ⟨g₂, ⟨hwrites, hnodes, harcs⟩, h⟩ := hdemoted
      refine hwrites.tail (.edges ?_ ?_ (each_single h))
      · intro e he
        rw [List.mem_singleton.mp he]
        rw [Graph.Has, Graph.Has, hnodes]
        exact ⟨rfl, hsource, htarget⟩
      · by_cases hc : d.relationType = "child_of"
        · apply pol.similar ((similar_claim hclaim).trans (similar_of_rows hnodes harcs))
          exact hguard hc hself _ ⟨by simp [Edge.isContainment, hc], rfl, rfl⟩
        · exact pol.loose (by simp [arcs, Edge.isContainment, hc])

theorem edge_project (he : g.edges.get edgeId = some edge)
    (hclaim : claimProjectRevision p r g = .ok g₁) (row : Edge) (hrow : g₁.edges.get edge.id = some row) :
    row.projectId = edge.projectId := by
  rw [(claim_rows hclaim).2.1, get_key he, he] at hrow
  cases hrow
  rfl

theorem updateEdge_commit {d : EdgeUpdate} (h : updateEdge (fun _ => g) edgeId d g = .ok g') :
    ∃ e, g.edges.get edgeId = some e ∧ d.expectedRevision = orOne e.revision ∧
      Commit guard g g' (some (e.projectId, d.expectedProjectRevision)) := by
  unfold updateEdge at h
  cases he : g.edges.get edgeId with
  | none => simp [he] at h
  | some e =>
    simp only [he] at h
    obtain ⟨-, h⟩ := guard_ok h
    obtain ⟨g₁, hclaim, h⟩ := bind_ok h
    obtain ⟨_, hcheck, h⟩ := bind_ok h
    obtain ⟨-, h⟩ := guard_ok h
    obtain ⟨-, h⟩ := guard_ok h
    obtain ⟨-, h⟩ := guard_ok h
    exact ⟨e, rfl, checkEntityRevision_ok hcheck, .claimed hclaim (Write.single (.edgeRow (edge_project he hclaim) h))⟩

theorem promote_commit (hw : Wf g)
    (he : g.edges.get edgeId = some edge) (h : promote edge expectedProject expected g = .ok g') :
    expected = orOne edge.revision ∧ Commit guard g g' (some (edge.projectId, expectedProject)) := by
  obtain ⟨g₁, hclaim, h⟩ := bind_ok h
  obtain ⟨_, hcheck, h⟩ := bind_ok h
  obtain ⟨g₂, hdemote, h⟩ := bind_ok h
  refine ⟨checkEntityRevision_ok hcheck, .claimed hclaim ?_⟩
  have hw₁ := wf_claim hw hclaim
  have hparent := has_claim hclaim (hw.from_has (get_mem he))
  obtain ⟨hwrites, -, -, hrows⟩ := demote_writes hw₁ hparent hdemote
  refine hwrites.tail (.edgeRow ?_ h)
  intro row hrow
  obtain ⟨row₁, hrow₁, hproject⟩ := hrows edge.id row hrow
  rw [← hproject]
  exact edge_project he hclaim row₁ hrow₁

theorem promoteMainline_commit (hw : Wf g)
    (h : promoteMainline (fun _ => g) edgeId expectedProject expected g = .ok g') :
    ∃ e, g.edges.get edgeId = some e ∧ expected = orOne e.revision ∧ Commit guard g g' (some (e.projectId, expectedProject)) := by
  unfold promoteMainline at h
  cases he : g.edges.get edgeId with
  | none => simp [he] at h
  | some e =>
    simp only [he] at h
    obtain ⟨-, h⟩ := guard_ok h
    exact ⟨e, rfl, promote_commit hw he h⟩

theorem oneOrNone_ok {α : Type} {l : List α} {x : Option α} (h : oneOrNone l = .ok x) : l = x.toList := by
  match l with
  | [] =>
    cases h
    rfl
  | [_] =>
    cases h
    rfl
  | _ :: _ :: _ => cases h

theorem promoteChildMainline_commit (hw : Wf g) {childId : String}
    (h : promoteChildMainline (fun _ => g) parentId childId expectedProject expected g = .ok g') :
    ∃ e, (g.childEdges parentId).filter (fun e => decide (e.toNodeId = childId)) = [e] ∧ g.edges.get e.id = some e ∧
      expected = orOne e.revision ∧ Commit guard g g' (some (e.projectId, expectedProject)) := by
  obtain ⟨found, hfound, h⟩ := bind_ok h
  have hlist := oneOrNone_ok hfound
  cases found with
  | none => cases h
  | some e =>
    have hmem : e ∈ g.edges.rows := by
      have : e ∈ (g.childEdges parentId).filter (fun e => decide (e.toNodeId = childId)) := by simp [hlist]
      exact List.mem_of_mem_filter (List.mem_of_mem_filter this)
    have he := get_of_mem hmem
    exact ⟨e, hlist, he, promote_commit hw he h⟩

theorem deleteEdge_commit (h : deleteEdge (fun _ => g) edgeId expectedProject expected g = .ok g') :
    ∃ e, g.edges.get edgeId = some e ∧ expected = orOne e.revision ∧ Commit guard g g' (some (e.projectId, expectedProject)) := by
  unfold deleteEdge at h
  cases he : g.edges.get edgeId with
  | none => simp [he] at h
  | some e =>
    simp only [he] at h
    obtain ⟨-, h⟩ := guard_ok h
    obtain ⟨g₁, hclaim, h⟩ := bind_ok h
    obtain ⟨_, hcheck, h⟩ := bind_ok h
    cases h
    refine ⟨e, rfl, checkEntityRevision_ok hcheck, .claimed hclaim (Write.single (.edgesGone ?_))⟩
    intro x hx hid
    have hid : x.id = e.id := of_decide_eq_true hid
    exact edge_project he hclaim x (hid ▸ get_of_mem hx)

/-! Moves -/

theorem writes_nodeRows {f : Node → Node} (hf : ∀ n, (f n).branchId = n.branchId) {ns : List Node}
    (hp : ∀ n ∈ ns, g.Has p n.id) (h : Fallible.each (fun n => flushNode n (f n)) ns g = .ok g') : Writes guard p g g' := by
  induction ns generalizing g with
  | nil =>
    cases h
    exact .refl
  | cons n ns ih =>
    obtain ⟨g₁, hn, h⟩ := bind_ok h
    refine .head (.nodeRow (hp n List.mem_cons_self) (hf n) hn) (ih ?_ h)
    intro x hx
    rw [flushNode_ok hn]
    exact (keepsNodes_update g.nodes Node.patch_key (fun _ => rfl)).has (hp x (List.mem_cons_of_mem _ hx))

/-- What a move has loaded. -/
structure Loaded.Of (l : Loaded) (g : Graph) (nodeId newParentId : String) : Prop where
  node : g.nodes.get nodeId = some l.node
  newParent : g.nodes.get newParentId = some l.newParent
  project : l.newParent.projectId = l.node.projectId
  oldEdge : g.parentEdges nodeId = l.oldEdge.toList
  oldParent : l.oldParent = l.oldEdge.bind (fun e => g.nodes.get e.fromNodeId)

theorem loadMove_ok {root missing foreign : Err}
    (h : loadMove root missing foreign (fun _ => g) nodeId d = .ok l) : l.Of g nodeId d.newParentId := by
  unfold loadMove at h
  cases hn : g.nodes.get nodeId with
  | none => simp [hn] at h
  | some =>
    simp only [hn] at h
    obtain ⟨-, h⟩ := guard_ok h
    cases hp : g.nodes.get d.newParentId with
    | none => simp [hp] at h
    | some =>
      simp only [hp] at h
      obtain ⟨hproject, h⟩ := guard_ok h
      obtain ⟨oldEdge, hold, h⟩ := bind_ok h
      cases h
      exact ⟨hn, hp, not_not.mp hproject, oneOrNone_ok hold, rfl⟩

theorem checkMove_ok {u : Unit} (h : checkMove l d = .ok u) :
    d.expectedRevision = orOne l.node.revision ∧ d.expectedNewParentRevision = orOne l.newParent.revision ∧
      ∀ old, l.oldParent = some old → d.expectedOldParentRevision = some (orOne old.revision) := by
  obtain ⟨_, hnode, h⟩ := bind_ok h
  obtain ⟨_, hparent, h⟩ := bind_ok h
  refine ⟨checkEntityRevision_ok hnode, checkEntityRevision_ok hparent, ?_⟩
  intro old hold
  simp only [hold] at h
  cases hexpected : d.expectedOldParentRevision with
  | none => simp [hexpected] at h
  | some =>
    simp only [hexpected] at h
    rw [checkEntityRevision_ok h]

def detach (x : String) (g : Graph) : Graph := deleteEdges (fun e => e.isContainment && decide (e.toNodeId = x)) g

/-- Deleting the one edge into a node detaches it. -/
theorem detach_rows (hold : g.parentEdges x = old.toList) :
    (deleteEdges (fun e => decide (some e.id = old.map Edge.id)) g).edges.rows = (detach x g).edges.rows := by
  show g.edges.rows.filter (fun e => !decide (some e.id = old.map Edge.id)) =
    g.edges.rows.filter (fun e => !(e.isContainment && decide (e.toNodeId = x)))
  apply List.filter_congr
  intro e he
  have hiff : some e.id = old.map Edge.id ↔ e ∈ g.parentEdges x := by
    rw [hold]
    cases old with
    | none => simp
    | some o =>
      have ho : o ∈ g.edges.rows := List.mem_of_mem_filter (p := fun e => e.isContainment && decide (e.toNodeId = x))
        (by show o ∈ g.parentEdges x; simp [hold])
      simp only [Option.map_some, Option.some.injEq, Option.toList_some, List.mem_singleton]
      constructor
      · intro hid
        have hget := get_of_mem he
        rw [hid, get_of_mem ho] at hget
        exact (Option.some.inj hget).symm
      · rintro rfl
        rfl
  have hin : e ∈ g.parentEdges x ↔ (e.isContainment && decide (e.toNodeId = x)) = true := by
    simp only [Graph.parentEdges, List.mem_filter]
    exact ⟨fun h => h.2, fun h => ⟨he, h⟩⟩
  rw [hin] at hiff
  by_cases hc : (e.isContainment && decide (e.toNodeId = x)) = true
  · simp [hc, hiff.mpr hc]
  · have hno : ¬ some e.id = old.map Edge.id := fun h => hc (hiff.mp h)
    simp [hno, Bool.not_eq_true _ ▸ hc]

theorem similar_detach (hold : g.parentEdges x = old.toList) :
    Similar (detach x g) (deleteEdges (fun e => decide (some e.id = old.map Edge.id)) g) :=
  ⟨fun _ => rfl, by rw [detach_rows hold]⟩

/-- The edges of a project, and the one a move deletes. -/
theorem replaceParent_writes (pol : Policy guard) (hw : Wf g) {newParentId : String}
    (hl : l.Of g nodeId newParentId) (hguard : ∀ e : Edge, e.Joins newParentId nodeId → guard (detach nodeId g) [e])
    (h : replaceParent uuid l g = .ok g') : Writes guard l.node.projectId g g' := by
  obtain ⟨g₃, hchild, h⟩ := bind_ok h
  have hnode : g.Has l.node.projectId nodeId := ⟨_, hl.node, rfl⟩
  have hparent : g.Has l.node.projectId newParentId := ⟨_, hl.newParent, hl.project⟩
  have hid : l.node.id = nodeId := get_key hl.node
  have hid' : l.newParent.id = newParentId := get_key hl.newParent
  have hold : ∀ e, l.oldEdge = some e → e ∈ g.edges.rows ∧ e.projectId = l.node.projectId := by
    intro e he
    have hmem : e ∈ g.parentEdges nodeId := by rw [hl.oldEdge, he]; simp
    obtain ⟨hrow, hsel⟩ := List.mem_filter.mp hmem
    have hto : e.toNodeId = nodeId := by simpa using (Bool.and_eq_true_iff.mp hsel).2
    have hhas := hw.to_has hrow
    rw [hto] at hhas
    exact ⟨hrow, hhas.unique hnode⟩
  have hgone : Write guard l.node.projectId g (deleteEdges (fun e => decide (some e.id = l.oldEdge.map Edge.id)) g) := by
    refine .edgesGone ?_
    intro e he hdel
    cases hedge : l.oldEdge with
    | none => simp [hedge] at hdel
    | some o =>
      obtain ⟨hrow, hproject⟩ := hold o hedge
      have hids : e.id = o.id := by simpa [hedge] using hdel
      have hget := get_of_mem he
      rw [hids, get_of_mem hrow] at hget
      cases hget
      exact hproject
  have hadd : Write guard l.node.projectId (deleteEdges (fun e => decide (some e.id = l.oldEdge.map Edge.id)) g) g₃ := by
    refine .edges ?_ ?_ (each_single hchild)
    · intro e he
      rw [List.mem_singleton.mp he]
      exact ⟨rfl, hid'.symm ▸ hparent, hid.symm ▸ hnode⟩
    · exact pol.similar (similar_detach hl.oldEdge) (hguard _ ⟨rfl, hid', hid⟩)
  refine (hgone.single.tail hadd).trans
    (writes_nodeRows (f := fun n => { n with revision := bumped n.revision }) (fun _ => rfl) ?_ h)
  -- every node a move touches was loaded
  have hnodes : g₃.nodes = g.nodes := by
    obtain ⟨-, edges, -, rfl⟩ := insertEdge_ok hchild
    rfl
  intro n hn
  rw [Graph.Has, hnodes]
  have hn := List.pwFilter_subset _ hn
  rcases List.mem_cons.mp hn with rfl | hn
  · exact hid.symm ▸ hnode
  · rcases List.mem_append.mp (List.mem_of_mem_filter hn) with hn | hn
    · rw [Option.mem_toList, hl.oldParent] at hn
      obtain ⟨e, he, hfrom⟩ := Option.bind_eq_some_iff.mp hn
      obtain ⟨hrow, hproject⟩ := hold e he
      have hhas := hw.from_has hrow
      rw [hproject, ← get_key hfrom] at hhas
      exact hhas
    · rw [List.mem_singleton.mp hn]
      exact hid'.symm ▸ hparent

theorem move_commit (pol : Policy guard) (hw : Wf g) (hl : l.Of g nodeId d.newParentId)
    (hclaim : claimProjectRevision l.node.projectId d.expectedProjectRevision g = .ok g₁)
    (hguard : ∀ e : Edge, e.Joins d.newParentId nodeId → guard (detach nodeId g) [e])
    (h : replaceParent uuid l g₁ = .ok g') :
    Commit guard g g' (some (l.node.projectId, d.expectedProjectRevision)) := by
  obtain ⟨hnodes, hedges, -, -⟩ := claim_rows hclaim
  have hl₁ : l.Of g₁ nodeId d.newParentId := by
    refine ⟨hnodes ▸ hl.node, hnodes ▸ hl.newParent, hl.project, ?_, hnodes ▸ hl.oldParent⟩
    rw [Graph.parentEdges, hedges]
    exact hl.oldEdge
  refine .claimed hclaim (replaceParent_writes pol (wf_claim hw hclaim) hl₁ ?_ h)
  · intro e he
    refine pol.similar ⟨fun x => ?_, ?_⟩ (hguard e he)
    · show (g₁.nodes.get x).map Node.branchId = _
      rw [hnodes]
      rfl
    · simp only [detach, deleteEdges, hedges]

/-- What is loaded, and that the node is not the root of its project. -/
structure Movable (g : Graph) (nodeId newParentId : String) (l : Loaded) : Prop where
  loaded : l.Of g nodeId newParentId
  below : ∀ p, g.projects.get l.node.projectId = some p → p.rootNodeId ≠ some nodeId

theorem loadMove_iff {root missing foreign : Err} {l : Loaded} :
    loadMove root missing foreign (fun _ => g) nodeId d = .ok l ↔ Movable g nodeId d.newParentId l := by
  constructor
  · intro h
    refine ⟨loadMove_ok h, ?_⟩
    have hnode := (loadMove_ok h).node
    unfold loadMove at h
    simp only [hnode] at h
    have hroot := (Fallible.guard_ok h).1
    intro p hp hself
    exact hroot (by rw [hp, Option.any_some]; exact decide_eq_true hself)
  · rintro ⟨⟨hnode, hparent, hproject, hedge, hold⟩, hbelow⟩
    have hroot : ¬ (g.projects.get l.node.projectId).any (fun p => decide (p.rootNodeId = some nodeId)) = true := by
      cases hp : g.projects.get l.node.projectId with
      | none => simp
      | some p => simpa using hbelow p hp
    have hone : oneOrNone (g.parentEdges nodeId) = .ok l.oldEdge := by
      rw [hedge]
      cases l.oldEdge with
      | none => rfl
      | some => rfl
    unfold loadMove
    simp only [hnode, hparent]
    rw [if_neg hroot, if_neg (not_not.mpr hproject), hone, ok_bind]
    obtain ⟨node, newParent, oldEdge, oldParent⟩ := l
    dsimp only at hold
    rw [hold]
    rfl

theorem moveNode_iff : moveNode (fun _ => g) uuid nodeId d g = .ok g' ↔
    ∃ l g₁, Movable g nodeId d.newParentId l ∧ checkMove l d = .ok () ∧
      claimProjectRevision l.node.projectId d.expectedProjectRevision g = .ok g₁ ∧
      d.newParentId ∉ g.descendants nodeId ∧ replaceParent uuid l g₁ = .ok g' := by
  unfold moveNode
  simp only [bind_eq_ok, guard_eq_ok, loadMove_iff]
  constructor
  · rintro ⟨l, hl, ⟨⟩, hcheck, g₁, hclaim, hbelow, h⟩
    exact ⟨l, g₁, hl, hcheck, hclaim, descendants_claim hclaim ▸ hbelow, h⟩
  · rintro ⟨l, g₁, hl, hcheck, hclaim, hbelow, h⟩
    exact ⟨l, hl, (), hcheck, g₁, hclaim, (descendants_claim hclaim).symm ▸ hbelow, h⟩

theorem reparentNode_iff : reparentNode (fun _ => g) uuid nodeId d g = .ok g' ↔
    d.newParentId ≠ nodeId ∧ moveNode (fun _ => g) uuid nodeId d g = .ok g' := by
  rw [moveNode_iff]
  unfold reparentNode
  simp only [bind_eq_ok, guard_eq_ok, loadMove_iff, not_or]
  constructor
  · rintro ⟨l, hl, ⟨⟩, hcheck, g₁, hclaim, ⟨hbelow, hne⟩, h⟩
    exact ⟨hne, l, g₁, hl, hcheck, hclaim, descendants_claim hclaim ▸ hbelow, h⟩
  · rintro ⟨hne, l, g₁, hl, hcheck, hclaim, hbelow, h⟩
    exact ⟨l, hl, (), hcheck, g₁, hclaim, ⟨(descendants_claim hclaim).symm ▸ hbelow, hne⟩, h⟩

theorem moveNode_commit (pol : Policy guard) (hw : Wf g)
    (hguard : d.newParentId ∉ g.descendants nodeId → (g.parentEdges nodeId).length ≤ 1 →
      ∀ e : Edge, e.Joins d.newParentId nodeId → guard (detach nodeId g) [e])
    (h : moveNode (fun _ => g) uuid nodeId d g = .ok g') :
    ∃ l : Loaded, l.Of g nodeId d.newParentId ∧ checkMove l d = .ok () ∧
      Commit guard g g' (some (l.node.projectId, d.expectedProjectRevision)) := by
  obtain ⟨l, g₁, ⟨hl, -⟩, hcheck, hclaim, hdesc, h⟩ := moveNode_iff.mp h
  refine ⟨l, hl, hcheck, move_commit pol hw hl hclaim (hguard hdesc ?_) h⟩
  rw [hl.oldEdge]
  exact Option.length_toList_le

/-! Blocks -/

/-- Rows of blocks, written one after the other. -/
theorem writes_blockRows {β : Type} {old new : β → ContentBlock} {p : String} {bs : List β}
    (hp : ∀ b ∈ bs, ∀ row, g.blocks.get (old b).id = some row → g.Has p row.nodeId)
    (h : Fallible.each (fun b => flushBlock (old b) (new b)) bs g = .ok g') :
    Writes guard p g g' ∧ g'.nodes = g.nodes ∧
      ∀ x row', g'.blocks.get x = some row' → ∃ row, g.blocks.get x = some row ∧ row.nodeId = row'.nodeId := by
  refine each_invariant (I := fun s => Writes guard p g s ∧ s.nodes = g.nodes ∧
    ∀ x row', s.blocks.get x = some row' → ∃ row, g.blocks.get x = some row ∧ row.nodeId = row'.nodeId) ?_
    ⟨.refl, rfl, fun _ row hrow => ⟨row, hrow, rfl⟩⟩ h
  rintro b hb s s' ⟨hwrites, hnodes, hback⟩ hflush
  have hs' := flushBlock_ok hflush
  refine ⟨hwrites.tail (.blockRow ?_ hflush), by rw [hs', hnodes], ?_⟩
  · intro row hrow
    obtain ⟨row₀, hrow₀, hnode⟩ := hback _ row hrow
    rw [← hnode, Graph.Has, hnodes]
    exact hp b hb row₀ hrow₀
  · intro x row' hrow
    rw [hs'] at hrow
    rcases get_modify_cases ContentBlock.patch_key hrow with ⟨rfl, row, hrow₀, rfl⟩ | ⟨-, hrow⟩
    · exact hback _ row hrow₀
    · exact hback x row' hrow

theorem mem_orderedBlocks :
    b ∈ orderedBlocks g nodeId ↔ b ∈ g.blocks.rows ∧ b.nodeId = nodeId := by
  simp [orderedBlocks]

theorem rewriteBlockOrder_writes {p nodeId : String} {alwaysBump : Option String} {bs : List (ContentBlock × ContentBlock)}
    (hnode : g.Has p nodeId) (hbs : ∀ b ∈ bs, b.1 ∈ g.blocks.rows ∧ b.1.nodeId = nodeId)
    (h : rewriteBlockOrder alwaysBump bs g = .ok g') :
    Writes guard p g g' ∧ g'.nodes = g.nodes ∧
      ∀ x row', g'.blocks.get x = some row' → ∃ row, g.blocks.get x = some row ∧ row.nodeId = row'.nodeId := by
  refine @writes_blockRows _ _ _ _ (fun b : (ContentBlock × ContentBlock) × Nat => b.1.1)
    (fun b => reorder alwaysBump b.1.2 b.2) _ _ ?_ h
  intro b hb row hrow
  obtain ⟨hmem, hid⟩ := hbs b.1 (List.fst_mem_of_mem_zipIdx hb)
  rw [get_of_mem hmem] at hrow
  cases hrow
  rw [hid]
  exact hnode

theorem createBlock_commit {d : BlockCreate}
    (h : createBlock (fun _ => g) uuid now nodeId d g = .ok g') :
    ∃ n, g.nodes.get nodeId = some n ∧ d.expectedNodeRevision = orOne n.revision ∧
      Commit guard g g' (some (n.projectId, d.expectedProjectRevision)) := by
  unfold createBlock at h
  cases hn : g.nodes.get nodeId with
  | none => simp [hn] at h
  | some n =>
    simp only [hn] at h
    obtain ⟨g₁, hclaim, h⟩ := bind_ok h
    obtain ⟨_, hcheck, h⟩ := bind_ok h
    obtain ⟨g₂, horder, h⟩ := bind_ok h
    obtain ⟨g₃, hblock, h⟩ := bind_ok h
    refine ⟨n, rfl, checkEntityRevision_ok hcheck, .claimed hclaim ?_⟩
    have hid : n.id = nodeId := get_key hn
    have hhas₁ : g₁.Has n.projectId nodeId := has_claim hclaim ⟨n, hn, rfl⟩
    have hbs : ∀ b ∈ (orderedBlocks g₁ nodeId).map (fun b => (b, b)), b.1 ∈ g₁.blocks.rows ∧ b.1.nodeId = nodeId := by
      intro b hb
      obtain ⟨x, hx, rfl⟩ := List.mem_map.mp hb
      exact mem_orderedBlocks.mp hx
    obtain ⟨hwrites, hnodes, -⟩ := rewriteBlockOrder_writes hhas₁ hbs horder
    have hhas₂ : g₂.Has n.projectId nodeId := by rw [Graph.Has, hnodes]; exact hhas₁
    have hhas₃ : g₃.Has n.projectId n.id := by
      obtain ⟨blocks, -, rfl⟩ := insertBlock_ok hblock
      exact hid.symm ▸ hhas₂
    exact (hwrites.tail (.block hhas₂ hblock)).tail (.nodeRow hhas₃ (by rfl) h)

theorem loadBlock_ok (h : loadBlock (fun _ => g) blockId = .ok (block, n)) :
    g.blocks.get blockId = some block ∧ g.nodes.get block.nodeId = some n := by
  unfold loadBlock at h
  cases hb : g.blocks.get blockId with
  | none => simp [hb] at h
  | some b =>
    cases hn : g.nodes.get b.nodeId with
    | none => simp [hb, hn] at h
    | some =>
      simp only [hb, hn, Except.ok.injEq, Prod.mk.injEq] at h
      obtain ⟨rfl, rfl⟩ := h
      exact ⟨rfl, hn⟩

theorem mem_held_others
    (h : b ∈ (held block (orderedBlocks g nodeId)).filter (fun b => decide (b.id ≠ block.id))) :
    b ∈ g.blocks.rows ∧ b.nodeId = nodeId := by
  obtain ⟨hmem, hne⟩ := List.mem_filter.mp h
  obtain ⟨x, hx, rfl⟩ := List.mem_map.mp hmem
  by_cases hid : x.id = block.id
  · simp [hid] at hne
  · rw [if_neg hid]
    exact mem_orderedBlocks.mp hx

theorem updateBlock_commit {d : BlockUpdate} (h : updateBlock (fun _ => g) blockId d g = .ok g') :
    ∃ b n, g.blocks.get blockId = some b ∧ g.nodes.get b.nodeId = some n ∧ d.expectedRevision = orOne b.revision ∧
      d.expectedNodeRevision = orOne n.revision ∧ Commit guard g g' (some (n.projectId, d.expectedProjectRevision)) := by
  obtain ⟨⟨block, n⟩, hload, h⟩ := bind_ok h
  obtain ⟨hb, hn⟩ := loadBlock_ok hload
  obtain ⟨g₁, hclaim, h⟩ := bind_ok h
  obtain ⟨_, hcheck, h⟩ := bind_ok h
  obtain ⟨_, hcheck', h⟩ := bind_ok h
  refine ⟨block, n, hb, hn, checkEntityRevision_ok hcheck, checkEntityRevision_ok hcheck', .claimed hclaim ?_⟩
  have hid : n.id = block.nodeId := get_key hn
  have hhas : g₁.Has n.projectId n.id := has_claim hclaim ⟨n, hid.symm ▸ hn, rfl⟩
  cases hidx : (held block (orderedBlocks g₁ n.id)).findIdx? (fun b => decide (b.id = block.id)) with
  | none => simp [hidx] at h
  | some =>
    simp only [hidx] at h
    obtain ⟨-, h⟩ := guard_ok h
    obtain ⟨g₂, horder, h⟩ := bind_ok h
    have hblock : block ∈ g₁.blocks.rows := by rw [(claim_rows hclaim).2.2.1]; exact get_mem hb
    obtain ⟨hwrites, hnodes, -⟩ := @rewriteBlockOrder_writes guard _ _ _ _ _ _ hhas (by
      intro b hmem
      rcases List.eq_or_mem_of_mem_insertIdx hmem with rfl | hmem
      · exact ⟨hblock, hid.symm⟩
      · obtain ⟨b, hb, rfl⟩ := List.mem_map.mp hmem
        exact mem_held_others hb) horder
    have hhas₂ : g₂.Has n.projectId n.id := by rw [Graph.Has, hnodes]; exact hhas
    exact hwrites.tail (.nodeRow hhas₂ (by rfl) h)

theorem deleteBlock_commit {expectedNode : Int}
    (h : deleteBlock (fun _ => g) blockId expectedProject expectedNode expected g = .ok g') :
    ∃ b n, g.blocks.get blockId = some b ∧ g.nodes.get b.nodeId = some n ∧ expected = orOne b.revision ∧
      expectedNode = orOne n.revision ∧ Commit guard g g' (some (n.projectId, expectedProject)) := by
  obtain ⟨⟨block, n⟩, hload, h⟩ := bind_ok h
  obtain ⟨hb, hn⟩ := loadBlock_ok hload
  obtain ⟨g₁, hclaim, h⟩ := bind_ok h
  obtain ⟨_, hcheck, h⟩ := bind_ok h
  obtain ⟨_, hcheck', h⟩ := bind_ok h
  obtain ⟨g₂, horder, h⟩ := bind_ok h
  obtain ⟨g₃, hflush, h⟩ := bind_ok h
  cases h
  refine ⟨block, n, hb, hn, checkEntityRevision_ok hcheck, checkEntityRevision_ok hcheck', .claimed hclaim ?_⟩
  have hid : n.id = block.nodeId := get_key hn
  have hhas : g₁.Has n.projectId n.id := has_claim hclaim ⟨n, hid.symm ▸ hn, rfl⟩
  obtain ⟨hwrites, hnodes, hrows⟩ := @rewriteBlockOrder_writes guard _ _ _ _ _ _ hhas (by
    intro b hmem
    obtain ⟨b, hb, rfl⟩ := List.mem_map.mp hmem
    exact mem_orderedBlocks.mp (List.mem_of_mem_filter hb)) horder
  have hhas₂ : g₂.Has n.projectId n.id := by rw [Graph.Has, hnodes]; exact hhas
  refine (hwrites.tail (.nodeRow hhas₂ (by rfl) hflush)).tail (.blocksGone ?_)
  -- the block that goes is the one that was loaded
  have hg₃ := flushNode_ok hflush
  intro b hmem hgone
  have hgone : b.id = block.id := by simpa using hgone
  have hblocks : g₃.blocks = g₂.blocks := by rw [hg₃]
  rw [hblocks] at hmem
  obtain ⟨row, hrow, hnode⟩ := hrows b.id b (get_of_mem hmem)
  rw [(claim_rows hclaim).2.2.1, hgone, get_key hb, hb] at hrow
  cases hrow
  rw [← hnode, ← hid, hg₃]
  exact (keepsNodes_update g₂.nodes Node.patch_key (fun _ => rfl)).has hhas₂

/-! Projects -/

theorem createProject_commit {d : ProjectCreate}
    (h : createProject (fun _ => g) uuid seats d g = .ok g') : Commit guard g g' none := by
  obtain ⟨_, -, h⟩ := bind_ok h
  obtain ⟨g₁, hins, h⟩ := bind_ok h
  obtain ⟨g₂, hnode, h⟩ := bind_ok h
  refine .created rfl rfl hins ((Write.node rfl (by intro b hb; cases hb) hnode).single.tail (.projectRow rfl ?_ h))
  obtain ⟨-, nodes, hins, rfl⟩ := insertNode_ok hnode
  exact .inr ⟨uuid 1, rfl, _, get_insert_self hins, rfl, rfl⟩

theorem updateProject_commit
    {changes : List (ProjectField × Value)} (h : updateProject (fun _ => g) seats projectId expectedProject changes g = .ok g') :
    Commit guard g g' (some (projectId, expectedProject)) := by
  unfold updateProject at h
  cases hrow : g.projects.get projectId with
  | none => simp [hrow] at h
  | some row =>
    simp only [hrow] at h
    obtain ⟨g₁, hclaim, h⟩ := bind_ok h
    have hflush : ∃ new, flushProject row new g₁ = .ok g' ∧ new.rootNodeId = row.rootNodeId := by
      split at h
      · obtain ⟨_, -, h⟩ := bind_ok h
        exact ⟨_, h, rfl⟩
      · exact ⟨_, h, rfl⟩
    obtain ⟨new, hflush, hroot⟩ := hflush
    exact .claimed hclaim (Write.single (.projectRow (get_key hrow) (.inl hroot) hflush))

theorem deleteProject_commit (h : deleteProject (fun _ => g) projectId expectedProject g = .ok g') :
    Commit guard g g' (some (projectId, expectedProject)) := by
  unfold deleteProject at h
  cases hrow : g.projects.get projectId with
  | none => simp [hrow] at h
  | some =>
    simp only [hrow] at h
    obtain ⟨g₁, hclaim, h⟩ := bind_ok h
    cases h
    exact .deleted hclaim rfl

/-! Artifacts -/

theorem applyArtifact_writes (pol : Policy guard) (hw : Wf g) {target : Node}
    (ht : g.nodes.get x = some target) (h : applyArtifact uuid now target payload g = .ok g') :
    Writes guard target.projectId g g' := by
  have hid : target.id = x := get_key ht
  subst hid
  have hhas : g.Has target.projectId target.id := ⟨target, ht, rfl⟩
  cases payload with
  | createChild =>
    obtain ⟨g₁, hnode, h⟩ := bind_ok h
    obtain ⟨g₂, hchild, h⟩ := bind_ok h
    have hb : g.HasBranch target.projectId target.branchId := hw.branch target (get_mem ht)
    obtain ⟨hwrites, hhas₂⟩ := writes_child pol hw hnode hb ht rfl rfl hchild
    exact hwrites.tail (.nodeRow hhas₂ (by rfl) h)
  | updateNode => exact Write.single (.nodeRow hhas (by rfl) h)
  | createBlock =>
    obtain ⟨g₁, hblock, h⟩ := bind_ok h
    have hhas₁ : g₁.Has target.projectId target.id := by
      obtain ⟨blocks, -, rfl⟩ := insertBlock_ok hblock
      exact hhas
    exact (Write.block hhas hblock).single.tail (.nodeRow hhas₁ (by rfl) h)

theorem approveArtifact_commit (pol : Policy guard) (hw : Wf g) {targetNodeId : String}
    {d : ArtifactReview}
    (h : approveArtifact (fun _ => g) uuid now (g.projectOf targetNodeId) targetNodeId payload d g = .ok g') :
    ∃ n r, g.nodes.get targetNodeId = some n ∧ d.expectedProjectRevision = some r ∧
      d.expectedNodeRevision = some (orOne n.revision) ∧ Commit guard g g' (some (n.projectId, r)) := by
  unfold approveArtifact at h
  cases ht : g.nodes.get targetNodeId with
  | none => simp [ht] at h
  | some target =>
    simp only [ht] at h
    cases hr : d.expectedProjectRevision with
    | none => simp [hr] at h
    | some r =>
      cases hn : d.expectedNodeRevision with
      | none => simp [hr, hn] at h
      | some =>
        simp only [hr, hn] at h
        obtain ⟨g₁, hclaim, h⟩ := bind_ok h
        obtain ⟨_, hcheck, h⟩ := bind_ok h
        have hproject : g.projectOf targetNodeId = target.projectId := by simp [Graph.projectOf, ht]
        rw [hproject] at hclaim
        have ht₁ : g₁.nodes.get targetNodeId = some target := by rw [(claim_rows hclaim).1]; exact ht
        exact ⟨target, r, rfl, rfl, by rw [checkEntityRevision_ok hcheck],
          .claimed hclaim (applyArtifact_writes pol (wf_claim hw hclaim) ht₁ h)⟩

end Routes

end GrowthMap.Canon
