import GrowthMap.Canon.Requests
import GrowthMap.Lib.Part

/- What a request may write.

   `Write` lists the writes of the routes, each with what it needs to stay inside one project
   and to keep the references of the database sound. Every route is shown to be a claim and a
   sequence of such writes; what holds of all writes is proved here, once. The edges
   a request adds go through `guard`, by which later modules say what they want of them. -/
namespace GrowthMap.Canon

open Relational Relation Fallible Table

/-! The writes, inverted -/

variable {n : Node} {g g' : Graph} {e : Edge} {b : ContentBlock} {p q x : String} {expected r : Int} {nodes : Nodes}
  {guard : Graph → List Edge → Prop}

theorem insertNode_ok (h : insertNode n g = .ok g') :
    (∀ b, n.branchId = some b → ∃ branch, g.branches.get b = some branch) ∧
      ∃ nodes, g.nodes.insert n = some nodes ∧ g' = { g with nodes } := by
  obtain ⟨hfk, h⟩ := guard_ok h
  cases hins : g.nodes.insert n with
  | none => simp [hins] at h
  | some nodes =>
    simp only [hins, Except.ok.injEq] at h
    refine ⟨?_, nodes, rfl, h.symm⟩
    intro b hb
    have hsome : ¬ (g.branches.get b).isNone = true := by
      intro hnone
      exact hfk (.inr (.inl (by simp [hb, hnone])))
    exact Option.ne_none_iff_exists'.mp (by simpa using hsome)

theorem insertEdge_ok (h : insertEdge e g = .ok g') :
    duplicateMainline g e = false ∧ ∃ edges, g.edges.insert e = some edges ∧ g' = { g with edges } := by
  obtain ⟨hdup, h⟩ := guard_ok h
  obtain ⟨-, h⟩ := guard_ok h
  cases hins : g.edges.insert e with
  | none => simp [hins] at h
  | some edges =>
    simp only [hins, Except.ok.injEq] at h
    exact ⟨by simpa using hdup, edges, rfl, h.symm⟩

theorem insertBlock_ok (h : insertBlock b g = .ok g') :
    ∃ blocks, g.blocks.insert b = some blocks ∧ g' = { g with blocks } := by
  obtain ⟨-, h⟩ := guard_ok h
  cases hins : g.blocks.insert b with
  | none => simp [hins] at h
  | some blocks =>
    simp only [hins, Except.ok.injEq] at h
    exact ⟨blocks, rfl, h.symm⟩

theorem insertBranch_ok {b : Branch} (h : insertBranch b g = .ok g') :
    ∃ branches, g.branches.insert b = some branches ∧ g' = { g with branches } := by
  obtain ⟨-, h⟩ := guard_ok h
  cases hins : g.branches.insert b with
  | none => simp [hins] at h
  | some branches =>
    simp only [hins, Except.ok.injEq] at h
    exact ⟨branches, rfl, h.symm⟩

theorem insertProject_ok {p : Project} (h : insertProject p g = .ok g') :
    ∃ projects, g.projects.insert p = some projects ∧ g' = { g with projects } := by
  obtain ⟨-, h⟩ := guard_ok h
  cases hins : g.projects.insert p with
  | none => simp [hins] at h
  | some projects =>
    simp only [hins, Except.ok.injEq] at h
    exact ⟨projects, rfl, h.symm⟩

theorem flushNode_ok {old new : Node} (h : flushNode old new g = .ok g') :
    g' = { g with nodes := g.nodes.modify old.id (old.patch new) Node.patch_key } := by
  obtain ⟨-, h⟩ := guard_ok h
  obtain ⟨-, h⟩ := guard_ok h
  cases h
  rfl

theorem flushEdge_ok {old new : Edge} (h : flushEdge old new g = .ok g') :
    g' = { g with edges := g.edges.modify old.id (old.patch new) Edge.patch_key } := by
  unfold flushEdge at h
  cases hrow : g.edges.get old.id with
  | none => simp [hrow] at h
  | some =>
    simp only [hrow] at h
    obtain ⟨-, h⟩ := guard_ok h
    cases h
    rfl

theorem flushBlock_ok {old new : ContentBlock} (h : flushBlock old new g = .ok g') :
    g' = { g with blocks := g.blocks.modify old.id (old.patch new) ContentBlock.patch_key } := by
  obtain ⟨-, h⟩ := guard_ok h
  cases h
  rfl

theorem flushBranch_ok {old new : Branch} (h : flushBranch old new g = .ok g') :
    g' = { g with branches := g.branches.modify old.id (old.patch new) Branch.patch_key } := by
  obtain ⟨-, h⟩ := guard_ok h
  cases h
  rfl

theorem flushProject_ok {old new : Project} (h : flushProject old new g = .ok g') :
    g' = { g with projects := g.projects.modify old.id (old.patch new) Project.patch_key } := by
  obtain ⟨-, h⟩ := guard_ok h
  obtain ⟨-, h⟩ := guard_ok h
  cases h
  rfl

theorem claimProjectRevision_ok (h : claimProjectRevision p expected g = .ok g') :
    ∃ row, g.projects.get p = some row ∧ row.revision = expected ∧
      g' = { g with projects := g.projects.modify p Project.claim Project.claim_key } := by
  unfold claimProjectRevision at h
  cases hrow : g.projects.get p with
  | none => simp [hrow] at h
  | some row =>
    simp only [hrow] at h
    obtain ⟨hrev, h⟩ := guard_ok h
    cases h
    exact ⟨row, rfl, by simpa using hrev, rfl⟩

theorem checkEntityRevision_ok {kind id : String} {revision : Int} {u : Unit}
    (h : checkEntityRevision kind id revision expected = .ok u) : expected = orOne revision := by
  obtain ⟨hne, -⟩ := guard_ok h
  simpa using hne

theorem insertEdges_ok {es : List Edge} (h : Fallible.each insertEdge es g = .ok g') :
    ∃ edges : Edges, edges.rows = g.edges.rows ++ es ∧ g' = { g with edges } := by
  induction es generalizing g with
  | nil =>
    rw [each_nil, Except.ok.injEq] at h
    subst h
    exact ⟨g.edges, by simp, rfl⟩
  | cons e es ih =>
    obtain ⟨g₁, he, h⟩ := bind_ok h
    obtain ⟨-, edges, hins, rfl⟩ := insertEdge_ok he
    obtain ⟨edges', hrows, rfl⟩ := ih h
    exact ⟨edges', by simp [hrows, insert_rows hins], rfl⟩

theorem insertNodes_ok {ns : List Node} (h : Fallible.each insertNode ns g = .ok g') :
    ∃ nodes : Nodes, nodes.rows = g.nodes.rows ++ ns ∧ g' = { g with nodes } := by
  induction ns generalizing g with
  | nil =>
    rw [each_nil, Except.ok.injEq] at h
    subst h
    exact ⟨g.nodes, by simp, rfl⟩
  | cons n ns ih =>
    obtain ⟨g₁, hn, h⟩ := bind_ok h
    obtain ⟨-, nodes, hins, rfl⟩ := insertNode_ok hn
    obtain ⟨nodes', hrows, rfl⟩ := ih h
    exact ⟨nodes', by simp [hrows, insert_rows hins], rfl⟩

theorem insertBlocks_ok {bs : List ContentBlock} (h : Fallible.each insertBlock bs g = .ok g') :
    ∃ blocks : Blocks, blocks.rows = g.blocks.rows ++ bs ∧ g' = { g with blocks } := by
  induction bs generalizing g with
  | nil =>
    rw [each_nil, Except.ok.injEq] at h
    subst h
    exact ⟨g.blocks, by simp, rfl⟩
  | cons b bs ih =>
    obtain ⟨g₁, hb, h⟩ := bind_ok h
    obtain ⟨blocks, hins, rfl⟩ := insertBlock_ok hb
    obtain ⟨blocks', hrows, rfl⟩ := ih h
    exact ⟨blocks', by simp [hrows, insert_rows hins], rfl⟩

/-! References -/

/-- The references of the database: what a row names is there, and in its project. -/
structure Wf (g : Graph) : Prop where
  edge : ∀ e ∈ g.edges.rows, ∃ a b, g.nodes.get e.fromNodeId = some a ∧ g.nodes.get e.toNodeId = some b ∧
    a.projectId = e.projectId ∧ b.projectId = e.projectId
  block : ∀ b ∈ g.blocks.rows, ∃ n, g.nodes.get b.nodeId = some n
  branch : ∀ n ∈ g.nodes.rows, ∀ b, n.branchId = some b → ∃ row, g.branches.get b = some row ∧ row.projectId = n.projectId
  source : ∀ b ∈ g.branches.rows, ∀ x, b.sourceNodeId = some x → ∃ n, g.nodes.get x = some n ∧ n.projectId = b.projectId
  named : ∀ b ∈ g.branches.rows, b.id ≠ ""

theorem wf_empty : Wf Graph.empty :=
  ⟨by simp [Graph.empty, Table.empty], by simp [Graph.empty, Table.empty], by simp [Graph.empty, Table.empty],
    by simp [Graph.empty, Table.empty], by simp [Graph.empty, Table.empty]⟩

def Graph.Has (g : Graph) (p x : String) : Prop := ∃ n, g.nodes.get x = some n ∧ n.projectId = p

theorem Wf.from_has (hw : Wf g) (he : e ∈ g.edges.rows) : g.Has e.projectId e.fromNodeId := by
  obtain ⟨a, -, ha, -, hp, -⟩ := hw.edge e he
  exact ⟨a, ha, hp⟩

theorem Wf.to_has (hw : Wf g) (he : e ∈ g.edges.rows) : g.Has e.projectId e.toNodeId := by
  obtain ⟨-, b, -, hb, -, hp⟩ := hw.edge e he
  exact ⟨b, hb, hp⟩

theorem Graph.Has.unique (hp : g.Has p x) (hq : g.Has q x) : p = q := by
  obtain ⟨n, hn, rfl⟩ := hp
  obtain ⟨m, hm, rfl⟩ := hq
  rw [hn] at hm
  cases hm
  rfl

/-! The part of a project -/

structure Part where
  project : Option Project
  nodes : List Node
  edges : List Edge
  blocks : List ContentBlock
  branches : List Branch

def Graph.ownerOf (g : Graph) (b : ContentBlock) : Option String := (g.nodes.get b.nodeId).map Node.projectId

def Graph.part (g : Graph) (q : String) : Part where
  project := g.projects.get q
  nodes := g.nodes.part Node.projectId q
  edges := g.edges.part Edge.projectId q
  blocks := g.blocks.part g.ownerOf (some q)
  branches := g.branches.part Branch.projectId q

/-- Only the part of `p` changes. -/
def Within (p : String) (g g' : Graph) : Prop := ∀ q, q ≠ p → g'.part q = g.part q

theorem Within.refl (p : String) (g : Graph) : Within p g g := fun _ _ => rfl

theorem Within.trans {g₁ g₂ g₃ : Graph} (h₁ : Within p g₁ g₂) (h₂ : Within p g₂ g₃) : Within p g₁ g₃ :=
  fun q hq => (h₂ q hq).trans (h₁ q hq)

/-! The writes of a request -/

def Graph.HasBranch (g : Graph) (p : String) (branchId : Option String) : Prop :=
  ∀ b, branchId = some b → ∃ row, g.branches.get b = some row ∧ row.projectId = p

def Graph.HasMain (g : Graph) (p x : String) : Prop := ∃ n, g.nodes.get x = some n ∧ n.projectId = p ∧ n.branchId = none

/-- One write of a request to the project `p`. A root is set to a node of the mainline, and does not go. -/
inductive Write (guard : Graph → List Edge → Prop) (p : String) (g : Graph) : Graph → Prop where
  | projectRow {old new : Project} {g' : Graph} (hold : old.id = p)
      (hroot : new.rootNodeId = old.rootNodeId ∨ ∃ x, new.rootNodeId = some x ∧ g.HasMain p x)
      (h : flushProject old new g = .ok g') : Write guard p g g'
  | node {n : Node} {g' : Graph} (hp : n.projectId = p) (hb : g.HasBranch p n.branchId) (h : insertNode n g = .ok g') :
      Write guard p g g'
  | nodeRow {old new : Node} {g' : Graph} (hrow : g.Has p old.id) (hb : new.branchId = old.branchId)
      (h : flushNode old new g = .ok g') : Write guard p g g'
  | edges {es : List Edge} {g' : Graph} (hp : ∀ e ∈ es, e.projectId = p ∧ g.Has p e.fromNodeId ∧ g.Has p e.toNodeId)
      (hguard : guard g es) (h : Fallible.each insertEdge es g = .ok g') : Write guard p g g'
  | edgeRow {old new : Edge} {g' : Graph} (hrow : ∀ e, g.edges.get old.id = some e → e.projectId = p)
      (h : flushEdge old new g = .ok g') : Write guard p g g'
  | block {b : ContentBlock} {g' : Graph} (hn : g.Has p b.nodeId) (h : insertBlock b g = .ok g') : Write guard p g g'
  | blockRow {old new : ContentBlock} {g' : Graph} (hrow : ∀ b, g.blocks.get old.id = some b → g.Has p b.nodeId)
      (h : flushBlock old new g = .ok g') : Write guard p g g'
  | blocksGone {f : ContentBlock → Bool} (hf : ∀ b ∈ g.blocks.rows, f b = false → g.Has p b.nodeId) :
      Write guard p g { g with blocks := g.blocks.keep f }
  | branch {b : Branch} {g' : Graph} (hp : b.projectId = p) (hs : ∀ x, b.sourceNodeId = some x → g.Has p x) (hid : b.id ≠ "")
      (h : insertBranch b g = .ok g') : Write guard p g g'
  | branchRow {old new : Branch} {g' : Graph} (hrow : ∀ b, g.branches.get old.id = some b → b.projectId = p)
      (h : flushBranch old new g = .ok g') : Write guard p g g'
  | edgesGone {f : Edge → Bool} (hf : ∀ e ∈ g.edges.rows, f e = true → e.projectId = p) : Write guard p g (deleteEdges f g)
  | nodesGone {xs : List String} (hx : ∀ x ∈ xs, g.Has p x)
      (hroot : ∀ row, g.projects.get p = some row → ∀ x ∈ xs, row.rootNodeId ≠ some x) : Write guard p g (deleteNodes xs g)
  | toMain {b : String} (hb : ∃ row, g.branches.get b = some row ∧ row.projectId = p) :
      Write guard p g
        { g with nodes := g.nodes.update (fun n => decide (n.branchId = some b)) Node.toMain Node.toMain_key }

abbrev Writes (guard : Graph → List Edge → Prop) (p : String) : Graph → Graph → Prop := ReflTransGen (Write guard p)

/-! Soundness of the writes -/

def KeepsNodes (nodes nodes' : Nodes) : Prop :=
  ∀ x n, nodes.get x = some n → ∃ n', nodes'.get x = some n' ∧ n'.projectId = n.projectId

theorem KeepsNodes.has (h : KeepsNodes g.nodes nodes) (hx : g.Has p x) :
    ∃ n, nodes.get x = some n ∧ n.projectId = p := by
  obtain ⟨n, hn, rfl⟩ := hx
  exact h x n hn

theorem keepsNodes_insert {nodes' : Nodes} (h : nodes.insert n = some nodes') : KeepsNodes nodes nodes' :=
  fun _ m hm => ⟨m, get_insert_old h hm, rfl⟩

theorem keepsNodes_update (nodes : Nodes) {q : Node → Bool} {f : Node → Node} (hf : ∀ n, (f n).id = n.id)
    (hp : ∀ n, (f n).projectId = n.projectId) : KeepsNodes nodes (nodes.update q f hf) := by
  intro x n hn
  refine ⟨if q n then f n else n, by rw [get_update, hn]; rfl, ?_⟩
  split
  · exact hp n
  · rfl

theorem Wf.of_nodes (hw : Wf g) (hkeep : KeepsNodes g.nodes nodes)
    (hb : ∀ n ∈ nodes.rows, g.HasBranch n.projectId n.branchId) : Wf { g with nodes } := by
  refine ⟨?_, ?_, ?_, ?_, hw.named⟩
  · intro e he
    obtain ⟨a, ha, hpa⟩ := hkeep.has (hw.from_has he)
    obtain ⟨b, hb, hpb⟩ := hkeep.has (hw.to_has he)
    exact ⟨a, b, ha, hb, hpa, hpb⟩
  · intro b hmem
    obtain ⟨n, hn⟩ := hw.block b hmem
    obtain ⟨n', hn', -⟩ := hkeep _ n hn
    exact ⟨n', hn'⟩
  · intro n hn b hbranch
    exact hb n hn b hbranch
  · intro b hmem x hx
    obtain ⟨n, hn, hp⟩ := hw.source b hmem x hx
    obtain ⟨n', hn', hp'⟩ := hkeep x n hn
    exact ⟨n', hn', hp'.trans hp⟩

theorem within_nodes (hw : Wf g) (hkeep : KeepsNodes g.nodes nodes)
    (hpart : ∀ q, q ≠ p → nodes.part Node.projectId q = g.nodes.part Node.projectId q) : Within p g { g with nodes } := by
  intro q hq
  have hblocks : g.blocks.part ({ g with nodes } : Graph).ownerOf (some q) = g.blocks.part g.ownerOf (some q) := by
    apply part_congr
    intro b hb
    obtain ⟨n, hn⟩ := hw.block b hb
    obtain ⟨n', hn', hp⟩ := hkeep _ n hn
    simp [Graph.ownerOf, hn, hn', hp]
  simp only [Graph.part, hpart q hq, hblocks]

theorem mem_modify_rows {K R : Type} [DecidableEq K] {key : R → K} {t : Table K R key} {k : K} {f : R → R}
    (hf : ∀ r, key (f r) = key r) {r : R} (h : r ∈ (t.modify k f hf).rows) :
    ∃ row ∈ t.rows, r = f row ∧ key row = k ∨ r = row := by
  obtain ⟨row, hrow, heq⟩ := List.mem_map.mp h
  refine ⟨row, hrow, ?_⟩
  by_cases hk : key row = k
  · rw [if_pos (by simpa using hk)] at heq
    exact .inl ⟨heq.symm, hk⟩
  · rw [if_neg (by simpa using hk)] at heq
    exact .inr heq.symm

theorem wf_write (hw : Wf g) (h : Write guard p g g') : Wf g' := by
  cases h with
  | projectRow hold _ h =>
    rw [flushProject_ok h]
    exact ⟨hw.edge, hw.block, hw.branch, hw.source, hw.named⟩
  | @node n _ hp hb h =>
    obtain ⟨-, nodes, hins, rfl⟩ := insertNode_ok h
    apply hw.of_nodes (keepsNodes_insert hins)
    intro m hm
    rw [insert_rows hins, List.mem_append, List.mem_singleton] at hm
    rcases hm with hm | rfl
    · exact hw.branch m hm
    · rw [hp]
      exact hb
  | @nodeRow old new _ hrow hb h =>
    rw [flushNode_ok h]
    apply hw.of_nodes (keepsNodes_update g.nodes Node.patch_key (fun _ => rfl))
    intro m hm
    obtain ⟨row, hmem, ⟨rfl, -⟩ | rfl⟩ := mem_modify_rows Node.patch_key hm
    · have hsame : (old.patch new row).branchId = row.branchId := by simp [Node.patch, hb]
      rw [hsame]
      exact hw.branch row hmem
    · exact hw.branch m hmem
  | @edges es _ hp hguard h =>
    obtain ⟨edges, hrows, rfl⟩ := insertEdges_ok h
    refine ⟨?_, hw.block, hw.branch, hw.source, hw.named⟩
    intro e he
    rw [hrows, List.mem_append] at he
    rcases he with he | he
    · exact hw.edge e he
    · obtain ⟨rfl, ⟨a, ha, hpa⟩, b, hb, hpb⟩ := hp e he
      exact ⟨a, b, ha, hb, hpa, hpb⟩
  | edgeRow hrow h =>
    rw [flushEdge_ok h]
    refine ⟨?_, hw.block, hw.branch, hw.source, hw.named⟩
    intro e he
    obtain ⟨row, hmem, ⟨rfl, -⟩ | rfl⟩ := mem_modify_rows Edge.patch_key he
    · exact hw.edge row hmem
    · exact hw.edge e hmem
  | @block b _ hn h =>
    obtain ⟨blocks, hins, rfl⟩ := insertBlock_ok h
    refine ⟨hw.edge, ?_, hw.branch, hw.source, hw.named⟩
    intro x hx
    rw [insert_rows hins, List.mem_append, List.mem_singleton] at hx
    rcases hx with hx | rfl
    · exact hw.block x hx
    · obtain ⟨n, hn, -⟩ := hn
      exact ⟨n, hn⟩
  | blockRow hrow h =>
    rw [flushBlock_ok h]
    refine ⟨hw.edge, ?_, hw.branch, hw.source, hw.named⟩
    intro x hx
    obtain ⟨row, hmem, ⟨rfl, -⟩ | rfl⟩ := mem_modify_rows ContentBlock.patch_key hx
    · exact hw.block row hmem
    · exact hw.block x hmem
  | blocksGone => exact ⟨hw.edge, fun b hb => hw.block b (List.mem_of_mem_filter hb), hw.branch, hw.source, hw.named⟩
  | @branch b _ hp hs hid h =>
    obtain ⟨branches, hins, rfl⟩ := insertBranch_ok h
    refine ⟨hw.edge, hw.block, ?_, ?_, ?_⟩
    · intro n hn x hx
      obtain ⟨row, hrow, hproject⟩ := hw.branch n hn x hx
      exact ⟨row, get_insert_old hins hrow, hproject⟩
    · intro x hx
      rw [insert_rows hins, List.mem_append, List.mem_singleton] at hx
      rcases hx with hx | rfl
      · exact hw.source x hx
      · intro y hy
        rw [hp]
        exact hs y hy
    · intro x hx
      rw [insert_rows hins, List.mem_append, List.mem_singleton] at hx
      rcases hx with hx | rfl
      · exact hw.named x hx
      · exact hid
  | branchRow hrow h =>
    rw [flushBranch_ok h]
    refine ⟨hw.edge, hw.block, ?_, ?_, ?_⟩
    · intro n hn x hx
      obtain ⟨row, hget, hproject⟩ := hw.branch n hn x hx
      obtain ⟨row', hget', rfl | ⟨-, rfl⟩⟩ := get_modify_exists _ _ Branch.patch_key hget
      · exact ⟨_, hget', hproject⟩
      · exact ⟨_, hget', hproject⟩
    · intro x hx
      obtain ⟨row, hmem, ⟨rfl, -⟩ | rfl⟩ := mem_modify_rows Branch.patch_key hx
      · exact hw.source row hmem
      · exact hw.source x hmem
    · intro x hx
      obtain ⟨row, hmem, ⟨rfl, -⟩ | rfl⟩ := mem_modify_rows Branch.patch_key hx
      · exact hw.named row hmem
      · exact hw.named x hmem
  | edgesGone => exact ⟨fun e he => hw.edge e (List.mem_of_mem_filter he), hw.block, hw.branch, hw.source, hw.named⟩
  | @nodesGone xs hx _ =>
    -- what stays names only what stays
    have hstay : ∀ x n, x ∉ xs → g.nodes.get x = some n → (deleteNodes xs g).nodes.get x = some n := by
      intro x n hnot hn
      exact get_keep.mpr ⟨hn, by simpa [get_key hn] using hnot⟩
    refine ⟨?_, ?_, ?_, ?_, ?_⟩
    · intro e he
      obtain ⟨hmem, hout⟩ := List.mem_filter.mp he
      simp only [decide_eq_true_eq] at hout
      obtain ⟨a, b, ha, hb, hpa, hpb⟩ := hw.edge e hmem
      exact ⟨a, b, hstay _ _ hout.1 ha, hstay _ _ hout.2 hb, hpa, hpb⟩
    · intro b hb
      obtain ⟨hmem, hout⟩ := List.mem_filter.mp hb
      obtain ⟨n, hn⟩ := hw.block b hmem
      exact ⟨n, hstay _ _ (by simpa using hout) hn⟩
    · intro n hn b hb
      obtain ⟨row, hrow, hp⟩ := hw.branch n (List.mem_of_mem_filter hn) b hb
      refine ⟨row.forget xs, ?_, hp⟩
      show (g.branches.update (fun _ => true) (Branch.forget xs) Branch.forget_key).get b = _
      rw [get_update, hrow]
      rfl
    · intro b hb x hx
      obtain ⟨row, hrow, rfl⟩ := List.mem_map.mp hb
      simp only [if_true, Branch.forget, Option.filter_eq_some_iff, decide_eq_true_eq] at hx
      obtain ⟨n, hn, hp⟩ := hw.source row hrow x hx.1
      exact ⟨n, hstay _ _ hx.2 hn, hp⟩
    · intro b hb
      obtain ⟨row, hrow, rfl⟩ := List.mem_map.mp hb
      exact hw.named row hrow
  | @toMain b hb =>
    apply hw.of_nodes (keepsNodes_update g.nodes Node.toMain_key (fun _ => rfl))
    intro m hm
    obtain ⟨row, hrow, rfl⟩ := List.mem_map.mp hm
    split
    · intro x hx
      cases hx
    · exact hw.branch row hrow

theorem Graph.Has.ne (hp : g.Has p x) (hn : g.nodes.get x = some n) (hq : q ≠ p) :
    n.projectId ≠ q := by
  intro hproject
  exact hq (Graph.Has.unique ⟨n, hn, hproject⟩ hp)

theorem Graph.Has.owner_ne (hp : g.Has p b.nodeId) (hq : q ≠ p) :
    g.ownerOf b ≠ some q := by
  obtain ⟨n, hn, hproject⟩ := hp
  simp only [Graph.ownerOf, hn, Option.map_some, ne_eq, Option.some.injEq, hproject]
  exact fun h => hq h.symm

theorem within_write (hw : Wf g) (h : Write guard p g g') :
    Within p g g' := by
  cases h with
  | @projectRow old new _ hold _ h =>
    rw [flushProject_ok h]
    intro q hq
    have hother : (g.projects.modify old.id (old.patch new) Project.patch_key).get q = g.projects.get q :=
      get_modify_ne Project.patch_key (hold ▸ hq)
    simp only [Graph.part, hother]
    rfl
  | @node n _ hp hb h =>
    obtain ⟨-, nodes, hins, rfl⟩ := insertNode_ok h
    apply within_nodes hw (keepsNodes_insert hins)
    intro q hq
    exact part_insert hins (by rw [hp]; exact hq.symm)
  | @nodeRow old new _ hrow hb h =>
    rw [flushNode_ok h]
    apply within_nodes hw (keepsNodes_update g.nodes Node.patch_key (fun _ => rfl))
    intro q hq
    exact part_modify Node.patch_key (fun _ _ => rfl) (fun n hn => hrow.ne hn hq)
  | @edges es _ hp hguard h =>
    obtain ⟨edges, hrows, rfl⟩ := insertEdges_ok h
    intro q hq
    have hedges : edges.part Edge.projectId q = g.edges.part Edge.projectId q := by
      have hnone : es.filter (fun e => decide (e.projectId = q)) = [] := by
        rw [List.filter_eq_nil_iff]
        intro e he
        simp only [decide_eq_true_eq, (hp e he).1]
        exact fun h => hq h.symm
      simp only [Table.part, hrows, List.filter_append, hnone, List.append_nil]
    simp only [Graph.part, hedges]
    rfl
  | @edgeRow old new _ hrow h =>
    rw [flushEdge_ok h]
    intro q hq
    have hedges : (g.edges.modify old.id (old.patch new) Edge.patch_key).part Edge.projectId q =
        g.edges.part Edge.projectId q := by
      apply part_modify Edge.patch_key (fun _ _ => rfl)
      intro e he hproject
      exact hq (hproject ▸ hrow e he)
    simp only [Graph.part, hedges]
    rfl
  | @block b _ hn h =>
    obtain ⟨blocks, hins, rfl⟩ := insertBlock_ok h
    intro q hq
    have hblocks : blocks.part g.ownerOf (some q) = g.blocks.part g.ownerOf (some q) :=
      part_insert hins (hn.owner_ne hq)
    exact congrArg (fun blocks => ({ g.part q with blocks } : Part)) hblocks
  | @blockRow old new _ hrow h =>
    rw [flushBlock_ok h]
    intro q hq
    have hblocks : (g.blocks.modify old.id (old.patch new) ContentBlock.patch_key).part g.ownerOf (some q) =
        g.blocks.part g.ownerOf (some q) := by
      apply part_modify ContentBlock.patch_key (fun _ _ => rfl)
      intro b hb
      exact (hrow b hb).owner_ne hq
    exact congrArg (fun blocks => ({ g.part q with blocks } : Part)) hblocks
  | @blocksGone f hf =>
    intro q hq
    have hblocks : (g.blocks.keep f).part g.ownerOf (some q) = g.blocks.part g.ownerOf (some q) := by
      apply part_keep
      intro b hb hown
      by_contra hfalse
      exact (hf b hb (by simpa using hfalse)).owner_ne hq hown
    exact congrArg (fun blocks => ({ g.part q with blocks } : Part)) hblocks
  | @branch b _ hp hs _ h =>
    obtain ⟨branches, hins, rfl⟩ := insertBranch_ok h
    intro q hq
    have hbranches : branches.part Branch.projectId q = g.branches.part Branch.projectId q :=
      part_insert hins (by rw [hp]; exact hq.symm)
    simp only [Graph.part, hbranches]
    rfl
  | @branchRow old new _ hrow h =>
    rw [flushBranch_ok h]
    intro q hq
    have hbranches : (g.branches.modify old.id (old.patch new) Branch.patch_key).part Branch.projectId q =
        g.branches.part Branch.projectId q := by
      apply part_modify Branch.patch_key (fun _ _ => rfl)
      intro b hb hproject
      exact hq (hproject ▸ hrow b hb)
    simp only [Graph.part, hbranches]
    rfl
  | @edgesGone f hf =>
    intro q hq
    have hedges : (g.edges.keep (fun e => !f e)).part Edge.projectId q = g.edges.part Edge.projectId q := by
      apply part_keep
      intro e he hproject
      by_contra hfalse
      exact hq (hproject ▸ hf e he (by simpa using hfalse))
    simp only [deleteEdges, Graph.part, hedges]
    rfl
  | @nodesGone xs hx _ =>
    intro q hq
    have hout : ∀ x, g.Has q x → x ∉ xs := fun x hxq hmem => hq (hxq.unique (hx x hmem))
    have hnodes : (deleteNodes xs g).nodes.part Node.projectId q = g.nodes.part Node.projectId q := by
      apply part_keep
      intro n hn hproject
      simpa using hout n.id ⟨n, get_of_mem hn, hproject⟩
    have hedges : (deleteNodes xs g).edges.part Edge.projectId q = g.edges.part Edge.projectId q := by
      apply part_keep
      intro e he hproject
      have hfrom := hout _ (hproject ▸ hw.from_has he)
      have hto := hout _ (hproject ▸ hw.to_has he)
      simp [hfrom, hto]
    have hblocks : (deleteNodes xs g).blocks.part (deleteNodes xs g).ownerOf (some q) = g.blocks.part g.ownerOf (some q) := by
      have hkeep : (deleteNodes xs g).blocks.part g.ownerOf (some q) = g.blocks.part g.ownerOf (some q) := by
        apply part_keep
        intro b hb hown
        obtain ⟨n, hn, hproject⟩ := Option.map_eq_some_iff.mp hown
        simpa using hout b.nodeId ⟨n, hn, hproject⟩
      rw [← hkeep]
      apply part_congr
      intro b hb
      obtain ⟨hmem, hnot⟩ := List.mem_filter.mp hb
      obtain ⟨n, hn⟩ := hw.block b hmem
      have hn' : (deleteNodes xs g).nodes.get b.nodeId = some n :=
        get_keep.mpr ⟨hn, by simpa [get_key hn] using hnot⟩
      simp only [Graph.ownerOf, hn, hn']
    have hbranches : (deleteNodes xs g).branches.part Branch.projectId q = g.branches.part Branch.projectId q := by
      apply part_update Branch.forget_key (fun _ _ => rfl)
      intro b hb _ hproject
      have hsource : b.sourceNodeId.filter (fun x => x ∉ xs) = b.sourceNodeId := by
        cases hs : b.sourceNodeId with
        | none => rfl
        | some x =>
          obtain ⟨n, hn, hp⟩ := hw.source b hb x hs
          simp [Option.filter, hout x ⟨n, hn, hp.trans hproject⟩]
      simp only [Branch.forget, hsource]
    simp only [Graph.part, hnodes, hedges, hblocks, hbranches]
    rfl
  | @toMain b hb =>
    apply within_nodes hw (keepsNodes_update g.nodes Node.toMain_key (fun _ => rfl))
    intro q hq
    apply part_update Node.toMain_key (fun _ _ => rfl)
    intro n hn hin hproject
    exfalso
    obtain ⟨row, hrow, hp⟩ := hb
    obtain ⟨row', hrow', hp'⟩ := hw.branch n hn b (by simpa using hin)
    rw [hrow] at hrow'
    cases hrow'
    exact hq (by rw [← hproject, ← hp', hp])

/-- No write of a request moves the revision of a project. -/
theorem revision_write (h : Write guard p g g') (q : String) :
    (g'.projects.get q).map Project.revision = (g.projects.get q).map Project.revision := by
  cases h with
  | @projectRow old new _ _ _ h =>
    rw [flushProject_ok h]
    show ((g.projects.modify old.id (old.patch new) Project.patch_key).get q).map Project.revision = _
    rw [get_modify]
    split
    · rw [Option.map_map]
      rfl
    · rfl
  | node _ _ h =>
    obtain ⟨-, _, -, rfl⟩ := insertNode_ok h
    rfl
  | nodeRow _ _ h => rw [flushNode_ok h]
  | edges _ _ h =>
    obtain ⟨_, -, rfl⟩ := insertEdges_ok h
    rfl
  | edgeRow _ h => rw [flushEdge_ok h]
  | block _ h =>
    obtain ⟨_, -, rfl⟩ := insertBlock_ok h
    rfl
  | blockRow _ h => rw [flushBlock_ok h]
  | blocksGone => rfl
  | branch _ _ _ h =>
    obtain ⟨_, -, rfl⟩ := insertBranch_ok h
    rfl
  | branchRow _ h => rw [flushBranch_ok h]
  | edgesGone => rfl
  | nodesGone => rfl
  | toMain => rfl

theorem Writes.sound (hw : Wf g) (h : Writes guard p g g') :
    Wf g' ∧ Within p g g' ∧ ∀ q, (g'.projects.get q).map Project.revision = (g.projects.get q).map Project.revision := by
  induction h with
  | refl => exact ⟨hw, Within.refl p g, fun _ => rfl⟩
  | tail _ hstep ih =>
    obtain ⟨hw₁, hwithin, hrev⟩ := ih
    exact ⟨wf_write hw₁ hstep, hwithin.trans (within_write hw₁ hstep), fun q => (revision_write hstep q).trans (hrev q)⟩

/-! Commits -/

/-- What a request commits. `claim` is the project it claims and the revision it expects there. -/
inductive Commit (guard : Graph → List Edge → Prop) (g g' : Graph) : Option (String × Int) → Prop where
  | claimed {p : String} {r : Int} {g₁ : Graph} (hclaim : claimProjectRevision p r g = .ok g₁) (h : Writes guard p g₁ g') :
      Commit guard g g' (some (p, r))
  | created {row : Project} {g₁ : Graph} (hrev : row.revision = 1) (hroot : row.rootNodeId = none)
      (hins : insertProject row g = .ok g₁)
      (h : Writes guard row.id g₁ g') : Commit guard g g' none
  | deleted {p : String} {r : Int} {g₁ : Graph} (hclaim : claimProjectRevision p r g = .ok g₁)
      (h : g' = deleteProjectRow p g₁) : Commit guard g g' (some (p, r))

theorem wf_claim (hw : Wf g) (h : claimProjectRevision p r g = .ok g') : Wf g' := by
  obtain ⟨_, -, -, rfl⟩ := claimProjectRevision_ok h
  exact ⟨hw.edge, hw.block, hw.branch, hw.source, hw.named⟩

variable {row : Project}

theorem wf_insertProject (hw : Wf g) (h : insertProject row g = .ok g') : Wf g' := by
  obtain ⟨_, -, rfl⟩ := insertProject_ok h
  exact ⟨hw.edge, hw.block, hw.branch, hw.source, hw.named⟩

theorem within_claim (h : claimProjectRevision p r g = .ok g') : Within p g g' := by
  obtain ⟨_, -, -, rfl⟩ := claimProjectRevision_ok h
  intro q hq
  have hother : (g.projects.modify p Project.claim Project.claim_key).get q = g.projects.get q :=
    get_modify_ne Project.claim_key hq
  simp only [Graph.part, hother]
  rfl

theorem revision_claim (h : claimProjectRevision p r g = .ok g') :
    (g.projects.get p).map Project.revision = some r ∧ (g'.projects.get p).map Project.revision = some (r + 1) := by
  obtain ⟨row, hrow, hrev, rfl⟩ := claimProjectRevision_ok h
  refine ⟨by simp [hrow, hrev], ?_⟩
  show ((g.projects.modify p Project.claim Project.claim_key).get p).map Project.revision = _
  rw [get_modify_self Project.claim_key hrow]
  simp [Project.claim, hrev]

theorem within_insertProject (h : insertProject row g = .ok g') : Within row.id g g' := by
  obtain ⟨projects, hins, rfl⟩ := insertProject_ok h
  intro q hq
  have hother : projects.get q = g.projects.get q := by rw [get_insert hins, if_neg hq]
  simp only [Graph.part, hother]
  rfl

theorem has_deleteProjectRow (hq : q ≠ p) (hx : g.Has q x) : (deleteProjectRow p g).Has q x := by
  obtain ⟨n, hn, rfl⟩ := hx
  exact ⟨n, get_keep.mpr ⟨hn, by simpa using hq⟩, rfl⟩

theorem wf_deleteProjectRow (hw : Wf g) : Wf (deleteProjectRow p g) := by
  refine ⟨?_, ?_, ?_, ?_, ?_⟩
  · intro e he
    obtain ⟨hmem, hkeep⟩ := List.mem_filter.mp he
    have hne : e.projectId ≠ p := by
      simp only [Bool.and_eq_true, decide_eq_true_eq] at hkeep
      exact hkeep.1.1
    obtain ⟨a, ha, hpa⟩ := has_deleteProjectRow hne (hw.from_has hmem)
    obtain ⟨b, hb, hpb⟩ := has_deleteProjectRow hne (hw.to_has hmem)
    exact ⟨a, b, ha, hb, hpa, hpb⟩
  · intro b hb
    obtain ⟨hmem, hkeep⟩ := List.mem_filter.mp hb
    obtain ⟨n, hn⟩ := hw.block b hmem
    have hne : n.projectId ≠ p := by simpa [hn] using hkeep
    obtain ⟨n', hn', -⟩ := has_deleteProjectRow hne ⟨n, hn, rfl⟩
    exact ⟨n', hn'⟩
  · intro n hn b hb
    obtain ⟨hmem, hkeep⟩ := List.mem_filter.mp hn
    obtain ⟨row, hrow, hproject⟩ := hw.branch n hmem b hb
    have hne : row.projectId ≠ p := by
      rw [hproject]
      simpa using hkeep
    exact ⟨row, get_keep.mpr ⟨hrow, by simpa using hne⟩, hproject⟩
  · intro b hb x hx
    obtain ⟨hmem, hkeep⟩ := List.mem_filter.mp hb
    obtain ⟨n, hn, hproject⟩ := hw.source b hmem x hx
    have hne : b.projectId ≠ p := by simpa using hkeep
    exact has_deleteProjectRow hne ⟨n, hn, hproject⟩
  · intro b hb
    exact hw.named b (List.mem_of_mem_filter hb)

theorem within_deleteProjectRow (hw : Wf g) : Within p g (deleteProjectRow p g) := by
  intro q hq
  have hproject : (deleteProjectRow p g).projects.get q = g.projects.get q :=
    get_keep_eq (fun row hrow => by simpa [get_key hrow] using hq)
  have hnodes : (deleteProjectRow p g).nodes.part Node.projectId q = g.nodes.part Node.projectId q := by
    apply part_keep
    intro n _ hn
    simpa [hn] using hq
  have hedges : (deleteProjectRow p g).edges.part Edge.projectId q = g.edges.part Edge.projectId q := by
    apply part_keep
    intro e he hproject
    obtain ⟨a, b, ha, hb, hpa, hpb⟩ := hw.edge e he
    simp [ha, hb, hpa, hpb, hproject, hq]
  have hblocks : (deleteProjectRow p g).blocks.part (deleteProjectRow p g).ownerOf (some q) =
      g.blocks.part g.ownerOf (some q) := by
    have hkeep : (deleteProjectRow p g).blocks.part g.ownerOf (some q) = g.blocks.part g.ownerOf (some q) := by
      apply part_keep
      intro b _ hown
      obtain ⟨n, hn, rfl⟩ := Option.map_eq_some_iff.mp hown
      simpa [hn] using hq
    rw [← hkeep]
    apply part_congr
    intro b hb
    obtain ⟨hmem, hnot⟩ := List.mem_filter.mp hb
    obtain ⟨n, hn⟩ := hw.block b hmem
    have hne : n.projectId ≠ p := by simpa [hn] using hnot
    have hn' : (deleteProjectRow p g).nodes.get b.nodeId = some n := get_keep.mpr ⟨hn, by simpa using hne⟩
    simp only [Graph.ownerOf, hn, hn']
  have hbranches : (deleteProjectRow p g).branches.part Branch.projectId q = g.branches.part Branch.projectId q := by
    apply part_keep
    intro b _ hb
    simpa [hb] using hq
  simp only [Graph.part, hproject, hnodes, hedges, hblocks, hbranches]

theorem deleteProjectRow_gone (p : String) (g : Graph) : (deleteProjectRow p g).projects.get p = none := by
  by_contra hsome
  obtain ⟨row, hkept⟩ := Option.ne_none_iff_exists'.mp hsome
  obtain ⟨hrow, hne⟩ := get_keep.mp hkept
  simp [get_key hrow] at hne

theorem Commit.sound {claim : Option (String × Int)} (hw : Wf g) (h : Commit guard g g' claim) :
    Wf g' ∧ ∃ p, Within p g g' ∧
      ((∃ r, claim = some (p, r) ∧ (g.projects.get p).map Project.revision = some r ∧
          ((g'.projects.get p).map Project.revision = some (r + 1) ∨ g'.projects.get p = none)) ∨
        claim = none ∧ g.projects.get p = none) := by
  cases h with
  | @claimed p r g₁ hclaim h =>
    obtain ⟨hw', hwithin, hrev⟩ := Writes.sound (wf_claim hw hclaim) h
    obtain ⟨hold, hnew⟩ := revision_claim hclaim
    exact ⟨hw', p, (within_claim hclaim).trans hwithin, .inl ⟨r, rfl, hold, .inl ((hrev p).trans hnew)⟩⟩
  | @created row g₁ hrev _ hins h =>
    obtain ⟨hw', hwithin, -⟩ := Writes.sound (wf_insertProject hw hins) h
    obtain ⟨projects, hinsert, -⟩ := insertProject_ok hins
    exact ⟨hw', row.id, (within_insertProject hins).trans hwithin, .inr ⟨rfl, insert_fresh hinsert⟩⟩
  | @deleted p r g₁ hclaim h =>
    have hw₁ := wf_claim hw hclaim
    subst h
    exact ⟨wf_deleteProjectRow hw₁, p, (within_claim hclaim).trans (within_deleteProjectRow hw₁),
      .inl ⟨r, rfl, (revision_claim hclaim).1, .inr (deleteProjectRow_gone p g₁)⟩⟩

end GrowthMap.Canon
