import GrowthMap.Canon.Application

/- Every request is a commit, when it reads the state it claims in.

   What a guard is asked of the edges of each request stands in one place, `Obliged`; where a
   route checks enough by itself, nothing is asked. -/
namespace GrowthMap.Canon

open Relational Relation

def Request.Obliged (guard : Graph → List Edge → Prop) (uuid : Nat → Nat → String) (now : Int) (g : Graph) : Request → Prop
  | .createEdge d => d.relationType = "child_of" → d.fromNodeId ≠ d.toNodeId →
    ∀ e : Edge, e.Joins d.fromNodeId d.toNodeId → guard g [e]
  | .moveNode nodeId d => d.newParentId ∉ g.descendants nodeId → (g.parentEdges nodeId).length ≤ 1 →
    ∀ e : Edge, e.Joins d.newParentId nodeId → guard (detach nodeId g) [e]
  | .reparentNode nodeId d => d.newParentId ∉ g.descendants nodeId → d.newParentId ≠ nodeId →
    (g.parentEdges nodeId).length ≤ 1 → ∀ e : Edge, e.Joins d.newParentId nodeId → guard (detach nodeId g) [e]
  | .importProject _ f => ∀ g₁ : Graph, g₁.edges = g.edges →
    (∀ x c, f.idMap (uuid 0) x = some c → g₁.branchOf c = some none ∧ ∀ e ∈ g.edges.rows, e.fromNodeId ≠ c ∧ e.toNodeId ≠ c) →
    (∀ a b c, f.idMap (uuid 0) a = some c → f.idMap (uuid 0) b = some c → a = b) → guard g₁ (f.newEdges (uuid 0))
  | .mergeBranch branchId d => ∀ target root, g.nodes.get d.targetNodeId = some target → target.branchId = none →
    branchRoot g branchId = some root → (g.parentEdges root.id).length ≤ 1 →
    ∀ e : Edge, e.Joins d.targetNodeId root.id → guard (detach root.id (mainlined branchId g)) [e]
  | .batch grant actor body => ∀ g' ops order results allowed g₁ g₂,
    Applied uuid now grant actor body g g' ops order results allowed g₁ g₂ →
    Guarded guard uuid now grant.projectId actor g₁ order
  | _ => True

variable {g : Graph} {x : String} {expected : Int} {b : ContentBlock}

theorem stated_node {n : Node} (hn : g.nodes.get x = some n)
    (hrev : expected = orOne n.revision) (cur : Int) (hcur : g.revisionOf (.node x) = some cur) : cur = expected := by
  rw [Graph.revisionOf, hn, Option.map_some, Option.some.injEq] at hcur
  rw [hrev, hcur]

theorem stated_edge {e : Edge} (he : g.edges.get x = some e)
    (hrev : expected = orOne e.revision) (cur : Int) (hcur : g.revisionOf (.edge x) = some cur) : cur = expected := by
  rw [Graph.revisionOf, he, Option.map_some, Option.some.injEq] at hcur
  rw [hrev, hcur]

theorem stated_block (hb : g.blocks.get x = some b)
    (hrev : expected = orOne b.revision) (cur : Int) (hcur : g.revisionOf (.block x) = some cur) : cur = expected := by
  rw [Graph.revisionOf, hb, Option.map_some, Option.some.injEq] at hcur
  rw [hrev, hcur]

theorem stated_branch {b : Branch} (hb : g.branches.get x = some b)
    (hrev : expected = orOne b.revision) (cur : Int) (hcur : g.revisionOf (.branch x) = some cur) : cur = expected := by
  rw [Graph.revisionOf, hb, Option.map_some, Option.some.injEq] at hcur
  rw [hrev, hcur]

def Request.Current (r : Request) (see : Nat → Graph) (g : Graph) : Prop :=
  ∀ x ∈ r.stated see, ∀ cur, g.revisionOf x.1 = some cur → cur = x.2

theorem orOne_of_pos {r : Int} (h : 1 ≤ r) : orOne r = r := by
  unfold orOne
  split <;> omega

theorem expectations_identified (draw : Nat → String) (ops : List (Op (Option String))) :
    (identified draw ops).flatMap Op.expectations = ops.flatMap Op.expectations := by
  have hsame : ∀ (op : Op (Option String)) (f : Option String → String), (op.withId f).expectations = op.expectations := by
    intro op f
    cases op <;> rfl
  simp only [identified, List.flatMap_map, hsame]
  rw [← List.flatMap_map (f := Prod.fst), List.zipIdx_map_fst]

theorem fills_expectations {raws ops : List (Op String)} (h : List.Forall₂ Fills raws ops) :
    raws.flatMap Op.expectations = ops.flatMap Op.expectations := by
  induction h with
  | nil => rfl
  | cons hd _ ih =>
    rw [List.flatMap_cons, List.flatMap_cons, ih]
    cases hd with
    | node => rfl
    | other => rfl

section Applied

variable {uuid : Nat → Nat → String} {now : Int} {grant : Grant} {actor : String} {body : Batch} {g g' : Graph}
  {ops : List (Op String)} {order : List (Op String × Nat)} {results : List (OpResult × Nat)} {allowed : List String}
  {g₁ g₂ : Graph}

theorem Applied.current (ha : Applied uuid now grant actor body g g' ops order results allowed g₁ g₂) :
    (Request.batch grant actor body).Current (fun _ => g) g := by
  intro y hy cur hcur
  obtain ⟨⟨x, expected⟩, hx, rfl⟩ := List.mem_map.mp hy
  rw [← expectations_identified (fun i => uuid i 0), fills_expectations ha.fills] at hx
  obtain ⟨op, hop, hx⟩ := List.mem_flatMap.mp hx
  obtain ⟨b, href⟩ := ha.validated.refs ha.inScope (fun o ho => ha.self ho) hop hx
  cases href with
  | existing hn hrev =>
    have hget := (ha.snapshot.mp hn).1
    rw [(claim_rows ha.claim).1] at hget
    refine stated_node hget ?_ cur hcur
    rw [orOne_of_pos (by rw [hrev]; exact expected.2), hrev]
  | new hn hrev hnew =>
    -- a node that the batch creates was not there
    obtain ⟨o, ho, honew⟩ := List.mem_filterMap.mp hnew
    obtain ⟨i, hi⟩ := ha.scheduled ho
    have hnone := (ha.grown.created x b (List.mem_filterMap.mpr ⟨_, hi, honew⟩)).1
    rw [(claim_rows ha.claim).1] at hnone
    simp [Graph.revisionOf, hnone] at hcur

end Applied

/-! Every request -/

theorem current_move {nodeId : String} {d : NodeMove} {l : Loaded} (hl : l.Of g nodeId d.newParentId)
    (hcheck : checkMove l d = .ok ()) :
    ∀ x ∈ [(Entity.node nodeId, d.expectedRevision), (.node d.newParentId, d.expectedNewParentRevision)] ++
      oldParentOf g nodeId d.expectedOldParentRevision, ∀ cur, g.revisionOf x.1 = some cur → cur = x.2 := by
  obtain ⟨hnode, hparent, hold⟩ := checkMove_ok hcheck
  intro x hx cur hcur
  simp only [List.cons_append, List.nil_append, List.mem_cons] at hx
  rcases hx with rfl | rfl | hx
  · exact stated_node hl.node hnode cur hcur
  · exact stated_node hl.newParent hparent cur hcur
  · rw [oldParentOf, hl.oldEdge] at hx
    obtain ⟨y, hy, hx⟩ := List.mem_flatMap.mp hx
    obtain ⟨e, he, rfl⟩ := List.mem_map.mp hy
    obtain ⟨r, hr, rfl⟩ := List.mem_map.mp hx
    rw [Option.mem_toList] at he hr
    simp only [Graph.revisionOf, Option.map_eq_some_iff] at hcur
    obtain ⟨n, hn, rfl⟩ := hcur
    have hexpected := hold n (by rw [hl.oldParent, he]; exact hn)
    rw [hr, Option.some.injEq] at hexpected
    exact hexpected.symm

theorem current_owner {blockId : String} {n : Node} {expectedNode : Int}
    (hb : g.blocks.get blockId = some b) (hn : g.nodes.get b.nodeId = some n) (hrev : expected = orOne b.revision)
    (hnode : expectedNode = orOne n.revision) :
    ∀ x ∈ (Entity.block blockId, expected) :: ownerNode g blockId expectedNode, ∀ cur, g.revisionOf x.1 = some cur → cur = x.2 := by
  intro x hx cur hcur
  rw [ownerNode, hb, Option.map_some, Option.toList_some, List.mem_cons, List.mem_singleton] at hx
  rcases hx with rfl | rfl
  · exact stated_block hb hrev cur hcur
  · exact stated_node hn hnode cur hcur

/-- A request that reads the state it claims in commits, and the revisions it states are current. -/
theorem Request.commit {guard : Graph → List Edge → Prop} (pol : Policy guard) {uuid : Nat → Nat → String}
    (huuid : ∀ i k, isUuid (uuid i k) = true) {now : Int} {r : Request} {g' : Graph} (hw : Wf g)
    (hobliged : r.Obliged guard uuid now g) (h : r.run (fun _ => g) uuid now g = .ok g') :
    Commit guard g g' (r.claim (fun _ => g)) ∧ r.Current (fun _ => g) g := by
  cases r with
  | createNode =>
    obtain ⟨hparent, hcommit⟩ := createNode_commit pol hw h
    refine ⟨hcommit, ?_⟩
    intro x hx cur hcur
    obtain ⟨y, hy, hx⟩ := List.mem_flatMap.mp hx
    obtain ⟨e, he, rfl⟩ := List.mem_map.mp hx
    obtain ⟨n, hn, hrev⟩ := hparent y (Option.mem_toList.mp hy)
    rw [Option.mem_toList, hrev] at he
    cases he
    exact stated_node hn rfl cur hcur
  | updateNode =>
    obtain ⟨n, hn, hrev, hcommit⟩ := updateNode_commit h
    exact ⟨by simpa [Request.claim, hn] using hcommit, by
      simpa [Request.Current, Request.stated] using stated_node hn hrev⟩
  | deleteNode =>
    obtain ⟨n, hn, hrev, hcommit⟩ := deleteNode_commit hw h
    exact ⟨by simpa [Request.claim, hn] using hcommit, by
      simpa [Request.Current, Request.stated] using stated_node hn hrev⟩
  | createEdge =>
    obtain ⟨n, hn, hcommit⟩ := createEdge_commit pol hw hobliged h
    exact ⟨by simpa [Request.claim, hn] using hcommit, by simp [Request.Current, Request.stated]⟩
  | updateEdge =>
    obtain ⟨e, he, hrev, hcommit⟩ := updateEdge_commit h
    exact ⟨by simpa [Request.claim, he] using hcommit, by
      simpa [Request.Current, Request.stated] using stated_edge he hrev⟩
  | promoteMainline =>
    obtain ⟨e, he, hrev, hcommit⟩ := promoteMainline_commit hw h
    exact ⟨by simpa [Request.claim, he] using hcommit, by
      simpa [Request.Current, Request.stated] using stated_edge he hrev⟩
  | promoteChildMainline parentId childId =>
    obtain ⟨e, hlist, he, hrev, hcommit⟩ := promoteChildMainline_commit hw h
    refine ⟨?_, by simpa [Request.Current, Request.stated, hlist] using stated_edge he hrev⟩
    have hfind : (g.childEdges parentId).find? (fun e => decide (e.toNodeId = childId)) = some e := by
      rw [← List.head?_filter, hlist]
      rfl
    simpa [Request.claim, hfind] using hcommit
  | deleteEdge =>
    obtain ⟨e, he, hrev, hcommit⟩ := deleteEdge_commit h
    exact ⟨by simpa [Request.claim, he] using hcommit, by
      simpa [Request.Current, Request.stated] using stated_edge he hrev⟩
  | moveNode =>
    obtain ⟨l, hl, hcheck, hcommit⟩ := moveNode_commit pol hw hobliged h
    exact ⟨by simpa [Request.claim, hl.node] using hcommit, current_move hl hcheck⟩
  | reparentNode =>
    obtain ⟨hne, h⟩ := reparentNode_iff.mp h
    obtain ⟨l, hl, hcheck, hcommit⟩ := moveNode_commit pol hw (fun hdesc => hobliged hdesc hne) h
    exact ⟨by simpa [Request.claim, hl.node] using hcommit, current_move hl hcheck⟩
  | createBlock =>
    obtain ⟨n, hn, hrev, hcommit⟩ := createBlock_commit h
    exact ⟨by simpa [Request.claim, hn] using hcommit, by
      simpa [Request.Current, Request.stated] using stated_node hn hrev⟩
  | updateBlock =>
    obtain ⟨b, n, hb, hn, hrev, hnode, hcommit⟩ := updateBlock_commit h
    exact ⟨by simpa [Request.claim, hb, hn] using hcommit, current_owner hb hn hrev hnode⟩
  | deleteBlock =>
    obtain ⟨b, n, hb, hn, hrev, hnode, hcommit⟩ := deleteBlock_commit h
    exact ⟨by simpa [Request.claim, hb, hn] using hcommit, current_owner hb hn hrev hnode⟩
  | createProject => exact ⟨createProject_commit h, by simp [Request.Current, Request.stated]⟩
  | updateProject =>
    exact ⟨updateProject_commit h, by simp [Request.Current, Request.stated]⟩
  | deleteProject => exact ⟨deleteProject_commit h, by simp [Request.Current, Request.stated]⟩
  | importProject => exact ⟨importProject_commit hw hobliged h, by simp [Request.Current, Request.stated]⟩
  | createBranch =>
    exact ⟨createBranch_commit pol hw (isUuid_ne (huuid 0 0)) h, by simp [Request.Current, Request.stated]⟩
  | mergeBranch =>
    obtain ⟨b, n, hb, hn, hrev, htarget, hcommit⟩ := mergeBranch_commit pol hw hobliged h
    refine ⟨by simpa [Request.claim, hb] using hcommit, ?_⟩
    intro x hx cur hcur
    simp only [Request.stated, List.mem_cons, List.not_mem_nil, or_false] at hx
    rcases hx with rfl | rfl
    · exact stated_branch hb hrev cur hcur
    · exact stated_node hn htarget cur hcur
  | archiveBranch =>
    obtain ⟨b, hb, hrev, hcommit⟩ := archiveBranch_commit h
    exact ⟨by simpa [Request.claim, hb] using hcommit, by
      simpa [Request.Current, Request.stated] using stated_branch hb hrev⟩
  | approveArtifact =>
    obtain ⟨n, e, hn, hproject, hrev, hcommit⟩ := approveArtifact_commit pol hw h
    exact ⟨by simpa [Request.claim, hn, hproject] using hcommit, by
      simpa [Request.Current, Request.stated, hrev] using stated_node hn rfl⟩
  | batch =>
    obtain ⟨⟨graph, revision, out⟩, happly, h⟩ := Fallible.bind_ok h
    cases h
    obtain ⟨ops, order, results, allowed, g₁, g₂, ha, -, -⟩ := applyOperations_ok happly
    exact ⟨ha.commit pol hw (hobliged _ _ _ _ _ _ _ ha), ha.current⟩

end GrowthMap.Canon
