import GrowthMap.Canon.ExactTree
import GrowthMap.Canon.Places

/- The deletion of a node takes a tree or nothing.

   `delete_node` checks the closure of the node before its claim and again after it. What it
   deletes then is the tree below the node, with the edges at it and its blocks. -/
namespace GrowthMap.Canon

open Relational Relation Fallible Table

/-- The rules of `validate_closure`. -/
def deletionRules (g : Graph) (node : Node) : ClosureRules :=
  { projectId := node.projectId, branchId := node.branchId,
    forbidden := fun x => g.projects.rows.any (fun p => decide (p.rootNodeId = some x)),
    limit := none, rootParents := 1,
    source := .http 409 "Subtree containment boundary is invalid",
    edge := .http 409 "Subtree containment crosses a boundary or is not a tree",
    inbound := .http 409 "Subtree incoming ownership boundary is invalid",
    rootOwner := .http 409 "Subtree root has invalid ownership",
    owner := .http 409 "Subtree descendant has invalid ownership",
    tooLarge := .http 409 "Subtree containment crosses a boundary or is not a tree" }

theorem validateClosure_eq (g : Graph) (node : Node) : validateClosure g node = closure (deletionRules g node) g node.id := rfl

/-- What is below the node, with it, is a tree that may be deleted. -/
structure Graph.Deletable (g : Graph) (node : Node) (s : Finset String) : Prop where
  /-- one project, one branch, one parent for each node below -/
  tree : g.TreeIn node.projectId node.branchId node.id s
  top : (g.parentEdges node.id).length ≤ 1
  /-- the node is not the root of its project -/
  root : ∀ p, g.projects.get node.projectId = some p → p.rootNodeId ≠ some node.id
  /-- no node below is the root of any project -/
  below : ∀ x ∈ s, x ≠ node.id → ∀ p ∈ g.projects.rows, p.rootNodeId ≠ some x

/-- The second graph is the first without the nodes, the edges at them and their blocks; their
project is one revision later. -/
structure Graph.Without (g g' : Graph) (s : Finset String) (projectId : String) : Prop where
  nodes : ∀ x, g'.nodes.get x = if x ∈ s then none else g.nodes.get x
  edges : ∀ x, g'.edges.get x = (g.edges.get x).filter (fun e => decide (e.fromNodeId ∉ s ∧ e.toNodeId ∉ s))
  blocks : ∀ x, g'.blocks.get x = (g.blocks.get x).filter (fun b => decide (b.nodeId ∉ s))
  projects : ∀ x, g'.projects.get x = if x = projectId then (g.projects.get x).map Project.claim else g.projects.get x

section Deletion

variable {g g' : Graph} {nodeId : String} {expectedProject expected : Int}

theorem validateClosure_iff {node : Node} {s : Finset String} :
    (∃ subtree, validateClosure g node = .ok subtree ∧ ∀ x, x ∈ subtree ↔ x ∈ s) ↔
      g.TreeIn node.projectId node.branchId node.id s ∧ (g.parentEdges node.id).length ≤ 1 ∧
        ∀ x ∈ s, x ≠ node.id → ∀ p ∈ g.projects.rows, p.rootNodeId ≠ some x := by
  have hadmits : (deletionRules g node).Admits g node.id s ↔ (g.parentEdges node.id).length ≤ 1 ∧
      ∀ x ∈ s, x ≠ node.id → ∀ p ∈ g.projects.rows, p.rootNodeId ≠ some x := by
    have hfree : ∀ x, (deletionRules g node).forbidden x = false ↔ ∀ p ∈ g.projects.rows, p.rootNodeId ≠ some x := by
      intro x
      simp only [deletionRules, List.any_eq_false, decide_eq_true_eq, ne_eq]
    constructor
    · intro h
      exact ⟨h.top, fun x hx hne => (hfree x).mp (h.free x hx hne)⟩
    · rintro ⟨htop, hbelow⟩
      exact ⟨htop, fun x hx hne => (hfree x).mpr (hbelow x hx hne), nofun⟩
  rw [validateClosure_eq, closure_iff, hadmits]
  exact Iff.rfl

/-- The steps of a deletion that succeeds. -/
theorem deleteNode_iff : deleteNode (fun _ => g) nodeId expectedProject expected g = .ok g' ↔
    ∃ node subtree g₁, g.nodes.get nodeId = some node ∧
      (∀ p, g.projects.get node.projectId = some p → p.rootNodeId ≠ some nodeId) ∧ expected = orOne node.revision ∧
      validateClosure g node = .ok subtree ∧ claimProjectRevision node.projectId expectedProject g = .ok g₁ ∧
      g' = deleteNodes subtree (deleteEdges (fun e => decide (e.fromNodeId ∈ subtree ∨ e.toNodeId ∈ subtree)) g₁) := by
  unfold deleteNode
  cases hn : g.nodes.get nodeId with
  | none => simp
  | some node =>
    have hroot : ¬ (g.projects.get node.projectId).any (fun p => decide (p.rootNodeId = some nodeId)) = true ↔
        ∀ p, g.projects.get node.projectId = some p → p.rootNodeId ≠ some nodeId := by
      cases g.projects.get node.projectId <;> simp
    have hcheck : ∀ u, checkEntityRevision "node" node.id node.revision expected = .ok u ↔ expected = orOne node.revision := by
      intro u
      rw [checkEntityRevision, guard_eq_ok, not_not]
      exact and_iff_left rfl
    simp only [guard_eq_ok, hroot, Fallible.bind_eq_ok, hcheck, pure_eq_ok, Option.some.injEq]
    constructor
    · rintro ⟨hroot, -, hrev, subtree, hclosure, g₁, hclaim, subtree', hclosure', rfl⟩
      rw [validateClosure_claim hclaim, hclosure, Except.ok.injEq] at hclosure'
      subst hclosure'
      exact ⟨node, subtree, g₁, rfl, hroot, hrev, hclosure, hclaim, rfl⟩
    · rintro ⟨_, subtree, g₁, rfl, hroot, hrev, hclosure, hclaim, rfl⟩
      exact ⟨hroot, (), hrev, subtree, hclosure, g₁, hclaim, subtree, by rw [validateClosure_claim hclaim, hclosure], rfl⟩

/-- What is left after a deletion. -/
theorem without_deleted {subtree : List String} {p : String} {r : Int} {g₁ : Graph} (hclaim : claimProjectRevision p r g = .ok g₁) :
    g.Without (deleteNodes subtree (deleteEdges (fun e => decide (e.fromNodeId ∈ subtree ∨ e.toNodeId ∈ subtree)) g₁))
      subtree.toFinset p := by
  obtain ⟨_, -, -, rfl⟩ := claimProjectRevision_ok hclaim
  refine ⟨fun x => ?_, fun x => ?_, fun x => ?_, fun x => ?_⟩
  · show (g.nodes.keep (fun n => n.id ∉ subtree)).get x = _
    rw [get_keep_filter]
    cases hx : g.nodes.get x with
    | none => split <;> rfl
    | some =>
      rw [Option.filter_some, get_key hx]
      by_cases hmem : x ∈ subtree
      · simp [hmem]
      · simp [hmem]
  · show ((g.edges.keep (fun e => !decide (e.fromNodeId ∈ subtree ∨ e.toNodeId ∈ subtree))).keep
      (fun e => decide (e.fromNodeId ∉ subtree ∧ e.toNodeId ∉ subtree))).get x = _
    rw [get_keep_filter, get_keep_filter, Option.filter_filter]
    congr 1
    funext e
    by_cases hfrom : e.fromNodeId ∈ subtree
    · simp [hfrom]
    · simp [hfrom]
  · show (g.blocks.keep (fun b => b.nodeId ∉ subtree)).get x = _
    rw [get_keep_filter]
    congr 1
    funext b
    simp
  · exact get_modify g.projects p Project.claim Project.claim_key x

/-- A deletion succeeds exactly on the trees, and takes exactly the tree. -/
theorem deleteNode_exact (g : Graph) (nodeId : String) (expectedProject expected : Int) :
    -- the walk ends: more fuel changes nothing
    (∀ node, g.nodes.get nodeId = some node → ∀ n, g.edges.rows.length + 2 ≤ n →
      closureLevels (deletionRules g node) g n [nodeId] [nodeId] [] =
        closureLevels (deletionRules g node) g (g.edges.rows.length + 2) [nodeId] [nodeId] []) ∧
    ((∃ g', deleteNode (fun _ => g) nodeId expectedProject expected g = .ok g') ↔
      ∃ node s, g.nodes.get nodeId = some node ∧ g.Deletable node s ∧ expected = orOne node.revision ∧
        ∃ p, g.projects.get node.projectId = some p ∧ p.revision = expectedProject) ∧
    (∀ g', deleteNode (fun _ => g) nodeId expectedProject expected g = .ok g' →
      ∃ node s, g.nodes.get nodeId = some node ∧ g.Deletable node s ∧ g.Without g' s node.projectId) ∧
    ∀ e : Event, e.request = .deleteNode nodeId expectedProject expected →
      (∀ g', deleteNode (fun _ => g) nodeId expectedProject expected g ≠ .ok g') → g.after e = g := by
  have hsucceeds : ∀ g', deleteNode (fun _ => g) nodeId expectedProject expected g = .ok g' →
      ∃ node s, g.nodes.get nodeId = some node ∧ g.Deletable node s ∧ g.Without g' s node.projectId ∧
        expected = orOne node.revision ∧ ∃ p, g.projects.get node.projectId = some p ∧ p.revision = expectedProject := by
    intro g' h
    obtain ⟨node, subtree, g₁, hn, hroot, hrev, hclosure, hclaim, rfl⟩ := deleteNode_iff.mp h
    obtain ⟨htree, htop, hbelow⟩ := validateClosure_iff.mp ⟨subtree, hclosure, fun _ => List.mem_toFinset.symm⟩
    obtain ⟨p, hp, hexpected, -⟩ := claimProjectRevision_ok hclaim
    exact ⟨node, subtree.toFinset, hn, ⟨htree, htop, by rwa [Table.get_key hn], hbelow⟩, without_deleted hclaim, hrev, p, hp, hexpected⟩
  refine ⟨?_, ⟨?_, ?_⟩, ?_, ?_⟩
  · intro node _ n hn
    exact closureLevels_ends _ g nodeId hn
  · rintro ⟨g', h⟩
    obtain ⟨node, s, hn, hdeletable, -, hrest⟩ := hsucceeds g' h
    exact ⟨node, s, hn, hdeletable, hrest⟩
  · rintro ⟨node, s, hn, hdeletable, hrev, p, hp, hexpected⟩
    obtain ⟨subtree, hclosure, -⟩ := validateClosure_iff.mpr ⟨hdeletable.tree, hdeletable.top, hdeletable.below⟩
    have hclaim : claimProjectRevision node.projectId expectedProject g =
        .ok { g with projects := g.projects.modify node.projectId Project.claim Project.claim_key } := by
      simp only [claimProjectRevision, hp, hexpected, ne_eq, not_true_eq_false, if_false]
    refine ⟨_, deleteNode_iff.mpr ⟨node, subtree, _, hn, ?_, hrev, hclosure, hclaim, rfl⟩⟩
    rw [← Table.get_key hn]
    exact hdeletable.root
  · intro g' h
    obtain ⟨node, s, hn, hdeletable, hwithout, -⟩ := hsucceeds g' h
    exact ⟨node, s, hn, hdeletable, hwithout⟩
  · intro e he h
    unfold Graph.after
    rw [he]
    split
    · rename_i g' hrun
      exact absurd hrun (h g')
    · rfl

end Deletion

end GrowthMap.Canon
