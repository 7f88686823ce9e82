import GrowthMap.Canon.Revisions
import GrowthMap.Canon.Containment

/- Whether revisions tell the truth about change.

   Each request touches certain nodes. In every reachable graph a successful request bumps
   those by exactly one and leaves the rows of all others, and a node whose blocks or
   children change is touched, apart from three requests that change the children of a node
   they do not touch. That a touched node has always changed does not hold: a move bumps the node
   that is moved, and of that node nothing changes. -/
namespace GrowthMap.Canon

open Relational

def Request.Touches (g : Graph) (r : Request) (x : String) : Prop :=
  match r with
  | .createNode _ d => truthy d.parentId = some x
  | .updateNode nodeId _ | .createBlock nodeId _ | .approveArtifact nodeId .. => x = nodeId
  | .moveNode nodeId d | .reparentNode nodeId d => MoveTouches g nodeId d.newParentId x
  | .updateBlock blockId _ | .deleteBlock blockId .. => ∃ b, g.blocks.get blockId = some b ∧ b.nodeId = x
  | .mergeBranch branchId d => x = d.targetNodeId ∨ g.branchOf x = some (some branchId)
  | .batch _ _ body => ∃ op ∈ body.operations, x ∈ op.touches
  | _ => False

/-- The children of a node change without a touch: by a new `child_of` edge of `POST /api/edges`, with the delete of a
child, and when the root of a merged branch leaves its old parent. -/
def Request.Omits (g g' : Graph) (r : Request) (x : String) : Prop :=
  match r with
  | .createEdge d => d.relationType = "child_of" ∧ d.fromNodeId = x
  | .deleteNode .. => ∃ y ∈ g.children x, g'.nodes.get y = none
  | .mergeBranch branchId _ => ∃ root, branchRoot g branchId = some root ∧ root.id ∈ g.children x
  | _ => False

variable {r : Request} {g g' : Graph} {uuid : Nat → Nat → String}

theorem Request.reflects {now : Int} (hw : Wf g)
    (h : r.run (fun _ => g) uuid now g = .ok g') : Reflects (r.Touches g) (r.Omits g g') g g' := by
  cases r with
  | createNode => exact createNode_reflects h
  | updateNode => exact updateNode_reflects h
  | deleteNode => exact deleteNode_reflects h
  | createEdge => exact createEdge_reflects h
  | updateEdge => exact updateEdge_reflects h
  | promoteMainline => exact promoteMainline_reflects h
  | promoteChildMainline => exact promoteChildMainline_reflects h
  | deleteEdge => exact deleteEdge_reflects h
  | moveNode => exact moveNode_reflects h
  | reparentNode => exact moveNode_reflects (reparentNode_iff.mp h).2
  | createBlock => exact createBlock_reflects h
  | updateBlock => exact updateBlock_reflects h
  | deleteBlock => exact deleteBlock_reflects h
  | createProject => exact createProject_reflects h
  | updateProject => exact updateProject_reflects h
  | deleteProject => exact deleteProject_reflects hw h
  | importProject => exact importProject_reflects h
  | createBranch => exact createBranch_reflects h
  | mergeBranch => exact mergeBranch_reflects hw h
  | archiveBranch => exact archiveBranch_reflects h
  | approveArtifact => exact approveArtifact_reflects h
  | batch =>
    obtain ⟨⟨graph, revision, out⟩, happly, h⟩ := Fallible.bind_ok h
    cases h
    obtain ⟨ops, order, results, allowed, g₁, g₂, ha, -, -⟩ := applyOperations_ok happly
    exact ha.reflects

/-! Reachable graphs -/

theorem Request.obliged_true {now : Int} :
    r.Obliged (fun _ _ => True) uuid now g := by
  cases r <;> simp [Request.Obliged, Guarded]

def Graph.FromOne (g : Graph) : Prop := ∀ x n, g.nodes.get x = some n → 1 ≤ n.revision

theorem Reflects.fromOne {touched gap : String → Prop} (h : Reflects touched gap g g') (hg : g.FromOne) :
    g'.FromOne := by
  intro x n' hn'
  cases hn : g.nodes.get x with
  | none => rw [h.born x n' hn hn']
  | some n =>
    have hpos := hg x n hn
    by_cases hx : touched x
    · rw [h.bumps x n n' hn hn' hx, bumped, orOne_of_pos hpos]
      omega
    · rw [h.rows x n n' hn hn' hx]
      exact hpos

theorem reached_sound (es : List Event) :
    Wf (Runs.run Graph.after Graph.empty es) ∧ (Runs.run Graph.after Graph.empty es).FromOne := by
  refine Runs.Reachable.invariant (fun g => Wf g ∧ g.FromOne) ?_ ?_ ⟨es, rfl⟩
  · refine ⟨wf_empty, ?_⟩
    intro x n hn
    cases hn
  · rintro g e ⟨hw, hone⟩
    unfold Graph.after
    split
    · rename_i g' hrun
      have hcommit := (Request.commit policy_true e.ids hw Request.obliged_true hrun).1
      exact ⟨(hcommit.sound hw).1, (Request.reflects hw hrun).fromOne hone⟩
    · exact ⟨hw, hone⟩

/-- No row names a row that is not there: after any requests, edges, blocks and branches have
their nodes, and nodes their branches, in their own project. -/
theorem no_dangling_rows (es : List Event) :
    let g := Runs.run Graph.after Graph.empty es
    (∀ e ∈ g.edges.rows, ∃ a b, g.nodes.get e.fromNodeId = some a ∧ g.nodes.get e.toNodeId = some b ∧
      a.projectId = e.projectId ∧ b.projectId = e.projectId) ∧
    (∀ b ∈ g.blocks.rows, ∃ n, g.nodes.get b.nodeId = some n) ∧
    (∀ n ∈ g.nodes.rows, ∀ b, n.branchId = some b → ∃ row, g.branches.get b = some row ∧ row.projectId = n.projectId) ∧
    (∀ b ∈ g.branches.rows, ∀ x, b.sourceNodeId = some x → ∃ n, g.nodes.get x = some n ∧ n.projectId = b.projectId) ∧
    ∀ x n, g.nodes.get x = some n → 1 ≤ n.revision := by
  intro g
  obtain ⟨hw, hone⟩ := reached_sound es
  exact ⟨hw.edge, hw.block, hw.branch, hw.source, hone⟩

/-! Change -/

/-- The columns of the node other than its revision, its blocks or its children are not the same. -/
def Changed (x : String) (n n' : Node) (g g' : Graph) : Prop := { n' with revision := n.revision } ≠ n ∨ ¬ Undisturbed x g g'

/-- In every reachable graph a successful request bumps the nodes it touches by exactly one, leaves the rows of the others,
and touches each node that changes, apart from those it omits. -/
theorem revisions_reflect_touches {es : List Event} {e : Event} {g' : Graph}
    (h : e.request.run (fun _ => Runs.run Graph.after Graph.empty es) e.uuid e.now (Runs.run Graph.after Graph.empty es) = .ok g')
    {x : String} {n n' : Node} (hn : (Runs.run Graph.after Graph.empty es).nodes.get x = some n) (hn' : g'.nodes.get x = some n') :
    (e.request.Touches (Runs.run Graph.after Graph.empty es) x → n'.revision = n.revision + 1) ∧
      (¬ e.request.Touches (Runs.run Graph.after Graph.empty es) x → n' = n) ∧
      (Changed x n n' (Runs.run Graph.after Graph.empty es) g' → ¬ e.request.Omits (Runs.run Graph.after Graph.empty es) g' x →
        e.request.Touches (Runs.run Graph.after Graph.empty es) x) := by
  obtain ⟨hw, hone⟩ := reached_sound es
  have hreflects := Request.reflects hw h
  refine ⟨?_, hreflects.rows x n n' hn hn', ?_⟩
  · intro hx
    rw [hreflects.bumps x n n' hn hn' hx, bumped, orOne_of_pos (hone x n hn)]
  · intro hchanged homits
    by_contra hx
    rcases hchanged with hrow | howns
    · apply hrow
      rw [hreflects.rows x n n' hn hn' hx]
    · exact howns (hreflects.owns x n n' hn hn' hx homits)

def reachedBy (es : List Event) (e : Event) : Except Err Graph :=
  e.request.run (fun _ => Runs.run Graph.after Graph.empty es) e.uuid e.now (Runs.run Graph.after Graph.empty es)

def sampleSibling : Event :=
  sampleEvent 4 (.createNode (sampleId 0) ⟨2, some 2, "b", "", "idea", some (sampleId 1), none, "", []⟩)

theorem revisions_reflect_touches_sibling :
    ∃ g' n n', reachedBy sampleProject sampleSibling = .ok g' ∧
      (Runs.run Graph.after Graph.empty sampleProject).nodes.get (sampleId 1) = some n ∧ g'.nodes.get (sampleId 1) = some n' ∧
      n'.revision = n.revision + 1 := by
  have hok : (reachedBy sampleProject sampleSibling).toOption.any (fun g' => (g'.nodes.get (sampleId 1)).isSome) = true ∧
      ((Runs.run Graph.after Graph.empty sampleProject).nodes.get (sampleId 1)).isSome = true := by decide +kernel
  obtain ⟨hok, hroot⟩ := hok
  obtain ⟨n, hn⟩ := Option.isSome_iff_exists.mp hroot
  cases hrun : reachedBy sampleProject sampleSibling with
  | error e =>
    rw [hrun] at hok
    cases hok
  | ok g' =>
    rw [hrun] at hok
    obtain ⟨n', hn'⟩ := Option.isSome_iff_exists.mp hok
    exact ⟨g', n, n', rfl, hn, hn', (revisions_reflect_touches hrun hn hn').1 rfl⟩

/-- The second child is moved under the first. -/
def sampleMove : Event := sampleEvent 6 (.moveNode (sampleId 4) ⟨sampleId 2, 3, 1, 1, some 3⟩)

/-- The node that is moved is bumped, and nothing of it has changed. -/
theorem moved_bumped_unchanged :
    ∃ g' n n', reachedBy (sampleProject ++ [sampleSibling]) sampleMove = .ok g' ∧
      (Runs.run Graph.after Graph.empty (sampleProject ++ [sampleSibling])).nodes.get (sampleId 4) = some n ∧
      g'.nodes.get (sampleId 4) = some n' ∧
      ¬ Changed (sampleId 4) n n' (Runs.run Graph.after Graph.empty (sampleProject ++ [sampleSibling])) g' ∧
      n'.revision ≠ n.revision := by
  have hok : (reachedBy (sampleProject ++ [sampleSibling]) sampleMove).toOption.any (fun g' =>
        decide (g'.blocksOf (sampleId 4) = [] ∧ g'.childIds (sampleId 4) = [])) = true ∧
      (Runs.run Graph.after Graph.empty (sampleProject ++ [sampleSibling])).blocksOf (sampleId 4) = [] ∧
      (Runs.run Graph.after Graph.empty (sampleProject ++ [sampleSibling])).childIds (sampleId 4) = [] ∧
      ((Runs.run Graph.after Graph.empty (sampleProject ++ [sampleSibling])).nodes.get (sampleId 4)).any
        (fun n => decide (n.revision = 1)) = true := by decide +kernel
  obtain ⟨hok, hblocks, hchildren, hrev⟩ := hok
  obtain ⟨n, hn, hrev⟩ := (Option.any_eq_true _ _).mp hrev
  cases hrun : reachedBy (sampleProject ++ [sampleSibling]) sampleMove with
  | error e =>
    rw [hrun] at hok
    cases hok
  | ok g' =>
    rw [hrun] at hok
    obtain ⟨hblocks', hchildren'⟩ := of_decide_eq_true hok
    have hmoved : g'.nodes.get (sampleId 4) = some n.bump := moveNode_moved hrun hn
    refine ⟨g', n, n.bump, rfl, hn, hmoved, ?_, ?_⟩
    · rintro (hrow | howns)
      · exact hrow rfl
      · exact howns ⟨hblocks'.trans hblocks.symm, hchildren'.trans hchildren.symm⟩
    · have hone : n.revision = 1 := of_decide_eq_true hrev
      show bumped n.revision ≠ n.revision
      rw [hone]
      decide

end GrowthMap.Canon
