import GrowthMap.Canon.Revisions

/- Where a node is: which project it is of, and which branch it is in.

   A node stays in its project and its branch under every request but three: the delete of
   a subtree it is in, the delete of its project, and the merge of its branch, which puts
   it on the mainline. -/
namespace GrowthMap.Canon

open Relational Fallible Table

/-- The node, if it was there, still is, in the same project and branch. -/
def Stays (x : String) (g g' : Graph) : Prop :=
  ∀ n, g.nodes.get x = some n → ∃ n', g'.nodes.get x = some n' ∧ n'.projectId = n.projectId ∧ n'.branchId = n.branchId

def Request.Deletes (g : Graph) (x : String) : Request → Prop
  | .deleteNode nodeId .. => ∃ node subtree, g.nodes.get nodeId = some node ∧ validateClosure g node = .ok subtree ∧ x ∈ subtree
  | .deleteProject projectId _ => ∃ n, g.nodes.get x = some n ∧ n.projectId = projectId
  | _ => False

def Request.Merges (g : Graph) (x : String) : Request → Prop
  | .mergeBranch branchId _ => g.branchOf x = some (some branchId)
  | _ => False

variable {p x : String} {n : Node} {g g' : Graph} {projects : Projects} {out : List String}
  {parents : List (String × String)} {r now : Int} {uuid : Nat → Nat → String}

section Writes

variable {g g' g'' : Graph} {x : String}

theorem Stays.refl (x : String) (g : Graph) : Stays x g g := fun n hn => ⟨n, hn, rfl, rfl⟩

theorem Stays.trans (h : Stays x g g') (h' : Stays x g' g'') : Stays x g g'' := by
  intro n hn
  obtain ⟨n', hn', hproject, hbranch⟩ := h n hn
  obtain ⟨n'', hn'', hproject', hbranch'⟩ := h' n' hn'
  exact ⟨n'', hn'', hproject'.trans hproject, hbranch'.trans hbranch⟩

theorem stays_of_nodes (h : g'.nodes = g.nodes) : Stays x g g' := by
  intro n hn
  exact ⟨n, by rw [h]; exact hn, rfl, rfl⟩

theorem stays_of_rows {ns : List Node} (h : g'.nodes.rows = g.nodes.rows ++ ns) : Stays x g g' := by
  intro n hn
  have hadded : Added g g'.nodes ns := added_of_rows h
  exact ⟨n, hadded.old x n hn, rfl, rfl⟩

theorem stays_claim (h : claimProjectRevision p r g = .ok g') : Stays x g g' :=
  stays_of_nodes (claim_rows h).1

theorem stays_insertNode (h : insertNode n g = .ok g') : Stays x g g' := by
  obtain ⟨-, nodes, hins, rfl⟩ := insertNode_ok h
  exact stays_of_rows (insert_rows hins)

theorem stays_insertEdge {e : Edge} (h : insertEdge e g = .ok g') : Stays x g g' :=
  stays_of_nodes (insertEdge_nodes h)

theorem stays_insertBlock {b : ContentBlock} (h : insertBlock b g = .ok g') : Stays x g g' := by
  obtain ⟨blocks, -, rfl⟩ := insertBlock_ok h
  exact stays_of_nodes rfl

theorem stays_flushNode {old new : Node} (hbranch : new.branchId = old.branchId) (h : flushNode old new g = .ok g') :
    Stays x g g' := by
  intro n hn
  rw [flushNode_ok h]
  show ∃ n', (g.nodes.modify old.id (old.patch new) Node.patch_key).get x = some n' ∧ _
  rw [get_modify]
  by_cases hx : x = old.id
  · rw [if_pos hx, hn]
    exact ⟨old.patch new n, rfl, rfl, if_pos hbranch⟩
  · rw [if_neg hx]
    exact ⟨n, hn, rfl, rfl⟩

theorem stays_flushEdge {old new : Edge} (h : flushEdge old new g = .ok g') : Stays x g g' := by
  rw [flushEdge_ok h]
  exact stays_of_nodes rfl

theorem stays_flushProject {old new : Project} (h : flushProject old new g = .ok g') : Stays x g g' := by
  rw [flushProject_ok h]
  exact stays_of_nodes rfl

theorem stays_each {α : Type} {step : α → Graph → Except Err Graph} (hstep : ∀ a s s', step a s = .ok s' → Stays x s s')
    {as : List α} (h : Fallible.each step as g = .ok g') : Stays x g g' :=
  each_invariant (I := Stays x g) (fun a _ s s' hs ha => hs.trans (hstep a s s' ha)) (.refl x g) h

end Writes

/-! The routes -/

theorem closureEdges_claimed {r : ClosureRules} {es : List Edge} :
    closureEdges r { g with projects } out es parents = closureEdges r g out es parents := by
  induction es generalizing parents with
  | nil => rfl
  | cons e es ih => rw [closureEdges, closureEdges, ih]

theorem closureLevels_claimed {r : ClosureRules} {n : Nat} {frontier : List String} :
    closureLevels r { g with projects } n frontier out parents = closureLevels r g n frontier out parents := by
  induction n generalizing frontier out parents with
  | zero => rfl
  | succ n ih => simp only [closureLevels, closureEdges_claimed, ih]

theorem validateClosure_claim {node : Node} (h : claimProjectRevision p r g = .ok g') :
    validateClosure g' node = validateClosure g node := by
  obtain ⟨_, -, -, rfl⟩ := claimProjectRevision_ok h
  have hroots : ∀ x, (g.projects.modify p Project.claim Project.claim_key).rows.any (fun row => decide (row.rootNodeId = some x)) =
      g.projects.rows.any (fun row => decide (row.rootNodeId = some x)) := by
    intro x
    simp only [Table.modify, Table.update, List.any_map]
    congr 1
    funext row
    simp only [Function.comp]
    split <;> rfl
  simp only [validateClosure, closure, closureLevels_claimed, closureOwners, hroots]

section Routes

variable {g g' : Graph} {x : String} {uuid : Nat → String} {now : Int}
  {projectId nodeId edgeId blockId branchId : String} {expectedProject expected : Int} {d : NodeMove}
  {seats : Option Nat} {f : ImportFile}

theorem createNode_stays {d : NodeCreate} (h : createNode (fun _ => g) uuid projectId d g = .ok g') :
    Stays x g g' := by
  obtain ⟨-, h⟩ := guard_ok h
  obtain ⟨parent, -, h⟩ := bind_ok h
  obtain ⟨g₁, hclaim, h⟩ := bind_ok h
  obtain ⟨_, -, h⟩ := bind_ok h
  obtain ⟨g₂, hnode, h⟩ := bind_ok h
  have hfirst : Stays x g g₂ := (stays_claim hclaim).trans (stays_insertNode hnode)
  cases parent with
  | none =>
    cases h
    exact hfirst
  | some =>
    obtain ⟨g₃, hchild, h⟩ := bind_ok h
    have hsecond : Stays x g g₃ := hfirst.trans (stays_insertEdge hchild)
    exact hsecond.trans (stays_flushNode (by rfl) h)

theorem updateNode_stays {d : NodeUpdate} (h : updateNode (fun _ => g) nodeId d g = .ok g') : Stays x g g' := by
  unfold updateNode at h
  split at h
  · cases h
  · obtain ⟨g₁, hclaim, h⟩ := bind_ok h
    obtain ⟨_, -, h⟩ := bind_ok h
    exact (stays_claim hclaim).trans (stays_flushNode (by rfl) h)

theorem deleteNode_nodes (h : deleteNode (fun _ => g) nodeId expectedProject expected g = .ok g') :
    ∃ node subtree, g.nodes.get nodeId = some node ∧ validateClosure g node = .ok subtree ∧
      g'.nodes = g.nodes.keep (fun n => n.id ∉ subtree) := by
  unfold deleteNode at h
  cases hn : g.nodes.get nodeId with
  | none => simp [hn] at h
  | some node =>
    simp only [hn] at h
    obtain ⟨-, h⟩ := guard_ok h
    obtain ⟨_, -, h⟩ := bind_ok h
    obtain ⟨_, -, h⟩ := bind_ok h
    obtain ⟨g₁, hclaim, h⟩ := bind_ok h
    obtain ⟨subtree, hsubtree, h⟩ := bind_ok h
    cases h
    rw [validateClosure_claim hclaim] at hsubtree
    refine ⟨node, subtree, rfl, hsubtree, ?_⟩
    rw [← (claim_rows hclaim).1]
    rfl

theorem deleteNode_stays (h : deleteNode (fun _ => g) nodeId expectedProject expected g = .ok g')
    (hx : ¬ (Request.deleteNode nodeId expectedProject expected).Deletes g x) : Stays x g g' := by
  obtain ⟨node, subtree, hn, hsubtree, hnodes⟩ := deleteNode_nodes h
  intro n hget
  refine ⟨n, ?_, rfl, rfl⟩
  have hkey : n.id = x := get_key hget
  have hout : x ∉ subtree := fun hin => hx ⟨node, subtree, hn, hsubtree, hin⟩
  rw [hnodes]
  exact get_keep.mpr ⟨hget, by simp [hkey, hout]⟩

theorem createEdge_stays {d : EdgeCreate} (h : createEdge (fun _ => g) uuid d g = .ok g') : Stays x g g' := by
  unfold createEdge at h
  split at h
  · obtain ⟨-, h⟩ := guard_ok h
    obtain ⟨-, h⟩ := guard_ok h
    obtain ⟨-, h⟩ := guard_ok h
    obtain ⟨_, -, h⟩ := bind_ok h
    obtain ⟨-, h⟩ := guard_ok h
    obtain ⟨g₁, hclaim, h⟩ := bind_ok h
    split at h
    · obtain ⟨g₂, hdemote, h⟩ := bind_ok h
      have hfirst : Stays x g g₂ := (stays_claim hclaim).trans (stays_each (fun _ _ _ he => stays_flushEdge he) hdemote)
      exact hfirst.trans (stays_insertEdge h)
    · exact (stays_claim hclaim).trans (stays_insertEdge h)
  · cases h

theorem updateEdge_stays {d : EdgeUpdate} (h : updateEdge (fun _ => g) edgeId d g = .ok g') : Stays x g g' := by
  unfold updateEdge at h
  split at h
  · cases h
  · obtain ⟨-, h⟩ := guard_ok h
    obtain ⟨g₁, hclaim, h⟩ := bind_ok h
    obtain ⟨_, -, h⟩ := bind_ok h
    obtain ⟨-, h⟩ := guard_ok h
    obtain ⟨-, h⟩ := guard_ok h
    obtain ⟨-, h⟩ := guard_ok h
    exact (stays_claim hclaim).trans (stays_flushEdge h)

theorem promote_stays {edge : Edge} (h : promote edge expectedProject expected g = .ok g') :
    Stays x g g' := by
  obtain ⟨g₁, hclaim, h⟩ := bind_ok h
  obtain ⟨_, -, h⟩ := bind_ok h
  obtain ⟨g₂, hdemote, h⟩ := bind_ok h
  have hfirst : Stays x g g₂ := (stays_claim hclaim).trans (stays_each (fun _ _ _ he => stays_flushEdge he) hdemote)
  exact hfirst.trans (stays_flushEdge h)

theorem promoteMainline_stays
    (h : promoteMainline (fun _ => g) edgeId expectedProject expected g = .ok g') : Stays x g g' := by
  unfold promoteMainline at h
  split at h
  · cases h
  · obtain ⟨-, h⟩ := guard_ok h
    exact promote_stays h

theorem promoteChildMainline_stays {parentId childId : String}
    (h : promoteChildMainline (fun _ => g) parentId childId expectedProject expected g = .ok g') : Stays x g g' := by
  obtain ⟨found, -, h⟩ := bind_ok h
  split at h
  · cases h
  · exact promote_stays h

theorem deleteEdge_stays
    (h : deleteEdge (fun _ => g) edgeId expectedProject expected g = .ok g') : Stays x g g' := by
  unfold deleteEdge at h
  split at h
  · cases h
  · obtain ⟨-, h⟩ := guard_ok h
    obtain ⟨g₁, hclaim, h⟩ := bind_ok h
    obtain ⟨_, -, h⟩ := bind_ok h
    cases h
    exact (stays_claim hclaim).trans (stays_of_nodes rfl)

theorem replaceParent_stays {l : Loaded} (h : replaceParent uuid l g = .ok g') : Stays x g g' := by
  obtain ⟨g₁, hchild, h⟩ := bind_ok h
  have hgone : Stays x g (deleteEdges (fun e => decide (some e.id = l.oldEdge.map Edge.id)) g) := stays_of_nodes rfl
  refine (hgone.trans (stays_insertEdge hchild)).trans (stays_each ?_ h)
  intro n s s' hflush
  exact stays_flushNode (by rfl) hflush

theorem moveNode_stays (h : moveNode (fun _ => g) uuid nodeId d g = .ok g') : Stays x g g' := by
  obtain ⟨_, _, -, -, hclaim, -, h⟩ := moveNode_iff.mp h
  exact (stays_claim hclaim).trans (replaceParent_stays h)

theorem rewriteBlockOrder_stays {alwaysBump : Option String} {blocks : List (ContentBlock × ContentBlock)}
    (h : rewriteBlockOrder alwaysBump blocks g = .ok g') : Stays x g g' := by
  refine stays_each ?_ h
  intro b s s' hflush
  rw [flushBlock_ok hflush]
  exact stays_of_nodes rfl

theorem createBlock_stays {d : BlockCreate} (h : createBlock (fun _ => g) uuid now nodeId d g = .ok g') :
    Stays x g g' := by
  unfold createBlock at h
  split at h
  · cases h
  · obtain ⟨g₁, hclaim, h⟩ := bind_ok h
    obtain ⟨_, -, h⟩ := bind_ok h
    obtain ⟨g₂, horder, h⟩ := bind_ok h
    obtain ⟨g₃, hblock, h⟩ := bind_ok h
    have hrows : Stays x g g₃ := ((stays_claim hclaim).trans (rewriteBlockOrder_stays horder)).trans (stays_insertBlock hblock)
    exact hrows.trans (stays_flushNode (by rfl) h)

theorem updateBlock_stays {d : BlockUpdate} (h : updateBlock (fun _ => g) blockId d g = .ok g') :
    Stays x g g' := by
  obtain ⟨⟨block, node⟩, -, h⟩ := bind_ok h
  obtain ⟨g₁, hclaim, h⟩ := bind_ok h
  obtain ⟨_, -, h⟩ := bind_ok h
  obtain ⟨_, -, h⟩ := bind_ok h
  dsimp only at h
  split at h
  · cases h
  · obtain ⟨-, h⟩ := guard_ok h
    obtain ⟨g₂, horder, h⟩ := bind_ok h
    have hrows : Stays x g g₂ := (stays_claim hclaim).trans (rewriteBlockOrder_stays horder)
    exact hrows.trans (stays_flushNode (by rfl) h)

theorem deleteBlock_stays {expectedNode : Int}
    (h : deleteBlock (fun _ => g) blockId expectedProject expectedNode expected g = .ok g') : Stays x g g' := by
  obtain ⟨⟨block, node⟩, -, h⟩ := bind_ok h
  obtain ⟨g₁, hclaim, h⟩ := bind_ok h
  obtain ⟨_, -, h⟩ := bind_ok h
  obtain ⟨_, -, h⟩ := bind_ok h
  obtain ⟨g₂, horder, h⟩ := bind_ok h
  obtain ⟨g₃, hflush, h⟩ := bind_ok h
  cases h
  have hrows : Stays x g g₂ := (stays_claim hclaim).trans (rewriteBlockOrder_stays horder)
  exact (hrows.trans (stays_flushNode (by rfl) hflush)).trans (stays_of_nodes rfl)

theorem createProject_stays {d : ProjectCreate} (h : createProject (fun _ => g) uuid seats d g = .ok g') :
    Stays x g g' := by
  obtain ⟨_, -, h⟩ := bind_ok h
  obtain ⟨g₁, hins, h⟩ := bind_ok h
  obtain ⟨g₂, hnode, hroot⟩ := bind_ok h
  obtain ⟨projects, -, rfl⟩ := insertProject_ok hins
  have hfirst : Stays x g { g with projects } := stays_of_nodes rfl
  have hsecond : Stays x g g₂ := hfirst.trans (stays_insertNode hnode)
  exact hsecond.trans (stays_flushProject hroot)

theorem updateProject_stays
    {changes : List (ProjectField × Value)} (h : updateProject (fun _ => g) seats projectId expectedProject changes g = .ok g') :
    Stays x g g' := by
  unfold updateProject at h
  split at h
  · cases h
  · obtain ⟨g₁, hclaim, h⟩ := bind_ok h
    split at h
    · obtain ⟨_, -, h⟩ := bind_ok h
      exact (stays_claim hclaim).trans (stays_flushProject h)
    · exact (stays_claim hclaim).trans (stays_flushProject h)

theorem deleteProject_stays (h : deleteProject (fun _ => g) projectId expectedProject g = .ok g')
    (hx : ¬ (Request.deleteProject projectId expectedProject).Deletes g x) : Stays x g g' := by
  unfold deleteProject at h
  split at h
  · cases h
  · obtain ⟨g₁, hclaim, h⟩ := bind_ok h
    cases h
    intro n hn
    have hother : n.projectId ≠ projectId := fun heq => hx ⟨n, hn, heq⟩
    rw [← (claim_rows hclaim).1] at hn
    exact ⟨n, get_keep.mpr ⟨hn, decide_eq_true hother⟩, rfl, rfl⟩

theorem importCommitted_stays (h : importCommitted uuid now f g = .ok g') : Stays x g g' := by
  obtain ⟨g₁, hproject, h⟩ := bind_ok h
  obtain ⟨g₂, hnodes, h⟩ := bind_ok h
  obtain ⟨g₃, hroot, h⟩ := bind_ok h
  obtain ⟨g₄, hedges, hblocks⟩ := bind_ok h
  obtain ⟨projects, -, rfl⟩ := insertProject_ok hproject
  have hfirst : Stays x g { g with projects } := stays_of_nodes rfl
  have hset : Stays x g₂ g₃ := by
    unfold ImportFile.setRoot at hroot
    split at hroot
    · cases hroot
      exact .refl x _
    · exact stays_flushProject hroot
  have hgraph : Stays x g g₄ := ((hfirst.trans (stays_each (fun _ _ _ hn => stays_insertNode hn) hnodes)).trans hset).trans
    (stays_each (fun _ _ _ he => stays_insertEdge he) hedges)
  exact hgraph.trans (stays_each (fun _ _ _ hb => stays_insertBlock hb) hblocks)

theorem importProject_stays (h : importProjectJson (fun _ => g) uuid seats now f g = .ok g') :
    Stays x g g' := by
  unfold importProjectJson at h
  split at h
  · exact importCommitted_stays h
  · obtain ⟨_, -, h⟩ := bind_ok h
    exact importCommitted_stays h

theorem createBranch_stays {d : BranchCreate}
    (h : createBranch (fun _ => g) uuid now projectId d g = .ok g') : Stays x g g' := by
  obtain ⟨-, h⟩ := guard_ok h
  split at h
  · cases h
  · obtain ⟨-, h⟩ := guard_ok h
    obtain ⟨g₁, hclaim, h⟩ := bind_ok h
    exact (stays_claim hclaim).trans (stays_of_rows (deepCopyBranch_ok h).rowsOf.nodes)

/-- A merge takes the nodes of its branch out of it, and no others. -/
theorem mergeBranch_moves {d : BranchMerge}
    (h : mergeBranch (fun _ => g) uuid branchId d g = .ok g') (hn : g.nodes.get x = some n) :
    ∃ n', g'.nodes.get x = some n' ∧ n'.projectId = n.projectId ∧
      n'.branchId = if n.branchId = some branchId then none else n.branchId := by
  obtain ⟨branch, target, root, old, g₁, g₂, g₃, m⟩ := mergeBranch_ok h
  have hmain : (mainlined branchId g₁).nodes.get x = some (if n.branchId = some branchId then n.toMain else n) := by
    show (g₁.nodes.update _ Node.toMain Node.toMain_key).get x = _
    rw [get_update, (claim_rows m.claimed).1, hn]
    simp
  have hdetached : Stays x (mainlined branchId g₁)
      (deleteEdges (fun e => decide (some e.id = old.map Edge.id)) (mainlined branchId g₁)) := stays_of_nodes rfl
  have hstatus : Stays x g₂ g₃ := by
    rw [flushBranch_ok m.status]
    exact stays_of_nodes rfl
  have hrest : Stays x (mainlined branchId g₁) g' :=
    ((hdetached.trans (stays_insertEdge m.child)).trans hstatus).trans (stays_flushNode (by rfl) m.flushed)
  obtain ⟨n', hn', hproject, hbranch⟩ := hrest _ hmain
  refine ⟨n', hn', ?_, ?_⟩
  · rw [hproject]
    split <;> rfl
  · rw [hbranch]
    split <;> rfl

theorem mergeBranch_stays {d : BranchMerge} (h : mergeBranch (fun _ => g) uuid branchId d g = .ok g')
    (hx : ¬ (Request.mergeBranch branchId d).Merges g x) : Stays x g g' := by
  intro n hn
  obtain ⟨n', hn', hproject, hbranch⟩ := mergeBranch_moves h hn
  have hother : n.branchId ≠ some branchId := by
    intro heq
    apply hx
    show g.branchOf x = some (some branchId)
    rw [Graph.branchOf, hn, Option.map_some, heq]
  rw [if_neg hother] at hbranch
  exact ⟨n', hn', hproject, hbranch⟩

theorem archiveBranch_stays
    (h : archiveBranch (fun _ => g) branchId expectedProject expected g = .ok g') : Stays x g g' := by
  unfold archiveBranch at h
  split at h
  · cases h
  · obtain ⟨-, h⟩ := guard_ok h
    obtain ⟨g₁, hclaim, h⟩ := bind_ok h
    obtain ⟨_, -, h⟩ := bind_ok h
    rw [flushBranch_ok h]
    exact (stays_claim hclaim).trans (stays_of_nodes rfl)

variable {payload : ArtifactPayload}

theorem applyArtifact_stays {target : Node} (h : applyArtifact uuid now target payload g = .ok g') :
    Stays x g g' := by
  cases payload with
  | createChild =>
    obtain ⟨g₁, hnode, h⟩ := bind_ok h
    obtain ⟨g₂, hchild, h⟩ := bind_ok h
    exact ((stays_insertNode hnode).trans (stays_insertEdge hchild)).trans (stays_flushNode (by rfl) h)
  | updateNode => exact stays_flushNode (by rfl) h
  | createBlock =>
    obtain ⟨g₁, hblock, h⟩ := bind_ok h
    exact (stays_insertBlock hblock).trans (stays_flushNode (by rfl) h)

theorem approveArtifact_stays {targetNodeId : String} {d : ArtifactReview}
    (h : approveArtifact (fun _ => g) uuid now projectId targetNodeId payload d g = .ok g') : Stays x g g' := by
  unfold approveArtifact at h
  split at h
  · cases h
  · split at h
    · obtain ⟨g₁, hclaim, h⟩ := bind_ok h
      obtain ⟨_, -, h⟩ := bind_ok h
      exact (stays_claim hclaim).trans (applyArtifact_stays h)
    · cases h

theorem Applied.stays {uuid : Nat → Nat → String} {grant : Grant} {actor : String} {body : Batch} {ops : List (Op String)}
    {order : List (Op String × Nat)} {results : List (OpResult × Nat)} {allowed : List String} {g₁ g₂ : Graph}
    (ha : Applied uuid now grant actor body g g' ops order results allowed g₁ g₂) : Stays x g g' := by
  refine (stays_claim ha.claim).trans ?_
  intro n hn
  obtain ⟨m, hm, hevolves, -⟩ := ha.grown.keeps x n hn
  rw [ha.bump.nodes, hm]
  split
  · exact ⟨m.bump, rfl, hevolves.identity.2.1, hevolves.branch⟩
  · exact ⟨m, rfl, hevolves.identity.2.1, hevolves.branch⟩

end Routes

/-- A node that a request neither deletes nor merges stays where it is. -/
theorem Request.stays {r : Request}
    (h : r.run (fun _ => g) uuid now g = .ok g') (hdeletes : ¬ r.Deletes g x) (hmerges : ¬ r.Merges g x) : Stays x g g' := by
  cases r with
  | createNode => exact createNode_stays h
  | updateNode => exact updateNode_stays h
  | deleteNode => exact deleteNode_stays h hdeletes
  | createEdge => exact createEdge_stays h
  | updateEdge => exact updateEdge_stays h
  | promoteMainline => exact promoteMainline_stays h
  | promoteChildMainline => exact promoteChildMainline_stays h
  | deleteEdge => exact deleteEdge_stays h
  | moveNode => exact moveNode_stays h
  | reparentNode => exact moveNode_stays (reparentNode_iff.mp h).2
  | createBlock => exact createBlock_stays h
  | updateBlock => exact updateBlock_stays h
  | deleteBlock => exact deleteBlock_stays h
  | createProject => exact createProject_stays h
  | updateProject => exact updateProject_stays h
  | deleteProject => exact deleteProject_stays h hdeletes
  | importProject => exact importProject_stays h
  | createBranch => exact createBranch_stays h
  | mergeBranch => exact mergeBranch_stays h hmerges
  | archiveBranch => exact archiveBranch_stays h
  | approveArtifact => exact approveArtifact_stays h
  | batch =>
    obtain ⟨⟨graph, revision, out⟩, happly, h⟩ := bind_ok h
    cases h
    obtain ⟨ops, order, results, allowed, g₁, g₂, ha, -, -⟩ := applyOperations_ok happly
    exact ha.stays

/-- What a request deletes is gone. -/
theorem Request.deleted {r : Request} {uuid : Nat → Nat → String} {now : Int} {g g' : Graph} {x : String}
    (h : r.run (fun _ => g) uuid now g = .ok g') (hx : r.Deletes g x) : g'.nodes.get x = none := by
  rw [← Option.not_isSome_iff_eq_none]
  intro hsome
  obtain ⟨n', hn'⟩ := Option.isSome_iff_exists.mp hsome
  cases r with
  | deleteNode =>
    obtain ⟨node, subtree, hn, hsubtree, hin⟩ := hx
    obtain ⟨node', subtree', hnode', hsubtree', hnodes⟩ := deleteNode_nodes h
    cases hn.symm.trans hnode'
    cases hsubtree.symm.trans hsubtree'
    rw [hnodes] at hn'
    obtain ⟨hget, hkept⟩ := get_keep.mp hn'
    have hkey : n'.id = x := get_key hget
    rw [hkey] at hkept
    exact absurd hin (of_decide_eq_true hkept)
  | deleteProject projectId expectedProject =>
    obtain ⟨n, hn, hproject⟩ := hx
    have hrun : Canon.deleteProject (fun _ => g) projectId expectedProject g = .ok g' := h
    unfold Canon.deleteProject at hrun
    split at hrun
    · cases hrun
    · obtain ⟨g₁, hclaim, hrun⟩ := bind_ok hrun
      cases hrun
      obtain ⟨hget, hkept⟩ := get_keep.mp hn'
      rw [(claim_rows hclaim).1, hn] at hget
      cases hget
      exact absurd hproject (of_decide_eq_true hkept)
  | _ => exact hx

theorem Request.places {r : Request}
    (h : r.run (fun _ => g) uuid now g = .ok g') (hx : ¬ r.Deletes g x) (hn : g.nodes.get x = some n) :
    ∃ n', g'.nodes.get x = some n' ∧ n'.projectId = n.projectId ∧
      (n'.branchId = n.branchId ∨ r.Merges g x ∧ n'.branchId = none) := by
  by_cases hmerges : r.Merges g x
  · cases r with
    | mergeBranch branchId =>
      obtain ⟨n', hn', hproject, hbranch⟩ := mergeBranch_moves h hn
      have hin : n.branchId = some branchId := by
        have hof : g.branchOf x = some (some branchId) := hmerges
        rw [Graph.branchOf, hn, Option.map_some] at hof
        exact Option.some.inj hof
      rw [if_pos hin] at hbranch
      exact ⟨n', hn', hproject, .inr ⟨hmerges, hbranch⟩⟩
    | _ => exact hmerges.elim
  · obtain ⟨n', hn', hproject, hbranch⟩ := Request.stays h hx hmerges n hn
    exact ⟨n', hn', hproject, .inl hbranch⟩

end GrowthMap.Canon
