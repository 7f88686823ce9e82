import GrowthMap.Canon.MainlineRoutes
import GrowthMap.Canon.Revisions

/- The two routes that move a node.

   `move_node` and `reparent_node` load the same rows, check the same revisions and replace the
   same edge. Only the second refuses a node that would become its own parent: the first one
   makes the edge, when the move of the node to itself has nothing else against it. -/
namespace GrowthMap.Canon

open Relational Fallible Table

section Moves

variable {g g' : Graph} {uuid : Nat → String} {nodeId : String} {d : NodeMove}

/-! What a move needs to succeed -/

theorem touchAll_succeeds {ns : List Node} (h : ∀ n ∈ ns, (g.nodes.get n.id).isSome = true) : ∃ g', touchAll ns g = .ok g' := by
  induction ns generalizing g with
  | nil => exact ⟨g, rfl⟩
  | cons n ns ih =>
    have hsome := h n List.mem_cons_self
    have hflush : flushNode n { n with revision := bumped n.revision } g =
        .ok { g with nodes := g.nodes.modify n.id (n.patch { n with revision := bumped n.revision }) Node.patch_key } := by
      unfold flushNode
      rw [if_neg (by rw [Bool.not_eq_true, Option.isNone_eq_false_iff]; exact hsome), if_neg (by simp)]
    obtain ⟨g', hg'⟩ := ih (g := { g with
        nodes := g.nodes.modify n.id (n.patch { n with revision := bumped n.revision }) Node.patch_key }) (by
      intro m hm
      exact get_update_isSome g.nodes (fun x => decide (x.id = n.id)) _ Node.patch_key m.id (h m (List.mem_cons_of_mem _ hm)))
    exact ⟨g', by rw [touchAll, each_cons, hflush]; exact hg'⟩

/-- The new edge finds its project and its ends, and its id is free. -/
theorem insertChild_succeeds {edgeId projectId parentId childId : String} (hproject : (g.projects.get projectId).isSome = true)
    (hparent : (g.nodes.get parentId).isSome = true) (hchild : (g.nodes.get childId).isSome = true)
    (hfree : g.edges.get edgeId = none) :
    ∃ edges, insertChild edgeId projectId parentId childId g = .ok { g with edges } := by
  let e : Edge :=
    ⟨edgeId, projectId, parentId, childId, "child_of", 1, "", decide ((g.childEdges parentId).length = 0), 1⟩
  have hdup : duplicateMainline g e = false := by
    rw [duplicateMainline_eq_false]
    rintro x hx p ⟨hc, -, hfrom⟩ ⟨-, hm, rfl⟩
    have hnone : (g.childEdges parentId).length = 0 := of_decide_eq_true hm
    have hmem : x ∈ g.childEdges parentId := List.mem_filter.mpr ⟨hx, by rw [hc, hfrom]; exact decide_eq_true rfl⟩
    rw [List.length_eq_zero_iff.mp hnone] at hmem
    cases hmem
  obtain ⟨edges, hins⟩ : ∃ edges, g.edges.insert e = some edges := insert_isSome hfree
  refine ⟨edges, ?_⟩
  show insertEdge e g = _
  unfold insertEdge
  have hends : ¬ ((g.projects.get e.projectId).isNone = true ∨ (g.nodes.get e.fromNodeId).isNone = true ∨
      (g.nodes.get e.toNodeId).isNone = true) := by
    rw [Option.isNone_iff_eq_none, Option.isNone_iff_eq_none, Option.isNone_iff_eq_none]
    rintro (hnone | hnone | hnone)
    · rw [show g.projects.get projectId = none from hnone] at hproject
      cases hproject
    · rw [show g.nodes.get parentId = none from hnone] at hparent
      cases hparent
    · rw [show g.nodes.get childId = none from hnone] at hchild
      cases hchild
  rw [hdup, if_neg (by simp), if_neg hends, hins]

/-- A move of a node to itself that has nothing against it but this. -/
structure SelfMovable (g : Graph) (uuid : Nat → String) (nodeId : String) (d : NodeMove) : Prop where
  node : ∃ node p, g.nodes.get nodeId = some node ∧ g.projects.get node.projectId = some p ∧ p.rootNodeId ≠ some nodeId ∧
    p.revision = d.expectedProjectRevision ∧ d.expectedRevision = orOne node.revision ∧
    d.expectedNewParentRevision = orOne node.revision
  single : (g.parentEdges nodeId).length ≤ 1
  parent : ∀ e ∈ g.parentEdges nodeId, ∀ old, g.nodes.get e.fromNodeId = some old →
    d.expectedOldParentRevision = some (orOne old.revision)
  below : nodeId ∉ g.descendants nodeId
  fresh : ∀ e, g.edges.get (uuid 0) = some e → e ∈ g.parentEdges nodeId

theorem SelfMovable.of_move (hself : d.newParentId = nodeId) (h : moveNode (fun _ => g) uuid nodeId d g = .ok g') :
    SelfMovable g uuid nodeId d := by
  obtain ⟨l, g₁, hl, hcheck, hclaim, hbelow, hreplace⟩ := moveNode_iff.mp h
  obtain ⟨hrev, hrev', hold⟩ := checkMove_ok hcheck
  obtain ⟨p, hp, hexpected, rfl⟩ := claimProjectRevision_ok hclaim
  have hedge := hl.loaded.oldEdge
  have hnode := hl.loaded.node
  have hparent := hl.loaded.newParent
  rw [hself] at hparent hbelow
  have hsame : l.newParent = l.node := Option.some.inj (hparent.symm.trans hnode)
  rw [hsame] at hrev'
  refine ⟨⟨l.node, p, hnode, hp, hl.below p hp, hexpected, hrev, hrev'⟩, ?_, ?_, hbelow, ?_⟩
  · rw [hedge]
    exact Option.length_toList_le
  · intro e he old hget
    rw [hedge, Option.mem_toList] at he
    exact hold old (by rw [hl.loaded.oldParent, he]; exact hget)
  · -- the new id was free once the old edge had gone
    intro e he
    obtain ⟨g₂, hchild, -⟩ := bind_ok hreplace
    obtain ⟨-, edges, hins, -⟩ := insertEdge_ok hchild
    have hnone : (g.edges.keep (fun e => !decide (some e.id = l.oldEdge.map Edge.id))).get (uuid 0) = none :=
      insert_fresh hins
    rw [get_keep_filter, he, Option.filter_some] at hnone
    have hgone : some e.id = l.oldEdge.map Edge.id := by
      by_contra hne
      simp [hne] at hnone
    cases hold : l.oldEdge with
    | none =>
      rw [hold] at hgone
      cases hgone
    | some old =>
      rw [hold, Option.toList_some] at hedge
      rw [hold, Option.map_some, Option.some.injEq] at hgone
      have hmem : old ∈ g.parentEdges nodeId := by
        rw [hedge]
        exact List.mem_cons_self
      have hrow := get_of_mem (List.mem_of_mem_filter hmem)
      rw [← hgone, get_key he, he] at hrow
      cases hrow
      exact hmem

theorem SelfMovable.moves (h : SelfMovable g uuid nodeId d) (hself : d.newParentId = nodeId) :
    ∃ g', moveNode (fun _ => g) uuid nodeId d g = .ok g' := by
  obtain ⟨⟨node, p, hnode, hp, hroot, hexpected, hrev, hrev'⟩, hsingle, hparent, hbelow, hfresh⟩ := h
  have hid : node.id = nodeId := get_key hnode
  obtain ⟨oldEdge, hedge⟩ : ∃ oldEdge : Option Edge, g.parentEdges nodeId = oldEdge.toList := by
    match hlist : g.parentEdges nodeId with
    | [] => exact ⟨none, rfl⟩
    | [e] => exact ⟨some e, rfl⟩
    | e :: e' :: es =>
      rw [hlist] at hsingle
      simp at hsingle
  let l : Loaded := ⟨node, node, oldEdge, oldEdge.bind (fun e => g.nodes.get e.fromNodeId)⟩
  have hmovable : Movable g nodeId d.newParentId l := by
    refine ⟨⟨hnode, hself ▸ hnode, rfl, hedge, rfl⟩, ?_⟩
    intro p' hp'
    cases hp.symm.trans hp'
    exact hroot
  have hcheck : checkMove l d = .ok () := by
    have hfirst : checkEntityRevision "node" node.id node.revision d.expectedRevision = .ok () :=
      if_neg (not_not.mpr hrev)
    have hsecond : checkEntityRevision "node" node.id node.revision d.expectedNewParentRevision = .ok () :=
      if_neg (not_not.mpr hrev')
    unfold checkMove
    dsimp only [l]
    rw [hfirst, ok_bind, hsecond, ok_bind]
    cases hold : oldEdge.bind (fun e => g.nodes.get e.fromNodeId) with
    | none => rfl
    | some old =>
      obtain ⟨e, he, hget⟩ := Option.bind_eq_some_iff.mp hold
      have hgiven := hparent e (by rw [hedge, he]; exact List.mem_cons_self) old hget
      simp only [hgiven]
      exact if_neg (not_not.mpr rfl)
  have hclaim : claimProjectRevision node.projectId d.expectedProjectRevision g =
      .ok { g with projects := g.projects.modify node.projectId Project.claim Project.claim_key } := by
    unfold claimProjectRevision
    simp only [hp]
    exact if_neg (not_not.mpr hexpected)
  let g₁ : Graph := { g with projects := g.projects.modify node.projectId Project.claim Project.claim_key }
  let g₂ : Graph := deleteEdges (fun e => decide (some e.id = oldEdge.map Edge.id)) g₁
  have hfree : g₂.edges.get (uuid 0) = none := by
    show (g.edges.keep (fun e => !decide (some e.id = oldEdge.map Edge.id))).get (uuid 0) = none
    rw [get_keep_filter]
    cases he : g.edges.get (uuid 0) with
    | none => rfl
    | some e =>
      have hmem := hfresh e he
      rw [hedge, Option.mem_toList] at hmem
      rw [hmem, Option.filter_some, Option.map_some, decide_eq_true rfl]
      rfl
  have hsome : (g.nodes.get node.id).isSome = true := by rw [hid, hnode]; rfl
  obtain ⟨edges, hchild⟩ := @insertChild_succeeds g₂ (uuid 0) node.projectId node.id node.id
    (get_update_isSome g.projects (fun x => decide (x.id = node.projectId)) Project.claim Project.claim_key _ (by rw [hp]; rfl))
    hsome hsome hfree
  obtain ⟨g', htouched⟩ := @touchAll_succeeds { g₂ with edges }
    ((l.node :: ((l.oldParent.toList ++ [l.newParent]).filter (fun n => decide (n.id ≠ l.node.id)))).pwFilter
      (fun a b => a.id ≠ b.id)) (by
      intro n hn
      show (g.nodes.get n.id).isSome = true
      rw [hmovable.loaded.rows n hn]
      rfl)
  refine ⟨g', moveNode_iff.mpr ⟨l, g₁, hmovable, hcheck, hclaim, hself ▸ hbelow, ?_⟩⟩
  show (insertChild (uuid 0) node.projectId node.id node.id g₂ >>= touchAll _) = .ok g'
  rw [hchild]
  exact htouched

end Moves

/-- The routes agree on a request, unless it moves a node to itself and has nothing else against it. -/
theorem moves_agree_iff (g : Graph) (uuid : Nat → String) (nodeId : String) (d : NodeMove) :
    (∀ g', moveNode (fun _ => g) uuid nodeId d g = .ok g' ↔ reparentNode (fun _ => g) uuid nodeId d g = .ok g') ↔
      ¬ (d.newParentId = nodeId ∧ SelfMovable g uuid nodeId d) := by
  constructor
  · rintro hagree ⟨hself, hmovable⟩
    obtain ⟨g', hmove⟩ := hmovable.moves hself
    exact (reparentNode_iff.mp ((hagree g').mp hmove)).1 hself
  · intro hnot g'
    rw [reparentNode_iff]
    constructor
    · intro hmove
      exact ⟨fun hself => hnot ⟨hself, .of_move hself hmove⟩, hmove⟩
    · rintro ⟨-, hmove⟩
      exact hmove

/-- The child of the root of the sample project is moved to itself. -/
def sampleSelfMove : NodeMove := ⟨sampleId 2, 2, 1, 1, some 2⟩

theorem self_move_accepted :
    (moveNode (fun _ => Runs.run Graph.after Graph.empty sampleProject) (fun i => sampleId (4 + i)) (sampleId 2) sampleSelfMove
      (Runs.run Graph.after Graph.empty sampleProject)).isOk = true ∧
    (reparentNode (fun _ => Runs.run Graph.after Graph.empty sampleProject) (fun i => sampleId (4 + i)) (sampleId 2) sampleSelfMove
      (Runs.run Graph.after Graph.empty sampleProject)).isOk = false := by
  decide +kernel

end GrowthMap.Canon
