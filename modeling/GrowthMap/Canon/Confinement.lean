import GrowthMap.Canon.Sessions
import GrowthMap.Canon.Containment

/- Whether the artifacts of a session stay in its scope.

   The scope is what the session was created for: a node, or the branch of its root. The
   code keeps it as a pair of foreign keys, and checks a submission against what is left of
   them. When the node is deleted, or the branch is merged, nothing is left and nothing is
   checked: an open session may then write anywhere in its project. As long as no step takes
   an open session's node, or its root's branch, away, all that is submitted and all that
   is approved stays in scope. -/
namespace GrowthMap.Canon

open Relational Fallible Table

/-! Scopes -/

/-- What a session was created for. -/
inductive Scope where
  | node (id : String)
  | branch (id : String)
  deriving DecidableEq, Repr

def InScope (g : Graph) : Scope → String → Prop
  | .node x, y => y = x
  | .branch b, y => g.branchOf y = some (some b)

def SessionCreate.scope (g : Graph) (d : SessionCreate) : Option Scope :=
  match truthy d.assignedNodeId with
  | some x => some (.node x)
  | none => ((truthy d.assignedBranchRootId).bind g.nodes.get).bind (fun root => root.branchId.map .branch)

/-- The desk, with what each of its sessions was created for. -/
structure Watched where
  desk : Desk
  scopes : String → Option Scope

def Watched.start (g : Graph) : Watched := ⟨⟨g, .empty, .empty⟩, fun _ => none⟩

/-- A request is run; one that is refused changes nothing. -/
def Watched.step (w : Watched) (e : DeskEvent) : Watched :=
  match e.request.run e.uuid e.now w.desk with
  | .error _ => w
  | .ok desk =>
    ⟨desk, match e.request with
      | .createSession _ d => Function.update w.scopes (e.uuid 0 0) (d.scope w.desk.graph)
      | _ => w.scopes⟩

/-- What an approval did to the nodes outside a scope: nothing. A node it added is in the branch of one in scope. -/
structure ChangesOnly (scope : Scope) (g g' : Graph) : Prop where
  rows : ∀ x n, g.nodes.get x = some n → ¬ InScope g scope x → g'.nodes.get x = some n
  owns : ∀ x n, g.nodes.get x = some n → ¬ InScope g scope x → Undisturbed x g g'
  born : ∀ x n', g.nodes.get x = none → g'.nodes.get x = some n' → ∃ y, InScope g scope y ∧ g.branchOf y = some n'.branchId

/-- Every artifact that would now be accepted, and every one that would now be approved, stays in the scope of its session. -/
structure Confined (w : Watched) : Prop where
  submitted : ∀ id sessionId d s', createAgentArtifact id sessionId d w.desk = .ok s' →
    ∃ scope, w.scopes sessionId = some scope ∧ InScope w.desk.graph scope d.targetNodeId
  approved : ∀ uuid now artifactId note d s', approveAgentArtifact uuid now artifactId note d w.desk = .ok s' →
    ∃ a scope, w.desk.artifacts.get artifactId = some a ∧ w.scopes a.sessionId = some scope ∧
      ChangesOnly scope w.desk.graph s'.graph

/-! The condition on a step -/

def AgentSession.Open (x : AgentSession) : Prop := x.status ∈ [SessionStatus.active, .waitingReview]

def AgentSession.AssignedTo (x : AgentSession) (y : String) : Prop :=
  truthy x.assignedNodeId = some y ∨ truthy x.assignedBranchRootId = some y

/-- The node of the session is still there, or its root still in a branch. -/
def AgentSession.Anchored (g : Graph) (x : AgentSession) : Prop :=
  (truthy x.assignedNodeId).isSome ∨ ∃ root b, truthy x.assignedBranchRootId = some root ∧ g.branchOf root = some (some b)

/-- The request deletes no node that an open session is assigned to (but with its project), and merges no branch that the
root of an open session, or the target of a pending artifact of a branch session, is in. -/
structure Spares (s : Desk) (r : Request) : Prop where
  assigned : ∀ id x, s.sessions.get id = some x → x.Open → ∀ y, x.AssignedTo y → r.Deletes s.graph y →
    ∃ projectId expected, r = .deleteProject projectId expected
  root : ∀ id x, s.sessions.get id = some x → x.Open → ∀ y, truthy x.assignedBranchRootId = some y → ¬ r.Merges s.graph y
  target : ∀ id a x, s.artifacts.get id = some a → a.status = .pending → s.sessions.get a.sessionId = some x →
    truthy x.assignedNodeId = none → ¬ r.Merges s.graph a.targetNodeId

/-- The step leaves the scopes that are in use; an idle session is started while its scope is there. -/
def ScopeKept (w : Watched) (e : DeskEvent) : Prop :=
  match e.request with
  | .graph r _ => Spares w.desk r
  | .updateSession sessionId d => ∀ x, w.desk.sessions.get sessionId = some x → x.status = .idle →
    truthy d.status = some "active" → x.Anchored w.desk.graph
  | _ => True

/-! The invariant -/

/-- What is left of the assignment is that of the scope. -/
structure Home (g : Graph) (x : AgentSession) (scope : Scope) : Prop where
  has : ∀ y, x.AssignedTo y → g.Has x.projectId y
  node : ∀ n, scope = .node n → truthy x.assignedBranchRootId = none ∧ ∀ y, truthy x.assignedNodeId = some y → y = n
  branch : ∀ b, scope = .branch b → truthy x.assignedNodeId = none ∧
    ∀ y, truthy x.assignedBranchRootId = some y → g.branchOf y = some (some b) ∨ g.branchOf y = some none

structure Kept (w : Watched) : Prop where
  session : ∀ id x, w.desk.sessions.get id = some x →
    ∃ scope, w.scopes id = some scope ∧ Home w.desk.graph x scope ∧ (x.Open → x.Anchored w.desk.graph)
  artifact : ∀ id a, w.desk.artifacts.get id = some a → a.status = .pending →
    (w.desk.sessions.get a.sessionId).isSome ∧
      ∃ scope, w.scopes a.sessionId = some scope ∧ InScope w.desk.graph scope a.targetNodeId

theorem kept_start (g : Graph) : Kept (Watched.start g) := by
  constructor
  · intro id x hx
    cases hx
  · intro id a ha
    cases ha

/-! A submission -/

variable {g g' : Graph} {x : AgentSession} {sessionId artifactId note projectId y : String} {s s' : Desk}
  {w : Watched} {d : ArtifactReview} {n' : Node} {o : Option String} {a : AgentArtifact} {r : Request}
  {providers : String → Option Bool} {target : Node} {scope : Scope} {id : String} {uuid : Nat → String} {now : Int}
  {payload : ArtifactPayload}

theorem checkAssignment_ok (hhome : Home g x scope)
    (hanchored : x.Anchored g) (htarget : g.nodes.get target.id = some target) (h : checkAssignment g x target = .ok ()) :
    InScope g scope target.id := by
  unfold checkAssignment at h
  obtain ⟨hnode, h⟩ := guard_ok h
  cases scope with
  | node n =>
    obtain ⟨hroot, hn⟩ := hhome.node n rfl
    rcases hanchored with hsome | ⟨root, b, hr, -⟩
    · obtain ⟨y, hy⟩ := Option.isSome_iff_exists.mp hsome
      rw [hy] at hnode
      have hself : target.id = y := by simpa using hnode
      exact hself.trans (hn y hy)
    · rw [hroot] at hr
      cases hr
  | branch b =>
    obtain ⟨hnone, hb⟩ := hhome.branch b rfl
    rcases hanchored with hsome | ⟨root, c, hr, hc⟩
    · rw [hnone] at hsome
      cases hsome
    · have hin : g.branchOf root = some (some b) := by
        rcases hb root hr with hin | hmain
        · exact hin
        · rw [hc] at hmain
          cases hmain
      rw [hr] at h
      unfold Graph.branchOf at hin
      cases hget : g.nodes.get root with
      | none => simp [hget] at hin
      | some row =>
        simp only [hget] at h
        obtain ⟨hsame, -⟩ := guard_ok h
        rw [hget, Option.map_some, Option.some.injEq] at hin
        have hbranch : target.branchId = row.branchId := by simpa using hsame
        show g.branchOf target.id = some (some b)
        rw [Graph.branchOf, htarget, Option.map_some, hbranch, hin]

theorem createAgentArtifact_ok {d : ArtifactCreate}
    (h : createAgentArtifact id sessionId d s = .ok s') :
    ∃ x payload target artifacts, s.sessions.get sessionId = some x ∧ x.Open ∧ s.graph.nodes.get d.targetNodeId = some target ∧
      checkAssignment s.graph x target = .ok () ∧
      s.artifacts.insert ⟨id, sessionId, x.projectId, d.targetNodeId, payload, .pending, ""⟩ = some artifacts ∧
      s' = { s with artifacts } := by
  unfold createAgentArtifact at h
  split at h
  · cases h
  · rename_i x hx
    obtain ⟨hopen, h⟩ := guard_ok h
    split at h
    · cases h
    · rename_i payload _
      split at h
      · cases h
      · rename_i target htarget
        obtain ⟨-, h⟩ := guard_ok h
        obtain ⟨_, hcheck, h⟩ := bind_ok h
        obtain ⟨-, h⟩ := guard_ok h
        split at h
        · cases h
        · rename_i artifacts hins
          cases h
          exact ⟨x, payload, target, artifacts, hx, not_not.mp hopen, htarget, hcheck, hins, rfl⟩

theorem Kept.submitted (h : Kept w) {d : ArtifactCreate}
    (hrun : createAgentArtifact id sessionId d w.desk = .ok s') :
    ∃ scope, w.scopes sessionId = some scope ∧ InScope w.desk.graph scope d.targetNodeId := by
  obtain ⟨x, payload, target, artifacts, hx, hopen, htarget, hcheck, -, -⟩ := createAgentArtifact_ok hrun
  obtain ⟨scope, hscope, hhome, hanchored⟩ := h.session sessionId x hx
  have hkey : target.id = d.targetNodeId := get_key htarget
  rw [← hkey] at htarget ⊢
  exact ⟨scope, hscope, checkAssignment_ok hhome (hanchored hopen) htarget hcheck⟩

/-! An approval -/

theorem approveAgentArtifact_ok (h : approveAgentArtifact uuid now artifactId note d s = .ok s') :
    ∃ a graph, s.artifacts.get artifactId = some a ∧ a.status = .pending ∧
      approveArtifact (fun _ => s.graph) uuid now a.projectId a.targetNodeId a.payload d s.graph = .ok graph ∧
      s' = { s with
        graph, artifacts := s.artifacts.modify artifactId (AgentArtifact.review .applied note) AgentArtifact.review_key } := by
  unfold approveAgentArtifact at h
  split at h
  · cases h
  · rename_i a ha
    obtain ⟨hpending, h⟩ := guard_ok h
    obtain ⟨-, h⟩ := guard_ok h
    obtain ⟨graph, happrove, h⟩ := bind_ok h
    cases h
    exact ⟨a, graph, ha, not_not.mp hpending, happrove, rfl⟩

theorem flushNode_back {old new : Node} (hbranch : new.branchId = old.branchId) (h : flushNode old new g = .ok g')
    {x : String} (hn' : g'.nodes.get x = some n') : ∃ n, g.nodes.get x = some n ∧ n.branchId = n'.branchId := by
  rw [flushNode_ok h] at hn'
  obtain ⟨hx, row, hrow, rfl⟩ | ⟨-, hrow⟩ := get_modify_cases Node.patch_key hn'
  · refine ⟨row, by rw [hx]; exact hrow, ?_⟩
    exact (if_pos hbranch).symm
  · exact ⟨n', hrow, rfl⟩

/-- A node that an artifact adds is in the branch of its target. -/
theorem applyArtifact_born
    (h : applyArtifact uuid now target payload g = .ok g') {x : String} (hnone : g.nodes.get x = none)
    (hn' : g'.nodes.get x = some n') : n'.branchId = target.branchId := by
  cases payload with
  | createChild =>
    obtain ⟨g₁, hnode, h⟩ := bind_ok h
    obtain ⟨g₂, hchild, h⟩ := bind_ok h
    obtain ⟨n, hn, hbranch⟩ := flushNode_back (by rfl) h hn'
    rw [insertEdge_nodes hchild] at hn
    obtain ⟨-, nodes, hins, rfl⟩ := insertNode_ok hnode
    obtain ⟨-, rfl⟩ | hold := get_insert_cases hins hn
    · exact hbranch.symm
    · rw [hnone] at hold
      cases hold
  | updateNode =>
    obtain ⟨n, hn, -⟩ := flushNode_back (by rfl) h hn'
    rw [hnone] at hn
    cases hn
  | createBlock =>
    obtain ⟨g₁, hblock, h⟩ := bind_ok h
    obtain ⟨n, hn, -⟩ := flushNode_back (by rfl) h hn'
    obtain ⟨blocks, -, rfl⟩ := insertBlock_ok hblock
    rw [hnone] at hn
    cases hn

theorem approveArtifact_born {targetNodeId : String}
    (h : approveArtifact (fun _ => g) uuid now projectId targetNodeId payload d g = .ok g')
    {x : String} (hnone : g.nodes.get x = none) (hn' : g'.nodes.get x = some n') :
    g.branchOf targetNodeId = some n'.branchId := by
  unfold approveArtifact at h
  split at h
  · cases h
  · rename_i target ht
    split at h
    · obtain ⟨g₁, hclaim, h⟩ := bind_ok h
      obtain ⟨_, -, h⟩ := bind_ok h
      rw [← (claim_rows hclaim).1] at hnone
      rw [Graph.branchOf, ht, Option.map_some, applyArtifact_born h hnone hn']
    · cases h

theorem Kept.approved (h : Kept w)
    (hrun : approveAgentArtifact uuid now artifactId note d w.desk = .ok s') :
    ∃ a scope, w.desk.artifacts.get artifactId = some a ∧ w.scopes a.sessionId = some scope ∧
      ChangesOnly scope w.desk.graph s'.graph := by
  obtain ⟨a, graph, ha, hpending, happrove, rfl⟩ := approveAgentArtifact_ok hrun
  obtain ⟨-, scope, hscope, hin⟩ := h.artifact artifactId a ha hpending
  refine ⟨a, scope, ha, hscope, ?_⟩
  have hreflects : Reflects (· = a.targetNodeId) (fun _ => False) w.desk.graph graph := approveArtifact_reflects happrove
  -- a node out of scope is not the target
  have hne : ∀ x, ¬ InScope w.desk.graph scope x → x ≠ a.targetNodeId := by
    rintro x hx rfl
    exact hx hin
  refine ⟨?_, ?_, ?_⟩
  · intro x n hn hx
    obtain ⟨n', hn', -⟩ := approveArtifact_stays happrove n hn
    rw [hn', hreflects.rows x n n' hn hn' (hne x hx)]
  · intro x n hn hx
    obtain ⟨n', hn', -⟩ := approveArtifact_stays happrove n hn
    exact hreflects.owns x n n' hn hn' (hne x hx) id
  · intro x n' hnone hn'
    exact ⟨a.targetNodeId, hin, approveArtifact_born happrove hnone hn'⟩

theorem Kept.confined (h : Kept w) : Confined w :=
  ⟨fun _ _ _ _ hrun => h.submitted hrun, fun _ _ _ _ _ _ hrun => h.approved hrun⟩

/-! Steps -/

theorem Home.stays (h : Home g x scope) (hstays : ∀ y, Stays y g g') :
    Home g' x scope := by
  refine ⟨?_, h.node, ?_⟩
  · intro y hy
    obtain ⟨n, hn, hproject⟩ := h.has y hy
    obtain ⟨n', hn', hproject', -⟩ := hstays y n hn
    exact ⟨n', hn', hproject'.trans hproject⟩
  · intro b hb
    obtain ⟨hnone, hroot⟩ := h.branch b hb
    refine ⟨hnone, ?_⟩
    intro y hy
    obtain ⟨n, hn, -⟩ := h.has y (.inr hy)
    obtain ⟨n', hn', -, hbranch⟩ := hstays y n hn
    have hsame : g'.branchOf y = g.branchOf y := by
      rw [Graph.branchOf, Graph.branchOf, hn, hn', Option.map_some, Option.map_some, hbranch]
    rw [hsame]
    exact hroot y hy

theorem branchOf_stays {b : Option String} (h : Stays y g g') (hb : g.branchOf y = some b) :
    g'.branchOf y = some b := by
  obtain ⟨n, hn, rfl⟩ := Option.map_eq_some_iff.mp hb
  obtain ⟨n', hn', -, hbranch⟩ := h n hn
  rw [Graph.branchOf, hn', Option.map_some, hbranch]

theorem AgentSession.Anchored.stays (h : x.Anchored g) (hstays : ∀ y, Stays y g g') :
    x.Anchored g' := by
  rcases h with hsome | ⟨root, b, hroot, hb⟩
  · exact .inl hsome
  · exact .inr ⟨root, b, hroot, branchOf_stays (hstays root) hb⟩

theorem InScope.stays (h : InScope g scope y) (hstays : Stays y g g') :
    InScope g' scope y := by
  cases scope with
  | node => exact h
  | branch => exact branchOf_stays hstays h

/-! A request to the graph -/

theorem truthy_filter {p : String → Bool} :
    truthy (o.filter p) = some y ↔ truthy o = some y ∧ p y = true := by
  simp only [truthy, Option.filter_eq_some_iff]
  tauto

theorem hasNode_iff : g.hasNode y = true ↔ ∃ n, g.nodes.get y = some n := Option.isSome_iff_exists

section Requests

variable {r : Request} {uuid : Nat → Nat → String} {now : Int} {g g' : Graph}

theorem deleteProject_gone {expected : Int}
    (h : (Request.deleteProject projectId expected).run (fun _ => g) uuid now g = .ok g') : g'.hasProject projectId = false := by
  have hrun : deleteProject (fun _ => g) projectId expected g = .ok g' := h
  unfold deleteProject at hrun
  split at hrun
  · cases hrun
  · obtain ⟨g₁, -, hrun⟩ := bind_ok hrun
    cases hrun
    simp [Graph.hasProject, deleteProjectRow_gone]

theorem hasNode_places (hrun : r.run (fun _ => g) uuid now g = .ok g') (hy : g'.hasNode y = true) :
    ¬ r.Deletes g y := by
  intro hdeletes
  obtain ⟨n, hn⟩ := hasNode_iff.mp hy
  rw [r.deleted hrun hdeletes] at hn
  cases hn

theorem Home.forget (hrun : r.run (fun _ => g) uuid now g = .ok g') (h : Home g x scope) :
    Home g' (x.forget g') scope := by
  have hassigned : ∀ y, (x.forget g').AssignedTo y → x.AssignedTo y ∧ g'.hasNode y = true := by
    rintro y (hy | hy)
    · obtain ⟨hy, hhas⟩ := truthy_filter.mp hy
      exact ⟨.inl hy, hhas⟩
    · obtain ⟨hy, hhas⟩ := truthy_filter.mp hy
      exact ⟨.inr hy, hhas⟩
  refine ⟨?_, ?_, ?_⟩
  · intro y hy
    obtain ⟨hold, hhas⟩ := hassigned y hy
    obtain ⟨n, hn, hproject⟩ := h.has y hold
    obtain ⟨n', hn', hproject', -⟩ := r.places hrun (hasNode_places hrun hhas) hn
    exact ⟨n', hn', hproject'.trans hproject⟩
  · intro n hn
    obtain ⟨hnone, hnode⟩ := h.node n hn
    refine ⟨?_, fun y hy => hnode y (truthy_filter.mp hy).1⟩
    rw [Option.eq_none_iff_forall_ne_some]
    intro y hy
    rw [(truthy_filter.mp hy).1] at hnone
    cases hnone
  · intro b hb
    obtain ⟨hnone, hroot⟩ := h.branch b hb
    refine ⟨?_, ?_⟩
    · rw [Option.eq_none_iff_forall_ne_some]
      intro y hy
      rw [(truthy_filter.mp hy).1] at hnone
      cases hnone
    · intro y hy
      obtain ⟨hold, hhas⟩ := truthy_filter.mp hy
      obtain ⟨n, hn, -⟩ := h.has y (.inr hold)
      obtain ⟨n', hn', -, hbranch⟩ := r.places hrun (hasNode_places hrun hhas) hn
      have hafter : g'.branchOf y = some n'.branchId := by rw [Graph.branchOf, hn', Option.map_some]
      have hbefore : g.branchOf y = some n.branchId := by rw [Graph.branchOf, hn, Option.map_some]
      rcases hbranch with hsame | ⟨-, hmain⟩
      · rw [hafter, hsame, ← hbefore]
        exact hroot y hold
      · rw [hafter, hmain]
        exact .inr rfl

theorem Spares.stays (h : Spares s r)
    (hrun : r.run (fun _ => s.graph) uuid now s.graph = .ok g') (hx : s.sessions.get id = some x) (hopen : x.Open)
    (hhome : Home s.graph x scope) (hproject : g'.hasProject x.projectId = true) (hy : x.AssignedTo y) : ¬ r.Deletes s.graph y := by
  intro hdeletes
  obtain ⟨projectId, expected, rfl⟩ := h.assigned id x hx hopen y hy hdeletes
  obtain ⟨n, hn, hp⟩ := hhome.has y hy
  obtain ⟨n', hn', hp'⟩ := hdeletes
  cases hn.symm.trans hn'
  have hgone := deleteProject_gone hrun
  rw [← hp', hp, hproject] at hgone
  cases hgone

theorem Spares.anchored (h : Spares s r)
    (hrun : r.run (fun _ => s.graph) uuid now s.graph = .ok g') (hx : s.sessions.get id = some x) (hopen : x.Open)
    (hhome : Home s.graph x scope) (hproject : g'.hasProject x.projectId = true) (hanchored : x.Anchored s.graph) :
    (x.forget g').Anchored g' := by
  have hthere : ∀ y, x.AssignedTo y → ∃ n n', s.graph.nodes.get y = some n ∧ g'.nodes.get y = some n' ∧
      (n'.branchId = n.branchId ∨ r.Merges s.graph y ∧ n'.branchId = none) := by
    intro y hy
    obtain ⟨n, hn, -⟩ := hhome.has y hy
    obtain ⟨n', hn', -, hbranch⟩ := r.places hrun (h.stays hrun hx hopen hhome hproject hy) hn
    exact ⟨n, n', hn, hn', hbranch⟩
  rcases hanchored with hsome | ⟨root, b, hroot, hb⟩
  · obtain ⟨y, hy⟩ := Option.isSome_iff_exists.mp hsome
    obtain ⟨-, n', -, hn', -⟩ := hthere y (.inl hy)
    have hkept : truthy (x.forget g').assignedNodeId = some y := truthy_filter.mpr ⟨hy, hasNode_iff.mpr ⟨n', hn'⟩⟩
    exact .inl (by rw [hkept]; rfl)
  · obtain ⟨n, n', hn, hn', hbranch⟩ := hthere root (.inr hroot)
    refine .inr ⟨root, b, truthy_filter.mpr ⟨hroot, hasNode_iff.mpr ⟨n', hn'⟩⟩, ?_⟩
    rcases hbranch with hsame | ⟨hmerges, -⟩
    · rw [Graph.branchOf, hn, Option.map_some] at hb
      rw [Graph.branchOf, hn', Option.map_some, hsame, hb]
    · exact absurd hmerges (h.root id x hx hopen root hroot)

end Requests

theorem withGraph_session {x' : AgentSession} (h : (s.withGraph g).sessions.get id = some x') :
    ∃ x, s.sessions.get id = some x ∧ g.hasProject x.projectId = true ∧ x' = x.forget g := by
  simp only [Desk.withGraph, get_update, if_true] at h
  obtain ⟨x, hx, rfl⟩ := Option.map_eq_some_iff.mp h
  obtain ⟨hget, hproject⟩ := get_keep.mp hx
  exact ⟨x, hget, hproject, rfl⟩

theorem withGraph_artifact (h : (s.withGraph g).artifacts.get id = some a) :
    s.artifacts.get id = some a ∧ g.hasNode a.targetNodeId = true ∧ ((s.withGraph g).sessions.get a.sessionId).isSome := by
  obtain ⟨hget, hkept⟩ := get_keep.mp h
  rw [Bool.and_eq_true, Bool.and_eq_true] at hkept
  refine ⟨hget, hkept.2, ?_⟩
  simp only [Desk.withGraph, get_update, Option.isSome_map]
  exact hkept.1.1

theorem Kept.graph {uuid : Nat → Nat → String} (h : Kept w)
    (hspares : Spares w.desk r) (hrun : r.run (fun _ => w.desk.graph) uuid now w.desk.graph = .ok g) :
    Kept ⟨w.desk.withGraph g, w.scopes⟩ := by
  constructor
  · intro id x' hx'
    obtain ⟨x, hx, hproject, rfl⟩ := withGraph_session hx'
    obtain ⟨scope, hscope, hhome, hanchored⟩ := h.session id x hx
    refine ⟨scope, hscope, hhome.forget hrun, ?_⟩
    intro hopen
    exact hspares.anchored hrun hx hopen hhome hproject (hanchored hopen)
  · intro id a ha hpending
    obtain ⟨hget, hhas, hsession⟩ := withGraph_artifact ha
    obtain ⟨hsome, scope, hscope, hin⟩ := h.artifact id a hget hpending
    refine ⟨hsession, scope, hscope, ?_⟩
    cases scope with
    | node => exact hin
    | branch b =>
      obtain ⟨x, hx⟩ := Option.isSome_iff_exists.mp hsome
      obtain ⟨scope', hscope', hhome, -⟩ := h.session a.sessionId x hx
      cases hscope.symm.trans hscope'
      obtain ⟨n, hn, hb⟩ := Option.map_eq_some_iff.mp (show w.desk.graph.branchOf a.targetNodeId = some (some b) from hin)
      obtain ⟨n', hn', -, hbranch⟩ := r.places hrun (hasNode_places hrun hhas) hn
      rcases hbranch with hsame | ⟨hmerges, -⟩
      · show g.branchOf a.targetNodeId = some (some b)
        rw [Graph.branchOf, hn', Option.map_some, hsame, hb]
      · exact absurd hmerges (hspares.target id a x hget hpending hx (hhome.branch b rfl).1)

/-! The other requests -/

theorem truthy_some (h : truthy o = some y) : o = some y :=
  (Option.filter_eq_some_iff.mp h).1

theorem createAgentSession_ok {d : SessionCreate}
    (h : createAgentSession providers id d s = .ok s') :
    (truthy d.assignedNodeId).isSome ≠ (truthy d.assignedBranchRootId).isSome ∧ checkAssignedNode s.graph d = .ok () ∧
      checkAssignedRoot s.graph d = .ok () ∧
      ∃ sessions, s.sessions.insert ⟨id, d.projectId, d.assignedNodeId, d.assignedBranchRootId, d.providerId, d.objective, d.mode,
        .idle, d.handoffContext, .text ""⟩ = some sessions ∧ s' = { s with sessions } := by
  obtain ⟨-, h⟩ := guard_ok h
  obtain ⟨-, h⟩ := guard_ok h
  obtain ⟨-, h⟩ := guard_ok h
  obtain ⟨hone, h⟩ := guard_ok h
  obtain ⟨_, hnode, h⟩ := bind_ok h
  obtain ⟨_, hroot, h⟩ := bind_ok h
  obtain ⟨_, -, h⟩ := bind_ok h
  obtain ⟨-, h⟩ := guard_ok h
  split at h
  · cases h
  · rename_i sessions hins
    cases h
    exact ⟨hone, hnode, hroot, sessions, hins, rfl⟩

/-- The scope of a new session, and what its row keeps of it. -/
theorem createAgentSession_home {d : SessionCreate}
    (hone : (truthy d.assignedNodeId).isSome ≠ (truthy d.assignedBranchRootId).isSome) (hnode : checkAssignedNode g d = .ok ())
    (hroot : checkAssignedRoot g d = .ok ()) (hp : x.projectId = d.projectId) (hn : x.assignedNodeId = d.assignedNodeId)
    (hr : x.assignedBranchRootId = d.assignedBranchRootId) : ∃ scope, d.scope g = some scope ∧ Home g x scope := by
  unfold checkAssignedNode at hnode
  unfold checkAssignedRoot at hroot
  unfold SessionCreate.scope
  cases htn : truthy d.assignedNodeId with
  | some n =>
    have hnone : truthy d.assignedBranchRootId = none := by
      rw [htn] at hone
      simpa using hone.symm
    rw [htn] at hnode
    obtain ⟨hall, -⟩ := guard_ok hnode
    refine ⟨.node n, rfl, ?_, ?_, ?_⟩
    · rintro y (hy | hy)
      · rw [hn, htn] at hy
        cases hy
        cases hget : g.nodes.get n with
        | none => simp [hget] at hall
        | some row =>
          refine ⟨row, hget, ?_⟩
          rw [hp]
          simpa [hget] using hall
      · rw [hr, hnone] at hy
        cases hy
    · rintro m ⟨⟩
      refine ⟨by rw [hr]; exact hnone, ?_⟩
      intro y hy
      rw [hn, htn] at hy
      exact (Option.some.inj hy).symm
    · intro b hb
      cases hb
  | none =>
    cases htr : truthy d.assignedBranchRootId with
    | none =>
      rw [htn, htr] at hone
      exact absurd rfl hone
    | some root =>
      rw [htr] at hroot
      obtain ⟨hall, -⟩ := guard_ok hroot
      cases hget : g.nodes.get root with
      | none => simp [hget] at hall
      | some row =>
        simp only [hget, Option.all_some, Bool.or_eq_true, decide_eq_true_eq, not_or, not_not] at hall
        obtain ⟨hproject, hbranch⟩ := hall
        -- the root is in a branch whose row is there
        obtain ⟨b, hb⟩ : ∃ b, truthy row.branchId = some b := by
          cases htb : truthy row.branchId with
          | none => simp [Graph.branchRow, htb] at hbranch
          | some b => exact ⟨b, rfl⟩
        have hb := truthy_some hb
        refine ⟨.branch b, by simp [hget, hb], ?_, ?_, ?_⟩
        · rintro y (hy | hy)
          · rw [hn, htn] at hy
            cases hy
          · rw [hr, htr] at hy
            cases hy
            exact ⟨row, hget, hproject.trans hp.symm⟩
        · intro m hm
          cases hm
        · rintro c ⟨⟩
          refine ⟨by rw [hn]; exact htn, ?_⟩
          intro y hy
          rw [hr, htr] at hy
          cases hy
          exact .inl (by rw [Graph.branchOf, hget, Option.map_some, hb])

theorem Kept.createSession {d : SessionCreate}
    (h : Kept w) (hrun : createAgentSession providers id d w.desk = .ok s') :
    Kept ⟨s', Function.update w.scopes id (d.scope w.desk.graph)⟩ := by
  obtain ⟨hone, hnode, hroot, sessions, hins, rfl⟩ := createAgentSession_ok hrun
  have hother : ∀ sid, (w.desk.sessions.get sid).isSome → sid ≠ id := by
    rintro sid hsome rfl
    rw [insert_fresh hins] at hsome
    cases hsome
  constructor
  · intro sid x hx
    obtain ⟨hid, hrow⟩ | hold := get_insert_cases hins hx
    · obtain ⟨scope, hscope, hhome⟩ := createAgentSession_home (x := x) hone hnode hroot (by rw [hrow]) (by rw [hrow])
        (by rw [hrow])
      refine ⟨scope, ?_, hhome, ?_⟩
      · show Function.update w.scopes id (d.scope w.desk.graph) sid = some scope
        rw [hid, Function.update_self, hscope]
      · intro hopen
        rw [hrow] at hopen
        cases hopen with
        | tail _ hrest => cases hrest with | tail _ hrest => cases hrest
    · obtain ⟨scope, hscope, hhome, hanchored⟩ := h.session sid x hold
      refine ⟨scope, ?_, hhome, hanchored⟩
      show Function.update w.scopes id (d.scope w.desk.graph) sid = some scope
      rw [Function.update_of_ne (hother sid (by rw [hold]; rfl)), hscope]
  · intro aid a ha hpending
    obtain ⟨hsome, scope, hscope, hin⟩ := h.artifact aid a ha hpending
    refine ⟨?_, scope, ?_, hin⟩
    · obtain ⟨x, hx⟩ := Option.isSome_iff_exists.mp hsome
      rw [get_insert_old hins hx]
      rfl
    · show Function.update w.scopes id (d.scope w.desk.graph) a.sessionId = some scope
      rw [Function.update_of_ne (hother _ hsome), hscope]

theorem updateAgentSession_ok {d : SessionUpdate} (h : updateAgentSession id d s = .ok s') :
    ∃ x status, s.sessions.get id = some x ∧ newStatus x.status d = .ok status ∧
      s' = { s with sessions := s.sessions.modify id (AgentSession.setStatus status d) AgentSession.setStatus_key } := by
  unfold updateAgentSession at h
  split at h
  · cases h
  · rename_i x hx
    obtain ⟨status, hstatus, h⟩ := bind_ok h
    obtain ⟨-, h⟩ := guard_ok h
    cases h
    exact ⟨x, status, hx, hstatus, rfl⟩

/-- A session that is open now was open before, or was idle and is started. -/
theorem newStatus_open {current status : SessionStatus} {d : SessionUpdate} (h : newStatus current d = .ok status)
    (hopen : status ∈ [SessionStatus.active, .waitingReview]) :
    current ∈ [SessionStatus.active, .waitingReview] ∨ current = .idle ∧ truthy d.status = some "active" := by
  unfold newStatus at h
  split at h
  · cases h
    exact .inl hopen
  · rename_i text htext
    split at h
    · cases h
    · rename_i new hnew
      obtain ⟨hallowed, h⟩ := guard_ok h
      cases h
      by_cases hsame : status = current
      · exact .inl (hsame ▸ hopen)
      · have hnext : status ∈ current.transitions := by
          by_contra hno
          exact hallowed ⟨hsame, hno⟩
        cases current with
        | active => exact .inl (by decide)
        | waitingReview => exact .inl (by decide)
        | completed => cases hnext
        | cancelled => cases hnext
        | idle =>
          have hactive : status = .active := by
            cases status <;> simp_all [SessionStatus.transitions]
          subst hactive
          refine .inr ⟨rfl, ?_⟩
          rw [htext]
          unfold SessionStatus.ofText at hnew
          split at hnew <;> simp_all

theorem Kept.updateSession {d : SessionUpdate} (h : Kept w)
    (hstart : ∀ x, w.desk.sessions.get id = some x → x.status = .idle → truthy d.status = some "active" → x.Anchored w.desk.graph)
    (hrun : updateAgentSession id d w.desk = .ok s') : Kept ⟨s', w.scopes⟩ := by
  obtain ⟨x, status, hx, hstatus, rfl⟩ := updateAgentSession_ok hrun
  constructor
  · intro sid y hy
    obtain ⟨rfl, row, hrow, rfl⟩ | ⟨-, hold⟩ := get_modify_cases AgentSession.setStatus_key hy
    · cases hx.symm.trans hrow
      obtain ⟨scope, hscope, hhome, hanchored⟩ := h.session sid x hx
      refine ⟨scope, hscope, ⟨hhome.has, hhome.node, hhome.branch⟩, ?_⟩
      intro hopen
      rcases newStatus_open hstatus hopen with hwas | ⟨hidle, hactive⟩
      · exact hanchored hwas
      · exact hstart x hx hidle hactive
    · exact h.session sid y hold
  · intro aid a ha hpending
    obtain ⟨hsome, scope, hscope, hin⟩ := h.artifact aid a ha hpending
    refine ⟨?_, scope, hscope, hin⟩
    obtain ⟨y, hy⟩ := Option.isSome_iff_exists.mp hsome
    obtain ⟨y', hy', -⟩ := get_modify_exists id (AgentSession.setStatus status d) AgentSession.setStatus_key hy
    rw [hy']
    rfl

theorem Kept.submit {d : ArtifactCreate} (h : Kept w)
    (hrun : createAgentArtifact id sessionId d w.desk = .ok s') : Kept ⟨s', w.scopes⟩ := by
  obtain ⟨scope, hscope, hin⟩ := h.submitted hrun
  obtain ⟨x, payload, target, artifacts, hx, -, -, -, hins, rfl⟩ := createAgentArtifact_ok hrun
  refine ⟨h.session, ?_⟩
  intro aid a ha hpending
  obtain ⟨-, rfl⟩ | hold := get_insert_cases hins ha
  · refine ⟨?_, scope, hscope, hin⟩
    show (w.desk.sessions.get sessionId).isSome
    rw [hx]
    rfl
  · exact h.artifact aid a hold hpending

theorem review_pending {aid : String} {status : ArtifactStatus} (hstatus : status ≠ .pending)
    (ha : (s.artifacts.modify id (AgentArtifact.review status note) AgentArtifact.review_key).get aid = some a)
    (hpending : a.status = .pending) : s.artifacts.get aid = some a := by
  obtain ⟨-, row, -, rfl⟩ | ⟨-, hold⟩ := get_modify_cases AgentArtifact.review_key ha
  · exact absurd hpending hstatus
  · exact hold

theorem Kept.approve
    (h : Kept w) (hrun : approveAgentArtifact uuid now artifactId note d w.desk = .ok s') : Kept ⟨s', w.scopes⟩ := by
  obtain ⟨a, graph, -, -, happrove, rfl⟩ := approveAgentArtifact_ok hrun
  have hstays : ∀ y, Stays y w.desk.graph graph := fun _ => approveArtifact_stays happrove
  constructor
  · intro sid x hx
    obtain ⟨scope, hscope, hhome, hanchored⟩ := h.session sid x hx
    exact ⟨scope, hscope, hhome.stays hstays, fun hopen => (hanchored hopen).stays hstays⟩
  · intro aid b hb hpending
    obtain ⟨hsome, scope, hscope, hin⟩ := h.artifact aid b (review_pending (by decide) hb hpending) hpending
    exact ⟨hsome, scope, hscope, hin.stays (hstays _)⟩

theorem Kept.reject (h : Kept w)
    (hrun : rejectAgentArtifact artifactId note w.desk = .ok s') : Kept ⟨s', w.scopes⟩ := by
  unfold rejectAgentArtifact at hrun
  split at hrun
  · cases hrun
  · obtain ⟨-, hrun⟩ := guard_ok hrun
    cases hrun
    refine ⟨h.session, ?_⟩
    intro aid b hb hpending
    exact h.artifact aid b (review_pending (by decide) hb hpending) hpending

/-- A step that keeps the scopes in use keeps the invariant. -/
theorem Kept.step {e : DeskEvent} (h : Kept w) (he : ScopeKept w e) : Kept (w.step e) := by
  unfold Watched.step
  obtain ⟨request, uuid, now, ids⟩ := e
  cases request with
  | graph r =>
    cases hrun : r.run (fun _ => w.desk.graph) uuid now w.desk.graph with
    | error => simpa only [DeskRequest.run, hrun, error_bind] using h
    | ok => simpa only [DeskRequest.run, hrun, ok_bind, pure, Except.pure] using h.graph he hrun
  | createSession providers d =>
    cases hrun : createAgentSession providers (uuid 0 0) d w.desk with
    | error => simpa only [DeskRequest.run, hrun] using h
    | ok => simpa only [DeskRequest.run, hrun] using h.createSession hrun
  | updateSession sessionId d =>
    cases hrun : updateAgentSession sessionId d w.desk with
    | error => simpa only [DeskRequest.run, hrun] using h
    | ok => simpa only [DeskRequest.run, hrun] using h.updateSession he hrun
  | submit sessionId d =>
    cases hrun : createAgentArtifact (uuid 0 0) sessionId d w.desk with
    | error => simpa only [DeskRequest.run, hrun] using h
    | ok => simpa only [DeskRequest.run, hrun] using h.submit hrun
  | approve artifactId note d =>
    cases hrun : approveAgentArtifact (uuid 0) now artifactId note d w.desk with
    | error => simpa only [DeskRequest.run, hrun] using h
    | ok => simpa only [DeskRequest.run, hrun] using h.approve hrun
  | reject artifactId note =>
    cases hrun : rejectAgentArtifact artifactId note w.desk with
    | error => simpa only [DeskRequest.run, hrun] using h
    | ok => simpa only [DeskRequest.run, hrun] using h.reject hrun

/-- In every run whose steps keep the scopes in use, the artifacts of a session stay in its scope. -/
theorem artifacts_confined (g : Graph) (es : List DeskEvent) (h : Runs.Along Watched.step ScopeKept (Watched.start g) es) :
    Confined (Runs.run Watched.step (Watched.start g) es) := by
  have hkept : Kept (Runs.run Watched.step (Watched.start g) es) :=
    h.invariant Kept (fun w e hw he => hw.step he) (kept_start g)
  exact hkept.confined

/-! A session whose node is deleted -/

def deskEvent (k : Nat) (request : DeskRequest) : DeskEvent := ⟨request, fun _ i => sampleId (k + i), 0, isUuid_sampleIds k⟩

/-- A project with a root and a child, and a session for the child that is started. -/
def startedSession : List DeskEvent :=
  [deskEvent 0 (.graph (.createProject none ⟨"p", "", "", .json "{}"⟩) trivial),
    deskEvent 2 (.graph (.createNode (sampleId 0) ⟨1, some 1, "a", "", "idea", some (sampleId 1), none, "", []⟩) trivial),
    deskEvent 4 (.createSession (fun _ => none) ⟨sampleId 0, some (sampleId 2), none, none, "o", "one_shot", .json "{}"⟩),
    deskEvent 0 (.updateSession (sampleId 4) ⟨some "active", none, none⟩)]

theorem spares_of_none (hdeletes : ∀ y, ¬ r.Deletes s.graph y) (hmerges : ∀ y, ¬ r.Merges s.graph y) :
    Spares s r :=
  ⟨fun _ _ _ _ y _ hy => absurd hy (hdeletes y), fun _ _ _ _ y _ => hmerges y, fun _ a _ _ _ _ _ => hmerges a.targetNodeId⟩

theorem artifacts_confined_started : Confined (Runs.run Watched.step (Watched.start Graph.empty) startedSession) := by
  refine artifacts_confined Graph.empty startedSession ⟨?_, ?_, trivial, ?_, trivial⟩
  · exact spares_of_none (fun _ h => h) (fun _ h => h)
  · exact spares_of_none (fun _ h => h) (fun _ h => h)
  · intro x hx _ _
    have hnode : ((Runs.run Watched.step (Watched.start Graph.empty) (startedSession.take 3)).desk.sessions.get
        (sampleId 4)).all (fun x => (truthy x.assignedNodeId).isSome) = true := by decide +kernel
    rw [show (Runs.run Watched.step (Watched.start Graph.empty) (startedSession.take 3)).desk.sessions.get (sampleId 4) = some x
      from hx] at hnode
    exact .inl hnode

/-- The child is deleted, and an artifact of the session is submitted for the root. -/
def escapedArtifact : List DeskEvent :=
  startedSession ++
    [deskEvent 0 (.graph (.deleteNode (sampleId 2) 2 1) trivial),
      deskEvent 5 (.submit (sampleId 4) ⟨sampleId 1, some (.updateNode [(.title, .text "x")])⟩)]

/-- The approval of that artifact writes to the root. -/
theorem artifact_escapes : ¬ Confined (Runs.run Watched.step (Watched.start Graph.empty) escapedArtifact) := by
  intro h
  have hartifact : ((Runs.run Watched.step (Watched.start Graph.empty) escapedArtifact).desk.artifacts.get (sampleId 5)).map
      AgentArtifact.sessionId = some (sampleId 4) := by decide +kernel
  have hscope : (Runs.run Watched.step (Watched.start Graph.empty) escapedArtifact).scopes (sampleId 4) =
      some (.node (sampleId 2)) := by decide +kernel
  have hroot : ((Runs.run Watched.step (Watched.start Graph.empty) escapedArtifact).desk.graph.nodes.get (sampleId 1)).map
      Node.revision = some 2 := by decide +kernel
  have happroved : (approveAgentArtifact (fun i => sampleId i) 0 (sampleId 5) "" ⟨some 3, some 2⟩
      (Runs.run Watched.step (Watched.start Graph.empty) escapedArtifact).desk).toOption.any (fun s' =>
        decide ((s'.graph.nodes.get (sampleId 1)).map Node.revision = some 3)) = true := by decide +kernel
  cases hrun : approveAgentArtifact (fun i => sampleId i) 0 (sampleId 5) "" ⟨some 3, some 2⟩
      (Runs.run Watched.step (Watched.start Graph.empty) escapedArtifact).desk with
  | error e =>
    rw [hrun] at happroved
    cases happroved
  | ok s' =>
    rw [hrun] at happroved
    have hbumped : (s'.graph.nodes.get (sampleId 1)).map Node.revision = some 3 := of_decide_eq_true happroved
    obtain ⟨a, scope, ha, hof, honly⟩ := h.approved _ _ _ _ _ _ hrun
    rw [ha, Option.map_some, Option.some.injEq] at hartifact
    rw [hartifact, hscope, Option.some.injEq] at hof
    obtain ⟨n, hn, hrev⟩ := Option.map_eq_some_iff.mp hroot
    have hne : sampleId 1 ≠ sampleId 2 := by decide
    have hkept := honly.rows (sampleId 1) n hn (by rw [← hof]; exact hne)
    rw [hkept, Option.map_some, hrev] at hbumped
    exact absurd hbumped (by decide)

end GrowthMap.Canon
