import GrowthMap.Canon.Places

/- Agent sessions and their artifacts.

   A session is assigned to one node or to the root of one branch. What its agent
   proposes, an artifact, is checked against that assignment when it is submitted, and
   is applied to its target when a human approves it. The assignment is a pair of foreign
   keys that are set to NULL when their node is deleted.

   Each request is one transaction. The provider table is a function: the providers that
   are there, and whether they are enabled. The timestamps of sessions and artifacts are
   left out: nothing reads them. -/
namespace GrowthMap.Canon

open Relational

/-! Rows -/

/-- `AGENT_SESSION_STATUSES` -/
inductive SessionStatus where
  | idle | active | waitingReview | completed | cancelled
  deriving DecidableEq, Repr

def SessionStatus.ofText : String → Option SessionStatus
  | "idle" => some .idle
  | "active" => some .active
  | "waiting_review" => some .waitingReview
  | "completed" => some .completed
  | "cancelled" => some .cancelled
  | _ => none

def SessionStatus.text : SessionStatus → String
  | .idle => "idle"
  | .active => "active"
  | .waitingReview => "waiting_review"
  | .completed => "completed"
  | .cancelled => "cancelled"

/-- `AGENT_SESSION_TRANSITIONS` -/
def SessionStatus.transitions : SessionStatus → List SessionStatus
  | .idle => [.active, .cancelled]
  | .active => [.waitingReview, .completed, .cancelled]
  | .waitingReview => [.active, .completed, .cancelled]
  | .completed | .cancelled => []

structure AgentSession where
  id : String
  projectId : String
  assignedNodeId : Option String
  assignedBranchRootId : Option String
  providerId : Option String
  objective : String
  mode : String
  status : SessionStatus
  handoffContext : Value
  resultSummary : Value

inductive ArtifactStatus where
  | pending | applied | rejected
  deriving DecidableEq, Repr

structure AgentArtifact where
  id : String
  sessionId : String
  projectId : String
  targetNodeId : String
  payload : ArtifactPayload
  status : ArtifactStatus
  reviewNote : String

/-- The graph with the sessions and artifacts of its agents. -/
structure Desk where
  graph : Graph
  sessions : Table String AgentSession AgentSession.id
  artifacts : Table String AgentArtifact AgentArtifact.id

def Desk.empty : Desk := ⟨.empty, .empty, .empty⟩

/-! Foreign keys -/

def Graph.hasNode (g : Graph) (x : String) : Bool := (g.nodes.get x).isSome

def Graph.hasProject (g : Graph) (p : String) : Bool := (g.projects.get p).isSome

/-- ON DELETE SET NULL of both assignments. -/
def AgentSession.forget (g : Graph) (s : AgentSession) : AgentSession :=
  { s with
    assignedNodeId := s.assignedNodeId.filter g.hasNode, assignedBranchRootId := s.assignedBranchRootId.filter g.hasNode }

theorem AgentSession.forget_key {g : Graph} (s : AgentSession) : (s.forget g).id = s.id := rfl

/-- The graph is replaced: the sessions of projects that are gone go, and so do artifacts
without their session, project or target. -/
def Desk.withGraph (s : Desk) (g : Graph) : Desk :=
  let sessions := s.sessions.keep (fun x => g.hasProject x.projectId)
  { graph := g,
    sessions := sessions.update (fun _ => true) (AgentSession.forget g) AgentSession.forget_key,
    artifacts := s.artifacts.keep (fun a => (sessions.get a.sessionId).isSome && g.hasProject a.projectId && g.hasNode a.targetNodeId) }

def insertSession (providers : String → Option Bool) (x : AgentSession) (s : Desk) : Except Err Desk :=
  if !s.graph.hasProject x.projectId ∨ x.assignedNodeId.any (fun n => !s.graph.hasNode n) ∨
      x.assignedBranchRootId.any (fun n => !s.graph.hasNode n) ∨ x.providerId.any (fun p => (providers p).isNone) then
    .error .integrity
  else match s.sessions.insert x with
    | none => .error .integrity
    | some sessions => .ok { s with sessions }

def insertArtifact (x : AgentArtifact) (s : Desk) : Except Err Desk :=
  if (s.sessions.get x.sessionId).isNone ∨ !s.graph.hasProject x.projectId ∨ !s.graph.hasNode x.targetNodeId then
    .error .integrity
  else match s.artifacts.insert x with
    | none => .error .integrity
    | some artifacts => .ok { s with artifacts }

/-! Sessions -/

structure SessionCreate where
  projectId : String
  assignedNodeId : Option String
  assignedBranchRootId : Option String
  providerId : Option String
  objective : String
  mode : String
  handoffContext : Value

def checkAssignedNode (g : Graph) (d : SessionCreate) : Except Err Unit :=
  match truthy d.assignedNodeId with
  | none => .ok ()
  | some x =>
    if (g.nodes.get x).all (fun n => decide (n.projectId ≠ d.projectId)) then
      .error (.http 400 "Assigned node must belong to the project")
    else .ok ()

def Graph.branchRow (g : Graph) (n : Node) : Option Branch := (truthy n.branchId).bind g.branches.get

def checkAssignedRoot (g : Graph) (d : SessionCreate) : Except Err Unit :=
  match truthy d.assignedBranchRootId with
  | none => .ok ()
  | some x =>
    if (g.nodes.get x).all (fun root => decide (root.projectId ≠ d.projectId) ||
        (g.branchRow root).all (fun b => decide (b.status ≠ .active))) then
      .error (.http 400 "Assigned branch root must belong to an active branch")
    else .ok ()

def checkProvider (providers : String → Option Bool) (d : SessionCreate) : Except Err Unit :=
  match truthy d.providerId with
  | none => .ok ()
  | some p => if providers p ≠ some true then .error (.http 400 "Selected provider is unavailable") else .ok ()

/-- `create_agent_session` -/
def createAgentSession (providers : String → Option Bool) (id : String) (d : SessionCreate) (s : Desk) : Except Err Desk :=
  if !s.graph.hasProject d.projectId then .error (.http 404 "Project not found")
  else if strip d.objective = "" then .error (.http 400 "Objective is required")
  else if d.mode ∉ ["one_shot", "collab", "background"] then .error (.http 400 "Invalid agent session mode")
  else if (truthy d.assignedNodeId).isSome = (truthy d.assignedBranchRootId).isSome then
    .error (.http 400 "Assign exactly one node or branch root")
  else do
    checkAssignedNode s.graph d
    checkAssignedRoot s.graph d
    checkProvider providers d
    insertSession providers ⟨id, d.projectId, d.assignedNodeId, d.assignedBranchRootId, d.providerId, d.objective, d.mode,
      .idle, d.handoffContext, .text ""⟩ s

/-- An absent column is `none`; a null status is an absent one. -/
structure SessionUpdate where
  status : Option String
  resultSummary : Option Value
  handoffContext : Option Value

def newStatus (current : SessionStatus) (d : SessionUpdate) : Except Err SessionStatus :=
  match truthy d.status with
  | none => .ok current
  | some text =>
    match SessionStatus.ofText text with
    | none => .error (.http 400 "Invalid agent session status")
    | some new =>
      if new ≠ current ∧ new ∉ current.transitions then
        .error (.http 400 ("Cannot transition from " ++ current.text ++ " to " ++ new.text))
      else .ok new

def AgentSession.setStatus (status : SessionStatus) (d : SessionUpdate) (s : AgentSession) : AgentSession :=
  { s with
    status, resultSummary := d.resultSummary.getD s.resultSummary, handoffContext := d.handoffContext.getD s.handoffContext }

theorem AgentSession.setStatus_key {status : SessionStatus} {d : SessionUpdate} (s : AgentSession) :
    (s.setStatus status d).id = s.id := rfl

/-- `update_agent_session` -/
def updateAgentSession (sessionId : String) (d : SessionUpdate) (s : Desk) : Except Err Desk :=
  match s.sessions.get sessionId with
  | none => .error (.http 404 "Agent session not found")
  | some session => do
    let status ← newStatus session.status d
    if d.resultSummary.isSome ∧ status ∉ [.waitingReview, .completed, .cancelled] then
      .error (.http 400 "Result summary requires review or terminal status")
    else .ok { s with sessions := s.sessions.modify sessionId (AgentSession.setStatus status d) AgentSession.setStatus_key }

/-! Artifacts -/

/-- `_valid_artifact_payload` -/
def ArtifactPayload.valid : ArtifactPayload → Bool
  | .createChild title .. => decide (strip title ≠ "")
  | .updateNode changes => changes.any (fun c => decide (c.1 ∈ artifactFields))
  | .createBlock .. => true

/-- A payload of another type or shape is `none`. -/
structure ArtifactCreate where
  targetNodeId : String
  payload : Option ArtifactPayload

def checkAssignment (g : Graph) (session : AgentSession) (target : Node) : Except Err Unit :=
  if (truthy session.assignedNodeId).any (fun x => decide (target.id ≠ x)) then
    .error (.http 400 "Node-scoped session can only write back to its assigned node")
  else match truthy session.assignedBranchRootId with
    | none => .ok ()
    | some x =>
      match g.nodes.get x with
      | none => .error (.http 500 "Internal Server Error")
      | some root =>
        if target.branchId ≠ root.branchId then
          .error (.http 400 "Branch-scoped session target must belong to the assigned branch")
        else .ok ()

/-- `create_agent_artifact` -/
def createAgentArtifact (id sessionId : String) (d : ArtifactCreate) (s : Desk) : Except Err Desk :=
  match s.sessions.get sessionId with
  | none => .error (.http 404 "Agent session not found")
  | some session =>
    if session.status ∉ [.active, .waitingReview] then .error (.http 400 "Artifacts require an active or review session")
    else match d.payload.filter ArtifactPayload.valid with
      | none => .error (.http 400 "Invalid artifact payload")
      | some payload =>
        match s.graph.nodes.get d.targetNodeId with
        | none => .error (.http 400 "Target node must belong to the session project")
        | some target =>
          if target.projectId ≠ session.projectId then .error (.http 400 "Target node must belong to the session project")
          else do
            checkAssignment s.graph session target
            insertArtifact ⟨id, sessionId, session.projectId, d.targetNodeId, payload, .pending, ""⟩ s

def AgentArtifact.review (status : ArtifactStatus) (note : String) (a : AgentArtifact) : AgentArtifact :=
  { a with status, reviewNote := note }

theorem AgentArtifact.review_key {status : ArtifactStatus} {note : String} (a : AgentArtifact) : (a.review status note).id = a.id := rfl

/-- `approve_agent_artifact` -/
def approveAgentArtifact (uuid : Nat → String) (now : Int) (artifactId note : String) (d : ArtifactReview) (s : Desk) :
    Except Err Desk :=
  match s.artifacts.get artifactId with
  | none => .error (.http 404 "Agent artifact not found")
  | some artifact =>
    if artifact.status ≠ .pending then .error (.http 400 "Artifact has already been reviewed")
    else if (s.sessions.get artifact.sessionId).isNone then .error (.http 400 "Artifact target is unavailable")
    else do
      let graph ← approveArtifact (fun _ => s.graph) uuid now artifact.projectId artifact.targetNodeId artifact.payload d s.graph
      return { s with
        graph, artifacts := s.artifacts.modify artifactId (AgentArtifact.review .applied note) AgentArtifact.review_key }

/-- `reject_agent_artifact` -/
def rejectAgentArtifact (artifactId note : String) (s : Desk) : Except Err Desk :=
  match s.artifacts.get artifactId with
  | none => .error (.http 404 "Agent artifact not found")
  | some artifact =>
    if artifact.status ≠ .pending then .error (.http 400 "Artifact has already been reviewed")
    else .ok { s with artifacts := s.artifacts.modify artifactId (AgentArtifact.review .rejected note) AgentArtifact.review_key }

/-! Requests -/

def Request.OfGraph : Request → Prop
  | .approveArtifact .. => False
  | _ => True

inductive DeskRequest where
  | graph (r : Request) (h : r.OfGraph)
  | createSession (providers : String → Option Bool) (d : SessionCreate)
  | updateSession (sessionId : String) (d : SessionUpdate)
  | submit (sessionId : String) (d : ArtifactCreate)
  | approve (artifactId note : String) (d : ArtifactReview)
  | reject (artifactId note : String)

structure DeskEvent where
  request : DeskRequest
  uuid : Nat → Nat → String
  now : Int
  ids : ∀ i k, isUuid (uuid i k) = true

def DeskRequest.run (uuid : Nat → Nat → String) (now : Int) (r : DeskRequest) (s : Desk) : Except Err Desk :=
  match r with
  | .graph r _ => do
    let g ← r.run (fun _ => s.graph) uuid now s.graph
    return s.withGraph g
  | .createSession providers d => createAgentSession providers (uuid 0 0) d s
  | .updateSession sessionId d => updateAgentSession sessionId d s
  | .submit sessionId d => createAgentArtifact (uuid 0 0) sessionId d s
  | .approve artifactId note d => approveAgentArtifact (uuid 0) now artifactId note d s
  | .reject artifactId note => rejectAgentArtifact artifactId note s

end GrowthMap.Canon
