import GrowthMap.Canon.Projects

/- The batch of the agent port: scope, validation, scheduling and application of a list of
   operations.

   The reads before the claim are numbered as in the human routes: the project is read 1, the
   scope 2, the nodes 3 and the branches 4 (read 0 is the one of the receipt). The queries of one walk see
   one state. Nodes read by the validation are not read again: the session holds them. -/
namespace GrowthMap.Canon

open Relational

/-! Operations -/

/-- A revision of a request is at least one. -/
abbrev Revision := { r : Int // 1 ≤ r }

theorem one_le_one : (1 : Int) ≤ 1 := by decide

theorem one_le_two : (1 : Int) ≤ 2 := by decide

/-- The operations; `ι` is the id of what is created, optional on the wire. -/
inductive Op (ι : Type) where
  | createNode (id : ι) (parent : Option (String × Revision)) (branchId : Option String) (title summary nodeType : String)
  | updateNode (nodeId : String) (expected : Revision) (fields : List (NodeField × Value))
  | createEdge (id : ι) (fromNodeId toNodeId : String) (expectedFrom expectedTo : Revision) (relationType : String)
      (weight : Rat) (note : String)
  | createContentBlock (id : ι) (nodeId : String) (expectedNode : Revision) (blockType : String) (content : Value)
      (orderIndex : Int)
  | createBranch (id : ι) (sourceNodeId : String) (expectedSource : Revision) (name description : String)
  deriving DecidableEq, Repr

namespace Op

variable {ι κ : Type}

def created : Op ι → Option ι
  | createNode id .. | createEdge id .. | createContentBlock id .. | createBranch id .. => some id
  | updateNode .. => none

def withId (f : ι → κ) : Op ι → Op κ
  | createNode id parent branchId title summary nodeType => createNode (f id) parent branchId title summary nodeType
  | updateNode nodeId expected fields => updateNode nodeId expected fields
  | createEdge id a b ea eb relationType weight note => createEdge (f id) a b ea eb relationType weight note
  | createContentBlock id nodeId expected blockType content orderIndex =>
    createContentBlock (f id) nodeId expected blockType content orderIndex
  | createBranch id sourceNodeId expected name description => createBranch (f id) sourceNodeId expected name description

def newNode : Op ι → Option (ι × Option String)
  | createNode id _ branchId .. => some (id, branchId)
  | _ => none

def newBranch : Op ι → Option ι
  | createBranch id .. => some id
  | _ => none

def expectations : Op ι → List (String × Revision)
  | createNode _ parent .. => parent.toList
  | updateNode nodeId expected _ => [(nodeId, expected)]
  | createEdge _ a b ea eb .. => [(a, ea), (b, eb)]
  | createContentBlock _ nodeId expected .. => [(nodeId, expected)]
  | createBranch _ sourceNodeId expected .. => [(sourceNodeId, expected)]

/-- The nodes that change with the operation; the source of a branch does not. -/
def touches : Op ι → List String
  | createBranch .. => []
  | op => op.expectations.map Prod.fst

def dependsOn : Op ι → List String
  | createNode _ parent branchId .. => (parent.map Prod.fst).toList ++ branchId.toList
  | updateNode .. => []
  | createEdge _ a b .. => [a, b]
  | createContentBlock _ nodeId .. => [nodeId]
  | createBranch _ sourceNodeId .. => [sourceNodeId]

def flushes : Op ι → Bool
  | createNode .. | createBranch .. => true
  | _ => false

def name : Op ι → String
  | createNode .. => "create_node"
  | updateNode .. => "update_node"
  | createEdge .. => "create_edge"
  | createContentBlock .. => "create_content_block"
  | createBranch .. => "create_branch"

end Op

/-! Grants and their scope -/

inductive Permission where
  | read | propose | write
  deriving DecidableEq, Repr

structure Grant where
  id : String
  projectId : String
  permission : Permission
  nodeScopeId : Option String
  branchRootId : Option String
  agentIdentity : String
  deriving DecidableEq, Repr

def malformed (message : String) : Err := .coded 409 "MALFORMED_SCOPE" message

/-- `validated_scoped_graph`, of at most `limit` nodes; no closure is empty, so that a limit below zero is as zero. -/
def scopedGraph (g : Graph) (projectId rootId : String) (limit : Int) (allowExternalRootParent : Bool) :
    Except Err (List String) :=
  match g.nodes.get rootId with
  | none => .error (malformed "Grant root is outside its project")
  | some root =>
    if root.projectId ≠ projectId then .error (malformed "Grant root is outside its project")
    else if root.branchId.any (fun b => (g.branches.get b).all (fun x => decide (x.projectId ≠ projectId))) then
      .error (malformed "Scope branch is outside its project")
    else closure
      { projectId, branchId := root.branchId, forbidden := fun _ => false, limit := some limit.toNat,
        rootParents := if allowExternalRootParent then 1 else 0,
        source := malformed "Scope source crosses project or branch",
        edge := malformed "Scope graph is not an exact project/branch tree",
        inbound := malformed "Scope graph is not an exact project/branch tree",
        rootOwner := malformed "Scope root has invalid ownership",
        owner := malformed "Scope descendant has invalid ownership",
        tooLarge := .coded 413 "SCOPE_TOO_LARGE" "Scope traversal exceeds limit" } g rootId

/-- `validated_scoped_graph` with its default limit -/
def validatedScopedGraph (g : Graph) (projectId rootId : String) (allowExternalRootParent : Bool) :
    Except Err (List String) :=
  scopedGraph g projectId rootId 5000 allowExternalRootParent

/-- `allowed_nodes` -/
def allowedNodes (g : Graph) (grant : Grant) : Except Err (List String) :=
  match truthy grant.nodeScopeId, truthy grant.branchRootId with
  | some node, _ => do
    let _ ← validatedScopedGraph g grant.projectId node true
    return [node]
  | none, some root => validatedScopedGraph g grant.projectId root false
  | none, none =>
    let ids := (g.nodes.rows.filter (fun n => decide (n.projectId = grant.projectId ∧ n.branchId = none))).map Node.id
    if 5000 < ids.length then .error (.coded 413 "SCOPE_TOO_LARGE" "Project graph exceeds Agent Port limit") else .ok ids

/-! Validation -/

def scopeDenied (message : String) : Err := .coded 403 "SCOPE_DENIED" message

/-- What `uuid.UUID` takes of the ids the wire lets through. -/
def isUuid (s : String) : Bool :=
  let hex := fun c : Char => c.isDigit || decide (('a' ≤ c ∧ c ≤ 'f') ∨ ('A' ≤ c ∧ c ≤ 'F'))
  decide (s.toList.length = 36) && s.toList.all (fun c => hex c || decide (c = '-')) && decide (s.toList.count '-' = 4)

def reserve (draw : Nat → String) (used : List String) : List (Op (Option String) × Nat) → Except Err (List (Op String))
  | [] => .ok []
  | (op, i) :: ops =>
    let op := op.withId (fun id => id.getD (draw i))
    match op.created with
    | none => do
      let ops ← reserve draw used ops
      return op :: ops
    | some id =>
      if !isUuid id then .error (.http 422 "Invalid generated/provided id")
      else if id ∈ used then .error (.coded 409 "ID_CONFLICT" "Entity id already exists")
      else do
        let ops ← reserve draw (id :: used) ops
        return op :: ops

/-- What the validation has read, and the ids the batch creates. -/
structure Snapshot where
  nodes : String → Option Node
  branches : String → Option Branch
  newNodes : List String
  newBranches : List String

/-- The set of allowed nodes and the branches of new nodes, as far as the validation has come. -/
structure Checked where
  allowed : List String
  branchOf : String → Option String

/-- `node_ref`: the branch and the revision of a node that is named. -/
def Snapshot.ref (snap : Snapshot) (s : Checked) (x : String) : Except Err (Option String × Int) :=
  match snap.nodes x with
  | some n => .ok (n.branchId, n.revision)
  | none =>
    if x ∈ snap.newNodes then .ok (s.branchOf x, 1)
    else .error (.coded 422 "INVALID_REFERENCE" "Node reference does not exist in project")

/-- `node_ref` and `check_ref_revision`: the branch of the node. -/
def Snapshot.checkRef (snap : Snapshot) (s : Checked) (field x : String) (expected : Revision) :
    Except Err (Option String) := do
  let (branch, current) ← snap.ref s x
  if expected.val ≠ current then .error (.conflict "Entity revision is stale" (some x) expected.val (some current) (some field))
  else return branch

def checkScope (allowed refs : List String) : Except Err Unit :=
  if refs.any (fun r => r ∉ allowed) then .error (scopeDenied "Every operation reference must be in scope") else .ok ()

/-- The branch of a new node: its parent's, else the one it names. -/
def childBranch (named inherited : Option String) : Except Err (Option String) :=
  if named = none ∧ (truthy inherited).isSome then .ok inherited
  else if (truthy inherited).isSome ∧ named ≠ inherited then
    .error (.coded 422 "BRANCH_MISMATCH" "Child must inherit parent branch")
  else .ok named

def checkBranch (grant : Grant) (snap : Snapshot) (branchId : Option String) : Except Err Unit :=
  match truthy branchId with
  | none => .ok ()
  | some b => do
    match snap.branches b with
    | some branch =>
      if branch.status ≠ .active then .error (.coded 422 "INACTIVE_BRANCH" "Branch is not active")
    | none =>
      if b ∉ snap.newBranches then .error (.coded 422 "INVALID_BRANCH" "Branch must exist in project")
    match truthy grant.branchRootId with
    | none => .ok ()
    | some root =>
      match snap.nodes root with
      | none => .error (.http 500 "Internal Server Error")
      | some n => if some b ≠ n.branchId then .error (scopeDenied "Branch outside grant") else .ok ()

/-- One operation of `validate_operations`; `models` says that the operations come as models. -/
def checkOp (models : Bool) (grant : Grant) (snap : Snapshot) (s : Checked) (op : Op String) :
    Except Err (Checked × Op String) :=
  match op with
  | .createNode id parent branchId title summary nodeType => do
    if ((truthy grant.nodeScopeId).isSome ∨ (truthy grant.branchRootId).isSome) ∧ parent = none then
      .error (scopeDenied "Scoped create_node requires an in-scope parent")
    let branchId ← match parent with
      | none => Except.ok branchId
      | some (p, expected) => do
        let inherited ← snap.checkRef s "expected_parent_revision" p expected
        childBranch branchId inherited
    checkBranch grant snap branchId
    let contained := parent.any (fun p => decide (p.1 ∈ s.allowed ∨ p.1 ∈ snap.newNodes))
    let allowed := if contained then id :: s.allowed else s.allowed
    checkScope allowed (parent.map Prod.fst).toList
    return (⟨allowed, Function.update s.branchOf id branchId⟩, .createNode id parent branchId title summary nodeType)
  | .updateNode nodeId expected fields =>
    match snap.nodes nodeId with
    | none => do
      let _ ← snap.ref s nodeId
      .error (.http 422 "Cannot update a not-yet-created node")
    | some n => do
      if expected.val ≠ n.revision then
        .error (.conflict "Entity revision is stale" (some nodeId) expected.val (some n.revision) none)
      if models = true ∧ fields.all (fun c => decide (c.2 = .null)) then .error (.http 422 "update_node fields cannot be empty")
      checkScope s.allowed [nodeId]
      return (s, op)
  | .createEdge _ a b expectedFrom expectedTo relationType _ _ => do
    let _ ← snap.ref s a
    let _ ← snap.ref s b
    let branchA ← snap.checkRef s "expected_from_revision" a expectedFrom
    let branchB ← snap.checkRef s "expected_to_revision" b expectedTo
    if relationType = "child_of" ∧ branchA ≠ branchB then
      .error (.coded 422 "BRANCH_MISMATCH" "Containment endpoints must share branch")
    checkScope s.allowed [a, b]
    return (s, op)
  | .createContentBlock _ nodeId expected _ _ _ => do
    let _ ← snap.checkRef s "expected_node_revision" nodeId expected
    checkScope s.allowed [nodeId]
    return (s, op)
  | .createBranch _ sourceNodeId expected _ _ => do
    let _ ← snap.checkRef s "expected_source_revision" sourceNodeId expected
    if (truthy grant.nodeScopeId).isSome then .error (scopeDenied "Node scope cannot create branches")
    checkScope s.allowed [sourceNodeId]
    return (s, op)

def checkOps (models : Bool) (grant : Grant) (snap : Snapshot) : Checked → List (Op String) → Except Err (List (Op String))
  | _, [] => .ok []
  | s, op :: ops => do
    let (s, op) ← checkOp models grant snap s op
    let ops ← checkOps models grant snap s ops
    return op :: ops

def namedBranch (ops : List (Op String)) (x : String) : Option String :=
  ((ops.filterMap Op.newNode).lookup x).join

def snapshotOf (see : Nat → Graph) (projectId : String) (ops : List (Op String)) : Snapshot where
  nodes x := ((see 3).nodes.get x).filter (fun n => decide (n.projectId = projectId))
  branches x := ((see 4).branches.get x).filter (fun b => decide (b.projectId = projectId))
  newNodes := (ops.filterMap Op.newNode).map Prod.fst
  newBranches := ops.filterMap Op.newBranch

def usedIds (see : Nat → Graph) (projectId : String) : List String :=
  ((see 3).nodes.rows.filter (fun n => decide (n.projectId = projectId))).map Node.id ++
    ((see 4).branches.rows.filter (fun b => decide (b.projectId = projectId))).map Branch.id

/-- `validate_operations` -/
def validateOperations (models : Bool) (see : Nat → Graph) (draw : Nat → String) (grant : Grant)
    (operations : List (Op (Option String))) : Except Err (List (Op String)) := do
  let allowed ← allowedNodes (see 2) grant
  let ops ← reserve draw (usedIds see grant.projectId) operations.zipIdx
  checkOps models grant (snapshotOf see grant.projectId ops) ⟨allowed, namedBranch ops⟩ ops

/-- `remember`: one expected revision for each node. -/
def remember : List (String × Revision) → List (String × Revision) → Except Err Unit
  | _, [] => .ok ()
  | prior, (x, expected) :: rest =>
    match prior.lookup x with
    | none => remember ((x, expected) :: prior) rest
    | some first =>
      if first ≠ expected then
        .error (.conflict "Conflicting entity revisions in atomic batch" (some x) expected.val (some first.val) none)
      else remember prior rest

/-! Scheduling -/

def isReady (pending : List (Op String × Nat)) (op : Op String × Nat) : Bool :=
  pending.all (fun q => q.1.created.all (fun id => id ∉ op.1.dependsOn))

def schedule : Nat → List (Op String × Nat) → Except Err (List (Op String × Nat))
  | _, [] => .ok []
  | 0, _ :: _ => .error (.coded 422 "CYCLIC_BATCH_DEPENDENCY" "Atomic batch contains cyclic create dependencies")
  | n + 1, pending =>
    let ready := pending.filter (isReady pending)
    if ready.isEmpty then .error (.coded 422 "CYCLIC_BATCH_DEPENDENCY" "Atomic batch contains cyclic create dependencies")
    else do
      let rest ← schedule n (pending.filter (fun op => !isReady pending op))
      return ready ++ rest

/-! Application -/

/-- The transaction of a batch: the graph, and the nodes the session holds. -/
structure Session where
  graph : Graph
  held : String → Option Node

def Session.node (s : Session) (x : String) : Option Node := (s.held x).or (s.graph.nodes.get x)

def Session.write (s : Session) (old new : Node) : Except Err Session := do
  let graph ← flushNode old new s.graph
  return ⟨graph, Function.update s.held old.id (some new)⟩

structure OpResult where
  op : String
  id : String
  revision : Int
  deriving DecidableEq, Repr

/-- A row that is added is flushed by the next operation that flushes, or before the commit. -/
def deferred (flushed : Bool) : Except Err Graph → Except Err Graph
  | .error .integrity => if flushed then .error .integrity else .error .writeConflict
  | .error .mainline => if flushed then .error .mainline else .error .writeConflict
  | r => r

/-- One operation is executed; `flushed` says that a later one flushes. -/
def execute (uuid : Nat → String) (now : Int) (projectId actor : String) (flushed : Bool) (op : Op String) (s : Session) :
    Except Err (Session × OpResult) :=
  match op with
  | .createNode id parent branchId title summary nodeType => do
    let fields := setFields [(.title, .text (strip title)), (.summary, .text summary), (.nodeType, .text nodeType)]
      NodeField.default
    let g ← insertNode ⟨id, projectId, branchId, fields, actor, actor, 1⟩ s.graph
    let g ← match parent with
      | none => Except.ok g
      | some (p, _) => deferred flushed (insertEdge ⟨uuid 0, projectId, p, id, "child_of", 1, "", false, 1⟩ g)
    return ({ s with graph := g }, ⟨op.name, id, 1⟩)
  | .updateNode nodeId _ fields =>
    match s.node nodeId with
    | none => .error (.http 500 "Internal Server Error")
    | some n => do
      let changes := fields.filter (fun c => decide (c.2 ≠ .null))
      let s ← s.write n { n with fields := setFields changes n.fields, lastEditedBy := actor }
      return (s, ⟨op.name, nodeId, n.revision + 1⟩)
  | .createEdge id a b _ _ relationType weight note => do
    let g ← deferred flushed (insertEdge ⟨id, projectId, a, b, relationType, weight, note, false, 1⟩ s.graph)
    return ({ s with graph := g }, ⟨op.name, id, 1⟩)
  | .createContentBlock id nodeId _ blockType content orderIndex => do
    let g ← deferred flushed (insertBlock ⟨id, nodeId, blockType, content, orderIndex, actor, now, 1⟩ s.graph)
    return ({ s with graph := g }, ⟨op.name, id, 1⟩)
  | .createBranch id sourceNodeId _ name description => do
    let g ← deepCopyBranch uuid s.node projectId sourceNodeId (strip name) description id actor now s.graph
    return ({ s with graph := g }, ⟨op.name, id, 1⟩)

def executeAll (uuid : Nat → Nat → String) (now : Int) (projectId actor : String) :
    List (Op String × Nat) → Session → Except Err (Session × List (OpResult × Nat))
  | [], s => .ok (s, [])
  | (op, i) :: ops, s => do
    let (s, result) ← execute (uuid i) now projectId actor (ops.any (fun o => o.1.flushes)) op s
    let (s, results) ← executeAll uuid now projectId actor ops s
    return (s, (result, i) :: results)

/-- `bump`: the touched nodes that were there before, once each. -/
def bumpAll : List String → Session → Except Err Session
  | [], s => .ok s
  | x :: xs, s =>
    match s.node x with
    | none => bumpAll xs s
    | some n => do
      let s ← s.write n { n with revision := bumped n.revision }
      bumpAll xs s

structure Batch where
  expectedProjectRevision : Revision
  idempotencyKey : String
  operations : List (Op (Option String))
  deriving DecidableEq, Repr

def claimBatch (projectId : String) (expected : Int) (g : Graph) : Except Err Graph :=
  let stale := fun current => Err.conflict "Project revision is stale" none expected current none
  match g.projects.get projectId with
  | none => .error (stale none)
  | some row =>
    if row.revision ≠ expected then .error (stale (some row.revision))
    else .ok { g with projects := g.projects.modify projectId Project.claim Project.claim_key }

/-- What a batch is before its claim: the operations, and the order of their execution. -/
def prepareBatch (see : Nat → Graph) (uuid : Nat → Nat → String) (grant : Grant) (body : Batch) :
    Except Err (List (Op String) × List (Op String × Nat)) := do
  match (see 1).projects.get grant.projectId with
  | none => .error (.http 404 "Project not found")
  | some project =>
    if body.expectedProjectRevision.val ≠ project.revision then
      .error (.conflict "Project revision is stale" none body.expectedProjectRevision.val (some project.revision) none)
    let ops ← validateOperations false see (fun i => uuid i 0) grant body.operations
    remember [] (ops.flatMap Op.expectations)
    let order ← schedule ops.length ops.zipIdx
    return (ops, order)

def touchedNodes (g : Graph) (projectId : String) (ops : List (Op String)) : List String :=
  (ops.flatMap Op.touches).dedup.filter (fun x => (g.nodes.get x).any (fun n => decide (n.projectId = projectId)))

/-- `_apply_batch_serialized` on the graph: the graph to commit, the new revision of the project and the results. -/
def applyOperations (see : Nat → Graph) (uuid : Nat → Nat → String) (now : Int) (grant : Grant) (actor : String)
    (body : Batch) (g : Graph) : Except Err (Graph × Int × List OpResult) := do
  let (ops, order) ← prepareBatch see uuid grant body
  let g ← claimBatch grant.projectId body.expectedProjectRevision.val g
  let session : Session := ⟨g, (snapshotOf see grant.projectId ops).nodes⟩
  let (session, results) ← executeAll (fun i k => uuid i (k + 1)) now grant.projectId actor order session
  let session ← bumpAll (touchedNodes g grant.projectId ops) session
  let ordered := (List.range ops.length).filterMap (fun i => (results.find? (fun r => decide (r.2 = i))).map Prod.fst)
  return (session.graph, body.expectedProjectRevision.val + 1, ordered)

end GrowthMap.Canon
