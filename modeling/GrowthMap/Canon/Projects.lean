import GrowthMap.Canon.Routes

/- Blocks, projects, import, branches and the approval of artifacts: the other routes that
   write the canonical graph. -/
namespace GrowthMap.Canon

open Relational

/-! Content blocks -/

/-- `_ordered_blocks` -/
def orderedBlocks (g : Graph) (nodeId : String) : List ContentBlock :=
  (g.blocks.rows.filter (fun b => decide (b.nodeId = nodeId))).mergeSort (blockLE ContentBlock.createdAt)

/-- A block loaded before keeps the values it was loaded with. -/
def held (block : ContentBlock) (blocks : List ContentBlock) : List ContentBlock :=
  blocks.map (fun b => if b.id = block.id then block else b)

def reorder (alwaysBump : Option String) (block : ContentBlock) (index : Nat) : ContentBlock :=
  let changed := decide (block.orderIndex ≠ index) || decide (some block.id = alwaysBump)
  { block with orderIndex := index, revision := if changed then bumped block.revision else block.revision }

/-- `_rewrite_block_order`: each block as it was loaded and as it is now, in the new order. -/
def rewriteBlockOrder (alwaysBump : Option String) (blocks : List (ContentBlock × ContentBlock)) : Graph → Except Err Graph :=
  Fallible.each (fun b => flushBlock b.1.1 (reorder alwaysBump b.1.2 b.2)) blocks.zipIdx

structure BlockCreate where
  expectedProjectRevision : Int
  expectedNodeRevision : Int
  blockType : String
  content : Value

/-- `create_block` -/
def createBlock (see : Nat → Graph) (uuid : Nat → String) (now : Int) (nodeId : String) (d : BlockCreate) (g : Graph) :
    Except Err Graph :=
  match (see 0).nodes.get nodeId with
  | none => .error (.http 404 "Node not found")
  | some node => do
    let g ← claimProjectRevision node.projectId d.expectedProjectRevision g
    checkEntityRevision "node" node.id node.revision d.expectedNodeRevision
    let existing := orderedBlocks g nodeId
    let g ← rewriteBlockOrder none (existing.map (fun b => (b, b))) g
    let g ← insertBlock ⟨uuid 0, nodeId, d.blockType, d.content, existing.length, "human", now, 1⟩ g
    flushNode node (autoAdvanceMaturity g { node with revision := bumped node.revision }) g

structure BlockUpdate where
  expectedProjectRevision : Int
  expectedNodeRevision : Int
  expectedRevision : Int
  /-- absent, null, or a text -/
  blockType : Option (Option String)
  content : Option Value
  orderIndex : Option Int

def loadBlock (see : Nat → Graph) (blockId : String) : Except Err (ContentBlock × Node) :=
  match (see 0).blocks.get blockId with
  | none => .error (.http 404 "Block not found")
  | some block =>
    match (see 1).nodes.get block.nodeId with
    | none => .error (.http 404 "Node not found")
    | some node => .ok (block, node)

/-- `update_block` -/
def updateBlock (see : Nat → Graph) (blockId : String) (d : BlockUpdate) (g : Graph) : Except Err Graph := do
  let (block, node) ← loadBlock see blockId
  let g ← claimProjectRevision node.projectId d.expectedProjectRevision g
  checkEntityRevision "block" block.id block.revision d.expectedRevision
  checkEntityRevision "node" node.id node.revision d.expectedNodeRevision
  let ordered := held block (orderedBlocks g node.id)
  match ordered.findIdx? (fun b => decide (b.id = block.id)) with
  | none => .error (.http 500 "Internal Server Error")
  | some originalIndex =>
    let others := (ordered.filter (fun b => decide (b.id ≠ block.id))).map (fun b => (b, b))
    let targetIndex := match d.orderIndex with
      | none => originalIndex
      | some requested => (max 0 (min requested others.length)).toNat
    if d.blockType = some none then .error .integrity
    else
      let changed := { block with
        blockType := (d.blockType.bind id).getD block.blockType, content := d.content.getD block.content }
      let g ← rewriteBlockOrder (some block.id) (others.insertIdx targetIndex (block, changed)) g
      flushNode node { node with revision := bumped node.revision } g

/-- `delete_block` -/
def deleteBlock (see : Nat → Graph) (blockId : String) (expectedProject expectedNode expected : Int) (g : Graph) :
    Except Err Graph := do
  let (block, node) ← loadBlock see blockId
  let g ← claimProjectRevision node.projectId expectedProject g
  checkEntityRevision "block" block.id block.revision expected
  checkEntityRevision "node" node.id node.revision expectedNode
  let survivors := (orderedBlocks g node.id).filter (fun b => decide (b.id ≠ block.id))
  let g ← rewriteBlockOrder none (survivors.map (fun b => (b, b))) g
  let g ← flushNode node { node with revision := bumped node.revision } g
  return { g with blocks := g.blocks.keep (fun b => decide (b.id ≠ block.id)) }

/-! Projects -/

/-- `_require_active_project_seat`; `seats` is the limit of the entitlement, if there is one. -/
def requireActiveProjectSeat (seats : Option Nat) (conflictStatus : Nat) (g : Graph) : Except Err Unit :=
  let active := (g.projects.rows.filter (fun p => decide (p.fields .status = .text "active"))).length
  match seats with
  | none => .ok ()
  | some max =>
    if max ≤ active then
      .error (.http conflictStatus
        (toString "Active project limit reached (" ++ toString active ++ "/" ++ toString max ++
          "); archive a project or import a matching-major license"))
    else .ok ()

structure ProjectCreate where
  name : String
  description : String
  goal : String
  settings : Value

/-- `create_project`: the project and its root node. -/
def createProject (see : Nat → Graph) (uuid : Nat → String) (seats : Option Nat) (d : ProjectCreate) (g : Graph) :
    Except Err Graph := do
  requireActiveProjectSeat seats 402 (see 0)
  let fields : ProjectField → Value := fun c => match c with
    | .name => .text d.name
    | .description => .text d.description
    | .goal => .text d.goal
    | .status => .text "active"
    | .settings => d.settings
  let project : Project := ⟨uuid 0, none, fields, 1⟩
  let g ← insertProject project g
  let root := setFields [(.title, .text d.name), (.summary, .text d.description), (.nodeType, .text "concept")]
    NodeField.default
  let g ← insertNode ⟨uuid 1, uuid 0, none, root, "human", "human", 1⟩ g
  flushProject project { project with rootNodeId := some (uuid 1) } g

/-- `update_project` -/
def updateProject (see : Nat → Graph) (seats : Option Nat) (projectId : String) (expectedProject : Int)
    (changes : List (ProjectField × Value)) (g : Graph) : Except Err Graph :=
  match (see 0).projects.get projectId with
  | none => .error (.http 404 "Project not found")
  | some project => do
    let g ← claimProjectRevision projectId expectedProject g
    let fields := changes.foldl (fun f c => Function.update f c.1 c.2) project.fields
    if changes.lookup .status = some (.text "active") ∧ project.fields .status ≠ .text "active" then
      requireActiveProjectSeat seats 409 g
    flushProject project { project with fields } g

/-- `delete_project` -/
def deleteProject (see : Nat → Graph) (projectId : String) (expectedProject : Int) (g : Graph) : Except Err Graph :=
  match (see 0).projects.get projectId with
  | none => .error (.http 404 "Project not found")
  | some _ => do
    let g ← claimProjectRevision projectId expectedProject g
    return deleteProjectRow projectId g

/-! Import -/

/-- A value that `or` replaces. -/
def Value.falsy : Value → Bool
  | .null | .text "" | .int 0 | .list [] => true
  | .real q => decide (q = 0)
  | .json s => decide (s ∈ ["{}", "[]", "false", "null", "0", "\"\""])
  | _ => false

/-- `value or default` -/
def Value.or (v default : Value) : Value := if v.falsy then default else v

/-- The columns of a node in an import file; an absent key is `none`. -/
structure ImportNode where
  id : String
  given : NodeField → Option Value
  createdBy : String
  lastEditedBy : String

structure ImportEdge where
  fromNodeId : String
  toNodeId : String
  relationType : String
  weight : Rat
  note : String
  isMainline : Bool

structure ImportBlock where
  nodeId : String
  blockType : String
  content : Value
  orderIndex : Int

structure ImportFile where
  fields : ProjectField → Option Value
  rootNodeId : Option String
  nodes : List ImportNode
  edges : List ImportEdge
  blocks : List ImportBlock

def ImportNode.field (n : ImportNode) (c : NodeField) : Value :=
  match c with
  | .title => (n.given .title).getD (.text "")
  | .summary => NodeField.summary.stored ((n.given .summary).getD .null)
  | .nodeType | .status | .maturity | .priority | .confidence => c.stored ((n.given c).getD c.default)
  | .positionX | .positionY => if (n.given c).getD .null = .null then .int 0 else (n.given c).getD .null
  | c => ((n.given c).getD .null).or c.default

/-- `value or "import"` -/
def orImport (s : String) : String := if s = "" then "import" else s

def ImportFile.status (f : ImportFile) : Value := (f.fields .status).getD (.text "active")

def ImportFile.projectFields (f : ImportFile) : ProjectField → Value
  | .name => (f.fields .name).getD (.text "匯入的專案")
  | .status => ProjectField.status.stored f.status
  | .settings => (f.fields .settings).getD (.json "{}")
  | c => c.stored ((f.fields c).getD .null)

/-- The ids of the file with their new ids; of nodes with one id the last counts. -/
def ImportFile.idMap (f : ImportFile) (uuid : Nat → String) (x : String) : Option String :=
  (f.nodes.zipIdx.findRev? (fun n => decide (n.1.id = x))).map (fun n => uuid (n.2 + 1))

/-- The first mainline of a parent stays one. -/
def importEdges (projectId : String) (idMap : String → Option String) (uuid : Nat → String) :
    List (ImportEdge × Nat) → List String → List Edge
  | [], _ => []
  | (e, i) :: es, mainlines =>
    match idMap e.fromNodeId, idMap e.toNodeId with
    | some fromId, some toId =>
      let declared := e.isMainline && decide (e.relationType = "child_of")
      let isMainline := declared && decide (fromId ∉ mainlines)
      ⟨uuid i, projectId, fromId, toId, e.relationType, e.weight, e.note, isMainline, 1⟩ ::
        importEdges projectId idMap uuid es (if isMainline then fromId :: mainlines else mainlines)
    | _, _ => importEdges projectId idMap uuid es mainlines

def ImportFile.project (f : ImportFile) (uuid : Nat → String) : Project := ⟨uuid 0, none, f.projectFields, 1⟩

def ImportFile.newNodes (f : ImportFile) (uuid : Nat → String) : List Node :=
  f.nodes.zipIdx.map fun (n, i) => ⟨uuid (i + 1), uuid 0, none, n.field, orImport n.createdBy, orImport n.lastEditedBy, 1⟩

def ImportFile.newEdges (f : ImportFile) (uuid : Nat → String) : List Edge :=
  importEdges (uuid 0) (f.idMap uuid) (fun i => uuid (1 + f.nodes.length + i)) f.edges.zipIdx []

def ImportFile.newBlocks (f : ImportFile) (uuid : Nat → String) (now : Int) : List ContentBlock :=
  f.blocks.zipIdx.filterMap fun (b, i) => do
    let nodeId ← f.idMap uuid b.nodeId
    return ⟨uuid (1 + f.nodes.length + f.edges.length + i), nodeId, b.blockType, b.content, b.orderIndex, "human", now, 1⟩

def ImportFile.setRoot (f : ImportFile) (uuid : Nat → String) (g : Graph) : Except Err Graph :=
  match (truthy f.rootNodeId).bind (f.idMap uuid) with
  | none => .ok g
  | some root => flushProject (f.project uuid) { f.project uuid with rootNodeId := some root } g

/-- `_import_project_json_committed` -/
def importCommitted (uuid : Nat → String) (now : Int) (f : ImportFile) (g : Graph) : Except Err Graph := do
  let g ← insertProject (f.project uuid) g
  let g ← Fallible.each insertNode (f.newNodes uuid) g
  let g ← f.setRoot uuid g
  let g ← Fallible.each insertEdge (f.newEdges uuid) g
  Fallible.each insertBlock (f.newBlocks uuid now) g

/-- `import_project_json` -/
def importProjectJson (see : Nat → Graph) (uuid : Nat → String) (seats : Option Nat) (now : Int) (f : ImportFile)
    (g : Graph) : Except Err Graph :=
  if f.status ≠ .text "active" then importCommitted uuid now f g
  else do
    requireActiveProjectSeat seats 402 (see 0)
    importCommitted uuid now f g

/-! Branches -/

structure BranchCreate where
  expectedProjectRevision : Int
  sourceNodeId : String
  name : String
  description : String

/-- `create_branch` -/
def createBranch (see : Nat → Graph) (uuid : Nat → String) (now : Int) (projectId : String) (d : BranchCreate) (g : Graph) :
    Except Err Graph :=
  if ((see 0).projects.get projectId).isNone then .error (.http 404 "Project not found")
  else match (see 1).nodes.get d.sourceNodeId with
    | none => .error (.http 400 "Invalid source node")
    | some source =>
      if source.projectId ≠ projectId then .error (.http 400 "Invalid source node")
      else do
        let g ← claimProjectRevision projectId d.expectedProjectRevision g
        let load := fun x => if x = source.id then some source else g.nodes.get x
        deepCopyBranch (fun i => uuid (i + 1)) load projectId d.sourceNodeId d.name d.description (uuid 0) "branch" now g

def Node.toMain (n : Node) : Node := { n with branchId := none, revision := bumped n.revision }

theorem Node.toMain_key (n : Node) : n.toMain.id = n.id := rfl

def branchRoot (g : Graph) (branchId : String) : Option Node :=
  let inBranch := fun x => (g.nodes.get x).any (fun n => decide (n.branchId = some branchId))
  (g.nodes.rows.filter (fun n => decide (n.branchId = some branchId))).find? (fun n =>
    !g.edges.rows.any (fun e => e.isContainment && inBranch e.fromNodeId && decide (e.toNodeId = n.id)))

structure BranchMerge where
  targetNodeId : String
  expectedProjectRevision : Int
  expectedRevision : Int
  expectedTargetRevision : Int

/-- `merge_branch`; a target in the branch is refused as one that is not on the mainline. -/
def mergeBranch (see : Nat → Graph) (uuid : Nat → String) (branchId : String) (d : BranchMerge) (g : Graph) :
    Except Err Graph :=
  match (see 0).branches.get branchId with
  | none => .error (.http 404 "Branch not found")
  | some branch =>
    if branch.status ≠ .active then .error (.http 400 "Only active branches can be merged")
    else do
      let g ← claimProjectRevision branch.projectId d.expectedProjectRevision g
      checkEntityRevision "branch" branch.id branch.revision d.expectedRevision
      match g.nodes.get d.targetNodeId with
      | none => .error (.http 400 "Target node must be on this project mainline")
      | some target =>
        if target.projectId ≠ branch.projectId ∨ (truthy target.branchId).isSome then
          .error (.http 400 "Target node must be on this project mainline")
        else
          checkEntityRevision "node" target.id target.revision d.expectedTargetRevision
          match branchRoot g branchId with
          | none => .error (.http 400 "Cannot find branch root")
          | some root =>
            let g := { g with
              nodes := g.nodes.update (fun n => decide (n.branchId = some branchId)) Node.toMain Node.toMain_key }
            let oldEdge ← oneOrNone (g.parentEdges root.id)
            let g := deleteEdges (fun e => decide (some e.id = oldEdge.map Edge.id)) g
            let g ← insertChild (uuid 0) branch.projectId d.targetNodeId root.id g
            let g ← flushBranch branch { branch with status := .merged, revision := bumped branch.revision } g
            flushNode target { target with revision := bumped target.revision } g

/-- `archive_branch` -/
def archiveBranch (see : Nat → Graph) (branchId : String) (expectedProject expected : Int) (g : Graph) : Except Err Graph :=
  match (see 0).branches.get branchId with
  | none => .error (.http 404 "Branch not found")
  | some branch =>
    if branch.status ≠ .active then .error (.http 400 "Only active branches can be archived")
    else do
      let g ← claimProjectRevision branch.projectId expectedProject g
      checkEntityRevision "branch" branch.id branch.revision expected
      flushBranch branch { branch with status := .archived, revision := bumped branch.revision } g

/-! Artifacts -/

inductive ArtifactPayload where
  | createChild (title : String) (summary : Option Value) (nodeType : Option Value)
  | updateNode (changes : List (NodeField × Value))
  | createBlock (blockType : String) (content : Value)
  deriving DecidableEq, Repr

def artifactFields : List NodeField := [.title, .summary, .description, .maturity, .tags]

def applyArtifact (uuid : Nat → String) (now : Int) (target : Node) (payload : ArtifactPayload) (g : Graph) :
    Except Err Graph :=
  match payload with
  | .createChild title summary nodeType => do
    let fields := setFields [(.title, .text (strip title)), (.summary, NodeField.summary.stored (summary.getD (.text ""))),
      (.nodeType, NodeField.nodeType.stored (nodeType.getD (.text "idea")))] NodeField.default
    let g ← insertNode ⟨uuid 0, target.projectId, target.branchId, fields, "agent", "human", 1⟩ g
    let g ← insertChild (uuid 1) target.projectId target.id (uuid 0) g
    flushNode target { target with revision := bumped target.revision } g
  | .updateNode changes =>
    flushNode target { target with
      fields := setFields (changes.filter (fun c => c.1 ∈ artifactFields)) target.fields, lastEditedBy := "agent",
      revision := bumped target.revision } g
  | .createBlock blockType content => do
    let count := (g.blocks.rows.filter (fun b => decide (b.nodeId = target.id))).length
    let g ← insertBlock ⟨uuid 0, target.id, blockType, content, count, "agent", now, 1⟩ g
    flushNode target { target with revision := bumped target.revision } g

structure ArtifactReview where
  expectedProjectRevision : Option Int
  expectedNodeRevision : Option Int

/-- `approve_agent_artifact`, from the read of the target on; `projectId` is the project of the artifact. -/
def approveArtifact (see : Nat → Graph) (uuid : Nat → String) (now : Int) (projectId targetNodeId : String)
    (payload : ArtifactPayload) (d : ArtifactReview) (g : Graph) : Except Err Graph :=
  match (see 0).nodes.get targetNodeId with
  | none => .error (.http 400 "Artifact target is unavailable")
  | some target =>
    match d.expectedProjectRevision, d.expectedNodeRevision with
    | some expectedProject, some expectedNode => do
      let g ← claimProjectRevision projectId expectedProject g
      checkEntityRevision "node" target.id target.revision expectedNode
      applyArtifact uuid now target payload g
    | _, _ => .error (.http 422 "Artifact approval requires expected project and node revisions")

end GrowthMap.Canon
