import GrowthMap.Canon.Branching

/- The human routes of the canonical graph.

   What a request reads before its claim it may read from an earlier state than the one it
   claims in: its reads are numbered, and `see i` is the state the read `i` sees. From the
   claim on it works on the state it commits. A row loaded before the claim is not loaded
   again: what is written of it is what the request changed in the copy it holds. -/
namespace GrowthMap.Canon

open Relational

/-! Nodes -/

def setFields (changes : List (NodeField × Value)) (f : NodeField → Value) : NodeField → Value :=
  changes.foldl (fun f c => Function.update f c.1 c.2) f

/-- `str.isspace` -/
def isSpace (c : Char) : Bool :=
  let n := c.toNat
  (decide (9 ≤ n ∧ n ≤ 13) || decide (28 ≤ n ∧ n ≤ 32) || decide (n = 133 ∨ n = 160 ∨ n = 5760) ||
    decide (8192 ≤ n ∧ n ≤ 8202) || decide (n = 8232 ∨ n = 8233 ∨ n = 8239 ∨ n = 8287 ∨ n = 12288))

/-- `str.strip` -/
def strip (s : String) : String :=
  String.ofList ((s.toList.dropWhile isSpace).reverse.dropWhile isSpace).reverse

/-- `auto_advance_maturity`: the maturity the node should have by its content. -/
def autoAdvanceMaturity (g : Graph) (n : Node) : Node :=
  have blocks := (g.blocks.rows.filter (fun b => decide (b.nodeId = n.id))).length
  have children := (g.childEdges n.id).length
  have summary := match n.fields .summary with
    | .text s => decide (10 < (strip s).toList.length)
    | _ => false
  have current := n.fields .maturity
  have new := if current = .text "seed" ∧ (summary = true ∨ 1 ≤ children) then Value.text "rough" else current
  have new := if (current = .text "seed" ∨ current = .text "rough") ∧ 1 ≤ blocks ∧ 1 ≤ children then .text "developing" else new
  have new := if (current = .text "seed" ∨ current = .text "rough" ∨ current = .text "developing") ∧ 3 ≤ blocks ∧ summary = true ∧
      2 ≤ children then .text "stable" else new
  { n with fields := Function.update n.fields .maturity new }

structure NodeCreate where
  expectedProjectRevision : Int
  expectedParentRevision : Option Int
  title : String
  summary : String
  nodeType : String
  parentId : Option String
  branchId : Option String
  description : String
  tags : List String

def loadParent (see : Nat → Graph) (projectId : String) (d : NodeCreate) : Except Err (Option Node) :=
  match truthy d.parentId with
  | none => .ok none
  | some parentId =>
    match (see 1).nodes.get parentId with
    | none => .error (.http 400 "Invalid parent node")
    | some parent =>
      if parent.projectId ≠ projectId then .error (.http 400 "Invalid parent node")
      else if d.expectedParentRevision ≠ some (orOne parent.revision) then
        .error (.revisionConflict "node" parent.id (d.expectedParentRevision.getD 0) (some (orOne parent.revision)))
      else if truthy parent.branchId ≠ truthy d.branchId then
        .error (.http 400 "Parent and child must belong to the same branch")
      else .ok (some parent)

def checkActiveBranch (g : Graph) (projectId : String) (branchId : Option String) : Except Err Unit :=
  match truthy branchId with
  | none => .ok ()
  | some b =>
    match g.branches.get b with
    | none => .error (.http 400 "Invalid active branch")
    | some branch =>
      if branch.projectId ≠ projectId ∨ branch.status ≠ .active then .error (.http 400 "Invalid active branch") else .ok ()

/-- A `child_of` edge to a node; the first child of a parent is its mainline. -/
def insertChild (edgeId projectId parentId childId : String) (g : Graph) : Except Err Graph :=
  insertEdge ⟨edgeId, projectId, parentId, childId, "child_of", 1, "", decide ((g.childEdges parentId).length = 0), 1⟩ g

/-- `create_node` -/
def createNode (see : Nat → Graph) (uuid : Nat → String) (projectId : String) (d : NodeCreate) (g : Graph) :
    Except Err Graph := do
  if ((see 0).projects.get projectId).isNone then .error (.http 404 "Project not found")
  else
    let parent ← loadParent see projectId d
    let g ← claimProjectRevision projectId d.expectedProjectRevision g
    checkActiveBranch g projectId d.branchId
    let fields := setFields [(.title, .text d.title), (.summary, .text d.summary), (.nodeType, .text d.nodeType),
      (.description, .text d.description), (.tags, .list d.tags)] NodeField.default
    let g ← insertNode ⟨uuid 0, projectId, d.branchId, fields, "human", "human", 1⟩ g
    match parent with
    | none => .ok g
    | some parent =>
      let g ← insertChild (uuid 1) projectId parent.id (uuid 0) g
      flushNode parent { autoAdvanceMaturity g parent with revision := bumped parent.revision } g

structure NodeUpdate where
  expectedProjectRevision : Int
  expectedRevision : Int
  changes : List (NodeField × Value)

/-- `update_node` -/
def updateNode (see : Nat → Graph) (nodeId : String) (d : NodeUpdate) (g : Graph) : Except Err Graph :=
  match (see 0).nodes.get nodeId with
  | none => .error (.http 404 "Node not found")
  | some node => do
    let g ← claimProjectRevision node.projectId d.expectedProjectRevision g
    checkEntityRevision "node" node.id node.revision d.expectedRevision
    let edited := { node with
      fields := setFields d.changes node.fields, lastEditedBy := "human", revision := bumped node.revision }
    flushNode node (autoAdvanceMaturity g edited) g

/-! Closures of containment -/

/-- What differs between the two walks that check a closure: the targets that may not be
in it, its size, the edges its root may have into it, and the errors. -/
structure ClosureRules where
  projectId : String
  branchId : Option String
  forbidden : String → Bool
  limit : Option Nat
  rootParents : Nat
  source : Err
  edge : Err
  inbound : Err
  rootOwner : Err
  owner : Err
  tooLarge : Err

def ClosureRules.own (r : ClosureRules) (n : Node) : Bool :=
  decide (n.projectId = r.projectId ∧ n.branchId = r.branchId)

/-- The edges out of one level, one by one; the targets so far with their sources. An edge
leaves one level only, so that its id is not remembered. -/
def closureEdges (r : ClosureRules) (g : Graph) (out : List String) :
    List Edge → List (String × String) → Except Err (List (String × String))
  | [], parents => .ok parents
  | e :: es, parents =>
    if e.toNodeId ∈ parents.map Prod.fst ∨ e.toNodeId ∈ out ∨ e.projectId ≠ r.projectId ∨
        (g.nodes.get e.toNodeId).all (fun n => !r.own n) ∨ r.forbidden e.toNodeId then .error r.edge
    else closureEdges r g out es (parents ++ [(e.toNodeId, e.fromNodeId)])

def closureLevels (r : ClosureRules) (g : Graph) :
    Nat → List String → List String → List (String × String) → Except Err (List String × List (String × String))
  | 0, _, _, _ => .error r.tooLarge
  | n + 1, frontier, out, parents =>
    if frontier.isEmpty then .ok (out, parents)
    else if frontier.any (fun x => (g.nodes.get x).all (fun n => !r.own n)) then .error r.source
    else do
      let edges := g.edges.rows.filter (fun e => e.isContainment && decide (e.fromNodeId ∈ frontier))
      let parents ← closureEdges r g out edges parents
      let targets := edges.map Edge.toNodeId
      let out := out ++ targets
      if r.limit.any (fun limit => decide (limit < out.length)) then .error r.tooLarge
      else closureLevels r g n targets out parents

/-- Every edge into the closure: its source, and that each node but the root has just the
one edge by which it was found. -/
def closureOwners (r : ClosureRules) (g : Graph) (root : String) (out : List String) (parents : List (String × String)) :
    Except Err Unit :=
  let inbound := g.edges.rows.filter (fun e => e.isContainment && decide (e.toNodeId ∈ out))
  if inbound.any (fun e => decide (e.projectId ≠ r.projectId) || (g.nodes.get e.fromNodeId).all (fun n => !r.own n)) then
    .error r.inbound
  else if r.rootParents < (inbound.filter (fun e => decide (e.toNodeId = root))).length then .error r.rootOwner
  else if out.any (fun x => decide (x ≠ root) &&
      match inbound.filter (fun e => decide (e.toNodeId = x)) with
      | [e] => decide (parents.lookup x ≠ some e.fromNodeId)
      | _ => true) then .error r.owner
  else .ok ()

def closure (r : ClosureRules) (g : Graph) (root : String) : Except Err (List String) := do
  let (out, parents) ← closureLevels r g (g.edges.rows.length + 2) [root] [root] []
  closureOwners r g root out parents
  return out

/-- `validate_closure` of `delete_node` -/
def validateClosure (g : Graph) (node : Node) : Except Err (List String) :=
  closure { projectId := node.projectId, branchId := node.branchId,
            forbidden := fun x => g.projects.rows.any (fun p => decide (p.rootNodeId = some x)),
            limit := none, rootParents := 1,
            source := .http 409 "Subtree containment boundary is invalid",
            edge := .http 409 "Subtree containment crosses a boundary or is not a tree",
            inbound := .http 409 "Subtree incoming ownership boundary is invalid",
            rootOwner := .http 409 "Subtree root has invalid ownership",
            owner := .http 409 "Subtree descendant has invalid ownership",
            tooLarge := .http 409 "Subtree containment crosses a boundary or is not a tree" } g node.id

/-- `delete_node` -/
def deleteNode (see : Nat → Graph) (nodeId : String) (expectedProject expected : Int) (g : Graph) : Except Err Graph :=
  match (see 0).nodes.get nodeId with
  | none => .error (.http 404 "Node not found")
  | some node =>
    if ((see 1).projects.get node.projectId).any (fun p => decide (p.rootNodeId = some nodeId)) then
      .error (.http 409 "Cannot delete the project root node")
    else do
      checkEntityRevision "node" node.id node.revision expected
      let _ ← validateClosure (see 2) node
      let g ← claimProjectRevision node.projectId expectedProject g
      let subtree ← validateClosure g node
      let g := deleteEdges (fun e => decide (e.fromNodeId ∈ subtree ∨ e.toNodeId ∈ subtree)) g
      return deleteNodes subtree g

/-! Edges -/

def graphRelationTypes : List String :=
  ["depends_on", "contradicts", "references", "supports", "blocks", "relates_to", "decomposes", "interfaces_with",
    "supersedes", "validates"]

def Edge.demote (e : Edge) : Edge := { e with isMainline := false, revision := bumped e.revision }

/-- `demote_mainline_siblings` -/
def demoteMainlineSiblings (parentId : String) (except_ : Option String) (g : Graph) : Except Err Graph :=
  Fallible.each (fun e => flushEdge e e.demote)
    (g.edges.rows.filter (fun e => decide (e.fromNodeId = parentId) && e.isContainment && e.isMainline &&
      decide (some e.id ≠ except_))) g

structure EdgeCreate where
  expectedProjectRevision : Int
  fromNodeId : String
  toNodeId : String
  relationType : String
  weight : Rat
  note : String
  isMainline : Bool

/-- `create_edge` -/
def createEdge (see : Nat → Graph) (uuid : Nat → String) (d : EdgeCreate) (g : Graph) : Except Err Graph :=
  match (see 0).nodes.get d.fromNodeId, (see 1).nodes.get d.toNodeId with
  | some source, some target =>
    if source.projectId ≠ target.projectId then .error (.http 400 "Nodes must be in same project")
    else if d.fromNodeId = d.toNodeId then .error (.http 400 "Cannot create a self-relation")
    else if d.relationType ≠ "child_of" ∧ d.relationType ∉ graphRelationTypes then
      .error (.http 400 "Unsupported graph relation type")
    else do
      let duplicate ← oneOrNone ((see 2).edges.rows.filter (fun e => decide (e.fromNodeId = d.fromNodeId ∧
        e.toNodeId = d.toNodeId ∧ e.relationType = d.relationType)))
      if duplicate.isSome then .error (.http 409 "Duplicate relation")
      else
        let g ← claimProjectRevision source.projectId d.expectedProjectRevision g
        let g ← if d.isMainline ∧ d.relationType = "child_of" then demoteMainlineSiblings d.fromNodeId none g else .ok g
        insertEdge ⟨uuid 0, source.projectId, d.fromNodeId, d.toNodeId, d.relationType, d.weight, d.note, d.isMainline, 1⟩ g
  | _, _ => .error (.http 400 "Invalid node id")

structure EdgeUpdate where
  expectedProjectRevision : Int
  expectedRevision : Int
  weight : Option Rat
  note : Option String

/-- `update_edge` -/
def updateEdge (see : Nat → Graph) (edgeId : String) (d : EdgeUpdate) (g : Graph) : Except Err Graph :=
  match (see 0).edges.get edgeId with
  | none => .error (.http 404 "Edge not found")
  | some edge =>
    if edge.isContainment then .error (.http 400 "Tree parent relations cannot be edited as graph relations")
    else do
      let g ← claimProjectRevision edge.projectId d.expectedProjectRevision g
      checkEntityRevision "edge" edge.id edge.revision d.expectedRevision
      if d.weight = none ∧ d.note = none then .error (.http 400 "No edge fields provided")
      else if d.weight.any (fun w => decide (w < 0 ∨ 1 < w)) then .error (.http 400 "Weight must be between 0 and 1")
      else if d.note.any (fun n => decide (2000 < n.toList.length)) then .error (.http 400 "Note is too long")
      else
        flushEdge edge { edge with
          weight := d.weight.getD edge.weight, note := d.note.getD edge.note, revision := bumped edge.revision } g

def promote (edge : Edge) (expectedProject expected : Int) (g : Graph) : Except Err Graph := do
  let g ← claimProjectRevision edge.projectId expectedProject g
  checkEntityRevision "edge" edge.id edge.revision expected
  let g ← demoteMainlineSiblings edge.fromNodeId (some edge.id) g
  flushEdge edge { edge with isMainline := true, revision := bumped edge.revision } g

/-- `promote_mainline` -/
def promoteMainline (see : Nat → Graph) (edgeId : String) (expectedProject expected : Int) (g : Graph) : Except Err Graph :=
  match (see 0).edges.get edgeId with
  | none => .error (.http 404 "Edge not found")
  | some edge =>
    if !edge.isContainment then .error (.http 400 "Only child_of edges can be promoted")
    else promote edge expectedProject expected g

/-- `promote_child_mainline` -/
def promoteChildMainline (see : Nat → Graph) (parentId childId : String) (expectedProject expected : Int) (g : Graph) :
    Except Err Graph := do
  let found ← oneOrNone (((see 0).childEdges parentId).filter (fun e => decide (e.toNodeId = childId)))
  match found with
  | none => .error (.http 404 "Edge not found")
  | some edge => promote edge expectedProject expected g

/-- `delete_edge` -/
def deleteEdge (see : Nat → Graph) (edgeId : String) (expectedProject expected : Int) (g : Graph) : Except Err Graph :=
  match (see 0).edges.get edgeId with
  | none => .error (.http 404 "Edge not found")
  | some edge =>
    if edge.isContainment then .error (.http 400 "Tree parent relations must be changed through node move actions")
    else do
      let g ← claimProjectRevision edge.projectId expectedProject g
      checkEntityRevision "edge" edge.id edge.revision expected
      return deleteEdges (fun e => decide (e.id = edge.id)) g

/-! Moves -/

structure NodeMove where
  newParentId : String
  expectedProjectRevision : Int
  expectedRevision : Int
  expectedNewParentRevision : Int
  expectedOldParentRevision : Option Int

/-- The rows a move loads before its claim: the node, its new parent, the edge into it and
its old parent. -/
structure Loaded where
  node : Node
  newParent : Node
  oldEdge : Option Edge
  oldParent : Option Node

def checkMove (l : Loaded) (d : NodeMove) : Except Err Unit := do
  checkEntityRevision "node" l.node.id l.node.revision d.expectedRevision
  checkEntityRevision "node" l.newParent.id l.newParent.revision d.expectedNewParentRevision
  match l.oldParent with
  | none => .ok ()
  | some oldParent =>
    match d.expectedOldParentRevision with
    | none => .error (.http 422 "expected_old_parent_revision is required")
    | some expected => checkEntityRevision "node" oldParent.id oldParent.revision expected

/-- The reads of a move; the two routes differ in their errors. -/
def loadMove (root missing : Err) (foreign : Err) (see : Nat → Graph) (nodeId : String) (d : NodeMove) : Except Err Loaded :=
  match (see 0).nodes.get nodeId with
  | none => .error (.http 404 "Node not found")
  | some node =>
    if ((see 1).projects.get node.projectId).any (fun p => decide (p.rootNodeId = some nodeId)) then .error root
    else match (see 2).nodes.get d.newParentId with
      | none => .error missing
      | some newParent =>
        if newParent.projectId ≠ node.projectId then .error foreign
        else do
          let oldEdge ← oneOrNone ((see 3).parentEdges nodeId)
          return ⟨node, newParent, oldEdge, oldEdge.bind (fun e => (see 4).nodes.get e.fromNodeId)⟩

/-- `TouchedEntities.apply`: each loaded node once. -/
def touchAll : List Node → Graph → Except Err Graph :=
  Fallible.each (fun n => flushNode n { n with revision := bumped n.revision })

def replaceParent (uuid : Nat → String) (l : Loaded) (g : Graph) : Except Err Graph := do
  let g := deleteEdges (fun e => decide (some e.id = l.oldEdge.map Edge.id)) g
  let g ← insertChild (uuid 0) l.node.projectId l.newParent.id l.node.id g
  -- one object for each id
  let touched := l.node :: ((l.oldParent.toList ++ [l.newParent]).filter (fun n => decide (n.id ≠ l.node.id)))
  touchAll (touched.pwFilter (fun a b => a.id ≠ b.id)) g

/-- `move_node` -/
def moveNode (see : Nat → Graph) (uuid : Nat → String) (nodeId : String) (d : NodeMove) (g : Graph) : Except Err Graph := do
  let l ← loadMove (.http 400 "Cannot move root node") (.http 404 "New parent not found")
    (.http 400 "Cannot move node to a different project") see nodeId d
  checkMove l d
  let g ← claimProjectRevision l.node.projectId d.expectedProjectRevision g
  if d.newParentId ∈ g.descendants nodeId then
    .error (.http 400 "Cannot move node under its own descendant (would create cycle)")
  else replaceParent uuid l g

/-- `reparent_node`: the same move, and a node cannot be its own parent. -/
def reparentNode (see : Nat → Graph) (uuid : Nat → String) (nodeId : String) (d : NodeMove) (g : Graph) :
    Except Err Graph := do
  let l ← loadMove (.http 400 "Cannot reparent root node") (.http 400 "Invalid new parent") (.http 400 "Invalid new parent")
    see nodeId d
  checkMove l d
  let g ← claimProjectRevision l.node.projectId d.expectedProjectRevision g
  if d.newParentId ∈ g.descendants nodeId ∨ d.newParentId = nodeId then
    .error (.http 400 "Cannot reparent under descendant (cycle)")
  else replaceParent uuid l g

end GrowthMap.Canon
