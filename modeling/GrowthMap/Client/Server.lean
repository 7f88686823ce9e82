import GrowthMap.Client.Types

/- The answers of the server: the reads the client makes of the graph, and the routes of the
   graph it writes with. A request is answered on one state of the graph, alone. -/
namespace GrowthMap.Client

open Canon (Graph Node Project Branch ContentBlock Edge NodeField Value Err orOne truthy)

/-! Trees -/

def treeField (c : NodeField) (v : Value) : Value :=
  match c with
  | .title | .summary | .nodeType | .status | .maturity => v
  | .priority | .positionX | .positionY => if v = .null then .int 0 else v
  | .confidence => if v = .null then .real (1 / 2) else v
  | .description | .rulesText | .constraintsText | .examplesText | .questionsText | .decisionNotes => v.or (.text "")
  | .workflowStatus => v.or (.text "draft")
  | .tags | .filePaths => v.or (.list [])

def view (n : Node) (contentBlocks : List ContentBlock) (edgeRevision : Option Int) : NodeView where
  id := n.id
  projectId := n.projectId
  branchId := truthy n.branchId
  fields := fun c => treeField c (n.fields c)
  createdBy := n.createdBy
  lastEditedBy := n.lastEditedBy
  contentBlocks
  edgeRevision
  isMainline := none
  revision := orOne n.revision

/-- The `child_of` edges of a project. -/
def containmentOf (g : Graph) (projectId : String) : List Edge :=
  g.edges.rows.filter (fun e => decide (e.projectId = projectId) && e.isContainment)

/-- `edge_meta`: of several edges to a node the last counts. -/
def edgeRevision (g : Graph) (projectId nodeId : String) : Option Int :=
  ((containmentOf g projectId).findRev? (fun e => decide (e.toNodeId = nodeId))).map (fun e => orOne e.revision)

def blocksOf (g : Graph) (nodeId : String) : List ContentBlock :=
  (g.blocks.rows.filter (fun b => decide (b.nodeId = nodeId))).mergeSort (fun a b => decide (a.orderIndex ≤ b.orderIndex))

def childNodes (g : Graph) (projectId nodeId : String) : List Node :=
  ((containmentOf g projectId).filter (fun e => decide (e.fromNodeId = nodeId))).filterMap (fun e => g.nodes.get e.toNodeId)

/-- `build_tree` of `get_subtree`, with the levels that are left; the nodes within ten levels are loaded. -/
def buildTree (g : Graph) (projectId : String) : Nat → Node → GNode
  | 0, n => .node (view n (blocksOf g n.id) (edgeRevision g projectId n.id)) []
  | levels + 1, n =>
    .node (view n (blocksOf g n.id) (edgeRevision g projectId n.id))
      ((childNodes g projectId n.id).map (buildTree g projectId levels))

/-- `get_subtree` -/
def getSubtree (nodeId : String) (g : Graph) : Except Err GNode :=
  match g.nodes.get nodeId with
  | none => .error (.http 404 "Node not found")
  | some node => .ok (buildTree g node.projectId 10 node)

def inBranch (g : Graph) (branch : Branch) (nodeId : String) : Option Node :=
  (g.nodes.get nodeId).filter (fun n => decide (n.branchId = some branch.id ∧ n.projectId = branch.projectId))

def branchEdges (g : Graph) (branch : Branch) : List Edge :=
  (containmentOf g branch.projectId).filter (fun e => (inBranch g branch e.fromNodeId).isSome)

/-- `build_tree` of `get_branch_subtree`; a walk longer than the branch has run into a cycle. -/
def buildBranchTree (g : Graph) (branch : Branch) : Nat → Node → Except Err GNode
  | 0, _ => .error (.http 500 "Internal Server Error")
  | levels + 1, n => do
    let targets := ((branchEdges g branch).filter (fun e => decide (e.fromNodeId = n.id))).filterMap
      (fun e => inBranch g branch e.toNodeId)
    let children ← targets.mapM (buildBranchTree g branch levels)
    return .node (view n [] none) children

/-- `get_branch_subtree`: its root is the first node of the branch without a parent in it. -/
def getBranchSubtree (branchId : String) (g : Graph) : Except Err (Option GNode) :=
  match g.branches.get branchId with
  | none => .error (.http 404 "Branch not found")
  | some branch =>
    let nodes := g.nodes.rows.filter (fun n => (inBranch g branch n.id).isSome)
    match nodes.find? (fun n => decide (n.id ∉ (branchEdges g branch).map Edge.toNodeId)) with
    | none => .ok none
    | some root => (buildBranchTree g branch (nodes.length + 1) root).map some

/-! Lists -/

/-- `list_branches`: the active branches, the latest first. -/
def listBranches (projectId : String) (g : Graph) : Except Err (List Branch) :=
  match g.projects.get projectId with
  | none => .error (.http 404 "Project not found")
  | some _ =>
    .ok (g.branches.rows.filter (fun b => decide (b.projectId = projectId ∧ b.status = .active))).reverse

/-! Answers -/

def HttpRequest.route : HttpRequest → Option Canon.Request
  | .listProjects | .subtree _ | .listBranches _ | .branchSubtree _ => none
  | .createNode projectId d => some (.createNode projectId d)
  | .updateNode nodeId d => some (.updateNode nodeId d)
  | .deleteNode nodeId expectedProject expected => some (.deleteNode nodeId expectedProject expected)
  | .promoteChild parentId childId expectedProject expected => some (.promoteChildMainline parentId childId expectedProject expected)
  | .reparent nodeId d => some (.reparentNode nodeId d)
  | .createBranch projectId d => some (.createBranch projectId d)
  | .archiveBranch branchId expectedProject expected => some (.archiveBranch branchId expectedProject expected)
  | .mergeBranch branchId d => some (.mergeBranch branchId d)
  | .createBlock nodeId d => some (.createBlock nodeId d)

def written (uuid : Nat → Nat → String) (g : Graph) : HttpRequest → Reply
  | .createNode _ d =>
    match g.nodes.get (uuid 0 0) with
    | none => .done
    | some node => .node {
        node
        authoritativeProjectRevision := some (d.expectedProjectRevision + 1)
        authoritativeParent := (truthy d.parentId).bind (fun x => (g.nodes.get x).map (fun parent => (x, parent.revision))) }
  | .updateNode nodeId _ =>
    match g.nodes.get nodeId with
    | none => .done
    | some node => .node ⟨node, none, none⟩
  | .createBranch .. => (g.branches.get (uuid 0 0)).elim .done .branch
  | .createBlock .. => (g.blocks.get (uuid 0 0)).elim .done .block
  | .deleteNode .. | .promoteChild .. | .reparent .. | .archiveBranch .. | .mergeBranch .. => .done
  | .listProjects | .subtree _ | .listBranches _ | .branchSubtree _ => .done

def serve (uuid : Nat → Nat → String) (now : Int) (r : HttpRequest) (g : Graph) : Graph × Except Err Reply :=
  match r with
  | .listProjects => (g, .ok (.projects g.projects.rows))
  | .subtree nodeId => (g, (getSubtree nodeId g).map .tree)
  | .listBranches projectId => (g, (listBranches projectId g).map .branches)
  | .branchSubtree branchId => (g, (getBranchSubtree branchId g).map .branchTree)
  | r =>
    match r.route with
    | none => (g, .ok .done)
    | some route =>
      match route.run (fun _ => g) uuid now g with
      | .ok g' => (g', .ok (written uuid g' r))
      | .error e => (g, .error e)

end GrowthMap.Client
