import GrowthMap.Canon.Batch

/- The requests that write the canonical graph, as one type. -/
namespace GrowthMap.Canon

open Relational

inductive Request where
  | createNode (projectId : String) (d : NodeCreate)
  | updateNode (nodeId : String) (d : NodeUpdate)
  | deleteNode (nodeId : String) (expectedProject expected : Int)
  | createEdge (d : EdgeCreate)
  | updateEdge (edgeId : String) (d : EdgeUpdate)
  | promoteMainline (edgeId : String) (expectedProject expected : Int)
  | promoteChildMainline (parentId childId : String) (expectedProject expected : Int)
  | deleteEdge (edgeId : String) (expectedProject expected : Int)
  | moveNode (nodeId : String) (d : NodeMove)
  | reparentNode (nodeId : String) (d : NodeMove)
  | createBlock (nodeId : String) (d : BlockCreate)
  | updateBlock (blockId : String) (d : BlockUpdate)
  | deleteBlock (blockId : String) (expectedProject expectedNode expected : Int)
  | createProject (seats : Option Nat) (d : ProjectCreate)
  | updateProject (seats : Option Nat) (projectId : String) (expectedProject : Int) (changes : List (ProjectField × Value))
  | deleteProject (projectId : String) (expectedProject : Int)
  | importProject (seats : Option Nat) (f : ImportFile)
  | createBranch (projectId : String) (d : BranchCreate)
  | mergeBranch (branchId : String) (d : BranchMerge)
  | archiveBranch (branchId : String) (expectedProject expected : Int)
  | approveArtifact (targetNodeId : String) (payload : ArtifactPayload) (d : ArtifactReview)
  | batch (grant : Grant) (actor : String) (body : Batch)

def Graph.projectOf (g : Graph) (x : String) : String := ((g.nodes.get x).map Node.projectId).getD ""

/-- A request is run: `see` are the states its reads before the claim see, `g` is the state it
claims in. The project of an artifact is that of its target, which its creation checks. -/
def Request.run (see : Nat → Graph) (uuid : Nat → Nat → String) (now : Int) (r : Request) (g : Graph) : Except Err Graph :=
  match r with
  | .createNode projectId d => Canon.createNode see (uuid 0) projectId d g
  | .updateNode nodeId d => Canon.updateNode see nodeId d g
  | .deleteNode nodeId expectedProject expected => Canon.deleteNode see nodeId expectedProject expected g
  | .createEdge d => Canon.createEdge see (uuid 0) d g
  | .updateEdge edgeId d => Canon.updateEdge see edgeId d g
  | .promoteMainline edgeId expectedProject expected => Canon.promoteMainline see edgeId expectedProject expected g
  | .promoteChildMainline parentId childId expectedProject expected =>
    Canon.promoteChildMainline see parentId childId expectedProject expected g
  | .deleteEdge edgeId expectedProject expected => Canon.deleteEdge see edgeId expectedProject expected g
  | .moveNode nodeId d => Canon.moveNode see (uuid 0) nodeId d g
  | .reparentNode nodeId d => Canon.reparentNode see (uuid 0) nodeId d g
  | .createBlock nodeId d => Canon.createBlock see (uuid 0) now nodeId d g
  | .updateBlock blockId d => Canon.updateBlock see blockId d g
  | .deleteBlock blockId expectedProject expectedNode expected =>
    Canon.deleteBlock see blockId expectedProject expectedNode expected g
  | .createProject seats d => Canon.createProject see (uuid 0) seats d g
  | .updateProject seats projectId expectedProject changes => Canon.updateProject see seats projectId expectedProject changes g
  | .deleteProject projectId expectedProject => Canon.deleteProject see projectId expectedProject g
  | .importProject seats f => importProjectJson see (uuid 0) seats now f g
  | .createBranch projectId d => Canon.createBranch see (uuid 0) now projectId d g
  | .mergeBranch branchId d => Canon.mergeBranch see (uuid 0) branchId d g
  | .archiveBranch branchId expectedProject expected => Canon.archiveBranch see branchId expectedProject expected g
  | .approveArtifact targetNodeId payload d =>
    Canon.approveArtifact see (uuid 0) now ((see 0).projectOf targetNodeId) targetNodeId payload d g
  | .batch grant actor body => do
    let (g, _, _) ← applyOperations see uuid now grant actor body g
    return g

def Request.claim (see : Nat → Graph) : Request → Option (String × Int)
  | .createNode projectId d => some (projectId, d.expectedProjectRevision)
  | .updateNode nodeId d => ((see 0).nodes.get nodeId).map (fun n => (n.projectId, d.expectedProjectRevision))
  | .deleteNode nodeId expectedProject _ => ((see 0).nodes.get nodeId).map (fun n => (n.projectId, expectedProject))
  | .createEdge d => ((see 0).nodes.get d.fromNodeId).map (fun n => (n.projectId, d.expectedProjectRevision))
  | .updateEdge edgeId d => ((see 0).edges.get edgeId).map (fun e => (e.projectId, d.expectedProjectRevision))
  | .promoteMainline edgeId expectedProject _ | .deleteEdge edgeId expectedProject _ =>
    ((see 0).edges.get edgeId).map (fun e => (e.projectId, expectedProject))
  | .promoteChildMainline parentId childId expectedProject _ =>
    (((see 0).childEdges parentId).find? (fun e => decide (e.toNodeId = childId))).map (fun e => (e.projectId, expectedProject))
  | .moveNode nodeId d | .reparentNode nodeId d =>
    ((see 0).nodes.get nodeId).map (fun n => (n.projectId, d.expectedProjectRevision))
  | .createBlock nodeId d => ((see 0).nodes.get nodeId).map (fun n => (n.projectId, d.expectedProjectRevision))
  | .updateBlock blockId d =>
    (((see 0).blocks.get blockId).bind (fun b => (see 1).nodes.get b.nodeId)).map
      (fun n => (n.projectId, d.expectedProjectRevision))
  | .deleteBlock blockId expectedProject _ _ =>
    (((see 0).blocks.get blockId).bind (fun b => (see 1).nodes.get b.nodeId)).map (fun n => (n.projectId, expectedProject))
  | .createProject .. | .importProject .. => none
  | .updateProject _ projectId expectedProject _ | .deleteProject projectId expectedProject => some (projectId, expectedProject)
  | .createBranch projectId d => some (projectId, d.expectedProjectRevision)
  | .mergeBranch branchId d => ((see 0).branches.get branchId).map (fun b => (b.projectId, d.expectedProjectRevision))
  | .archiveBranch branchId expectedProject _ => ((see 0).branches.get branchId).map (fun b => (b.projectId, expectedProject))
  | .approveArtifact targetNodeId _ d =>
    ((see 0).nodes.get targetNodeId).bind (fun n => d.expectedProjectRevision.map (fun r => (n.projectId, r)))
  | .batch grant _ body => some (grant.projectId, body.expectedProjectRevision.val)

/-! Stated revisions -/

inductive Entity where
  | node (id : String)
  | edge (id : String)
  | block (id : String)
  | branch (id : String)
  deriving DecidableEq, Repr

def Graph.revisionOf (g : Graph) : Entity → Option Int
  | .node x => (g.nodes.get x).map (fun n => orOne n.revision)
  | .edge x => (g.edges.get x).map (fun e => orOne e.revision)
  | .block x => (g.blocks.get x).map (fun b => orOne b.revision)
  | .branch x => (g.branches.get x).map (fun b => orOne b.revision)

def oldParentOf (g : Graph) (nodeId : String) (expected : Option Int) : List (Entity × Int) :=
  ((g.parentEdges nodeId).map Edge.fromNodeId).flatMap (fun x => expected.toList.map (fun r => (.node x, r)))

def ownerNode (g : Graph) (blockId : String) (expected : Int) : List (Entity × Int) :=
  ((g.blocks.get blockId).map (fun b => (Entity.node b.nodeId, expected))).toList

/-- The entities whose revision a request states. What is not named by its id is what the request read. -/
def Request.stated (see : Nat → Graph) : Request → List (Entity × Int)
  | .createNode _ d => (truthy d.parentId).toList.flatMap (fun x => d.expectedParentRevision.toList.map (fun r => (.node x, r)))
  | .updateNode x d => [(.node x, d.expectedRevision)]
  | .deleteNode x _ expected => [(.node x, expected)]
  | .updateEdge x d => [(.edge x, d.expectedRevision)]
  | .promoteMainline x _ expected | .deleteEdge x _ expected => [(.edge x, expected)]
  | .promoteChildMainline parentId childId _ expected =>
    (((see 0).childEdges parentId).filter (fun e => decide (e.toNodeId = childId))).map (fun e => (.edge e.id, expected))
  | .moveNode x d | .reparentNode x d =>
    [(.node x, d.expectedRevision), (.node d.newParentId, d.expectedNewParentRevision)] ++
      oldParentOf (see 3) x d.expectedOldParentRevision
  | .createBlock x d => [(.node x, d.expectedNodeRevision)]
  | .updateBlock x d => (.block x, d.expectedRevision) :: ownerNode (see 0) x d.expectedNodeRevision
  | .deleteBlock x _ expectedNode expected => (.block x, expected) :: ownerNode (see 0) x expectedNode
  | .mergeBranch x d => [(.branch x, d.expectedRevision), (.node d.targetNodeId, d.expectedTargetRevision)]
  | .archiveBranch x _ expected => [(.branch x, expected)]
  | .approveArtifact x _ d => d.expectedNodeRevision.toList.map (fun r => (.node x, r))
  | .batch _ _ body => (body.operations.flatMap Op.expectations).map (fun x => (.node x.1, x.2.val))
  | .createEdge _ | .createProject .. | .updateProject .. | .deleteProject .. | .importProject .. | .createBranch .. => []

end GrowthMap.Canon
