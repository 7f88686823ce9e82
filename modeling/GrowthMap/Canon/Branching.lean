import GrowthMap.Canon.Types
import GrowthMap.Lib.Fallible

/- Branch creation: a copy of the containment subtree of a node, shared by the human routes
   and the agent port. -/
namespace GrowthMap.Canon

open Relational

/-- The order of the blocks of a node: `order_index`, then the given key, then `id`. -/
def blockLE (key : ContentBlock → Int) (a b : ContentBlock) : Bool :=
  decide (a.orderIndex < b.orderIndex ∨ a.orderIndex = b.orderIndex ∧
    (key a < key b ∨ key a = key b ∧ (a.id < b.id ∨ a.id = b.id)))

/-- The `child_of` edges of a project, as the copy reads them. -/
def projectContainment (g : Graph) (projectId : String) : List Edge :=
  g.edges.rows.filter (fun e => decide (e.projectId = projectId) && e.isContainment)

def subtreeOf (g : Graph) (projectId source : String) : List String :=
  let edges := projectContainment g projectId
  Forest.preorder (fun x => (edges.filter (fun e => decide (e.fromNodeId = x))).map Edge.toNodeId)
    (edges.length + 1) [source] []

/-- `deepcopy(value or [])` -/
def listOrEmpty : Value → Value
  | .null => .list []
  | v => v

def Node.copy (old : Node) (id branchId actor : String) : Node :=
  { id, projectId := old.projectId, branchId := some branchId,
    fields := fun c => match c with
      | .tags => listOrEmpty (old.fields .tags)
      | .filePaths => listOrEmpty (old.fields .filePaths)
      | c => c.stored (old.fields c),
    createdBy := actor, lastEditedBy := if old.lastEditedBy = "" then actor else old.lastEditedBy, revision := 1 }

def idMap (uuid : Nat → String) (subtree : List String) (x : String) : Option String :=
  (subtree.idxOf? x).map uuid

/-- What a copy writes after the branch: nodes, blocks and edges, with new ids. -/
def copiedNodes (uuid : Nat → String) (load : String → Option Node) (subtree : List String) (branchId actor : String) :
    List Node :=
  subtree.filterMap fun x => do
    let old ← load x
    let id ← idMap uuid subtree x
    return old.copy id branchId actor

def copiedBlocks (uuid : Nat → String) (g : Graph) (subtree : List String) (actor : String) (now : Int) : List ContentBlock :=
  let old := subtree.flatMap fun x =>
    (g.blocks.rows.filter (fun b => decide (b.nodeId = x))).mergeSort (blockLE (fun _ => 0))
  old.zipIdx.filterMap fun (b, i) => do
    let nodeId ← idMap uuid subtree b.nodeId
    return { b with id := uuid (subtree.length + i), nodeId, createdBy := actor, createdAt := now, revision := 1 }

def copiedEdges (uuid : Nat → String) (g : Graph) (projectId : String) (subtree : List String) : List Edge :=
  (projectContainment g projectId).zipIdx.filterMap fun (e, i) => do
    let fromNodeId ← idMap uuid subtree e.fromNodeId
    let toNodeId ← idMap uuid subtree e.toNodeId
    return { e with id := uuid (subtree.length + g.blocks.rows.length + i), fromNodeId, toNodeId, revision := 1 }

/-- `deep_copy_branch`; a node the session has loaded is not read again, `load` is the node as
the session holds it. -/
def deepCopyBranch (uuid : Nat → String) (load : String → Option Node)
    (projectId sourceNodeId name description branchId actor : String) (now : Int) (g : Graph) : Except Err Graph := do
  let invalidSource := Err.coded 422 "INVALID_SOURCE" "Branch source must exist in project"
  match load sourceNodeId with
  | none => .error invalidSource
  | some source =>
    if source.projectId ≠ projectId then .error invalidSource
    else
      let subtree := subtreeOf g projectId sourceNodeId
      if subtree.any (fun x => (g.nodes.get x).all (fun n => decide (n.projectId ≠ projectId))) then
        .error (.coded 422 "INVALID_SUBTREE" "Branch source subtree is inconsistent")
      else
        let copied ← insertBranch ⟨branchId, projectId, name, description, some sourceNodeId, .active, 1⟩ g
        let copied ← Fallible.each insertNode (copiedNodes uuid load subtree branchId actor) copied
        let copied ← Fallible.each insertBlock (copiedBlocks uuid g subtree actor now) copied
        Fallible.each insertEdge (copiedEdges uuid g projectId subtree) copied

end GrowthMap.Canon
