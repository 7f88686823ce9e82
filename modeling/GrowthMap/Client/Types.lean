import GrowthMap.Canon.Requests
import GrowthMap.Lib.Rose

/- What the browser client knows: the trees it shows, the store, and the revisions its API
   client remembers of the answers it got.

   Projects and branches are shown as their rows. What is only drawn (the selection, the
   search, loading flags, toasts) is left out, and so are the maps of the request cache that
   no action of the store reads. -/
namespace GrowthMap.Client

open Canon (Graph Node Project Branch ContentBlock NodeField ProjectField Value truthy)

/-! Trees -/

/-- A `GNode`, without its children. -/
structure NodeView where
  id : String
  projectId : String
  branchId : Option String
  fields : NodeField → Value
  createdBy : String
  lastEditedBy : String
  contentBlocks : List ContentBlock
  /-- `meta.edge_revision` -/
  edgeRevision : Option Int
  isMainline : Option Bool
  revision : Int

abbrev GNode := Rose NodeView

def hasId (id : String) (v : NodeView) : Bool := decide (v.id = id)

/-- `findNode` -/
def findNode (node : GNode) (id : String) : Option GNode := node.find? (hasId id)

/-- `insertChild` -/
def insertChild (root : GNode) (parentId : String) (child : GNode) : GNode :=
  root.alter (hasId parentId) (fun s => .node s.label (s.children ++ [child]))

/-- `removeNode` -/
def removeNode (root : GNode) (nodeId : String) : GNode := root.prune (hasId nodeId)

/-- `patchNode` -/
def patchNode (root : GNode) (nodeId : String) (patch : NodeView → NodeView) : GNode :=
  root.alter (hasId nodeId) (fun s => .node (patch s.label) s.children)

/-- `markMainlineChild` -/
def markMainlineChild (root : GNode) (parentId childId : String) : GNode :=
  root.alter (hasId parentId) (fun s => .node s.label
    (s.children.map (fun c => .node { c.label with isMainline := some (decide (c.label.id = childId)) } c.children)))

def ids (t : GNode) : List String := t.labels.map NodeView.id

/-! Requests -/

/-- The requests of the actions. -/
inductive HttpRequest where
  | listProjects
  | subtree (nodeId : String)
  | listBranches (projectId : String)
  | branchSubtree (branchId : String)
  | createNode (projectId : String) (d : Canon.NodeCreate)
  | updateNode (nodeId : String) (d : Canon.NodeUpdate)
  | deleteNode (nodeId : String) (expectedProject expected : Int)
  | promoteChild (parentId childId : String) (expectedProject expected : Int)
  | reparent (nodeId : String) (d : Canon.NodeMove)
  | createBranch (projectId : String) (d : Canon.BranchCreate)
  | archiveBranch (branchId : String) (expectedProject expected : Int)
  | mergeBranch (branchId : String) (d : Canon.BranchMerge)
  | createBlock (nodeId : String) (d : Canon.BlockCreate)

/-- A `NodeOut`, with what the creation of a node adds to it. -/
structure SavedNode where
  node : Node
  authoritativeProjectRevision : Option Int
  authoritativeParent : Option (String × Int)

inductive Reply where
  | projects (rows : List Project)
  | tree (t : GNode)
  | branches (rows : List Branch)
  | branchTree (t : Option GNode)
  | node (saved : SavedNode)
  | branch (row : Branch)
  | block (row : ContentBlock)
  | done

inductive ApiError where
  /-- thrown before any request: the cache has no revision -/
  | unavailable
  | refused (e : Canon.Err)
  /-- any other exception of the client -/
  | broken

def errStatus : Canon.Err → Nat
  | .http status _ | .coded status _ _ => status
  | .revisionConflict .. | .conflict .. | .writeConflict => 409
  | .integrity | .mainline | .multipleResults | .staleData => 500

def ApiError.isConflict : ApiError → Bool
  | .refused e => decide (errStatus e = 409)
  | .unavailable | .broken => false

/-! The request cache -/

/-- `revisionCache`: the revision of a project, the project and revision of a node. -/
structure Cache where
  projects : String → Option Int
  nodes : String → Option (String × Int)

def Cache.empty : Cache := ⟨fun _ => none, fun _ => none⟩

/-- A row without an id or a revision is not remembered. -/
def rememberProject (p : Project) (c : Cache) : Cache :=
  if p.id = "" ∨ p.revision = 0 ∨ p.rootNodeId = none then c
  else { c with projects := Function.update c.projects p.id (some p.revision) }

def rememberNode (id projectId : String) (revision : Int) (c : Cache) : Cache :=
  if id = "" ∨ revision = 0 then c else { c with nodes := Function.update c.nodes id (some (projectId, revision)) }

/-- The creation of a node tells the revisions of its project and of its parent. -/
def rememberSaved (saved : SavedNode) (c : Cache) : Cache :=
  if saved.node.id = "" ∨ saved.node.revision = 0 then c
  else
    let c := match saved.authoritativeProjectRevision with
      | none => c
      | some r => { c with projects := Function.update c.projects saved.node.projectId (some r) }
    let c := match saved.authoritativeParent with
      | none => c
      | some (parentId, r) =>
        match c.nodes parentId with
        | none => c
        | some (projectId, _) => { c with nodes := Function.update c.nodes parentId (some (projectId, r)) }
    rememberNode saved.node.id saved.node.projectId saved.node.revision c

def rememberTree (t : GNode) (c : Cache) : Cache :=
  t.labels.foldl (fun c v => rememberNode v.id v.projectId v.revision c) c

/-- `remember` -/
def remember (r : Reply) (c : Cache) : Cache :=
  match r with
  | .projects rows => rows.foldl (fun c p => rememberProject p c) c
  | .tree t => rememberTree t c
  | .branchTree t => t.elim c (fun t => rememberTree t c)
  | .node saved => rememberSaved saved c
  | .branches _ | .branch _ | .block _ | .done => c

/-- `projectExpected` -/
def Cache.projectExpected (c : Cache) (projectId : String) : Except ApiError Int :=
  match c.projects projectId with
  | none => .error .unavailable
  | some revision => if revision = 0 then .error .unavailable else .ok revision

/-- `nodeExpected` -/
def Cache.nodeExpected (c : Cache) (nodeId : String) : Except ApiError (Int × Int) :=
  match c.nodes nodeId with
  | none => .error .unavailable
  | some (projectId, revision) => do
    let expectedProject ← c.projectExpected projectId
    return (expectedProject, revision)

/-! The API -/

/-- `api.createNode`: the revisions are those of the cache. -/
def apiCreateNode (c : Cache) (projectId title summary nodeType : String) (parentId branchId : Option String) :
    Except ApiError HttpRequest := do
  let parentRevision ← match truthy parentId with
    | none => .ok none
    | some parentId =>
      match c.nodes parentId with
      | none => .error .unavailable
      | some (_, revision) => .ok (some revision)
  let expectedProject ← c.projectExpected projectId
  return .createNode projectId ⟨expectedProject, parentRevision, title, summary, nodeType, parentId, branchId, "", []⟩

/-- `api.updateNode`; revisions that the caller gives come before those of the cache. -/
def apiUpdateNode (c : Cache) (nodeId : String) (given : Option (Int × Int)) (changes : List (NodeField × Value)) :
    Except ApiError HttpRequest := do
  let (expectedProject, expected) ← c.nodeExpected nodeId
  let (expectedProject, expected) := given.getD (expectedProject, expected)
  return .updateNode nodeId ⟨expectedProject, expected, changes⟩

/-- `api.createBlock` -/
def apiCreateBlock (c : Cache) (nodeId blockType : String) (content : Value) : Except ApiError HttpRequest := do
  let (expectedProject, expectedNode) ← c.nodeExpected nodeId
  return .createBlock nodeId ⟨expectedProject, expectedNode, blockType, content⟩

/-! The store -/

structure Suggestion where
  title : String
  summary : String
  nodeType : String

structure DeepenBlock where
  blockType : String
  /-- its title and its body -/
  content : Value

structure DeepenResult where
  enrichedSummary : String
  contentBlocks : List DeepenBlock
  targetNodeId : String

/-- The inverse of a creation. -/
structure Inverse where
  nodeId : String
  nodeRevision : Int
  projectRevision : Int

structure UndoEntry where
  inverse : Option Inverse
  projectId : String
  branchId : Option String

/-- A tree with where it is from: the request it answered, and how many creations had been
acknowledged when that was sent. The store holds the tree alone. -/
structure Shown where
  tree : GNode
  source : HttpRequest
  since : Nat

structure Store where
  projects : List Project
  currentProject : Option Project
  rootNode : Option Shown
  branches : List Branch
  currentBranch : Option Branch
  undoStack : List UndoEntry
  expandSuggestions : Option (List Suggestion)
  expandTargetNodeId : Option String
  deepenResult : Option DeepenResult
  conflict : Bool

def Store.initial : Store := ⟨[], none, none, [], none, [], none, none, none, false⟩

end GrowthMap.Client
