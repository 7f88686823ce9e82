import GrowthMap.Lib.Table
import GrowthMap.Lib.Forest
import Mathlib.Logic.Function.Basic

/- The canonical graph database: projects, nodes, edges, content blocks and branches.

   A row's data columns are a function from column names to values, so that the loops that
   set attributes are one definition. Writes check what the schema checks: primary and
   foreign keys, NOT NULL, and one mainline child for each parent. -/
namespace GrowthMap.Canon

open Relational

/-! Rows -/

inductive Value where
  | null
  | text (s : String)
  | int (n : Int)
  | real (q : Rat)
  | list (xs : List String)
  | json (s : String)
  deriving DecidableEq, Repr

inductive NodeField where
  | title | summary | nodeType | status | maturity | priority | confidence | description | rulesText | constraintsText
  | examplesText | questionsText | decisionNotes | tags | workflowStatus | filePaths | positionX | positionY
  deriving DecidableEq, Repr

def NodeField.required : List NodeField := [.title, .nodeType, .status, .maturity, .workflowStatus]

def NodeField.default : NodeField → Value
  | .title => .null
  | .nodeType => .text "idea"
  | .status => .text "active"
  | .maturity => .text "seed"
  | .priority => .int 0
  | .confidence => .real (1 / 2)
  | .tags | .filePaths => .list []
  | .workflowStatus => .text "draft"
  | .positionX | .positionY => .real 0
  | .summary | .description | .rulesText | .constraintsText | .examplesText | .questionsText | .decisionNotes => .text ""

/-- The value of a column of a new row: None gives the default, but the JSON columns keep it. -/
def NodeField.stored (c : NodeField) (v : Value) : Value :=
  match c with
  | .tags | .filePaths => v
  | c => if v = .null then c.default else v

structure Node where
  id : String
  projectId : String
  branchId : Option String
  fields : NodeField → Value
  createdBy : String
  lastEditedBy : String
  revision : Int

structure Edge where
  id : String
  projectId : String
  fromNodeId : String
  toNodeId : String
  relationType : String
  weight : Rat
  note : String
  isMainline : Bool
  revision : Int
  deriving DecidableEq, Repr

structure ContentBlock where
  id : String
  nodeId : String
  blockType : String
  content : Value
  orderIndex : Int
  createdBy : String
  createdAt : Int
  revision : Int
  deriving DecidableEq, Repr

inductive BranchStatus where
  | active | merged | archived
  deriving DecidableEq, Repr

structure Branch where
  id : String
  projectId : String
  name : String
  description : String
  sourceNodeId : Option String
  status : BranchStatus
  revision : Int
  deriving DecidableEq, Repr

inductive ProjectField where
  | name | description | goal | status | settings
  deriving DecidableEq, Repr

def ProjectField.stored (c : ProjectField) (v : Value) : Value :=
  match c with
  | .name | .settings => v
  | .description | .goal => if v = .null then .text "" else v
  | .status => if v = .null then .text "active" else v

structure Project where
  id : String
  rootNodeId : Option String
  fields : ProjectField → Value
  revision : Int

abbrev Projects := Table String Project Project.id
abbrev Nodes := Table String Node Node.id
abbrev Edges := Table String Edge Edge.id
abbrev Blocks := Table String ContentBlock ContentBlock.id
abbrev Branches := Table String Branch Branch.id

structure Graph where
  projects : Projects
  nodes : Nodes
  edges : Edges
  blocks : Blocks
  branches : Branches

def Graph.empty : Graph := ⟨.empty, .empty, .empty, .empty, .empty⟩

/-! Errors -/

inductive Err where
  | http (status : Nat) (detail : String)
  | coded (status : Nat) (code message : String)
  | revisionConflict (entity entityId : String) (expected : Int) (current : Option Int)
  /-- the conflicts of an agent batch -/
  | conflict (message : String) (entityId : Option String) (expected : Int) (current : Option Int) (field : Option String)
  /-- a constraint of the schema, found by the flush before the commit of a batch -/
  | writeConflict
  /-- a constraint of the schema -/
  | integrity
  /-- the constraint that a parent has one mainline child -/
  | mainline
  /-- `scalar_one_or_none` found several rows -/
  | multipleResults
  /-- an UPDATE of a row that is no longer there -/
  | staleData
  deriving DecidableEq, Repr

/-- `scalar_one_or_none` -/
def oneOrNone {α : Type} : List α → Except Err (Option α)
  | [] => .ok none
  | [x] => .ok (some x)
  | _ :: _ :: _ => .error .multipleResults

def truthy (s : Option String) : Option String := s.filter (fun x => x ≠ "")

/-! Containment -/

def Edge.isContainment (e : Edge) : Bool := decide (e.relationType = "child_of")

/-- The `child_of` edges out of a node. -/
def Graph.childEdges (g : Graph) (x : String) : List Edge :=
  g.edges.rows.filter (fun e => e.isContainment && decide (e.fromNodeId = x))

/-- The `child_of` edges into a node. -/
def Graph.parentEdges (g : Graph) (x : String) : List Edge :=
  g.edges.rows.filter (fun e => e.isContainment && decide (e.toNodeId = x))

def Graph.children (g : Graph) (x : String) : List String := (g.childEdges x).map Edge.toNodeId

def Graph.descendants (g : Graph) (x : String) : List String :=
  Forest.walk g.children (g.edges.rows.length + 1) [x] []

/-! Writes -/

def insertNode (n : Node) (g : Graph) : Except Err Graph :=
  if (g.projects.get n.projectId).isNone ∨ n.branchId.any (fun b => (g.branches.get b).isNone) ∨
      NodeField.required.any (fun c => decide (n.fields c = .null)) then .error .integrity
  else match g.nodes.insert n with
    | none => .error .integrity
    | some nodes => .ok { g with nodes }

def duplicateMainline (g : Graph) (e : Edge) : Bool :=
  e.isContainment && e.isMainline &&
    g.edges.rows.any (fun x => decide (x.id ≠ e.id) && x.isContainment && x.isMainline && decide (x.fromNodeId = e.fromNodeId))

def insertEdge (e : Edge) (g : Graph) : Except Err Graph :=
  if duplicateMainline g e then .error .mainline
  else if (g.projects.get e.projectId).isNone ∨ (g.nodes.get e.fromNodeId).isNone ∨ (g.nodes.get e.toNodeId).isNone then
    .error .integrity
  else match g.edges.insert e with
    | none => .error .integrity
    | some edges => .ok { g with edges }

def insertBlock (b : ContentBlock) (g : Graph) : Except Err Graph :=
  if (g.nodes.get b.nodeId).isNone then .error .integrity
  else match g.blocks.insert b with
    | none => .error .integrity
    | some blocks => .ok { g with blocks }

def insertBranch (b : Branch) (g : Graph) : Except Err Graph :=
  if (g.projects.get b.projectId).isNone ∨ b.sourceNodeId.any (fun x => (g.nodes.get x).isNone) then .error .integrity
  else match g.branches.insert b with
    | none => .error .integrity
    | some branches => .ok { g with branches }

def insertProject (p : Project) (g : Graph) : Except Err Graph :=
  if p.fields .name = .null ∨ p.fields .status = .null then .error .integrity
  else match g.projects.insert p with
    | none => .error .integrity
    | some projects => .ok { g with projects }

/-- The columns of a loaded row that a request changed are written over the stored row. -/
def Node.patch (old new row : Node) : Node :=
  { row with
    branchId := if new.branchId = old.branchId then row.branchId else new.branchId,
    fields := fun c => if new.fields c = old.fields c then row.fields c else new.fields c,
    lastEditedBy := if new.lastEditedBy = old.lastEditedBy then row.lastEditedBy else new.lastEditedBy,
    revision := if new.revision = old.revision then row.revision else new.revision }

theorem Node.patch_key {old new : Node} (row : Node) : (old.patch new row).id = row.id := rfl

def flushNode (old new : Node) (g : Graph) : Except Err Graph :=
  if (g.nodes.get old.id).isNone then .error .staleData
  else if NodeField.required.any (fun c => decide (new.fields c ≠ old.fields c ∧ new.fields c = .null)) then .error .integrity
  else .ok { g with nodes := g.nodes.modify old.id (old.patch new) Node.patch_key }

def Edge.patch (old new row : Edge) : Edge :=
  { row with
    weight := if new.weight = old.weight then row.weight else new.weight,
    note := if new.note = old.note then row.note else new.note,
    isMainline := if new.isMainline = old.isMainline then row.isMainline else new.isMainline,
    revision := if new.revision = old.revision then row.revision else new.revision }

theorem Edge.patch_key {old new : Edge} (row : Edge) : (old.patch new row).id = row.id := rfl

def flushEdge (old new : Edge) (g : Graph) : Except Err Graph :=
  match g.edges.get old.id with
  | none => .error .staleData
  | some row =>
    if duplicateMainline g (old.patch new row) then .error .mainline
    else .ok { g with edges := g.edges.modify old.id (old.patch new) Edge.patch_key }

def ContentBlock.patch (old new row : ContentBlock) : ContentBlock :=
  { row with
    blockType := if new.blockType = old.blockType then row.blockType else new.blockType,
    content := if new.content = old.content then row.content else new.content,
    orderIndex := if new.orderIndex = old.orderIndex then row.orderIndex else new.orderIndex,
    revision := if new.revision = old.revision then row.revision else new.revision }

theorem ContentBlock.patch_key {old new : ContentBlock} (row : ContentBlock) : (old.patch new row).id = row.id := rfl

def flushBlock (old new : ContentBlock) (g : Graph) : Except Err Graph :=
  if (g.blocks.get old.id).isNone then .error .staleData
  else .ok { g with blocks := g.blocks.modify old.id (old.patch new) ContentBlock.patch_key }

def Branch.patch (old new row : Branch) : Branch :=
  { row with
    status := if new.status = old.status then row.status else new.status,
    revision := if new.revision = old.revision then row.revision else new.revision }

theorem Branch.patch_key {old new : Branch} (row : Branch) : (old.patch new row).id = row.id := rfl

def flushBranch (old new : Branch) (g : Graph) : Except Err Graph :=
  if (g.branches.get old.id).isNone then .error .staleData
  else .ok { g with branches := g.branches.modify old.id (old.patch new) Branch.patch_key }

def Project.patch (old new row : Project) : Project :=
  { row with
    rootNodeId := if new.rootNodeId = old.rootNodeId then row.rootNodeId else new.rootNodeId,
    fields := fun c => if new.fields c = old.fields c then row.fields c else new.fields c }

theorem Project.patch_key {old new : Project} (row : Project) : (old.patch new row).id = row.id := rfl

def flushProject (old new : Project) (g : Graph) : Except Err Graph :=
  if (g.projects.get old.id).isNone then .error .staleData
  else if new.fields .name = .null ∨ new.fields .status = .null then .error .integrity
  else .ok { g with projects := g.projects.modify old.id (old.patch new) Project.patch_key }

def deleteEdges (p : Edge → Bool) (g : Graph) : Graph := { g with edges := g.edges.keep (fun e => !p e) }

def Branch.forget (x : List String) (b : Branch) : Branch :=
  { b with sourceNodeId := b.sourceNodeId.filter (fun n => n ∉ x) }

theorem Branch.forget_key {x : List String} (b : Branch) : (b.forget x).id = b.id := rfl

/-- DELETE of nodes: their edges and blocks go with them, branches forget them as sources. -/
def deleteNodes (x : List String) (g : Graph) : Graph :=
  { g with
    nodes := g.nodes.keep (fun n => n.id ∉ x),
    edges := g.edges.keep (fun e => decide (e.fromNodeId ∉ x ∧ e.toNodeId ∉ x)),
    blocks := g.blocks.keep (fun b => b.nodeId ∉ x),
    branches := g.branches.update (fun _ => true) (Branch.forget x) Branch.forget_key }

def deleteProjectRow (p : String) (g : Graph) : Graph :=
  let gone := fun n => (g.nodes.get n).all (fun row => decide (row.projectId = p))
  { projects := g.projects.keep (fun x => decide (x.id ≠ p)),
    nodes := g.nodes.keep (fun n => decide (n.projectId ≠ p)),
    edges := g.edges.keep (fun e => decide (e.projectId ≠ p) && !gone e.fromNodeId && !gone e.toNodeId),
    blocks := g.blocks.keep (fun b => !gone b.nodeId),
    branches := g.branches.keep (fun b => decide (b.projectId ≠ p)) }

/-! Revisions -/

/-- `revision or 1` -/
def orOne (r : Int) : Int := if r = 0 then 1 else r

def bumped (r : Int) : Int := orOne r + 1

def Project.claim (row : Project) : Project := { row with revision := row.revision + 1 }

theorem Project.claim_key (row : Project) : row.claim.id = row.id := rfl

/-- `claim_project_revision` -/
def claimProjectRevision (projectId : String) (expected : Int) (g : Graph) : Except Err Graph :=
  match g.projects.get projectId with
  | none => .error (.http 404 "Project not found")
  | some row =>
    if row.revision ≠ expected then .error (.revisionConflict "project" projectId expected (some row.revision))
    else .ok { g with projects := g.projects.modify projectId Project.claim Project.claim_key }

/-- `check_entity_revision` -/
def checkEntityRevision (kind entityId : String) (revision expected : Int) : Except Err Unit :=
  if expected ≠ orOne revision then .error (.revisionConflict kind entityId expected (some (orOne revision)))
  else .ok ()

end GrowthMap.Canon
