import GrowthMap.Client.Types

/- The actions of the store.

   An action runs alone between two awaits. `start` is what it does up to its first await;
   what it has captured by then is its frame, and `resume` is what it does with the answer up
   to the next await. A request that could not be made is answered with its error. -/
namespace GrowthMap.Client

open Canon (Graph Node Project Branch NodeField Value truthy)

inductive Action where
  | loadProjects
  | selectProject (project : Project)
  | addChildNode (parentId title : String) (nodeType : Option String)
  | updateNode (nodeId : String) (data : List (NodeField × Value))
  | deleteNode (nodeId : String)
  | refreshTree
  | promoteMainlineChild (parentId childId : String)
  | reparentNode (nodeId newParentId : String)
  | undo
  | loadBranches (projectId : String)
  | createBranch (sourceNodeId name description : String)
  | selectBranch (branch : Option Branch)
  | archiveBranch (branchId : String)
  | mergeBranch (branchId targetNodeId : String)
  | acceptSuggestion (index : Nat)
  | acceptAllSuggestions
  | acceptDeepen

/-- What follows on `refreshTree`. -/
inductive AfterRefresh where
  | nothing
  /-- `runMutationWithConflict` -/
  | conflict
  /-- the same, for a block of `acceptDeepen`: the blocks before it come next -/
  | blockConflict (index : Nat)
  | acceptedAll
  /-- a failure of it is caught by `undo`, which refreshes again -/
  | undone

/-- Where an action waits, and what it has captured. -/
inductive Frame where
  | projects
  | selected (project : Project) (source : HttpRequest) (since : Nat)
  | branches
  | refresh (source : HttpRequest) (since : Nat) (next : AfterRefresh)
  | selectedBranch (branch : Option Branch) (source : HttpRequest) (since : Nat)
  | added (project : Project) (shown : Shown) (parentId : String) (branchId : Option String)
  | updated (project : Project) (shown : Shown) (nodeId : String)
  | deleted (project : Project) (shown : Shown) (nodeId : String)
  | promoted (project : Project) (shown : Shown) (parentId childId : String)
  | reparented (project : Project)
  | undone (rest : List UndoEntry)
  | branched (project : Project)
  | archived (project : Project) (branches : List Branch) (currentBranch : Option Branch) (branchId : String)
  | merged (project : Project) (branches : List Branch) (branchId : String)
  | mergedTree (source : HttpRequest) (since : Nat)
  | accepted (project : Project) (shown : Shown) (target : String) (suggestions : List Suggestion) (index : Nat)
  | acceptedOne (project : Project) (target : String) (tree : GNode) (rest : List Suggestion)
  | deepened (shown : Shown) (targetNodeId : String)
  | blockAdded (shown : Shown) (result : DeepenResult) (index : Nat)

/-- A request that is sent, or could not be made, and where its answer goes. -/
structure Call where
  request : Except ApiError HttpRequest
  frame : Frame

/-! Parts of the actions -/

/-- `project.root_node_id`, in a path -/
def rootPath (project : Project) : String := project.rootNodeId.getD "null"

/-- `advanceProjectRevision` -/
def advanceProjectRevision (project : Project) (authoritative : Option Int) (s : Store) : Store :=
  let updated := { project with revision := authoritative.getD (project.revision + 1) }
  { s with
    currentProject := some updated
    projects := s.projects.map (fun row => if row.id = updated.id then updated else row) }

/-- `applyCreateRevisions`, on the tree; the store is advanced by `advanceProjectRevision`. -/
def applyCreateRevisions (tree : GNode) (created : SavedNode) : GNode :=
  match created.authoritativeParent with
  | none => tree
  | some (parentId, revision) =>
    if parentId = "" ∨ revision = 0 then tree else patchNode tree parentId (fun v => { v with revision })

def treeSource (project : Project) (branch : Option Branch) : HttpRequest :=
  match branch with
  | none => .subtree (rootPath project)
  | some branch => .branchSubtree branch.id

/-- A column of a saved node, as `addChildNode` shows it. -/
def childField (c : NodeField) (v : Value) : Value :=
  let orElse := fun (default : Value) => if v = .null ∨ v = .text "" then default else v
  match c with
  | .title => v
  | .summary | .description | .rulesText | .constraintsText | .examplesText | .questionsText | .decisionNotes => orElse (.text "")
  | .nodeType => orElse (.text "idea")
  | .status => orElse (.text "active")
  | .maturity => orElse (.text "seed")
  | .workflowStatus => orElse (.text "draft")
  | .priority | .positionX | .positionY => if v = .null then .int 0 else v
  | .confidence => if v = .null then .real (1 / 2) else v
  | .tags | .filePaths => if v = .null then .list [] else v

/-- `revision || 1` -/
def revisionOrOne (r : Int) : Int := if r = 0 then 1 else r

/-- The child that `addChildNode` shows. -/
def addedChild (project : Project) (created : SavedNode) : GNode :=
  .node
    { id := created.node.id
      projectId := project.id
      branchId := none
      fields := fun c => childField c (created.node.fields c)
      createdBy := if created.node.createdBy = "" then "human" else created.node.createdBy
      lastEditedBy := if created.node.lastEditedBy = "" then "human" else created.node.lastEditedBy
      contentBlocks := []
      edgeRevision := none
      isMainline := none
      revision := revisionOrOne created.node.revision } []

def acceptedChild (project : Project) (created : SavedNode) : GNode :=
  .node
    { id := created.node.id
      projectId := project.id
      branchId := created.node.branchId
      fields := fun c => match c with
        | .summary | .nodeType | .maturity => childField c (created.node.fields c)
        | c => created.node.fields c
      createdBy := created.node.createdBy
      lastEditedBy := created.node.lastEditedBy
      contentBlocks := []
      edgeRevision := none
      isMainline := none
      revision := created.node.revision } []

def patchSaved (saved : SavedNode) (v : NodeView) : NodeView :=
  { v with
    id := saved.node.id
    projectId := saved.node.projectId
    branchId := saved.node.branchId
    fields := saved.node.fields
    createdBy := saved.node.createdBy
    lastEditedBy := saved.node.lastEditedBy
    revision := saved.node.revision }

def parentIn (tree : GNode) (nodeId : String) : Option GNode :=
  (tree.subtrees.find? (fun s => s.children.any (fun c => hasId nodeId c.label)))

/-- `createNode` for a suggestion. -/
def suggestionCall (cache : Cache) (project : Project) (branch : Option Branch) (target : String) (s : Suggestion) :
    Except ApiError HttpRequest :=
  apiCreateNode cache project.id s.title s.summary s.nodeType (some target) (branch.map Branch.id)

/-! Steps -/

section Steps

variable (cache : Cache) (sent : Nat)

/-- `acceptDeepenBlock` for the block before `n`, and those before it; then the result is dismissed. -/
def acceptBlocks (s : Store) : Nat → Store × List Call
  | 0 => ({ s with deepenResult := none }, [])
  | index + 1 =>
    match s.deepenResult, s.rootNode with
    | some result, some shown =>
      match result.contentBlocks[index]? with
      | none => acceptBlocks s index
      | some block =>
        (s, [⟨apiCreateBlock cache result.targetNodeId block.blockType block.content, .blockAdded shown result index⟩])
    | _, _ => acceptBlocks s index

def afterRefresh (s : Store) : AfterRefresh → Store × List Call
  | .nothing | .undone => (s, [])
  | .conflict => ({ s with conflict := true }, [])
  | .blockConflict index => acceptBlocks cache { s with conflict := true } index
  | .acceptedAll => ({ s with undoStack := [], expandSuggestions := none }, [])

/-- `refreshTree` -/
def refreshTree (s : Store) (next : AfterRefresh) : Store × List Call :=
  match s.currentProject with
  | none => afterRefresh cache s next
  | some project =>
    let source := treeSource project s.currentBranch
    (s, [⟨.ok source, .refresh source sent next⟩])

/-- `selectBranch` -/
def selectBranch (s : Store) (branch : Option Branch) : Store × List Call :=
  match s.currentProject with
  | none => (s, [])
  | some project =>
    let source := treeSource project branch
    (s, [⟨.ok source, .selectedBranch branch source sent⟩])

def acceptNext (s : Store) (project : Project) (target : String) (tree : GNode) : List Suggestion → Store × List Call
  | [] => refreshTree cache sent s .acceptedAll
  | suggestion :: rest =>
    (s, [⟨suggestionCall cache project s.currentBranch target suggestion, .acceptedOne project target tree rest⟩])

def start (s : Store) : Action → Store × List Call
  | .loadProjects => (s, [⟨.ok .listProjects, .projects⟩])
  | .selectProject project =>
    let source := HttpRequest.subtree (rootPath project)
    ({ s with currentProject := some project, undoStack := [], currentBranch := none, branches := [] },
      [⟨.ok source, .selected project source sent⟩])
  | .addChildNode parentId title nodeType =>
    match s.currentProject, s.rootNode with
    | some project, some shown =>
      let branchId := s.currentBranch.map Branch.id
      (s, [⟨apiCreateNode cache project.id title "" (nodeType.getD "idea") (some parentId) branchId,
        .added project shown parentId branchId⟩])
    | _, _ => (s, [])
  | .updateNode nodeId data =>
    match s.currentProject, s.rootNode.bind (fun shown => (findNode shown.tree nodeId).map (fun n => (shown, n.label))) with
    | some project, some (shown, existing) =>
      (s, [⟨apiUpdateNode cache nodeId (some (project.revision, existing.revision)) data, .updated project shown nodeId⟩])
    | _, _ => (s, [])
  | .deleteNode nodeId =>
    match s.currentProject, s.rootNode.bind (fun shown => (findNode shown.tree nodeId).map (fun n => (shown, n.label))) with
    | some project, some (shown, existing) =>
      (s, [⟨.ok (.deleteNode nodeId project.revision existing.revision), .deleted project shown nodeId⟩])
    | _, _ => (s, [])
  | .refreshTree => refreshTree cache sent s .nothing
  | .promoteMainlineChild parentId childId =>
    match s.currentProject, s.rootNode with
    | some project, some shown =>
      let edgeRevision := ((findNode shown.tree childId).bind (fun n => n.label.edgeRevision)).getD 1
      (s, [⟨.ok (.promoteChild parentId childId project.revision edgeRevision), .promoted project shown parentId childId⟩])
    | _, _ => (s, [])
  | .reparentNode nodeId newParentId =>
    match s.currentProject, s.rootNode with
    | some project, some shown =>
      match findNode shown.tree nodeId, findNode shown.tree newParentId, parentIn shown.tree nodeId with
      | some node, some newParent, some oldParent =>
        (s, [⟨.ok (.reparent nodeId ⟨newParentId, project.revision, node.label.revision, newParent.label.revision,
          some oldParent.label.revision⟩), .reparented project⟩])
      | _, _, _ => (s, [])
    | _, _ => (s, [])
  | .undo =>
    match s.undoStack with
    | [] => (s, [])
    | entry :: rest =>
      match s.currentProject with
      | none => ({ s with undoStack := [] }, [])
      | some project =>
        if entry.projectId ≠ project.id ∨ entry.branchId ≠ s.currentBranch.map Branch.id then ({ s with undoStack := [] }, [])
        else match entry.inverse with
          | none => (s, [])
          | some inverse =>
            (s, [⟨.ok (.deleteNode inverse.nodeId inverse.projectRevision inverse.nodeRevision), .undone rest⟩])
  | .loadBranches projectId => (s, [⟨.ok (.listBranches projectId), .branches⟩])
  | .createBranch sourceNodeId name description =>
    match s.currentProject with
    | none => (s, [])
    | some project =>
      (s, [⟨.ok (.createBranch project.id ⟨project.revision, sourceNodeId, name, description⟩), .branched project⟩])
  | .selectBranch branch => selectBranch sent s branch
  | .archiveBranch branchId =>
    match s.currentProject, s.branches.find? (fun row => decide (row.id = branchId)) with
    | some project, some branch =>
      (s, [⟨.ok (.archiveBranch branchId project.revision branch.revision),
        .archived project s.branches s.currentBranch branchId⟩])
    | _, _ => (s, [])
  | .mergeBranch branchId targetNodeId =>
    match s.currentProject, s.branches.find? (fun row => decide (row.id = branchId)),
      s.rootNode.bind (fun shown => findNode shown.tree targetNodeId) with
    | some project, some branch, some target =>
      (s, [⟨.ok (.mergeBranch branchId ⟨targetNodeId, project.revision, branch.revision, target.label.revision⟩),
        .merged project s.branches branchId⟩])
    | _, _, _ => (s, [])
  | .acceptSuggestion index =>
    match s.expandSuggestions, s.expandTargetNodeId, s.currentProject, s.rootNode with
    | some suggestions, some target, some project, some shown =>
      let request := match suggestions[index]? with
        | none => .error .broken
        | some suggestion => suggestionCall cache project s.currentBranch target suggestion
      (s, [⟨request, .accepted project shown target suggestions index⟩])
    | _, _, _, _ => (s, [])
  | .acceptAllSuggestions =>
    match s.expandSuggestions, s.expandTargetNodeId, s.currentProject, s.rootNode with
    | some suggestions, some target, some project, some shown => acceptNext cache sent s project target shown.tree suggestions
    | _, _, _, _ => (s, [])
  | .acceptDeepen =>
    match s.deepenResult, s.rootNode with
    | some result, some shown =>
      ({ s with conflict := false }, [⟨apiUpdateNode cache result.targetNodeId none [(.summary, .text result.enrichedSummary)],
        .deepened shown result.targetNodeId⟩])
    | none, _ => ({ s with conflict := false }, [])
    | some result, none => acceptBlocks cache { s with conflict := false } result.contentBlocks.length

/-- A mutation that is answered with 409 refreshes the tree; any other failure ends the action. -/
def onFailure (s : Store) (e : ApiError) (next : AfterRefresh) : Store × List Call :=
  if e.isConflict then refreshTree cache sent s next else (s, [])

/-- The answer arrives: the action goes on to its next await, or ends. -/
def resume (s : Store) (frame : Frame) (reply : Except ApiError Reply) : Store × List Call :=
  match frame, reply with
  | .projects, .ok (.projects rows) => ({ s with projects := rows }, [])
  | .selected project source since, .ok (.tree tree) =>
    ({ s with rootNode := some ⟨tree, source, since⟩ }, [⟨.ok (.listBranches project.id), .branches⟩])
  | .branches, .ok (.branches rows) => ({ s with branches := rows }, [])
  | .refresh source since next, .ok (.tree tree) =>
    afterRefresh cache { s with rootNode := some ⟨tree, source, since⟩ } next
  | .refresh source since next, .ok (.branchTree tree) =>
    afterRefresh cache { s with rootNode := tree.map (fun tree => ⟨tree, source, since⟩) } next
  | .refresh _ _ .undone, .error _ => refreshTree cache sent s .nothing
  | .selectedBranch branch source since, .ok (.tree tree) =>
    ({ s with currentBranch := branch, rootNode := some ⟨tree, source, since⟩ }, [])
  | .selectedBranch branch source since, .ok (.branchTree (some tree)) =>
    ({ s with currentBranch := branch, rootNode := some ⟨tree, source, since⟩ }, [])
  | .added project shown parentId branchId, .ok (.node created) =>
    let s := advanceProjectRevision project created.authoritativeProjectRevision s
    let tree := applyCreateRevisions (insertChild shown.tree parentId (addedChild project created)) created
    let inverse : Inverse := ⟨created.node.id, revisionOrOne created.node.revision,
      created.authoritativeProjectRevision.getD (project.revision + 1)⟩
    ({ s with rootNode := some { shown with tree }, undoStack := [⟨some inverse, project.id, branchId⟩] }, [])
  | .added .., .error e => onFailure cache sent s e .conflict
  | .updated project shown nodeId, .ok (.node saved) =>
    ({ advanceProjectRevision project none s with
      rootNode := some { shown with tree := patchNode shown.tree nodeId (patchSaved saved) }, undoStack := [] }, [])
  | .deleted project shown nodeId, .ok .done =>
    ({ advanceProjectRevision project none s with
      rootNode := some { shown with tree := removeNode shown.tree nodeId }, undoStack := [] }, [])
  | .promoted project shown parentId childId, .ok .done =>
    ({ advanceProjectRevision project none s with
      rootNode := some { shown with tree := markMainlineChild shown.tree parentId childId } }, [])
  | .reparented project, .ok .done =>
    refreshTree cache sent { advanceProjectRevision project none s with undoStack := [] } .nothing
  | .undone rest, .ok .done => refreshTree cache sent { s with undoStack := rest } .undone
  | .undone _, .error _ => refreshTree cache sent s .nothing
  | .branched project, .ok (.branch branch) =>
    let s := advanceProjectRevision project none s
    selectBranch sent { s with branches := s.branches ++ [branch] } (some branch)
  | .archived project branches currentBranch branchId, .ok .done =>
    let s := { advanceProjectRevision project none s with branches := branches.filter (fun b => decide (b.id ≠ branchId)) }
    if currentBranch.map Branch.id = some branchId then selectBranch sent s none else (s, [])
  | .merged project branches branchId, .ok .done =>
    let source := HttpRequest.subtree (rootPath project)
    ({ advanceProjectRevision project none s with
        branches := branches.filter (fun b => decide (b.id ≠ branchId)), currentBranch := none },
      [⟨.ok source, .mergedTree source sent⟩])
  | .mergedTree source since, .ok (.tree tree) => ({ s with rootNode := some ⟨tree, source, since⟩ }, [])
  | .accepted project shown target suggestions index, .ok (.node created) =>
    let s := advanceProjectRevision project created.authoritativeProjectRevision s
    let tree := applyCreateRevisions (insertChild shown.tree target (acceptedChild project created)) created
    let remaining := suggestions.eraseIdx index
    ({ s with
      rootNode := some { shown with tree }, undoStack := [],
      expandSuggestions := if remaining.isEmpty then none else some remaining }, [])
  | .accepted .., .error e => onFailure cache sent s e .conflict
  | .acceptedOne project target tree rest, .ok (.node created) =>
    let s := match s.currentProject with
      | none => s
      | some current => advanceProjectRevision current created.authoritativeProjectRevision s
    let tree := insertChild (applyCreateRevisions tree created) target (acceptedChild project created)
    acceptNext cache sent s project target tree rest
  | .acceptedOne .., .error e => onFailure cache sent s e .conflict
  | .deepened shown targetNodeId, .ok (.node saved) =>
    let s := { s with
      rootNode := some { shown with tree := patchNode shown.tree targetNodeId (patchSaved saved) }, undoStack := [] }
    acceptBlocks cache s ((s.deepenResult.map (fun result => result.contentBlocks.length)).getD 0)
  | .deepened .., .error e => onFailure cache sent s e .conflict
  | .blockAdded shown result index, .ok (.block created) =>
    let tree := patchNode shown.tree result.targetNodeId (fun v => { v with
      contentBlocks := (((findNode shown.tree result.targetNodeId).map (fun n => n.label.contentBlocks)).getD []) ++ [created] })
    let remaining := result.contentBlocks.eraseIdx index
    let s := { s with
      rootNode := some { shown with tree }, undoStack := [],
      deepenResult := if remaining.isEmpty then none else some { result with contentBlocks := remaining } }
    acceptBlocks cache s index
  | .blockAdded _ _ index, .error e => onFailure cache sent s e (.blockConflict index)
  | _, _ => (s, [])

end Steps

end GrowthMap.Client
