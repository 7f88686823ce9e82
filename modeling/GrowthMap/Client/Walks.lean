import GrowthMap.Client.Server
import GrowthMap.Canon.Cycles
import GrowthMap.Canon.Requests

/- The walks along containment that reads make.

   Two of them follow one edge after the other, down the mainline and up to the ancestors, and
   one recurses into all children. None remembers where it has been: they end because
   containment has no cycle, and only then. A walk is given a number of steps, and returns
   nothing when it has not ended by then. -/
namespace GrowthMap.Client

open Canon (Graph Node Project Branch Edge NodeField Value Err Grant Event sampleId sampleEvent sampleProject truthy oneOrNone arcs mem_arcs reached_acyclic)
open Relational Forest Fallible

/-! The mainline path -/

structure PathEntry where
  id : String
  title : Value
  nodeType : Value
  maturity : Value
  isMainline : Bool

/-- The mainline edge out of a node; the schema leaves at most one. -/
def mainlineEdge (g : Graph) (x : String) : Option Edge := (g.childEdges x).find? Edge.isMainline

/-- Whether the edge into a node is of the mainline; it is looked up for all nodes but the first. -/
def enteredByMainline (g : Graph) (x : String) (path : List PathEntry) : Except Err Bool :=
  if path.isEmpty then .ok true else (oneOrNone (g.parentEdges x)).map (fun e => e.any Edge.isMainline)

/-- The loop of `get_mainline_path`. -/
def mainlineWalk (g : Graph) : Nat → Option String → List PathEntry → Option (Except Err (List PathEntry))
  | 0, _, _ => none
  | n + 1, current, path =>
    match truthy current with
    | none => some (.ok path)
    | some x =>
      match g.nodes.get x with
      | none => some (.ok path)
      | some node =>
        match enteredByMainline g x path with
        | .error e => some (.error e)
        | .ok isMainline =>
          mainlineWalk g n ((mainlineEdge g x).map Edge.toNodeId)
            (path ++ [⟨node.id, node.fields .title, node.fields .nodeType, node.fields .maturity, isMainline⟩])

/-- `get_mainline_path` -/
def getMainlinePath (g : Graph) (projectId : String) (steps : Nat) : Option (Except Err (List PathEntry)) :=
  match g.projects.get projectId with
  | none => some (.error (.http 404 "Project not found"))
  | some project =>
    match truthy project.rootNodeId with
    | none => some (.ok [])
    | some root => mainlineWalk g steps (some root) []

/-! The ancestors of an agent's context -/

/-- The nodes of `graph_data`. -/
def graphNode (g : Graph) (grant : Grant) (allowed : List String) (x : String) : Option Node :=
  (g.nodes.get x).filter (fun n => decide (n.projectId = grant.projectId) && decide (x ∈ allowed))

/-- The edges of `graph_data`. -/
def graphEdges (g : Graph) (grant : Grant) (allowed : List String) : List Edge :=
  g.edges.rows.filter (fun e => decide (e.projectId = grant.projectId) && decide (e.fromNodeId ∈ allowed) &&
    decide (e.toNodeId ∈ allowed))

/-- `parents`: of several edges to a node the last counts. -/
def graphParent (g : Graph) (grant : Grant) (allowed : List String) (x : String) : Option String :=
  ((graphEdges g grant allowed).findRev? (fun e => e.isContainment && decide (e.toNodeId = x))).map Edge.fromNodeId

/-- The loop of `context`: up while there is a parent that is shown. -/
def ancestorsWalk (g : Graph) (grant : Grant) (allowed : List String) : Nat → String → List Node → Option (List Node)
  | 0, _, _ => none
  | n + 1, current, ancestors =>
    match graphParent g grant allowed current with
    | none => some ancestors
    | some parent =>
      match graphNode g grant allowed parent with
      | none => some ancestors
      | some node => ancestorsWalk g grant allowed n parent (ancestors ++ [node])

/-- The ancestors in `context`. -/
def contextAncestors (g : Graph) (grant : Grant) (targetId : String) (steps : Nat) : Option (Except Err (List Node)) :=
  match Canon.allowedNodes g grant with
  | .error e => some (.error e)
  | .ok allowed =>
    if targetId ∉ allowed then some (.error (Canon.scopeDenied "Target is outside grant scope"))
    else match (g.nodes.get targetId).filter (fun n => decide (n.projectId = grant.projectId)) with
      | none => some (.error (.http 404 "Node not found"))
      | some _ => (ancestorsWalk g grant allowed steps targetId []).map .ok

/-! Without cycles, all end -/

variable {x y : String}

section Acyclic

variable {g : Graph}

theorem mem_mainlineEdge {e : Edge} (h : mainlineEdge g x = some e) : Arc (arcs g.edges.rows) x e.toNodeId := by
  have hmem : e ∈ g.childEdges x := List.mem_of_find?_eq_some h
  obtain ⟨hrow, hcond⟩ := List.mem_filter.mp hmem
  obtain ⟨hc, hfrom⟩ := by simpa using hcond
  exact mem_arcs.mpr ⟨e, hrow, hc, hfrom, rfl⟩

theorem mem_graphParent {grant : Grant} {allowed : List String} (h : graphParent g grant allowed x = some y) :
    Arc (arcs g.edges.rows) y x := by
  obtain ⟨e, he, rfl⟩ := Option.map_eq_some_iff.mp h
  rw [List.findRev?_eq_find?_reverse] at he
  have hmem : e ∈ graphEdges g grant allowed := List.mem_reverse.mp (List.mem_of_find?_eq_some he)
  obtain ⟨hc, hto⟩ := by simpa using List.find?_some he
  exact mem_arcs.mpr ⟨e, (List.mem_filter.mp hmem).1, hc, rfl, hto⟩

/-- Each turn goes one edge down. -/
theorem mainlineWalk_ends (h : g.IsAcyclic) (x : String) (path : List PathEntry) :
    ∃ n r, mainlineWalk g n (some x) path = some r := by
  induction x using h.down.induction generalizing path with
  | _ x ih =>
    have hturn : ∀ path, ∃ n r, mainlineWalk g n ((mainlineEdge g x).map Edge.toNodeId) path = some r := by
      intro path
      cases he : mainlineEdge g x with
      | none => exact ⟨1, .ok path, rfl⟩
      | some e => exact ih e.toNodeId (mem_mainlineEdge he) path
    cases hx : truthy (some x) with
    | none => exact ⟨1, .ok path, by simp [mainlineWalk, hx]⟩
    | some y =>
      have hy : y = x := by
        obtain ⟨heq, -⟩ := Option.filter_eq_some_iff.mp hx
        exact (Option.some.inj heq).symm
      subst hy
      cases hnode : g.nodes.get y with
      | none => exact ⟨1, .ok path, by simp [mainlineWalk, hx, hnode]⟩
      | some node =>
        cases hinto : enteredByMainline g y path with
        | error e => exact ⟨1, .error e, by simp [mainlineWalk, hx, hnode, hinto]⟩
        | ok isMainline =>
          obtain ⟨n, r, hr⟩ := hturn (path ++ [⟨node.id, node.fields .title, node.fields .nodeType, node.fields .maturity, isMainline⟩])
          exact ⟨n + 1, r, by simpa [mainlineWalk, hx, hnode, hinto] using hr⟩

theorem getMainlinePath_ends (h : g.IsAcyclic) (projectId : String) : ∃ n r, getMainlinePath g projectId n = some r := by
  unfold getMainlinePath
  cases g.projects.get projectId with
  | none => exact ⟨0, _, rfl⟩
  | some project =>
    dsimp only
    cases truthy project.rootNodeId with
    | none => exact ⟨0, _, rfl⟩
    | some root => exact mainlineWalk_ends h root []

theorem ancestorsWalk_ends (h : g.IsAcyclic) (grant : Grant) (allowed : List String) (x : String) (ancestors : List Node) :
    ∃ n r, ancestorsWalk g grant allowed n x ancestors = some r := by
  induction x using h.up.induction generalizing ancestors with
  | _ x ih =>
    cases hparent : graphParent g grant allowed x with
    | none => exact ⟨1, ancestors, by simp [ancestorsWalk, hparent]⟩
    | some parent =>
      cases hnode : graphNode g grant allowed parent with
      | none => exact ⟨1, ancestors, by simp [ancestorsWalk, hparent, hnode]⟩
      | some node =>
        obtain ⟨n, r, hr⟩ := ih parent (mem_graphParent hparent) (ancestors ++ [node])
        exact ⟨n + 1, r, by simpa [ancestorsWalk, hparent, hnode] using hr⟩

theorem contextAncestors_ends (h : g.IsAcyclic) (grant : Grant) (targetId : String) :
    ∃ n r, contextAncestors g grant targetId n = some r := by
  unfold contextAncestors
  cases Canon.allowedNodes g grant with
  | error => exact ⟨0, _, rfl⟩
  | ok allowed =>
    dsimp only
    split
    · exact ⟨0, _, rfl⟩
    · split
      · exact ⟨0, _, rfl⟩
      · obtain ⟨n, r, hr⟩ := ancestorsWalk_ends h grant allowed targetId []
        exact ⟨n, .ok r, by rw [hr]; rfl⟩

theorem buildBranchTree_mono {branch : Branch} {n m : Nat} (hnm : n ≤ m) {x : Node} {tree : GNode}
    (h : buildBranchTree g branch n x = .ok tree) : buildBranchTree g branch m x = .ok tree := by
  induction n generalizing m x tree with
  | zero => cases h
  | succ n ih =>
    obtain ⟨m, rfl⟩ : ∃ k, m = k + 1 := ⟨m - 1, by omega⟩
    simp only [buildBranchTree] at h ⊢
    obtain ⟨children, hchildren, h⟩ := bind_ok h
    rw [mapM_mono (fun y _ t ht => ih (by omega) ht) hchildren]
    exact h

theorem buildBranchTree_ends (h : g.IsAcyclic) (branch : Branch) (x : Node) :
    ∃ levels tree, buildBranchTree g branch levels x = .ok tree := by
  have hx : ∃ key, x.id = key := ⟨_, rfl⟩
  obtain ⟨key, hkey⟩ := hx
  induction key using h.down.induction generalizing x with
  | _ key ih =>
    have hbelow : ∀ y ∈ ((branchEdges g branch).filter (fun e => decide (e.fromNodeId = x.id))).filterMap
        (fun e => inBranch g branch e.toNodeId), ∃ n tree, buildBranchTree g branch n y = .ok tree := by
      intro y hy
      obtain ⟨e, he, hget⟩ := List.mem_filterMap.mp hy
      obtain ⟨hedge, hfrom⟩ := List.mem_filter.mp he
      obtain ⟨hrow, hcond⟩ := List.mem_filter.mp (List.mem_filter.mp hedge).1
      obtain ⟨-, hc⟩ := by simpa using hcond
      have hto : y.id = e.toNodeId := Table.get_key (Option.filter_eq_some_iff.mp hget).1
      exact ih e.toNodeId (mem_arcs.mpr ⟨e, hrow, hc, (of_decide_eq_true hfrom).trans hkey, rfl⟩) y hto
    obtain ⟨n, children, hchildren⟩ := mapM_enough (f := buildBranchTree g branch)
      (fun _ _ _ _ hnm => buildBranchTree_mono hnm) hbelow
    refine ⟨n + 1, .node (view x [] none) children, ?_⟩
    simp only [buildBranchTree, hchildren]
    rfl

end Acyclic

/-- Along every run whose requests put no node below itself, all walks end, from wherever they start. -/
theorem walks_end {es : List Event} (h : Runs.Along Graph.after (fun g e => e.KeepsAcyclic g) Graph.empty es) :
    (∀ projectId, ∃ steps path, getMainlinePath (Runs.run Graph.after Graph.empty es) projectId steps = some path) ∧
    (∀ grant targetId, ∃ steps ancestors, contextAncestors (Runs.run Graph.after Graph.empty es) grant targetId steps = some ancestors) ∧
    ∀ branch root, ∃ levels tree, buildBranchTree (Runs.run Graph.after Graph.empty es) branch levels root = .ok tree := by
  have hacyclic := reached_acyclic h
  exact ⟨getMainlinePath_ends hacyclic, contextAncestors_ends hacyclic, buildBranchTree_ends hacyclic⟩

theorem walks_end_sample :
    (∀ projectId, ∃ steps path, getMainlinePath (Runs.run Graph.after Graph.empty sampleProject) projectId steps = some path) ∧
    (∀ grant targetId, ∃ steps ancestors,
      contextAncestors (Runs.run Graph.after Graph.empty sampleProject) grant targetId steps = some ancestors) ∧
    ∀ branch root, ∃ levels tree,
      buildBranchTree (Runs.run Graph.after Graph.empty sampleProject) branch levels root = .ok tree :=
  walks_end (by simp [Runs.Along, sampleProject, sampleEvent, Event.KeepsAcyclic])

/-- The root of the sample project becomes a mainline child of its own child. -/
def circularProject : List Event :=
  sampleProject ++ [sampleEvent 4 (.createEdge ⟨2, sampleId 2, sampleId 1, "child_of", 1, "", true⟩)]

theorem mainlineWalk_turn {g : Graph} (hx : x ≠ "") (hnode : (g.nodes.get x).isSome = true)
    (hparent : (g.parentEdges x).length ≤ 1) (hnext : (mainlineEdge g x).map Edge.toNodeId = some y) {n : Nat}
    (hy : ∀ path, mainlineWalk g n (some y) path = none) (path : List PathEntry) : mainlineWalk g (n + 1) (some x) path = none := by
  obtain ⟨node, hnode⟩ := Option.isSome_iff_exists.mp hnode
  have htruthy : truthy (some x) = some x := by simp [truthy, hx]
  have hentered : ∃ isMainline, enteredByMainline g x path = .ok isMainline := by
    unfold enteredByMainline
    split
    · exact ⟨true, rfl⟩
    · cases hedges : g.parentEdges x with
      | nil => exact ⟨_, rfl⟩
      | cons e more =>
        cases more with
        | nil => exact ⟨_, rfl⟩
        | cons =>
          rw [hedges] at hparent
          simp at hparent
  obtain ⟨isMainline, hentered⟩ := hentered
  simp only [mainlineWalk, htruthy, hnode, hentered, hnext]
  exact hy _

theorem circular_walk (steps : Nat) : ∀ path,
    mainlineWalk (Runs.run Graph.after Graph.empty circularProject) steps (some (sampleId 1)) path = none ∧
    mainlineWalk (Runs.run Graph.after Graph.empty circularProject) steps (some (sampleId 2)) path = none := by
  induction steps with
  | zero => exact fun _ => ⟨rfl, rfl⟩
  | succ n ih =>
    intro path
    constructor
    · exact mainlineWalk_turn (by decide) (by decide +kernel) (by decide +kernel) (y := sampleId 2) (by decide +kernel)
        (fun path => (ih path).2) path
    · exact mainlineWalk_turn (by decide) (by decide +kernel) (by decide +kernel) (y := sampleId 1) (by decide +kernel)
        (fun path => (ih path).1) path

theorem circular_path_hangs :
    ¬ ∃ steps path, getMainlinePath (Runs.run Graph.after Graph.empty circularProject) (sampleId 0) steps = some path := by
  rintro ⟨steps, path, h⟩
  have hroot : ((Runs.run Graph.after Graph.empty circularProject).projects.get (sampleId 0)).map Project.rootNodeId =
      some (some (sampleId 1)) := by decide +kernel
  obtain ⟨project, hproject, hroot⟩ := Option.map_eq_some_iff.mp hroot
  have htruthy : truthy (some (sampleId 1)) = some (sampleId 1) := by decide
  simp only [getMainlinePath, hproject, hroot, htruthy, (circular_walk steps []).1] at h
  cases h

end GrowthMap.Client
