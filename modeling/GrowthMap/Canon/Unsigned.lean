import GrowthMap.Canon.Batch
import GrowthMap.Lib.TableMap

/- The graph without the columns that say who wrote a row.

   Nothing of a batch reads these columns, so the batches of two actors do the same to it. -/
namespace GrowthMap.Canon

open Relational Fallible

def Node.unsigned (n : Node) : Node := { n with createdBy := "", lastEditedBy := "" }

theorem Node.unsigned_key (n : Node) : n.unsigned.id = n.id := rfl

def ContentBlock.unsigned (b : ContentBlock) : ContentBlock := { b with createdBy := "" }

theorem ContentBlock.unsigned_key (b : ContentBlock) : b.unsigned.id = b.id := rfl

def Graph.unsigned (g : Graph) : Graph :=
  { g with
    nodes := g.nodes.mapRows Node.unsigned Node.unsigned_key,
    blocks := g.blocks.mapRows ContentBlock.unsigned ContentBlock.unsigned_key }

def Session.unsigned (s : Session) : Session := ⟨s.graph.unsigned, fun x => (s.held x).map Node.unsigned⟩

/-! The writes -/

theorem get_unsigned {g : Graph} {x : String} : g.unsigned.nodes.get x = (g.nodes.get x).map Node.unsigned :=
  @Table.get_mapRows _ _ _ _ _ Node.unsigned_key _ _

theorem insertNode_unsigned (n : Node) (g : Graph) : (insertNode n g).map Graph.unsigned = insertNode n.unsigned g.unsigned := by
  have hinsert : g.unsigned.nodes.insert n.unsigned = _ := @Table.insert_mapRows _ _ _ _ Node.unsigned Node.unsigned_key _ _
  rw [insertNode, insertNode, hinsert, map_guard]
  refine ite_congr rfl (fun _ => rfl) (fun _ => ?_)
  cases g.nodes.insert n <;> rfl

theorem insertEdge_unsigned (e : Edge) (g : Graph) : (insertEdge e g).map Graph.unsigned = insertEdge e g.unsigned := by
  rw [insertEdge, insertEdge, map_guard, map_guard]
  simp only [get_unsigned, Option.isNone_map]
  refine ite_congr rfl (fun _ => rfl) (fun _ => ite_congr rfl (fun _ => rfl) (fun _ => ?_))
  rw [show g.unsigned.edges = g.edges from rfl]
  cases g.edges.insert e <;> rfl

theorem insertBlock_unsigned (b : ContentBlock) (g : Graph) :
    (insertBlock b g).map Graph.unsigned = insertBlock b.unsigned g.unsigned := by
  have hinsert : g.unsigned.blocks.insert b.unsigned = _ := @Table.insert_mapRows _ _ _ _ ContentBlock.unsigned ContentBlock.unsigned_key _ _
  rw [insertBlock, insertBlock, hinsert, map_guard]
  simp only [get_unsigned, Option.isNone_map]
  refine ite_congr rfl (fun _ => rfl) (fun _ => ?_)
  cases g.blocks.insert b <;> rfl

theorem insertBranch_unsigned (b : Branch) (g : Graph) : (insertBranch b g).map Graph.unsigned = insertBranch b g.unsigned := by
  rw [insertBranch, insertBranch, map_guard]
  simp only [get_unsigned, Option.isNone_map]
  refine ite_congr rfl (fun _ => rfl) (fun _ => ?_)
  rw [show g.unsigned.branches = g.branches from rfl]
  cases g.branches.insert b <;> rfl

theorem patch_unsigned (old new row : Node) : (old.patch new row).unsigned = old.unsigned.patch new.unsigned row.unsigned := by
  simp only [Node.patch, Node.unsigned, ite_self]
  rfl

theorem flushNode_unsigned (old new : Node) (g : Graph) :
    (flushNode old new g).map Graph.unsigned = flushNode old.unsigned new.unsigned g.unsigned := by
  have hmodify : (g.nodes.modify old.id (old.patch new) Node.patch_key).mapRows Node.unsigned Node.unsigned_key =
      g.unsigned.nodes.modify old.id (old.unsigned.patch new.unsigned) Node.patch_key :=
    Table.modify_mapRows (patch_unsigned old new)
  rw [flushNode, flushNode, map_guard, map_guard, get_unsigned, Option.isNone_map]
  refine ite_congr rfl (fun _ => rfl) (fun _ => ite_congr rfl (fun _ => rfl) (fun _ => ?_))
  exact congrArg (fun nodes => Except.ok { g.unsigned with nodes }) hmodify

/-! A copy -/

theorem copy_unsigned (n : Node) (id branchId actor : String) :
    (n.copy id branchId actor).unsigned = n.unsigned.copy id branchId "" := by
  simp [Node.copy, Node.unsigned]

theorem copiedNodes_unsigned (uuid : Nat → String) (load : String → Option Node) (subtree : List String)
    (branchId actor : String) : (copiedNodes uuid load subtree branchId actor).map Node.unsigned =
      copiedNodes uuid (fun x => (load x).map Node.unsigned) subtree branchId "" := by
  simp only [copiedNodes, List.map_filterMap]
  refine List.filterMap_congr (fun x _ => ?_)
  cases load x with
  | none => rfl
  | some n =>
    cases idMap uuid subtree x with
    | none => rfl
    | some id => exact congrArg some (copy_unsigned n id branchId actor)

theorem copiedBlocks_unsigned (uuid : Nat → String) (g : Graph) (subtree : List String) (actor : String) (now : Int) :
    (copiedBlocks uuid g subtree actor now).map ContentBlock.unsigned = copiedBlocks uuid g.unsigned subtree "" now := by
  have hold : (subtree.flatMap fun x => (g.unsigned.blocks.rows.filter (fun b => decide (b.nodeId = x))).mergeSort
      (blockLE (fun _ => 0))) = (subtree.flatMap fun x => (g.blocks.rows.filter (fun b => decide (b.nodeId = x))).mergeSort
        (blockLE (fun _ => 0))).map ContentBlock.unsigned := by
    rw [List.map_flatMap]
    refine List.flatMap_congr (fun x _ => ?_)
    rw [List.map_mergeSort (f := ContentBlock.unsigned) (r := blockLE (fun _ => 0)) (s := blockLE (fun _ => 0))
      (fun _ _ _ _ => rfl)]
    congr 1
    show (g.blocks.rows.map ContentBlock.unsigned).filter _ = _
    rw [List.filter_map]
    rfl
  simp only [copiedBlocks, hold, List.zipIdx_map, List.filterMap_map, List.map_filterMap]
  refine List.filterMap_congr (fun x _ => ?_)
  show _ = Option.bind (idMap uuid subtree x.1.nodeId) _
  cases idMap uuid subtree x.1.nodeId <;> rfl

theorem copiedEdges_unsigned (uuid : Nat → String) (g : Graph) (projectId : String) (subtree : List String) :
    copiedEdges uuid g.unsigned projectId subtree = copiedEdges uuid g projectId subtree := by
  have hlength : g.unsigned.blocks.rows.length = g.blocks.rows.length := List.length_map _
  rw [copiedEdges, copiedEdges, hlength]
  rfl

theorem deepCopyBranch_unsigned (uuid : Nat → String) (load : String → Option Node)
    (projectId source name description branchId actor : String) (now : Int) (g : Graph) :
    (deepCopyBranch uuid load projectId source name description branchId actor now g).map Graph.unsigned =
      deepCopyBranch uuid (fun x => (load x).map Node.unsigned) projectId source name description branchId "" now
        g.unsigned := by
  unfold deepCopyBranch
  cases hload : load source with
  | none =>
    simp only [hload]
    rfl
  | some =>
    simp only [hload, Option.map_some, map_guard]
    refine ite_congr rfl (fun _ => rfl) (fun _ => ite_congr ?_ (fun _ => rfl) (fun _ => ?_))
    · simp only [get_unsigned, Option.all_map]
      rfl
    · refine map_bind (insertBranch_unsigned _ g) (fun h₁ => ?_)
      refine map_bind (u := Graph.unsigned) ?_ (fun h₂ => map_bind (u := Graph.unsigned) ?_ (fun h₃ => ?_))
      · rw [map_each insertNode_unsigned, copiedNodes_unsigned]
        rfl
      · rw [map_each insertBlock_unsigned, copiedBlocks_unsigned]
        rfl
      · rw [map_each (u := id) insertEdge_unsigned, List.map_id, ← copiedEdges_unsigned]
        rfl

/-! A batch -/

theorem node_unsigned (s : Session) (x : String) : s.unsigned.node x = (s.node x).map Node.unsigned := by
  unfold Session.node
  rw [show s.unsigned.graph.nodes.get x = _ from get_unsigned]
  show ((s.held x).map Node.unsigned).or _ = _
  cases s.held x <;> rfl

theorem write_unsigned (s : Session) (old new : Node) :
    (s.write old new).map Session.unsigned = s.unsigned.write old.unsigned new.unsigned := by
  refine map_bind (flushNode_unsigned old new s.graph) (fun g => ?_)
  refine congrArg (fun held => Except.ok (Session.mk g.unsigned held)) (funext fun x => ?_)
  show (Function.update s.held old.id (some new) x).map Node.unsigned =
    Function.update (fun x => (s.held x).map Node.unsigned) old.id (some new.unsigned) x
  by_cases hx : x = old.id
  · subst hx
    rw [Function.update_self, Function.update_self]
    rfl
  · rw [Function.update_of_ne hx, Function.update_of_ne hx]

theorem deferred_unsigned (flushed : Bool) {r r' : Except Err Graph} (h : r.map Graph.unsigned = r') :
    (deferred flushed r).map Graph.unsigned = deferred flushed r' := by
  subst h
  cases r with
  | ok => rfl
  | error e => cases e <;> cases flushed <;> rfl

/-- An operation does to the unsigned graph what it does, whoever acts. -/
theorem execute_unsigned (uuid : Nat → String) (now : Int) (projectId actor : String) (flushed : Bool) (op : Op String)
    (s : Session) : (execute uuid now projectId actor flushed op s).map (fun r => (r.1.unsigned, r.2)) =
      execute uuid now projectId "" flushed op s.unsigned := by
  cases op with
  | createNode id parent =>
    refine map_bind (insertNode_unsigned _ s.graph) (fun g => ?_)
    cases parent with
    | none => rfl
    | some =>
      refine map_bind (deferred_unsigned flushed (insertEdge_unsigned _ g)) (fun g' => ?_)
      rfl
  | updateNode nodeId =>
    simp only [execute, node_unsigned]
    cases s.node nodeId with
    | none => rfl
    | some n => exact map_bind (write_unsigned s n _) (fun s' => rfl)
  | createEdge =>
    exact map_bind (deferred_unsigned flushed (insertEdge_unsigned _ s.graph)) (fun g => rfl)
  | createContentBlock =>
    exact map_bind (deferred_unsigned flushed (insertBlock_unsigned _ s.graph)) (fun g => rfl)
  | createBranch =>
    have hload : (fun x => (s.node x).map Node.unsigned) = s.unsigned.node := funext (fun x => (node_unsigned s x).symm)
    refine map_bind ?_ (fun g => rfl)
    rw [deepCopyBranch_unsigned, hload]
    rfl

theorem executeAll_unsigned (uuid : Nat → Nat → String) (now : Int) (projectId actor : String)
    (order : List (Op String × Nat)) (s : Session) :
    (executeAll uuid now projectId actor order s).map (fun r => (r.1.unsigned, r.2)) =
      executeAll uuid now projectId "" order s.unsigned := by
  induction order generalizing s with
  | nil => rfl
  | cons x order ih =>
    refine map_bind (execute_unsigned (uuid x.2) now projectId actor _ x.1 s) (fun r => ?_)
    exact map_bind (ih r.1) (fun r' => rfl)

theorem bumpAll_unsigned (xs : List String) (s : Session) :
    (bumpAll xs s).map Session.unsigned = bumpAll xs s.unsigned := by
  induction xs generalizing s with
  | nil => rfl
  | cons x xs ih =>
    simp only [bumpAll, node_unsigned]
    cases s.node x with
    | none => exact ih s
    | some n => exact map_bind (write_unsigned s n _) (fun s' => ih s')

/-- Two batches with the same operations at the same revision do the same up to the actors. -/
theorem applyOperations_unsigned (see : Nat → Graph) (uuid : Nat → Nat → String) (now : Int) (grant : Grant)
    (actor actor' : String) {body body' : Batch} (hops : body'.operations = body.operations)
    (hrev : body'.expectedProjectRevision = body.expectedProjectRevision) (g : Graph) :
    (applyOperations see uuid now grant actor body g).map (fun r => (r.1.unsigned, r.2)) =
      (applyOperations see uuid now grant actor' body' g).map (fun r => (r.1.unsigned, r.2)) := by
  have hprepare : prepareBatch see uuid grant body' = prepareBatch see uuid grant body := by
    simp only [prepareBatch, hops, hrev]
  -- both are the batch of nobody on the unsigned graph
  have hanyone : ∀ (a : String) (ops : List (Op String)) (order : List (Op String × Nat)) (g₁ : Graph),
      (do
        let r ← executeAll (fun i k => uuid i (k + 1)) now grant.projectId a order
          ⟨g₁, (snapshotOf see grant.projectId ops).nodes⟩
        let session ← bumpAll (touchedNodes g₁ grant.projectId ops) r.1
        let ordered := (List.range ops.length).filterMap (fun i => (r.2.find? (fun r => decide (r.2 = i))).map Prod.fst)
        return (session.graph, body.expectedProjectRevision.val + 1, ordered) :
          Except Err (Graph × Int × List OpResult)).map (fun r => (r.1.unsigned, r.2)) =
      (do
        let r ← executeAll (fun i k => uuid i (k + 1)) now grant.projectId "" order
          (Session.mk g₁ (snapshotOf see grant.projectId ops).nodes).unsigned
        let session ← bumpAll (touchedNodes g₁ grant.projectId ops) r.1
        let ordered := (List.range ops.length).filterMap (fun i => (r.2.find? (fun r => decide (r.2 = i))).map Prod.fst)
        return (session.graph, body.expectedProjectRevision.val + 1, ordered)) := by
    intro a ops order g₁
    refine map_bind (executeAll_unsigned _ now grant.projectId a order _) (fun r => ?_)
    exact map_bind (bumpAll_unsigned _ r.1) (fun s => rfl)
  unfold applyOperations
  rw [hprepare, hrev]
  cases prepareBatch see uuid grant body with
  | error => rfl
  | ok prepared =>
    cases claimBatch grant.projectId body.expectedProjectRevision.val g with
    | error => rfl
    | ok g₁ => exact (hanyone actor prepared.1 prepared.2 g₁).trans (hanyone actor' prepared.1 prepared.2 g₁).symm

end GrowthMap.Canon
