import GrowthMap.Canon.Validation

/- The execution of a batch, on the graph alone.

   A session that holds only what the graph has reads the graph, so that each operation is a
   step from one graph to the next and a batch is a run of such steps. -/
namespace GrowthMap.Canon

open Relational Relation Table Fallible

/-! Sessions -/

/-- The session holds no row that the graph does not have. -/
def Session.Held (s : Session) : Prop := ∀ x n, s.held x = some n → s.graph.nodes.get x = some n

theorem Session.Held.node {s : Session} (hs : s.Held) : s.node = s.graph.nodes.get := by
  funext x
  cases hx : s.held x with
  | none => simp [Session.node, hx]
  | some n => simp [Session.node, hx, hs x n hx]

def Node.SameIdentity (old new : Node) : Prop := new.id = old.id ∧ new.projectId = old.projectId ∧ new.createdBy = old.createdBy

variable {old new n : Node} {g g' : Graph} {s s' : Session} {flushed : Bool} {x p description actor : String}
  {op : Op String} {subtree : List String} {order : List (Op String × Nat)}

theorem Node.patch_self (h : old.SameIdentity new) : old.patch new old = new := by
  obtain ⟨hid, hproject, hcreated⟩ := h
  cases old
  cases new
  simp only [Node.patch, Node.mk.injEq] at *
  refine ⟨hid.symm, hproject.symm, ?_, ?_, hcreated.symm, ?_, ?_⟩
  · split <;> simp_all
  · funext c
    split <;> simp_all
  · split <;> simp_all
  · split <;> simp_all

theorem flushNode_get (hrow : g.nodes.get old.id = some old) (hsame : old.SameIdentity new)
    (h : flushNode old new g = .ok g') (x : String) :
    g'.nodes.get x = if x = old.id then some new else g.nodes.get x := by
  rw [flushNode_ok h]
  show (g.nodes.modify old.id (old.patch new) Node.patch_key).get x = _
  rw [get_modify]
  split
  · rename_i hx
    rw [hx, hrow, Option.map_some, Node.patch_self hsame]
  · rfl

theorem Session.write_ok (hs : s.Held) (hrow : s.graph.nodes.get old.id = some old)
    (hsame : old.SameIdentity new) (h : s.write old new = .ok s') : flushNode old new s.graph = .ok s'.graph ∧ s'.Held := by
  obtain ⟨graph, hflush, h⟩ := bind_ok h
  cases h
  refine ⟨hflush, ?_⟩
  intro x n hx
  show graph.nodes.get x = some n
  rw [flushNode_get hrow hsame hflush]
  by_cases heq : x = old.id
  · subst heq
    simpa using hx
  · rw [if_neg heq]
    exact hs x n (by simpa [Function.update_of_ne heq] using hx)

/-! One operation -/

def Op.row (p actor id title summary nodeType : String) (b : Option String) : Node :=
  ⟨id, p, b, setFields [(.title, .text (strip title)), (.summary, .text summary), (.nodeType, .text nodeType)]
    NodeField.default, actor, actor, 1⟩

/-- What an operation does to the graph. -/
inductive Executed (uuid : Nat → String) (now : Int) (p actor : String) (g g' : Graph) : Op String → Prop where
  | root {id title summary nodeType : String} {b : Option String}
      (h : insertNode (Op.row p actor id title summary nodeType b) g = .ok g') :
      Executed uuid now p actor g g' (.createNode id none b title summary nodeType)
  | child {id q title summary nodeType : String} {expected : Revision} {b : Option String} {g₁ : Graph}
      (hnode : insertNode (Op.row p actor id title summary nodeType b) g = .ok g₁)
      (hedge : insertEdge ⟨uuid 0, p, q, id, "child_of", 1, "", false, 1⟩ g₁ = .ok g') :
      Executed uuid now p actor g g' (.createNode id (some (q, expected)) b title summary nodeType)
  | update {x : String} {expected : Revision} {fields : List (NodeField × Value)} {n new : Node}
      (hn : g.nodes.get x = some n) (hsame : n.SameIdentity new)
      (hkeep : new.branchId = n.branchId ∧ new.revision = n.revision) (h : flushNode n new g = .ok g') :
      Executed uuid now p actor g g' (.updateNode x expected fields)
  | edge {id a b relationType note : String} {ea eb : Revision} {weight : Rat}
      (h : insertEdge ⟨id, p, a, b, relationType, weight, note, false, 1⟩ g = .ok g') :
      Executed uuid now p actor g g' (.createEdge id a b ea eb relationType weight note)
  | block {id x blockType : String} {expected : Revision} {content : Value} {orderIndex : Int}
      (h : insertBlock ⟨id, x, blockType, content, orderIndex, actor, now, 1⟩ g = .ok g') :
      Executed uuid now p actor g g' (.createContentBlock id x expected blockType content orderIndex)
  | branch {id x name description : String} {expected : Revision}
      (h : Copied uuid g.nodes.get p x (strip name) description id actor now g g') :
      Executed uuid now p actor g g' (.createBranch id x expected name description)

def Op.reported (g : Graph) : Op String → OpResult
  | op@(.createNode id ..) | op@(.createEdge id ..) | op@(.createContentBlock id ..) | op@(.createBranch id ..) =>
    ⟨op.name, id, 1⟩
  | op@(.updateNode x ..) => ⟨op.name, x, ((g.nodes.get x).map Node.revision).getD 0 + 1⟩

theorem deferred_ok {x : Except Err Graph} (h : deferred flushed x = .ok g) : x = .ok g := by
  unfold deferred at h
  split at h
  · split at h <;> cases h
  · split at h <;> cases h
  · exact h

theorem held_of_nodes (hs : s.Held) (hheld : s'.held = s.held)
    (hkeep : ∀ x n, s.graph.nodes.get x = some n → s'.graph.nodes.get x = some n) : s'.Held := by
  intro x n hx
  rw [hheld] at hx
  exact hkeep x n (hs x n hx)

theorem insertNode_keeps (h : insertNode n g = .ok g') {m : Node}
    (hm : g.nodes.get x = some m) : g'.nodes.get x = some m := by
  obtain ⟨-, nodes, hins, rfl⟩ := insertNode_ok h
  exact get_insert_old hins hm

theorem insertEdge_nodes {e : Edge} (h : insertEdge e g = .ok g') : g'.nodes = g.nodes := by
  obtain ⟨-, edges, -, rfl⟩ := insertEdge_ok h
  rfl

variable {uuid : Nat → String} {name id : String} {now : Int}

theorem Copied.keeps {load : String → Option Node} {source branchId : String}
    (h : Copied uuid load p source name description branchId actor now g g')
    (hn : g.nodes.get x = some n) : g'.nodes.get x = some n := by
  obtain ⟨hmem, hkey⟩ := get_eq_some.mp hn
  exact get_eq_some.mpr ⟨by simp [h.rowsOf.nodes, hmem], hkey⟩

theorem execute_ok
    {r : OpResult} (hs : s.Held) (h : execute uuid now p actor flushed op s = .ok (s', r)) :
    Executed uuid now p actor s.graph s'.graph op ∧ s'.Held ∧ r = op.reported s.graph := by
  cases op with
  | createNode id parent =>
    obtain ⟨g₁, hnode, h⟩ := bind_ok h
    cases parent with
    | none =>
      cases h
      exact ⟨.root hnode, held_of_nodes hs rfl (fun _ _ hm => insertNode_keeps hnode hm), rfl⟩
    | some =>
      obtain ⟨g₂, hedge, h⟩ := bind_ok h
      cases h
      have hedge := deferred_ok hedge
      refine ⟨.child hnode hedge, held_of_nodes hs rfl ?_, rfl⟩
      intro x m hm
      show g₂.nodes.get x = some m
      rw [insertEdge_nodes hedge]
      exact insertNode_keeps hnode hm
  | updateNode x =>
    simp only [execute, hs.node] at h
    cases hn : s.graph.nodes.get x with
    | none => simp [hn] at h
    | some n =>
      simp only [hn] at h
      obtain ⟨s₁, hwrite, h⟩ := bind_ok h
      cases h
      have hrow : s.graph.nodes.get n.id = some n := by rw [get_key hn]; exact hn
      obtain ⟨hflush, hheld⟩ := Session.write_ok hs hrow (by exact ⟨rfl, rfl, rfl⟩) hwrite
      exact ⟨.update hn (by exact ⟨rfl, rfl, rfl⟩) (by exact ⟨rfl, rfl⟩) hflush, hheld, by simp [Op.reported, hn]⟩
  | createEdge =>
    obtain ⟨g₁, hedge, h⟩ := bind_ok h
    cases h
    have hedge := deferred_ok hedge
    refine ⟨.edge hedge, held_of_nodes hs rfl ?_, rfl⟩
    intro x m hm
    show g₁.nodes.get x = some m
    rw [insertEdge_nodes hedge]
    exact hm
  | createContentBlock id x =>
    obtain ⟨g₁, hblock, h⟩ := bind_ok h
    cases h
    have hblock := deferred_ok hblock
    refine ⟨.block hblock, held_of_nodes hs rfl ?_, rfl⟩
    intro x m hm
    obtain ⟨blocks, -, rfl⟩ := insertBlock_ok hblock
    exact hm
  | createBranch =>
    obtain ⟨g₁, hcopy, h⟩ := bind_ok h
    cases h
    rw [hs.node] at hcopy
    have hcopy := deepCopyBranch_ok hcopy
    exact ⟨.branch hcopy, held_of_nodes hs rfl (fun _ _ hm => hcopy.keeps hm), rfl⟩

/-! What an operation can do -/

def Op.updated : Op String → Option String
  | .updateNode x .. => some x
  | _ => none

def Op.owner : Op String → Option String
  | .createContentBlock _ x .. => some x
  | _ => none

def Edge.ends (e : Edge) : String × String × String := (e.relationType, e.fromNodeId, e.toNodeId)

/-- The edge an operation adds between nodes it names. -/
def Op.ends : Op String → Option (String × String × String)
  | .createNode id parent .. => parent.map (fun q => ("child_of", q.1, id))
  | .createEdge _ a b _ _ relationType .. => some (relationType, a, b)
  | _ => none

/-- What an operation leaves of a node. -/
structure Node.Evolves (old new : Node) : Prop where
  identity : old.SameIdentity new
  branch : new.branchId = old.branchId
  revision : new.revision = old.revision

theorem Node.Evolves.refl (n : Node) : n.Evolves n := ⟨⟨rfl, rfl, rfl⟩, rfl, rfl⟩

theorem Node.Evolves.trans {a b c : Node} (h : a.Evolves b) (h' : b.Evolves c) : a.Evolves c :=
  ⟨⟨h'.identity.1.trans h.identity.1, h'.identity.2.1.trans h.identity.2.1, h'.identity.2.2.trans h.identity.2.2⟩,
    h'.branch.trans h.branch, h'.revision.trans h.revision⟩

/-- The operation copies a node of the subtree of its source into its branch. -/
def CopyOf (p actor : String) (g : Graph) (op : Op String) (x : String) (n : Node) : Prop :=
  ∃ b source expected name description y old, op = .createBranch b source expected name description ∧
    y ∈ subtreeOf g p source ∧ g.nodes.get y = some old ∧ n = old.copy x b actor

def IsNew (g g' : Graph) (x : String) : Prop := g.nodes.get x = none ∧ ∃ n, g'.nodes.get x = some n

structure Effect (p actor : String) (g g' : Graph) (op : Op String) : Prop where
  projects : g'.projects = g.projects
  keeps : ∀ x n, g.nodes.get x = some n → ∃ n', g'.nodes.get x = some n' ∧ n.Evolves n' ∧ (op.updated ≠ some x → n' = n)
  created : ∀ x b, op.newNode = some (x, b) → g.nodes.get x = none ∧
    ∃ n, g'.nodes.get x = some n ∧ n.projectId = p ∧ n.branchId = b ∧ n.revision = 1
  new : ∀ x n, g'.nodes.get x = some n → g.nodes.get x = none → (∃ b, op.newNode = some (x, b)) ∨ CopyOf p actor g op x n
  edges : ∃ es, g'.edges.rows = g.edges.rows ++ es ∧ ∀ e ∈ es, e.projectId = p ∧ e.revision = 1 ∧
    (op.ends = some e.ends ∨ op.newNode = none ∧ IsNew g g' e.fromNodeId ∧ IsNew g g' e.toNodeId)
  blocks : ∃ bs, g'.blocks.rows = g.blocks.rows ++ bs ∧ ∀ b ∈ bs, b.revision = 1 ∧
    (op.owner = some b.nodeId ∨ op.newNode = none ∧ IsNew g g' b.nodeId)
  branches : ∃ bs, g'.branches.rows = g.branches.rows ++ bs ∧ bs.map Branch.id = op.newBranch.toList ∧
    ∀ b ∈ bs, b.projectId = p ∧ b.revision = 1

theorem keeps_of_nodes (h : g'.nodes = g.nodes) (op : Op String) (x : String) (n : Node)
    (hn : g.nodes.get x = some n) : ∃ n', g'.nodes.get x = some n' ∧ n.Evolves n' ∧ (op.updated ≠ some x → n' = n) :=
  ⟨n, by rw [h]; exact hn, .refl n, fun _ => rfl⟩

theorem new_of_nodes {P : String → Node → Prop} (h : g'.nodes = g.nodes) (x : String) (n : Node)
    (hn : g'.nodes.get x = some n) (hx : g.nodes.get x = none) : P x n := by
  rw [h, hx] at hn
  cases hn

theorem effect_node {g₁ : Graph} {title summary nodeType : String} {b : Option String}
    {es : List Edge} (hop : op.newNode = some (id, b)) (hbranch : op.newBranch = none)
    (hnode : insertNode (Op.row p actor id title summary nodeType b) g = .ok g₁)
    (hnodes : g'.nodes = g₁.nodes) (hprojects : g'.projects = g₁.projects) (hblocks : g'.blocks = g₁.blocks)
    (hbranches : g'.branches = g₁.branches) (hedges : g'.edges.rows = g₁.edges.rows ++ es)
    (hes : ∀ e ∈ es, e.projectId = p ∧ e.revision = 1 ∧ op.ends = some e.ends) : Effect p actor g g' op := by
  obtain ⟨-, nodes, hins, rfl⟩ := insertNode_ok hnode
  refine ⟨hprojects, ?_, ?_, ?_, ⟨es, hedges, ?_⟩, ⟨[], by simp [hblocks], by simp⟩, [], by simp [hbranches], by simp [hbranch],
    by simp⟩
  · intro x n hn
    exact ⟨n, by rw [hnodes]; exact get_insert_old hins hn, .refl n, fun _ => rfl⟩
  · intro x b' hx
    rw [hop] at hx
    cases hx
    exact ⟨insert_fresh hins, _, by rw [hnodes]; exact get_insert_self hins, rfl, rfl, rfl⟩
  · intro x n hn hx
    rw [hnodes] at hn
    rcases get_insert_cases hins hn with ⟨hkey, -⟩ | hold
    · exact .inl ⟨b, by rw [hop, hkey]; rfl⟩
    · rw [hx] at hold
      cases hold
  · intro e he
    obtain ⟨hp, hrev, hends⟩ := hes e he
    exact ⟨hp, hrev, .inl hends⟩

theorem copiedEdges_revision {e : Edge}
    (h : e ∈ copiedEdges uuid g p subtree) : e.revision = 1 := by
  obtain ⟨x, -, he⟩ := List.mem_filterMap.mp h
  obtain ⟨a, -, he⟩ := Option.bind_eq_some_iff.mp he
  obtain ⟨b, -, he⟩ := Option.bind_eq_some_iff.mp he
  cases he
  rfl

theorem copiedBlocks_revision
    {b : ContentBlock} (h : b ∈ copiedBlocks uuid g subtree actor now) : b.revision = 1 := by
  obtain ⟨x, -, hb⟩ := List.mem_filterMap.mp h
  obtain ⟨id, -, hb⟩ := Option.bind_eq_some_iff.mp hb
  cases hb
  rfl

theorem effect_copy
    {expected : Revision} (h : Copied uuid g.nodes.get p x (strip name) description id actor now g g') :
    Effect p actor g g' (.createBranch id x expected name description) := by
  have hrows := h.rowsOf
  have hadded : Added g g'.nodes _ := added_of_rows hrows.nodes
  have hcopy : ∀ y c, idMap uuid (subtreeOf g p x) y = some c → IsNew g g' c := by
    intro y c hc
    obtain ⟨old, hold, -⟩ := h.has y (mem_of_idMap hc)
    have hm := copiedNodes_mem id actor (mem_of_idMap hc) hold hc
    exact ⟨hadded.fresh _ hm, _, hadded.get _ hm⟩
  refine ⟨hrows.projects, ?_, by simp [Op.newNode], ?_, ⟨_, hrows.edges, ?_⟩, ⟨_, hrows.blocks, ?_⟩, _, hrows.branches, rfl,
    by simp⟩
  · intro y n hn
    exact ⟨n, hadded.old y n hn, .refl n, fun _ => rfl⟩
  · intro y n hn hy
    obtain ⟨hmem, hkey⟩ := get_eq_some.mp hn
    rw [hrows.nodes, List.mem_append] at hmem
    rcases hmem with hmem | hmem
    · exact absurd (hkey ▸ get_of_mem hmem) (by simp [hy])
    · obtain ⟨z, hz, old, c, hold, -, rfl⟩ := mem_copiedNodes hmem
      exact .inr ⟨id, x, expected, name, description, z, old, rfl, hz, hold, by rw [← hkey]; rfl⟩
  · intro e he
    obtain ⟨hp, a, b, ha, hb⟩ := mem_copiedEdges he
    exact ⟨hp, copiedEdges_revision he, .inr ⟨rfl, hcopy a _ ha, hcopy b _ hb⟩⟩
  · intro b hb
    obtain ⟨y, hy⟩ := mem_copiedBlocks hb
    exact ⟨copiedBlocks_revision hb, .inr ⟨rfl, hcopy y _ hy⟩⟩

theorem Executed.effect (h : Executed uuid now p actor g g' op) : Effect p actor g g' op := by
  cases h with
  | root h => exact effect_node rfl rfl h rfl rfl rfl rfl (List.append_nil _).symm (by simp)
  | child hnode hedge =>
    obtain ⟨-, edges, hins, rfl⟩ := insertEdge_ok hedge
    refine effect_node rfl rfl hnode rfl rfl rfl rfl (insert_rows hins) ?_
    intro e he
    rw [List.mem_singleton.mp he]
    exact ⟨rfl, rfl, rfl⟩
  | @update x expected fields n new hn hsame hkeep h =>
    have hrow : g.nodes.get n.id = some n := by rw [get_key hn]; exact hn
    have hid : n.id = x := get_key hn
    have hget := flushNode_get hrow hsame h
    refine ⟨by rw [flushNode_ok h], ?_, by simp [Op.newNode], ?_, ⟨[], by simp [flushNode_ok h], by simp⟩,
      ⟨[], by simp [flushNode_ok h], by simp⟩, [], by simp [flushNode_ok h], rfl, by simp⟩
    · intro y m hm
      rw [hget]
      by_cases hy : y = n.id
      · rw [hy, hrow] at hm
        cases hm
        exact ⟨new, by rw [if_pos hy], ⟨hsame, hkeep.1, hkeep.2⟩, fun hne => absurd (by rw [hy, hid]; rfl) hne⟩
      · exact ⟨m, by rw [if_neg hy]; exact hm, .refl m, fun _ => rfl⟩
    · intro y m hm hy
      rw [hget] at hm
      split at hm
      · rename_i heq
        rw [heq, hrow] at hy
        cases hy
      · rw [hy] at hm
        cases hm
  | edge h =>
    obtain ⟨-, edges, hins, rfl⟩ := insertEdge_ok h
    refine ⟨rfl, keeps_of_nodes rfl _, by simp [Op.newNode], new_of_nodes rfl, ⟨_, insert_rows hins, ?_⟩,
      ⟨[], by simp, by simp⟩, [], by simp, rfl, by simp⟩
    intro e he
    rw [List.mem_singleton.mp he]
    exact ⟨rfl, rfl, .inl rfl⟩
  | block h =>
    obtain ⟨blocks, hins, rfl⟩ := insertBlock_ok h
    refine ⟨rfl, keeps_of_nodes rfl _, by simp [Op.newNode], new_of_nodes rfl, ⟨[], by simp, by simp⟩,
      ⟨_, insert_rows hins, ?_⟩, [], by simp, rfl, by simp⟩
    intro b hb
    rw [List.mem_singleton.mp hb]
    exact ⟨rfl, .inl rfl⟩
  | branch h => exact effect_copy h

/-! A run of operations -/

/-- Operations one after the other. -/
inductive Ran (uuid : Nat → Nat → String) (now : Int) (p actor : String) (g : Graph) : List (Op String × Nat) → Graph → Prop where
  | nil : Ran uuid now p actor g [] g
  | snoc {done : List (Op String × Nat)} {g₁ g₂ : Graph} {op : Op String} {i : Nat} (h : Ran uuid now p actor g done g₁)
      (hop : Executed (uuid i) now p actor g₁ g₂ op) : Ran uuid now p actor g (done ++ [(op, i)]) g₂

/-- A result of the run: which operation it is of, and the graph that operation found. -/
def Reports (uuid : Nat → Nat → String) (now : Int) (p actor : String) (g : Graph) (order : List (Op String × Nat))
    (x : Op String × Nat) (r : OpResult × Nat) : Prop :=
  r.2 = x.2 ∧ ∃ done post g₁, order = done ++ x :: post ∧ Ran uuid now p actor g done g₁ ∧ r.1 = x.1.reported g₁

theorem executeAll_ran {uuid : Nat → Nat → String} {done ops : List (Op String × Nat)}
    {results : List (OpResult × Nat)} (hdone : Ran uuid now p actor g done s.graph) (hs : s.Held)
    (h : executeAll uuid now p actor ops s = .ok (s', results)) :
    Ran uuid now p actor g (done ++ ops) s'.graph ∧ s'.Held ∧
      List.Forall₂ (Reports uuid now p actor g (done ++ ops)) ops results := by
  induction ops generalizing done s results with
  | nil =>
    cases h
    rw [List.append_nil]
    exact ⟨hdone, hs, .nil⟩
  | cons x ops ih =>
    obtain ⟨op, i⟩ := x
    obtain ⟨⟨s₁, r⟩, hop, h⟩ := bind_ok h
    obtain ⟨⟨s₂, rest⟩, hrest, h⟩ := bind_ok h
    cases h
    obtain ⟨hexec, hs₁, rfl⟩ := execute_ok hs hop
    obtain ⟨hran, hs₂, hreports⟩ := ih (hdone.snoc hexec) hs₁ hrest
    rw [List.append_assoc, List.singleton_append] at hran hreports
    exact ⟨hran, hs₂, .cons ⟨rfl, done, ops, s.graph, rfl, hdone, rfl⟩ hreports⟩

theorem Ran.invariant {uuid : Nat → Nat → String}
    (h : Ran uuid now p actor g order g') (I : List (Op String × Nat) → Graph → Prop)
    (hnil : I [] g)
    (hstep : ∀ done op i post g₁ g₂, order = done ++ (op, i) :: post → Ran uuid now p actor g done g₁ → I done g₁ →
      Executed (uuid i) now p actor g₁ g₂ op → I (done ++ [(op, i)]) g₂) : I order g' := by
  have hstage : ∀ done g₁, Ran uuid now p actor g done g₁ → ∀ post, order = done ++ post → I done g₁ := by
    intro done g₁ hran
    induction hran with
    | nil => exact fun _ _ => hnil
    | snoc hran hop ih =>
      intro post horder
      rw [List.append_assoc, List.singleton_append] at horder
      exact hstep _ _ _ post _ _ horder hran (ih _ horder) hop
  exact hstage order g' h [] (by simp)

/-! What a run can do -/

section Grown

variable {uuid : Nat → Nat → String} {now : Int} {p actor : String} {g g₁ g₂ : Graph} {done : List (Op String × Nat)}

def newNodes (done : List (Op String × Nat)) : List (String × Option String) := done.filterMap (fun x => x.1.newNode)

theorem newNodes_snoc (done : List (Op String × Nat)) (op : Op String) (i : Nat) :
    newNodes (done ++ [(op, i)]) = newNodes done ++ op.newNode.toList := by
  cases hop : op.newNode <;> simp [newNodes, hop]

/-- A node some operation of the run copied into its branch. -/
def CopiedIn (uuid : Nat → Nat → String) (now : Int) (p actor : String) (g : Graph) (done : List (Op String × Nat)) (x : String)
    (n : Node) : Prop :=
  ∃ pre op i post g₁, done = pre ++ (op, i) :: post ∧ Ran uuid now p actor g pre g₁ ∧ CopyOf p actor g₁ op x n

theorem CopiedIn.snoc (h : CopiedIn uuid now p actor g done x n) (op : Op String × Nat) :
    CopiedIn uuid now p actor g (done ++ [op]) x n := by
  obtain ⟨pre, o, i, post, g₁, rfl, hran, hcopy⟩ := h
  exact ⟨pre, o, i, post ++ [op], g₁, by simp, hran, hcopy⟩

def IsCopy (g : Graph) (done : List (Op String × Nat)) (g' : Graph) (x : String) : Prop :=
  IsNew g g' x ∧ ∀ b, (x, b) ∉ newNodes done

structure Grown (uuid : Nat → Nat → String) (now : Int) (p actor : String) (g : Graph) (done : List (Op String × Nat))
    (g' : Graph) : Prop where
  projects : g'.projects = g.projects
  keeps : ∀ x n, g.nodes.get x = some n →
    ∃ n', g'.nodes.get x = some n' ∧ n.Evolves n' ∧ ((∀ op ∈ done, op.1.updated ≠ some x) → n' = n)
  created : ∀ x b, (x, b) ∈ newNodes done → g.nodes.get x = none ∧
    ∃ n, g'.nodes.get x = some n ∧ n.projectId = p ∧ n.branchId = b ∧ n.revision = 1
  copied : ∀ x n, g'.nodes.get x = some n → IsCopy g done g' x → CopiedIn uuid now p actor g done x n
  edges : ∃ es, g'.edges.rows = g.edges.rows ++ es ∧ ∀ e ∈ es, e.projectId = p ∧ e.revision = 1 ∧
    ((∃ op ∈ done, op.1.ends = some e.ends) ∨ IsCopy g done g' e.fromNodeId ∧ IsCopy g done g' e.toNodeId)
  blocks : ∃ bs, g'.blocks.rows = g.blocks.rows ++ bs ∧ ∀ b ∈ bs, b.revision = 1 ∧
    ((∃ op ∈ done, op.1.owner = some b.nodeId) ∨ IsCopy g done g' b.nodeId)
  branches : ∃ bs, g'.branches.rows = g.branches.rows ++ bs ∧ bs.map Branch.id = done.filterMap (fun x => x.1.newBranch) ∧
    ∀ b ∈ bs, b.projectId = p ∧ b.revision = 1

theorem grown_nil : Grown uuid now p actor g [] g := by
  refine ⟨rfl, ?_, by simp [newNodes], ?_, ⟨[], by simp, by simp⟩, ⟨[], by simp, by simp⟩, [], by simp, rfl, by simp⟩
  · intro x n hn
    exact ⟨n, hn, .refl n, fun _ => rfl⟩
  · rintro x n hn ⟨⟨hnone, -⟩, -⟩
    rw [hn] at hnone
    cases hnone

theorem Grown.old_none (hgrown : Grown uuid now p actor g done g₁) (hx : g₁.nodes.get x = none) :
    g.nodes.get x = none := by
  cases hn : g.nodes.get x with
  | none => rfl
  | some n =>
    obtain ⟨n', hn', -⟩ := hgrown.keeps x n hn
    rw [hx] at hn'
    cases hn'

theorem IsCopy.step (heffect : Effect p actor g₁ g₂ op) (h : IsCopy g done g₁ x) (i : Nat) :
    IsCopy g (done ++ [(op, i)]) g₂ x := by
  obtain ⟨⟨hnone, n, hn⟩, hnot⟩ := h
  obtain ⟨n', hn', -⟩ := heffect.keeps x n hn
  refine ⟨⟨hnone, n', hn'⟩, ?_⟩
  intro b hb
  rw [newNodes_snoc, List.mem_append, Option.mem_toList] at hb
  rcases hb with hb | hb
  · exact hnot b hb
  · have hfree := (heffect.created x b hb).1
    rw [hn] at hfree
    cases hfree

theorem IsNew.isCopy (hgrown : Grown uuid now p actor g done g₁) (hop : op.newNode = none)
    (h : IsNew g₁ g₂ x) (i : Nat) : IsCopy g (done ++ [(op, i)]) g₂ x := by
  refine ⟨⟨hgrown.old_none h.1, h.2⟩, ?_⟩
  intro b hb
  rw [newNodes_snoc, hop, Option.toList_none, List.append_nil] at hb
  obtain ⟨-, n, hn, -⟩ := hgrown.created x b hb
  rw [h.1] at hn
  cases hn

theorem Grown.step {i : Nat} (hgrown : Grown uuid now p actor g done g₁)
    (hran : Ran uuid now p actor g done g₁) (heffect : Effect p actor g₁ g₂ op)
    (hupdate : ∀ x, op.updated = some x → ∃ n, g.nodes.get x = some n) :
    Grown uuid now p actor g (done ++ [(op, i)]) g₂ := by
  have hlast : (op, i) ∈ done ++ [(op, i)] := by simp
  refine ⟨heffect.projects.trans hgrown.projects, ?_, ?_, ?_, ?_, ?_, ?_⟩
  · intro x n hn
    obtain ⟨n₁, hn₁, hevolves, hsame⟩ := hgrown.keeps x n hn
    obtain ⟨n₂, hn₂, hevolves', hsame'⟩ := heffect.keeps x n₁ hn₁
    refine ⟨n₂, hn₂, hevolves.trans hevolves', ?_⟩
    intro hno
    rw [hsame' (hno _ hlast), hsame (fun o ho => hno o (List.mem_append_left _ ho))]
  · intro x b hx
    rw [newNodes_snoc, List.mem_append, Option.mem_toList] at hx
    rcases hx with hx | hx
    · obtain ⟨hnone, n, hn, hp, hb, hrev⟩ := hgrown.created x b hx
      obtain ⟨n', hn', hevolves, -⟩ := heffect.keeps x n hn
      exact ⟨hnone, n', hn', hevolves.identity.2.1.trans hp, hevolves.branch.trans hb, hevolves.revision.trans hrev⟩
    · obtain ⟨hnone, hnew⟩ := heffect.created x b hx
      exact ⟨hgrown.old_none hnone, hnew⟩
  · rintro x n hn ⟨⟨hnone, -⟩, hnot⟩
    cases hx : g₁.nodes.get x with
    | some n₁ =>
      -- a copy of an earlier operation: no operation updates it
      obtain ⟨n₂, hn₂, -, hsame⟩ := heffect.keeps x n₁ hx
      have hkept : n₂ = n₁ := by
        apply hsame
        intro hup
        obtain ⟨m, hm⟩ := hupdate x hup
        rw [hnone] at hm
        cases hm
      rw [hn₂] at hn
      cases hn
      refine (hgrown.copied x n (hkept ▸ hx) ⟨⟨hnone, n₁, hx⟩, ?_⟩).snoc _
      intro b hb
      exact hnot b (by rw [newNodes_snoc]; exact List.mem_append_left _ hb)
    | none =>
      rcases heffect.new x n hn hx with ⟨b, hb⟩ | hcopy
      · exact absurd (by rw [newNodes_snoc, hb]; simp) (hnot b)
      · exact ⟨done, op, i, [], g₁, rfl, hran, hcopy⟩
  · obtain ⟨es, hrows, hes⟩ := hgrown.edges
    obtain ⟨es', hrows', hes'⟩ := heffect.edges
    refine ⟨es ++ es', by rw [hrows', hrows, List.append_assoc], ?_⟩
    intro e he
    rcases List.mem_append.mp he with he | he
    · obtain ⟨hp, hrev, hends⟩ := hes e he
      refine ⟨hp, hrev, ?_⟩
      rcases hends with ⟨o, ho, hends⟩ | ⟨hfrom, hto⟩
      · exact .inl ⟨o, List.mem_append_left _ ho, hends⟩
      · exact .inr ⟨hfrom.step heffect i, hto.step heffect i⟩
    · obtain ⟨hp, hrev, hends⟩ := hes' e he
      refine ⟨hp, hrev, ?_⟩
      rcases hends with hends | ⟨hop, hfrom, hto⟩
      · exact .inl ⟨_, hlast, hends⟩
      · exact .inr ⟨hfrom.isCopy hgrown hop i, hto.isCopy hgrown hop i⟩
  · obtain ⟨bs, hrows, hbs⟩ := hgrown.blocks
    obtain ⟨bs', hrows', hbs'⟩ := heffect.blocks
    refine ⟨bs ++ bs', by rw [hrows', hrows, List.append_assoc], ?_⟩
    intro b hb
    rcases List.mem_append.mp hb with hb | hb
    · obtain ⟨hrev, hown⟩ := hbs b hb
      refine ⟨hrev, ?_⟩
      rcases hown with ⟨o, ho, hown⟩ | hcopy
      · exact .inl ⟨o, List.mem_append_left _ ho, hown⟩
      · exact .inr (hcopy.step heffect i)
    · obtain ⟨hrev, hown⟩ := hbs' b hb
      refine ⟨hrev, ?_⟩
      rcases hown with hown | ⟨hop, hnew⟩
      · exact .inl ⟨_, hlast, hown⟩
      · exact .inr (hnew.isCopy hgrown hop i)
  · obtain ⟨bs, hrows, hids, hbs⟩ := hgrown.branches
    obtain ⟨bs', hrows', hids', hbs'⟩ := heffect.branches
    refine ⟨bs ++ bs', by rw [hrows', hrows, List.append_assoc], ?_, ?_⟩
    · rw [List.map_append, hids, hids', List.filterMap_append]
      cases hop : op.newBranch <;> simp [hop]
    · intro b hb
      rcases List.mem_append.mp hb with hb | hb
      · exact hbs b hb
      · exact hbs' b hb

theorem Ran.grown (h : Ran uuid now p actor g order g₁)
    (hupdate : ∀ x ∈ order, ∀ y, x.1.updated = some y → ∃ n, g.nodes.get y = some n) : Grown uuid now p actor g order g₁ := by
  refine h.invariant (Grown uuid now p actor g) grown_nil ?_
  intro done op i post g₁ g₂ horder hran hgrown hop
  refine hgrown.step hran hop.effect ?_
  intro x hx
  exact hupdate (op, i) (by rw [horder]; simp) x hx

end Grown

end GrowthMap.Canon
