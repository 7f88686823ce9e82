import GrowthMap.Canon.Steps
import GrowthMap.Lib.Runs

/- Whether a node's revision tells of every change to it.

   What a node has is its row, its content blocks and the `child_of` edges out of it.
   Each write leaves what a node has, unless it is a write to that node; each request
   bumps once the nodes it says it touches, and leaves the rows of the others. -/
namespace GrowthMap.Canon

open Relational Relation Fallible Table

/-! What a node has -/

def Graph.blocksOf (g : Graph) (x : String) : List ContentBlock := g.blocks.rows.filter (fun b => decide (b.nodeId = x))

/-- The `child_of` edges out of a node, with their targets. -/
def Graph.childIds (g : Graph) (x : String) : List (String × String) := (g.childEdges x).map (fun e => (e.id, e.toNodeId))

/-- The blocks and the children of the node are the same. -/
structure Undisturbed (x : String) (g g' : Graph) : Prop where
  blocks : g'.blocksOf x = g.blocksOf x
  children : g'.childIds x = g.childIds x

variable {p x : String} {r : Int} {n new : Node} {es : List Edge} {bs : List ContentBlock} {e : Edge}
  {nodes nodes' : Nodes} {ns : List Node} {op : Op String}

section Writes

variable {g g' g'' : Graph} {x : String}

theorem Undisturbed.refl (x : String) (g : Graph) : Undisturbed x g g := ⟨rfl, rfl⟩

theorem Undisturbed.trans (h : Undisturbed x g g') (h' : Undisturbed x g' g'') : Undisturbed x g g'' :=
  ⟨h'.blocks.trans h.blocks, h'.children.trans h.children⟩

theorem undisturbed_claim (h : claimProjectRevision p r g = .ok g') : Undisturbed x g g' := by
  obtain ⟨_, -, -, rfl⟩ := claimProjectRevision_ok h
  exact ⟨rfl, rfl⟩

theorem undisturbed_insertNode (h : insertNode n g = .ok g') : Undisturbed x g g' := by
  obtain ⟨-, nodes, -, rfl⟩ := insertNode_ok h
  exact ⟨rfl, rfl⟩

theorem undisturbed_flushNode {old : Node} (h : flushNode old new g = .ok g') : Undisturbed x g g' := by
  rw [flushNode_ok h]
  exact ⟨rfl, rfl⟩

theorem undisturbed_added (hedges : g'.edges.rows = g.edges.rows ++ es)
    (hblocks : g'.blocks.rows = g.blocks.rows ++ bs) (hes : ∀ e ∈ es, e.isContainment = true → e.fromNodeId ≠ x)
    (hbs : ∀ b ∈ bs, b.nodeId ≠ x) : Undisturbed x g g' := by
  have hnoEdge : es.filter (fun e => e.isContainment && decide (e.fromNodeId = x)) = [] := by
    rw [List.filter_eq_nil_iff]
    intro e he hsel
    rw [Bool.and_eq_true, decide_eq_true_eq] at hsel
    exact hes e he hsel.1 hsel.2
  have hnoBlock : bs.filter (fun b => decide (b.nodeId = x)) = [] := by
    rw [List.filter_eq_nil_iff]
    intro b hb hsel
    exact hbs b hb (of_decide_eq_true hsel)
  constructor
  · rw [Graph.blocksOf, hblocks, List.filter_append, hnoBlock, List.append_nil]
    rfl
  · rw [Graph.childIds, Graph.childEdges, hedges, List.filter_append, hnoEdge, List.append_nil]
    rfl

theorem undisturbed_insertEdge (h : insertEdge e g = .ok g') (he : e.isContainment = true → e.fromNodeId ≠ x) :
    Undisturbed x g g' := by
  obtain ⟨-, edges, hins, rfl⟩ := insertEdge_ok h
  refine undisturbed_added (insert_rows hins) (List.append_nil _).symm ?_ (by simp)
  intro e' he'
  rw [List.mem_singleton.mp he']
  exact he

theorem undisturbed_flushEdge {old new : Edge} (h : flushEdge old new g = .ok g') : Undisturbed x g g' := by
  rw [flushEdge_ok h]
  refine ⟨rfl, ?_⟩
  -- a patch leaves the id and the ends of an edge
  simp only [Graph.childIds, Graph.childEdges, Table.modify, Table.update, List.filter_map, List.map_map]
  have hsel : (fun e : Edge => e.isContainment && decide (e.fromNodeId = x)) ∘
      (fun r => if decide (r.id = old.id) then old.patch new r else r) =
      fun e => e.isContainment && decide (e.fromNodeId = x) := by
    funext r
    simp only [Function.comp]
    split <;> rfl
  rw [hsel]
  apply List.map_congr_left
  intro r _
  simp only [Function.comp]
  split <;> rfl

theorem undisturbed_deleteEdges {p : Edge → Bool}
    (hp : ∀ e ∈ g.edges.rows, e.isContainment = true → e.fromNodeId = x → p e = false) : Undisturbed x g (deleteEdges p g) := by
  refine ⟨rfl, ?_⟩
  simp only [Graph.childIds, Graph.childEdges, deleteEdges, Table.keep, List.filter_filter]
  congr 1
  apply List.filter_congr
  intro e he
  by_cases hsel : (e.isContainment && decide (e.fromNodeId = x)) = true
  · rw [Bool.and_eq_true, decide_eq_true_eq] at hsel
    simp [hp e he hsel.1 hsel.2]
  · simp [Bool.not_eq_true _ ▸ hsel]

theorem undisturbed_insertBlock {b : ContentBlock} (h : insertBlock b g = .ok g') (hb : b.nodeId ≠ x) : Undisturbed x g g' := by
  obtain ⟨blocks, hins, rfl⟩ := insertBlock_ok h
  refine undisturbed_added (List.append_nil _).symm (insert_rows hins) (by simp) ?_
  intro b' hb'
  rw [List.mem_singleton.mp hb']
  exact hb

/-- A block of another node is written. -/
theorem undisturbed_flushBlock {old new : ContentBlock} (hx : ∀ row, g.blocks.get old.id = some row → row.nodeId ≠ x)
    (h : flushBlock old new g = .ok g') : Undisturbed x g g' := by
  rw [flushBlock_ok h]
  refine ⟨?_, rfl⟩
  simp only [Graph.blocksOf, Table.modify, Table.update, List.filter_map]
  have hsel : (fun b : ContentBlock => decide (b.nodeId = x)) ∘
      (fun r => if decide (r.id = old.id) then old.patch new r else r) = fun b => decide (b.nodeId = x) := by
    funext r
    simp only [Function.comp]
    split <;> rfl
  rw [hsel]
  conv_rhs => rw [← List.map_id (List.filter (fun b => decide (b.nodeId = x)) g.blocks.rows)]
  apply List.map_congr_left
  intro r hr
  obtain ⟨hmem, hnode⟩ := List.mem_filter.mp hr
  rw [decide_eq_true_eq] at hnode
  have hne : r.id ≠ old.id := by
    intro hid
    have hget := get_of_mem hmem
    rw [hid] at hget
    exact hx r hget hnode
  simp [hne]

end Writes

/-! Requests -/

/-- The nodes that were there are the same, and a new one is at its first revision. -/
structure Extends (nodes nodes' : Nodes) : Prop where
  keeps : ∀ x n, nodes.get x = some n → nodes'.get x = some n
  born : ∀ x n, nodes.get x = none → nodes'.get x = some n → n.revision = 1

theorem Extends.refl (nodes : Nodes) : Extends nodes nodes := by
  refine ⟨fun _ _ hn => hn, ?_⟩
  intro x n hnone hn
  rw [hnone] at hn
  cases hn

theorem extends_of_eq (h : nodes' = nodes) : Extends nodes nodes' := by
  rw [h]
  exact .refl nodes

theorem Extends.trans {nodes'' : Nodes} (h : Extends nodes nodes') (h' : Extends nodes' nodes'') :
    Extends nodes nodes'' := by
  refine ⟨fun x n hn => h'.keeps x n (h.keeps x n hn), ?_⟩
  intro x n hnone hn
  cases hm : nodes'.get x with
  | none => exact h'.born x n hm hn
  | some m =>
    rw [h'.keeps x m hm] at hn
    cases hn
    exact h.born x _ hnone hm

theorem extends_insertNode {g g' : Graph} (h : insertNode n g = .ok g') (hrev : n.revision = 1) :
    Extends g.nodes g'.nodes := by
  obtain ⟨-, nodes, hins, rfl⟩ := insertNode_ok h
  refine ⟨fun x m hm => get_insert_old hins hm, ?_⟩
  intro x m hnone hm
  rcases get_insert_cases hins hm with ⟨-, rfl⟩ | hm
  · exact hrev
  · rw [hnone] at hm
    cases hm

theorem extends_of_rows {g : Graph} (h : nodes.rows = g.nodes.rows ++ ns)
    (hrev : ∀ n ∈ ns, n.revision = 1) : Extends g.nodes nodes := by
  have hadded : Added g nodes ns := added_of_rows h
  refine ⟨hadded.old, ?_⟩
  intro x n hnone hn
  have hmem := get_mem hn
  rw [h, List.mem_append] at hmem
  rcases hmem with hmem | hmem
  · have hold := get_of_mem hmem
    rw [get_key hn, hnone] at hold
    cases hold
  · exact hrev n hmem

/-- The nodes that are touched are bumped once; the rows of the others stay, and so does
what they have, apart from a gap. A new node is at its first revision. -/
structure Reflects (touched gap : String → Prop) (g g' : Graph) : Prop where
  bumps : ∀ x n n', g.nodes.get x = some n → g'.nodes.get x = some n' → touched x → n'.revision = bumped n.revision
  rows : ∀ x n n', g.nodes.get x = some n → g'.nodes.get x = some n' → ¬ touched x → n' = n
  owns : ∀ x n n', g.nodes.get x = some n → g'.nodes.get x = some n' → ¬ touched x → ¬ gap x → Undisturbed x g g'
  born : ∀ x n', g.nodes.get x = none → g'.nodes.get x = some n' → n'.revision = 1

variable {gap : String → Prop}

section Routes

variable {g g' : Graph}

theorem same_of_get (h : ∀ x n, nodes.get x = some n → nodes'.get x = some n) {n' : Node}
    (hn : nodes.get x = some n) (hn' : nodes'.get x = some n') : n' = n := by
  rw [h x n hn] at hn'
  exact (Option.some.inj hn').symm

theorem Reflects.of_extends (hext : Extends g.nodes g'.nodes)
    (howns : ∀ x n, g.nodes.get x = some n → ¬ gap x → Undisturbed x g g') : Reflects (fun _ => False) gap g g' where
  bumps := fun _ _ _ _ _ h => h.elim
  rows := fun _ _ _ hn hn' _ => same_of_get hext.keeps hn hn'
  owns := fun x n _ hn _ _ hgap => howns x n hn hgap
  born := hext.born

theorem Reflects.of_fewer (hfewer : ∀ x n, g'.nodes.get x = some n → g.nodes.get x = some n)
    (howns : ∀ x n, g'.nodes.get x = some n → ¬ gap x → Undisturbed x g g') : Reflects (fun _ => False) gap g g' where
  bumps := fun _ _ _ _ _ h => h.elim
  rows := fun _ _ _ hn hn' _ => (same_of_get hfewer hn' hn).symm
  owns := fun x _ n' _ hn' _ hgap => howns x n' hn' hgap
  born := by
    intro x n' hnone hn'
    rw [hfewer x n' hn'] at hnone
    cases hnone

variable {g₁ : Graph} {projectId nodeId edgeId newParentId blockId branchId : String} {expectedProject expected : Int}
  {l : Loaded} {d : NodeMove} {seats : Option Nat} {f : ImportFile}

/-- One node that was loaded is written, and bumped with it. -/
theorem Reflects.of_flush {g₂ : Graph} (hn : g.nodes.get n.id = some n)
    (hext : Extends g.nodes g₁.nodes) (h : flushNode n new g₁ = .ok g₂)
    (hsame : n.SameIdentity new) (hrev : new.revision = bumped n.revision) (hnodes : g'.nodes = g₂.nodes)
    (howns : ∀ x m, g.nodes.get x = some m → x ≠ n.id → Undisturbed x g g') : Reflects (· = n.id) gap g g' := by
  have hget := flushNode_get (hext.keeps _ n hn) hsame h
  refine ⟨?_, ?_, fun x m _ hm _ hx _ => howns x m hm hx, ?_⟩
  · rintro x m m' hm hm' rfl
    rw [hnodes, hget, if_pos rfl] at hm'
    cases hm'
    cases hn.symm.trans hm
    exact hrev
  · intro x m m' hm hm' hx
    rw [hnodes, hget, if_neg hx, hext.keeps x m hm] at hm'
    exact (Option.some.inj hm').symm
  · intro x m' hnone hm'
    have hx : x ≠ n.id := by
      rintro rfl
      rw [hn] at hnone
      cases hnone
    rw [hnodes, hget, if_neg hx] at hm'
    exact hext.born x m' hnone hm'

theorem Reflects.congr {touched touched' gap' : String → Prop} (h : Reflects touched gap g g') (ht : ∀ x, touched' x ↔ touched x)
    (hgap : ∀ x, gap x → gap' x) : Reflects touched' gap' g g' where
  bumps := fun x n n' hn hn' hx => h.bumps x n n' hn hn' ((ht x).mp hx)
  rows := fun x n n' hn hn' hx => h.rows x n n' hn hn' (fun hx' => hx ((ht x).mpr hx'))
  owns := fun x n n' hn hn' hx hno => h.owns x n n' hn hn' (fun hx' => hx ((ht x).mpr hx')) (fun hg => hno (hgap x hg))
  born := h.born

theorem extends_claim (h : claimProjectRevision p r g = .ok g') : Extends g.nodes g'.nodes :=
  extends_of_eq (claim_rows h).1

theorem extends_insertEdge (h : insertEdge e g = .ok g') : Extends g.nodes g'.nodes :=
  extends_of_eq (insertEdge_nodes h)

variable {uuid : Nat → String} {now : Int} {payload : ArtifactPayload}

theorem createNode_reflects {d : NodeCreate}
    (h : createNode (fun _ => g) uuid projectId d g = .ok g') : Reflects (fun x => truthy d.parentId = some x) gap g g' := by
  obtain ⟨-, h⟩ := guard_ok h
  obtain ⟨parent, hparent, h⟩ := bind_ok h
  obtain ⟨g₁, hclaim, h⟩ := bind_ok h
  obtain ⟨_, -, h⟩ := bind_ok h
  obtain ⟨g₂, hnode, h⟩ := bind_ok h
  have hext₂ : Extends g.nodes g₂.nodes := (extends_claim hclaim).trans (extends_insertNode hnode rfl)
  have howns₂ : ∀ x, Undisturbed x g g₂ := fun x => (undisturbed_claim hclaim).trans (undisturbed_insertNode hnode)
  rcases loadParent_ok hparent with ⟨rfl, hnone⟩ | ⟨x, n, rfl, hx, hn, -⟩
  · cases h
    exact (Reflects.of_extends hext₂ (fun x _ _ _ => howns₂ x)).congr (fun x => by simp [hnone]) (fun _ h => h)
  · obtain ⟨g₃, hchild, h⟩ := bind_ok h
    have hid : n.id = x := get_key hn
    subst hid
    have hext₃ : Extends g.nodes g₃.nodes := hext₂.trans (extends_insertEdge hchild)
    refine (Reflects.of_flush hn hext₃ h ⟨rfl, rfl, rfl⟩ rfl rfl ?_).congr (fun y => ?_) (fun _ h => h)
    · intro y m hm hy
      refine ((howns₂ y).trans (undisturbed_insertEdge hchild ?_)).trans (undisturbed_flushNode h)
      exact fun _ heq => hy heq.symm
    · rw [hx, Option.some.injEq, eq_comm]

theorem updateNode_reflects {d : NodeUpdate}
    (h : updateNode (fun _ => g) nodeId d g = .ok g') : Reflects (· = nodeId) gap g g' := by
  unfold updateNode at h
  cases hn : g.nodes.get nodeId with
  | none => simp [hn] at h
  | some n =>
    simp only [hn] at h
    obtain ⟨g₁, hclaim, h⟩ := bind_ok h
    obtain ⟨_, -, h⟩ := bind_ok h
    have hid : n.id = nodeId := get_key hn
    subst hid
    refine Reflects.of_flush hn (extends_claim hclaim) h ⟨rfl, rfl, rfl⟩ rfl rfl ?_
    exact fun x m _ _ => (undisturbed_claim hclaim).trans (undisturbed_flushNode h)

/-- The nodes of a subtree go; a node whose child goes with it has fewer children. -/
theorem deleteNode_reflects
    (h : deleteNode (fun _ => g) nodeId expectedProject expected g = .ok g') :
    Reflects (fun _ => False) (fun x => ∃ y ∈ g.children x, g'.nodes.get y = none) g g' := by
  unfold deleteNode at h
  cases hn : g.nodes.get nodeId with
  | none => simp [hn] at h
  | some =>
    simp only [hn] at h
    obtain ⟨-, h⟩ := guard_ok h
    obtain ⟨_, -, h⟩ := bind_ok h
    obtain ⟨_, -, h⟩ := bind_ok h
    obtain ⟨g₁, hclaim, h⟩ := bind_ok h
    obtain ⟨subtree, -, h⟩ := bind_ok h
    cases h
    obtain ⟨hnodes, hedges, hblocks, -⟩ := claim_rows hclaim
    refine Reflects.of_fewer ?_ ?_
    · intro x m hm
      rw [← hnodes]
      exact (get_keep.mp hm).1
    · intro x m' hm' hgap
      obtain ⟨-, hx⟩ := get_keep.mp hm'
      have hxid : m'.id = x := get_key hm'
      have hx : x ∉ subtree := by simpa [hxid] using hx
      -- no child of the node goes
      have hchild : ∀ e ∈ g₁.edges.rows, e.isContainment = true → e.fromNodeId = x → e.toNodeId ∉ subtree := by
        intro e he hc hfrom hto
        refine hgap ⟨e.toNodeId, ?_, ?_⟩
        · rw [hedges] at he
          exact List.mem_map_of_mem (List.mem_filter.mpr ⟨he, by simp [hc, hfrom]⟩)
        · rw [← Option.not_isSome_iff_eq_none]
          intro hsome
          obtain ⟨y, hy⟩ := Option.isSome_iff_exists.mp hsome
          obtain ⟨hy, hno⟩ := get_keep.mp hy
          have hyid := get_key hy
          simp [hyid, hto] at hno
      refine ((undisturbed_claim hclaim).trans (undisturbed_deleteEdges (p := fun e =>
        decide (e.fromNodeId ∈ subtree ∨ e.toNodeId ∈ subtree)) ?_)).trans ⟨?_, ?_⟩
      · intro e he hc hfrom
        have hto := hchild e he hc hfrom
        simp [hfrom, hx, hto]
      · simp only [Graph.blocksOf, deleteNodes, Table.keep, List.filter_filter]
        apply List.filter_congr
        intro b _
        by_cases hb : b.nodeId = x
        · simp [hb, hx]
        · simp [hb]
      · simp only [Graph.childIds, Graph.childEdges, deleteNodes, Table.keep, List.filter_filter]
        congr 1
        apply List.filter_congr
        intro e he
        by_cases hsel : (e.isContainment && decide (e.fromNodeId = x)) = true
        · rw [Bool.and_eq_true, decide_eq_true_eq] at hsel
          have hto := hchild e (List.mem_of_mem_filter he) hsel.1 hsel.2
          simp [hsel.2, hx, hto]
        · simp [Bool.not_eq_true _ ▸ hsel]

/-! Edges -/

theorem flushEdges_ok {f : Edge → Edge} (h : Fallible.each (fun e => flushEdge e (f e)) es g = .ok g') :
    g'.nodes = g.nodes ∧ ∀ x, Undisturbed x g g' := by
  refine each_invariant (I := fun s => s.nodes = g.nodes ∧ ∀ x, Undisturbed x g s) ?_ ⟨rfl, fun x => .refl x g⟩ h
  rintro e - s s' ⟨hnodes, howns⟩ he
  refine ⟨?_, fun x => (howns x).trans (undisturbed_flushEdge he)⟩
  rw [flushEdge_ok he]
  exact hnodes

theorem createEdge_reflects {d : EdgeCreate} (h : createEdge (fun _ => g) uuid d g = .ok g') :
    Reflects (fun _ => False) (fun x => d.relationType = "child_of" ∧ d.fromNodeId = x) g g' := by
  unfold createEdge at h
  split at h
  · obtain ⟨-, h⟩ := guard_ok h
    obtain ⟨-, h⟩ := guard_ok h
    obtain ⟨-, h⟩ := guard_ok h
    obtain ⟨_, -, h⟩ := bind_ok h
    obtain ⟨-, h⟩ := guard_ok h
    obtain ⟨g₁, hclaim, h⟩ := bind_ok h
    obtain ⟨g₂, e, hdemoted, he, h⟩ : ∃ g₂ e, (g₂.nodes = g₁.nodes ∧ ∀ x, Undisturbed x g₁ g₂) ∧
        (e.relationType = d.relationType ∧ e.fromNodeId = d.fromNodeId) ∧ insertEdge e g₂ = .ok g' := by
      split at h
      · obtain ⟨g₂, hdemote, h⟩ := bind_ok h
        exact ⟨g₂, _, flushEdges_ok hdemote, ⟨rfl, rfl⟩, h⟩
      · exact ⟨g₁, _, ⟨rfl, fun x => .refl x g₁⟩, ⟨rfl, rfl⟩, h⟩
    have hnodes : g'.nodes = g.nodes := by rw [insertEdge_nodes h, hdemoted.1, (claim_rows hclaim).1]
    refine Reflects.of_extends (extends_of_eq hnodes) ?_
    intro x n hn hgap
    refine ((undisturbed_claim hclaim).trans (hdemoted.2 x)).trans (undisturbed_insertEdge h ?_)
    intro hc hfrom
    refine hgap ⟨?_, he.2.symm.trans hfrom⟩
    rw [← he.1]
    exact of_decide_eq_true hc
  · cases h

theorem updateEdge_reflects {d : EdgeUpdate}
    (h : updateEdge (fun _ => g) edgeId d g = .ok g') : Reflects (fun _ => False) gap g g' := by
  unfold updateEdge at h
  split at h
  · cases h
  · obtain ⟨-, h⟩ := guard_ok h
    obtain ⟨g₁, hclaim, h⟩ := bind_ok h
    obtain ⟨_, -, h⟩ := bind_ok h
    obtain ⟨-, h⟩ := guard_ok h
    obtain ⟨-, h⟩ := guard_ok h
    obtain ⟨-, h⟩ := guard_ok h
    have hnodes : g'.nodes = g.nodes := by
      rw [flushEdge_ok h]
      exact (claim_rows hclaim).1
    exact Reflects.of_extends (extends_of_eq hnodes)
      (fun x _ _ _ => (undisturbed_claim hclaim).trans (undisturbed_flushEdge h))

theorem promote_reflects {edge : Edge}
    (h : promote edge expectedProject expected g = .ok g') : Reflects (fun _ => False) gap g g' := by
  obtain ⟨g₁, hclaim, h⟩ := bind_ok h
  obtain ⟨_, -, h⟩ := bind_ok h
  obtain ⟨g₂, hdemote, h⟩ := bind_ok h
  obtain ⟨hnodes₂, howns⟩ := flushEdges_ok hdemote
  have hnodes : g'.nodes = g.nodes := by
    rw [flushEdge_ok h]
    exact hnodes₂.trans (claim_rows hclaim).1
  exact Reflects.of_extends (extends_of_eq hnodes)
    (fun x _ _ _ => ((undisturbed_claim hclaim).trans (howns x)).trans (undisturbed_flushEdge h))

theorem promoteMainline_reflects
    (h : promoteMainline (fun _ => g) edgeId expectedProject expected g = .ok g') : Reflects (fun _ => False) gap g g' := by
  unfold promoteMainline at h
  split at h
  · cases h
  · obtain ⟨-, h⟩ := guard_ok h
    exact promote_reflects h

theorem promoteChildMainline_reflects {parentId childId : String}
    (h : promoteChildMainline (fun _ => g) parentId childId expectedProject expected g = .ok g') :
    Reflects (fun _ => False) gap g g' := by
  obtain ⟨found, -, h⟩ := bind_ok h
  split at h
  · cases h
  · exact promote_reflects h

theorem deleteEdge_reflects
    (h : deleteEdge (fun _ => g) edgeId expectedProject expected g = .ok g') : Reflects (fun _ => False) gap g g' := by
  unfold deleteEdge at h
  split at h
  · cases h
  · rename_i edge hedge
    obtain ⟨hgraph, h⟩ := guard_ok h
    obtain ⟨g₁, hclaim, h⟩ := bind_ok h
    obtain ⟨_, -, h⟩ := bind_ok h
    cases h
    obtain ⟨hnodes, hedges, -, -⟩ := claim_rows hclaim
    refine Reflects.of_extends (extends_of_eq hnodes)
      (fun x _ _ _ => (undisturbed_claim hclaim).trans (undisturbed_deleteEdges ?_))
    -- the edge that goes is no `child_of` edge
    intro e he hc _
    rw [decide_eq_false_iff_not]
    intro hid
    rw [hedges] at he
    have hget := get_of_mem he
    rw [hid, get_key hedge, hedge] at hget
    cases hget
    exact hgraph hc

/-! Moves -/

/-- Loaded nodes, each bumped once. -/
theorem touchAll_ok (hrows : ∀ n ∈ ns, g.nodes.get n.id = some n) (hnodup : ns.Pairwise (fun a b => a.id ≠ b.id))
    (h : touchAll ns g = .ok g') :
    (∀ x, g'.nodes.get x = if ∃ n ∈ ns, n.id = x then (g.nodes.get x).map Node.bump else g.nodes.get x) ∧
      ∀ x, Undisturbed x g g' := by
  induction ns generalizing g with
  | nil =>
    cases h
    exact ⟨by simp, fun x => .refl x _⟩
  | cons n ns ih =>
    obtain ⟨g₁, hn, h⟩ := bind_ok h
    obtain ⟨hne, hnodup⟩ := List.pairwise_cons.mp hnodup
    have hrow := hrows n List.mem_cons_self
    have hget : ∀ x, g₁.nodes.get x = if x = n.id then some n.bump else g.nodes.get x :=
      flushNode_get hrow ⟨rfl, rfl, rfl⟩ hn
    have hrows₁ : ∀ m ∈ ns, g₁.nodes.get m.id = some m := by
      intro m hm
      rw [hget, if_neg (fun hid => hne m hm hid.symm)]
      exact hrows m (List.mem_cons_of_mem _ hm)
    obtain ⟨hbump, howns⟩ := ih hrows₁ hnodup h
    refine ⟨?_, fun x => (undisturbed_flushNode hn).trans (howns x)⟩
    intro x
    rw [hbump x, hget x]
    by_cases hx : x = n.id
    · subst hx
      have hno : ¬ ∃ m ∈ ns, m.id = n.id := by
        rintro ⟨m, hm, hid⟩
        exact hne m hm hid.symm
      simp [hno, hrow]
    · have hx' : ¬ n.id = x := fun hid => hx hid.symm
      simp [hx, hx']

theorem exists_pwFilter {l : List Node} :
    (∃ n ∈ l.pwFilter (fun a b => a.id ≠ b.id), n.id = x) ↔ ∃ n ∈ l, n.id = x := by
  constructor
  · rintro ⟨n, hn, hid⟩
    exact ⟨n, List.pwFilter_subset l hn, hid⟩
  · rintro ⟨n, hn, rfl⟩
    by_contra hno
    have hall : ∀ b ∈ l.pwFilter (fun a b => a.id ≠ b.id), n.id ≠ b.id := fun b hb hid => hno ⟨b, hb, hid.symm⟩
    have htrans : ∀ {a b c : Node}, a.id ≠ c.id → a.id ≠ b.id ∨ b.id ≠ c.id := by
      intro a b c hac
      by_cases hab : a.id = b.id
      · exact .inr (hab ▸ hac)
      · exact .inl hab
    exact (@List.forall_mem_pwFilter _ (fun a b : Node => a.id ≠ b.id) _ htrans n l).mp hall n hn rfl

def MoveTouches (g : Graph) (nodeId newParentId x : String) : Prop :=
  x = nodeId ∨ x = newParentId ∨ ∃ e ∈ g.parentEdges nodeId, e.fromNodeId = x

theorem Loaded.Of.mem_touched (hl : l.Of g nodeId newParentId) (hn : g.nodes.get x = some n) :
    (∃ m ∈ l.node :: ((l.oldParent.toList ++ [l.newParent]).filter (fun n => decide (n.id ≠ l.node.id))), m.id = x) ↔
      MoveTouches g nodeId newParentId x := by
  have hid : l.node.id = nodeId := get_key hl.node
  have hid' : l.newParent.id = newParentId := get_key hl.newParent
  constructor
  · rintro ⟨m, hm, rfl⟩
    rcases List.mem_cons.mp hm with rfl | hm
    · exact .inl hid
    · rcases List.mem_append.mp (List.mem_of_mem_filter hm) with hm | hm
      · rw [Option.mem_toList, hl.oldParent] at hm
        obtain ⟨e, he, hfrom⟩ := Option.bind_eq_some_iff.mp hm
        refine .inr (.inr ⟨e, ?_, (get_key hfrom).symm⟩)
        rw [hl.oldEdge, he]
        simp
      · rw [List.mem_singleton.mp hm]
        exact .inr (.inl hid')
  · intro hx
    by_cases hself : x = nodeId
    · exact ⟨l.node, List.mem_cons_self, hid.trans hself.symm⟩
    · have hne : ∀ m : Node, m.id = x → decide (m.id ≠ l.node.id) = true := by
        intro m hm
        rw [decide_eq_true_eq, hm, hid]
        exact hself
      rcases hx with hx | rfl | ⟨e, he, hfrom⟩
      · exact absurd hx hself
      · refine ⟨l.newParent, List.mem_cons_of_mem _ (List.mem_filter.mpr ⟨?_, hne _ hid'⟩), hid'⟩
        simp
      · rw [hl.oldEdge, Option.mem_toList] at he
        have hold : l.oldParent = some n := by
          rw [hl.oldParent, he]
          show g.nodes.get e.fromNodeId = some n
          rw [hfrom]
          exact hn
        refine ⟨n, List.mem_cons_of_mem _ (List.mem_filter.mpr ⟨?_, hne _ (get_key hn)⟩), get_key hn⟩
        simp [hold]

theorem Loaded.Of.rows (hl : l.Of g nodeId newParentId) :
    ∀ n ∈ (l.node :: ((l.oldParent.toList ++ [l.newParent]).filter (fun n => decide (n.id ≠ l.node.id)))).pwFilter
      (fun a b => a.id ≠ b.id), g.nodes.get n.id = some n := by
  intro n hn
  have hn := List.pwFilter_subset _ hn
  rcases List.mem_cons.mp hn with rfl | hn
  · rw [get_key hl.node]
    exact hl.node
  · rcases List.mem_append.mp (List.mem_of_mem_filter hn) with hn | hn
    · rw [Option.mem_toList, hl.oldParent] at hn
      obtain ⟨e, -, hfrom⟩ := Option.bind_eq_some_iff.mp hn
      rw [get_key hfrom]
      exact hfrom
    · rw [List.mem_singleton.mp hn, get_key hl.newParent]
      exact hl.newParent

theorem replaceParent_rows (hl : l.Of g nodeId newParentId) (h : replaceParent uuid l g = .ok g') :
    (∀ x n, g.nodes.get x = some n → MoveTouches g nodeId newParentId x → g'.nodes.get x = some n.bump) ∧
      (∀ x n, g.nodes.get x = some n → ¬ MoveTouches g nodeId newParentId x → g'.nodes.get x = some n) ∧
      (∀ x, g.nodes.get x = none → g'.nodes.get x = none) ∧
      ∃ g₃, insertChild (uuid 0) l.node.projectId l.newParent.id l.node.id
        (deleteEdges (fun e => decide (some e.id = l.oldEdge.map Edge.id)) g) = .ok g₃ ∧ ∀ x, Undisturbed x g₃ g' := by
  obtain ⟨g₃, hchild, h⟩ := bind_ok h
  have hnodes : g₃.nodes = g.nodes := by
    obtain ⟨-, edges, -, rfl⟩ := insertEdge_ok hchild
    rfl
  obtain ⟨hget, howns⟩ := touchAll_ok (by rw [hnodes]; exact hl.rows) (List.pairwise_pwFilter _) h
  refine ⟨?_, ?_, ?_, g₃, hchild, howns⟩
  · intro x n hn hx
    rw [hget x, if_pos ((exists_pwFilter.trans (hl.mem_touched hn)).mpr hx), hnodes, hn]
    rfl
  · intro x n hn hx
    rw [hget x, if_neg (fun hex => hx ((exists_pwFilter.trans (hl.mem_touched hn)).mp hex)), hnodes, hn]
  · intro x hnone
    rw [hget x, hnodes, hnone]
    simp

theorem replaceParent_reflects
    (hl : l.Of g nodeId newParentId) (h : replaceParent uuid l g = .ok g') :
    Reflects (MoveTouches g nodeId newParentId) gap g g' := by
  obtain ⟨hbump, hkeep, hnew, g₃, hchild, howns⟩ := replaceParent_rows hl h
  refine ⟨?_, ?_, ?_, ?_⟩
  · intro x n n' hn hn' hx
    rw [hbump x n hn hx] at hn'
    cases hn'
    rfl
  · intro x n n' hn hn' hx
    rw [hkeep x n hn hx] at hn'
    exact (Option.some.inj hn').symm
  · intro x n n' hn hn' hx _
    refine ((undisturbed_deleteEdges ?_).trans (undisturbed_insertEdge hchild ?_)).trans (howns x)
    · -- the edge that goes is the one from the old parent
      intro e he hc hfrom
      rw [decide_eq_false_iff_not]
      intro hdel
      cases hedge : l.oldEdge with
      | none => simp [hedge] at hdel
      | some o =>
        have ho : o ∈ g.parentEdges nodeId := by rw [hl.oldEdge, hedge]; simp
        have hids : e.id = o.id := by simpa [hedge] using hdel
        have hrow := get_of_mem he
        rw [hids, get_of_mem (List.mem_of_mem_filter ho)] at hrow
        cases hrow
        exact hx (.inr (.inr ⟨_, ho, hfrom⟩))
    · intro _ hfrom
      have hid : l.newParent.id = newParentId := get_key hl.newParent
      exact hx (.inr (.inl (hfrom.symm.trans hid)))
  · intro x n' hnone hn'
    rw [hnew x hnone] at hn'
    cases hn'

theorem Reflects.claimed {touched gap : String → Prop} {p : String} {r : Int} {g₁ : Graph}
    (hclaim : claimProjectRevision p r g = .ok g₁) (h : Reflects touched gap g₁ g') : Reflects touched gap g g' := by
  have hnodes := (claim_rows hclaim).1
  refine ⟨?_, ?_, ?_, ?_⟩
  · intro x n n' hn hn' hx
    exact h.bumps x n n' (hnodes ▸ hn) hn' hx
  · intro x n n' hn hn' hx
    exact h.rows x n n' (hnodes ▸ hn) hn' hx
  · intro x n n' hn hn' hx hgap
    exact (undisturbed_claim hclaim).trans (h.owns x n n' (hnodes ▸ hn) hn' hx hgap)
  · intro x n' hnone hn'
    exact h.born x n' (hnodes ▸ hnone) hn'

theorem Loaded.Of.claimed {l : Loaded} {nodeId newParentId p : String} {r : Int} {g₁ : Graph} (hl : l.Of g nodeId newParentId)
    (hclaim : claimProjectRevision p r g = .ok g₁) : l.Of g₁ nodeId newParentId := by
  obtain ⟨hnodes, hedges, -, -⟩ := claim_rows hclaim
  refine ⟨hnodes ▸ hl.node, hnodes ▸ hl.newParent, hl.project, ?_, hnodes ▸ hl.oldParent⟩
  rw [Graph.parentEdges, hedges]
  exact hl.oldEdge

theorem moveNode_moved
    (h : moveNode (fun _ => g) uuid nodeId d g = .ok g') (hn : g.nodes.get nodeId = some n) :
    g'.nodes.get nodeId = some n.bump := by
  obtain ⟨l, g₁, ⟨hl, -⟩, -, hclaim, -, h⟩ := moveNode_iff.mp h
  exact (replaceParent_rows (hl.claimed hclaim) h).1 nodeId n ((extends_claim hclaim).keeps _ _ hn) (.inl rfl)

theorem moveNode_reflects
    (h : moveNode (fun _ => g) uuid nodeId d g = .ok g') : Reflects (MoveTouches g nodeId d.newParentId) gap g g' := by
  obtain ⟨l, g₁, ⟨hl, -⟩, -, hclaim, -, h⟩ := moveNode_iff.mp h
  refine ((replaceParent_reflects (hl.claimed hclaim) h).claimed hclaim).congr ?_ (fun _ h => h)
  intro x
  rw [MoveTouches, MoveTouches, Graph.parentEdges, Graph.parentEdges, (claim_rows hclaim).2.1]

/-! Blocks -/

theorem rewriteBlockOrder_undisturbed {alwaysBump : Option String} {bs : List (ContentBlock × ContentBlock)}
    (hbs : ∀ b ∈ bs, b.1 ∈ g.blocks.rows ∧ b.1.nodeId = nodeId) (hx : x ≠ nodeId)
    (h : rewriteBlockOrder alwaysBump bs g = .ok g') : Undisturbed x g g' := by
  let Owned := fun s : Graph => ∀ b ∈ bs, ∀ row, s.blocks.get b.1.id = some row → row.nodeId = nodeId
  have howned : Owned g := by
    intro b hb row hrow
    obtain ⟨hmem, hid⟩ := hbs b hb
    rw [get_of_mem hmem] at hrow
    cases hrow
    exact hid
  refine (each_invariant (I := fun s => Owned s ∧ Undisturbed x g s) ?_ ⟨howned, .refl x g⟩ h).2
  rintro b hb s s' ⟨hs, hsame⟩ hflush
  have hb := List.fst_mem_of_mem_zipIdx hb
  refine ⟨?_, hsame.trans (undisturbed_flushBlock (fun row hrow heq => hx (heq.symm.trans (hs b.1 hb row hrow))) hflush)⟩
  -- a block keeps its node
  intro c hc row hrow
  rw [flushBlock_ok hflush] at hrow
  rcases get_modify_cases ContentBlock.patch_key hrow with ⟨-, row₀, hrow₀, rfl⟩ | ⟨-, hrow⟩
  · exact hs b.1 hb row₀ hrow₀
  · exact hs c hc row hrow

theorem createBlock_reflects {d : BlockCreate}
    (h : createBlock (fun _ => g) uuid now nodeId d g = .ok g') : Reflects (· = nodeId) gap g g' := by
  unfold createBlock at h
  cases hn : g.nodes.get nodeId with
  | none => simp [hn] at h
  | some n =>
    simp only [hn] at h
    obtain rfl : n.id = nodeId := get_key hn
    obtain ⟨g₁, hclaim, h⟩ := bind_ok h
    obtain ⟨_, -, h⟩ := bind_ok h
    obtain ⟨g₂, horder, h⟩ := bind_ok h
    obtain ⟨g₃, hblock, h⟩ := bind_ok h
    have hbs : ∀ b ∈ (orderedBlocks g₁ n.id).map (fun b => (b, b)), b.1 ∈ g₁.blocks.rows ∧ b.1.nodeId = n.id := by
      intro b hb
      obtain ⟨x, hx, rfl⟩ := List.mem_map.mp hb
      exact mem_orderedBlocks.mp hx
    obtain ⟨-, hnodes₂, -⟩ := @rewriteBlockOrder_writes (fun _ _ => True) _ _ _ _ _ _
      (has_claim hclaim ⟨n, hn, rfl⟩) hbs horder
    have hnodes₃ : g₃.nodes = g₂.nodes := by
      obtain ⟨blocks, -, rfl⟩ := insertBlock_ok hblock
      rfl
    have hext : Extends g.nodes g₃.nodes := (extends_claim hclaim).trans (extends_of_eq (hnodes₃.trans hnodes₂))
    refine Reflects.of_flush hn hext h ⟨rfl, rfl, rfl⟩ rfl rfl ?_
    intro x m _ hx
    exact (((undisturbed_claim hclaim).trans (rewriteBlockOrder_undisturbed hbs hx horder)).trans
      (undisturbed_insertBlock hblock (fun heq => hx heq.symm))).trans (undisturbed_flushNode h)

theorem updateBlock_reflects {d : BlockUpdate} (h : updateBlock (fun _ => g) blockId d g = .ok g') :
    Reflects (fun x => ∃ b, g.blocks.get blockId = some b ∧ b.nodeId = x) gap g g' := by
  obtain ⟨⟨block, n⟩, hload, h⟩ := bind_ok h
  obtain ⟨hb, hn⟩ := loadBlock_ok hload
  obtain ⟨g₁, hclaim, h⟩ := bind_ok h
  obtain ⟨_, -, h⟩ := bind_ok h
  obtain ⟨_, -, h⟩ := bind_ok h
  have hid : n.id = block.nodeId := get_key hn
  rw [← hid] at hn
  cases hidx : (held block (orderedBlocks g₁ n.id)).findIdx? (fun b => decide (b.id = block.id)) with
  | none => simp [hidx] at h
  | some =>
    simp only [hidx] at h
    obtain ⟨-, h⟩ := guard_ok h
    obtain ⟨g₂, horder, h⟩ := bind_ok h
    have hblock : block ∈ g₁.blocks.rows := by rw [(claim_rows hclaim).2.2.1]; exact get_mem hb
    have hothers : ∀ i c, ∀ b ∈ (((held block (orderedBlocks g₁ n.id)).filter (fun b => decide (b.id ≠ block.id))).map
        (fun b => (b, b))).insertIdx i (block, c), b.1 ∈ g₁.blocks.rows ∧ b.1.nodeId = n.id := by
      intro i c b hmem
      rcases List.eq_or_mem_of_mem_insertIdx hmem with rfl | hmem
      · exact ⟨hblock, hid.symm⟩
      · obtain ⟨b, hb, rfl⟩ := List.mem_map.mp hmem
        exact mem_held_others hb
    obtain ⟨-, hnodes, -⟩ := @rewriteBlockOrder_writes (fun _ _ => True) _ _ _ _ _ _
      (has_claim hclaim ⟨n, hn, rfl⟩) (hothers _ _) horder
    have hext : Extends g.nodes g₂.nodes := (extends_claim hclaim).trans (extends_of_eq hnodes)
    refine (Reflects.of_flush hn hext h ⟨rfl, rfl, rfl⟩ rfl rfl ?_).congr ?_ (fun _ h => h)
    · intro x m _ hx
      exact ((undisturbed_claim hclaim).trans (rewriteBlockOrder_undisturbed (hothers _ _) hx horder)).trans
        (undisturbed_flushNode h)
    · intro x
      simp [hb, hid, eq_comm]

theorem deleteBlock_reflects {expectedNode : Int}
    (h : deleteBlock (fun _ => g) blockId expectedProject expectedNode expected g = .ok g') :
    Reflects (fun x => ∃ b, g.blocks.get blockId = some b ∧ b.nodeId = x) gap g g' := by
  obtain ⟨⟨block, n⟩, hload, h⟩ := bind_ok h
  obtain ⟨hb, hn⟩ := loadBlock_ok hload
  obtain ⟨g₁, hclaim, h⟩ := bind_ok h
  obtain ⟨_, -, h⟩ := bind_ok h
  obtain ⟨_, -, h⟩ := bind_ok h
  obtain ⟨g₂, horder, h⟩ := bind_ok h
  obtain ⟨g₃, hflush, h⟩ := bind_ok h
  cases h
  have hid : n.id = block.nodeId := get_key hn
  rw [← hid] at hn
  have hbs : ∀ b ∈ ((orderedBlocks g₁ n.id).filter (fun b => decide (b.id ≠ block.id))).map (fun b => (b, b)),
      b.1 ∈ g₁.blocks.rows ∧ b.1.nodeId = n.id := by
    intro b hmem
    obtain ⟨b, hb, rfl⟩ := List.mem_map.mp hmem
    exact mem_orderedBlocks.mp (List.mem_of_mem_filter hb)
  obtain ⟨-, hnodes, hrows⟩ := @rewriteBlockOrder_writes (fun _ _ => True) _ _ _ _ _ _
    (has_claim hclaim ⟨n, hn, rfl⟩) hbs horder
  have hext : Extends g.nodes g₂.nodes := (extends_claim hclaim).trans (extends_of_eq hnodes)
  have hreflects : Reflects (· = n.id) gap g
      { g₃ with blocks := g₃.blocks.keep (fun b => decide (b.id ≠ block.id)) } := by
    refine Reflects.of_flush hn hext hflush ⟨rfl, rfl, rfl⟩ rfl rfl ?_
    intro x m _ hx
    refine (((undisturbed_claim hclaim).trans (rewriteBlockOrder_undisturbed hbs hx horder)).trans
      (undisturbed_flushNode hflush)).trans ⟨?_, rfl⟩
    -- the block that goes is the one that was loaded
    simp only [Graph.blocksOf, Table.keep, List.filter_filter]
    apply List.filter_congr
    intro b hmem
    by_cases hnode : b.nodeId = x
    · have hne : b.id ≠ block.id := by
        intro hsame
        rw [flushNode_ok hflush] at hmem
        obtain ⟨row, hrow, howner⟩ := hrows b.id b (get_of_mem hmem)
        rw [(claim_rows hclaim).2.2.1, hsame, get_key hb, hb] at hrow
        cases hrow
        exact hx (hnode.symm.trans (howner.symm.trans hid.symm))
      simp [hnode, hne]
    · simp [hnode]
  refine hreflects.congr ?_ (fun _ h => h)
  intro x
  simp [hb, hid, eq_comm]

/-! Projects -/

theorem Reflects.of_added
    (hnodes : g'.nodes.rows = g.nodes.rows ++ ns) (hedges : g'.edges.rows = g.edges.rows ++ es)
    (hblocks : g'.blocks.rows = g.blocks.rows ++ bs) (hns : ∀ n ∈ ns, n.revision = 1)
    (hes : ∀ e ∈ es, g.nodes.get e.fromNodeId = none)
    (hbs : ∀ b ∈ bs, g.nodes.get b.nodeId = none) : Reflects (fun _ => False) gap g g' := by
  refine .of_extends (extends_of_rows hnodes hns) ?_
  intro x n hn _
  refine undisturbed_added hedges hblocks ?_ ?_
  · rintro e he - rfl
    rw [hes e he] at hn
    cases hn
  · rintro b hb rfl
    rw [hbs b hb] at hn
    cases hn

theorem createProject_reflects {d : ProjectCreate}
    (h : createProject (fun _ => g) uuid seats d g = .ok g') : Reflects (fun _ => False) gap g g' := by
  obtain ⟨_, -, h⟩ := bind_ok h
  obtain ⟨g₁, hins, h⟩ := bind_ok h
  obtain ⟨g₂, hnode, h⟩ := bind_ok h
  obtain ⟨projects, -, rfl⟩ := insertProject_ok hins
  obtain ⟨-, nodes, hnodes, rfl⟩ := insertNode_ok hnode
  rw [flushProject_ok h]
  exact .of_added (insert_rows hnodes) (List.append_nil _).symm (List.append_nil _).symm (by simp) (by simp)
    (by simp)

theorem updateProject_reflects
    {changes : List (ProjectField × Value)} (h : updateProject (fun _ => g) seats projectId expectedProject changes g = .ok g') :
    Reflects (fun _ => False) gap g g' := by
  unfold updateProject at h
  cases hrow : g.projects.get projectId with
  | none => simp [hrow] at h
  | some row =>
    simp only [hrow] at h
    obtain ⟨g₁, hclaim, h⟩ := bind_ok h
    have hflush : ∃ new, flushProject row new g₁ = .ok g' := by
      split at h
      · obtain ⟨_, -, h⟩ := bind_ok h
        exact ⟨_, h⟩
      · exact ⟨_, h⟩
    obtain ⟨new, hflush⟩ := hflush
    rw [flushProject_ok hflush]
    exact Reflects.claimed hclaim (.of_extends (extends_of_eq rfl) (fun _ _ _ _ => ⟨rfl, rfl⟩))

/-- What a project owns goes with it; nothing of another one does. -/
theorem deleteProject_reflects (hw : Wf g)
    (h : deleteProject (fun _ => g) projectId expectedProject g = .ok g') : Reflects (fun _ => False) gap g g' := by
  unfold deleteProject at h
  cases hrow : g.projects.get projectId with
  | none => simp [hrow] at h
  | some =>
    simp only [hrow] at h
    obtain ⟨g₁, hclaim, h⟩ := bind_ok h
    cases h
    have hw₁ := wf_claim hw hclaim
    refine Reflects.claimed hclaim (.of_fewer (fun x n hn => (get_keep.mp hn).1) ?_)
    · intro x n' hn' _
      obtain ⟨hrow', hother⟩ := get_keep.mp hn'
      have hother : n'.projectId ≠ projectId := of_decide_eq_true hother
      have hhas : g₁.Has n'.projectId x := ⟨n', hrow', rfl⟩
      refine ⟨?_, ?_⟩
      · simp only [Graph.blocksOf, deleteProjectRow, Table.keep, List.filter_filter]
        apply List.filter_congr
        intro b _
        by_cases hb : b.nodeId = x
        · simp [hb, hrow', hother]
        · simp [hb]
      · simp only [Graph.childIds, Graph.childEdges, deleteProjectRow, Table.keep, List.filter_filter]
        congr 1
        apply List.filter_congr
        intro e he
        by_cases hsel : (e.isContainment && decide (e.fromNodeId = x)) = true
        · rw [Bool.and_eq_true, decide_eq_true_eq] at hsel
          -- both ends of the edge are in its project
          have hp : e.projectId = n'.projectId := (hsel.2 ▸ hw₁.from_has he).unique hhas
          obtain ⟨m, hm, hmp⟩ := hw₁.to_has he
          have hmp : m.projectId ≠ projectId := by rw [hmp, hp]; exact hother
          simp [hsel.1, hsel.2, hp, hother, hrow', hm, hmp]
        · simp [Bool.not_eq_true _ ▸ hsel]

theorem importCommitted_reflects
    (h : importCommitted uuid now f g = .ok g') : Reflects (fun _ => False) gap g g' := by
  obtain ⟨g₁, hproject, h⟩ := bind_ok h
  obtain ⟨g₂, hnodes, h⟩ := bind_ok h
  obtain ⟨g₃, hroot, h⟩ := bind_ok h
  obtain ⟨g₄, hedges, hblocks⟩ := bind_ok h
  obtain ⟨projects, -, rfl⟩ := insertProject_ok hproject
  obtain ⟨nodes, hrows, rfl⟩ := insertNodes_ok hnodes
  have hset : ∃ projects, g₃ = { g with projects, nodes } := by
    unfold ImportFile.setRoot at hroot
    split at hroot
    · cases hroot
      exact ⟨_, rfl⟩
    · exact ⟨_, flushProject_ok hroot⟩
  obtain ⟨projects, rfl⟩ := hset
  obtain ⟨edges, hes, rfl⟩ := insertEdges_ok hedges
  obtain ⟨blocks, hbs, rfl⟩ := insertBlocks_ok hblocks
  have hadded : Added g nodes (f.newNodes uuid) := added_of_rows hrows
  have hfresh : ∀ x c, f.idMap uuid x = some c → g.nodes.get c = none := by
    intro x c hc
    obtain ⟨n, hn, -, rfl⟩ := ImportFile.idMap_ok hc
    exact hadded.fresh _ (List.mem_map_of_mem hn)
  have hfirst : ∀ n ∈ f.newNodes uuid, n.revision = 1 := by
    intro n hn
    obtain ⟨x, -, rfl⟩ := List.mem_map.mp hn
    rfl
  refine .of_added hrows hes hbs hfirst ?_ ?_
  · intro e he
    obtain ⟨-, ⟨a, ha⟩, -⟩ := importEdges_ends he
    exact hfresh a _ ha
  · intro b hb
    obtain ⟨x, -, hb⟩ := List.mem_filterMap.mp hb
    obtain ⟨c, hc, hb⟩ := Option.bind_eq_some_iff.mp hb
    cases hb
    exact hfresh _ c hc

theorem importProject_reflects
    (h : importProjectJson (fun _ => g) uuid seats now f g = .ok g') : Reflects (fun _ => False) gap g g' := by
  unfold importProjectJson at h
  split at h
  · exact importCommitted_reflects h
  · obtain ⟨_, -, h⟩ := bind_ok h
    exact importCommitted_reflects h

/-! Branches -/

theorem createBranch_reflects {d : BranchCreate}
    (h : createBranch (fun _ => g) uuid now projectId d g = .ok g') : Reflects (fun _ => False) gap g g' := by
  obtain ⟨-, h⟩ := guard_ok h
  cases hn : g.nodes.get d.sourceNodeId with
  | none => simp [hn] at h
  | some source =>
    simp only [hn] at h
    obtain ⟨-, h⟩ := guard_ok h
    obtain ⟨g₁, hclaim, h⟩ := bind_ok h
    have hload : ∀ x n, g₁.nodes.get x = some n → ∃ old, (if x = source.id then some source else g₁.nodes.get x) = some old := by
      intro x n hx
      split
      · exact ⟨_, rfl⟩
      · exact ⟨n, hx⟩
    have hcopied := deepCopyBranch_ok h
    have hrows := hcopied.rowsOf
    have hadded : Added g₁ g'.nodes _ := added_of_rows hrows.nodes
    have hfresh : ∀ y c, idMap (fun i => uuid (i + 1)) (subtreeOf g₁ projectId d.sourceNodeId) y = some c →
        g₁.nodes.get c = none := by
      intro y c hc
      obtain ⟨n, hy, -⟩ := hcopied.has y (mem_of_idMap hc)
      obtain ⟨old, hold⟩ := hload y n hy
      exact hadded.fresh _ (copiedNodes_mem _ _ (mem_of_idMap hc) hold hc)
    refine Reflects.claimed hclaim (.of_added hrows.nodes hrows.edges hrows.blocks ?_ ?_ ?_)
    · intro n hn
      obtain ⟨_, -, old, id, -, -, rfl⟩ := mem_copiedNodes hn
      rfl
    · intro e he
      obtain ⟨-, a, -, ha, -⟩ := mem_copiedEdges he
      exact hfresh a _ ha
    · intro b hb
      obtain ⟨x, hx⟩ := mem_copiedBlocks hb
      exact hfresh x _ hx

/-- The nodes of the branch and the target are written once each. -/
theorem mergeBranch_reflects (hw : Wf g) {d : BranchMerge}
    (h : mergeBranch (fun _ => g) uuid branchId d g = .ok g') :
    Reflects (fun x => x = d.targetNodeId ∨ g.branchOf x = some (some branchId))
      (fun x => ∃ root, branchRoot g branchId = some root ∧ root.id ∈ g.children x) g g' := by
  obtain ⟨branch, target, root, old, g₁, g₂, g₃, m⟩ := mergeBranch_ok h
  obtain ⟨hnodes, hedges, -, -⟩ := claim_rows m.claimed
  have ht := m.targetRow
  have hr := m.rootRow
  have hid : target.id = d.targetNodeId := get_key ht
  have hmainline := m.mainline hw
  have hnodes₃ : g₃.nodes = (mainlined branchId g₁).nodes := by
    rw [flushBranch_ok m.status]
    obtain ⟨-, edges, -, rfl⟩ := insertEdge_ok m.child
    rfl
  have hget₃ : ∀ x n, g.nodes.get x = some n →
      g₃.nodes.get x = some (if n.branchId = some branchId then n.toMain else n) := by
    intro x n hn
    rw [hnodes₃]
    show (g₁.nodes.update _ Node.toMain Node.toMain_key).get x = _
    rw [get_update, hnodes, hn]
    simp
  have htarget : g₃.nodes.get target.id = some target := by
    rw [hget₃ target.id target (by rw [hid, ← hnodes]; exact ht), if_neg (by simp [hmainline])]
  have hsame : target.SameIdentity target.bump := ⟨rfl, rfl, rfl⟩
  have hget := flushNode_get htarget hsame m.flushed
  refine ⟨?_, ?_, ?_, ?_⟩
  · intro x n n' hn hn' hx
    rw [hget x] at hn'
    by_cases hself : x = target.id
    · rw [if_pos hself, Option.some.injEq] at hn'
      rw [hself, hid, ← hnodes, ht] at hn
      cases hn
      rw [← hn']
      rfl
    · have hbranch : n.branchId = some branchId := by
        rcases hx with hx | hx
        · exact absurd (hx.trans hid.symm) hself
        · simpa [Graph.branchOf, hn] using hx
      rw [if_neg hself, hget₃ x n hn, if_pos hbranch] at hn'
      cases hn'
      rfl
  · intro x n n' hn hn' hx
    have hself : x ≠ target.id := fun heq => hx (.inl (heq.trans hid))
    have hbranch : n.branchId ≠ some branchId := fun heq => hx (.inr (by simp [Graph.branchOf, hn, heq]))
    rw [hget x, if_neg hself, hget₃ x n hn, if_neg hbranch] at hn'
    exact (Option.some.inj hn').symm
  · intro x n n' hn hn' hx hgap
    have hstart : Undisturbed x g (mainlined branchId g₁) := (undisturbed_claim m.claimed).trans ⟨rfl, rfl⟩
    have hrest : Undisturbed x g₂ g' := by
      refine Undisturbed.trans ?_ (undisturbed_flushNode m.flushed)
      rw [flushBranch_ok m.status]
      exact ⟨rfl, rfl⟩
    refine ((hstart.trans (undisturbed_deleteEdges ?_)).trans (undisturbed_insertEdge m.child ?_)).trans hrest
    · -- the edge that goes is the one into the root of the branch
      intro e he hc hfrom
      rw [decide_eq_false_iff_not]
      intro hdel
      have hparent := m.single
      cases old with
      | none => simp at hdel
      | some o =>
        have ho : o ∈ (mainlined branchId g₁).parentEdges root.id := by
          rw [hparent]
          simp
        have hids : e.id = o.id := by simpa using hdel
        have hrow := get_of_mem he
        rw [hids, get_of_mem (List.mem_of_mem_filter ho)] at hrow
        cases hrow
        have hto := (List.mem_filter.mp ho).2
        rw [Bool.and_eq_true, decide_eq_true_eq] at hto
        refine hgap ⟨root, ?_, ?_⟩
        · rw [← hr, branchRoot, branchRoot, hnodes, hedges]
        · rw [← hto.2, Graph.children]
          refine List.mem_map_of_mem (List.mem_filter.mpr ⟨?_, by simp [hc, hfrom]⟩)
          rw [← hedges]
          exact he
    · exact fun _ hfrom => hx (.inl hfrom.symm)
  · intro x n' hnone hn'
    have hself : x ≠ target.id := by
      rintro rfl
      rw [← hnodes, hid, ht] at hnone
      cases hnone
    have hnone₃ : g₃.nodes.get x = none := by
      rw [hnodes₃]
      show (g₁.nodes.update _ Node.toMain Node.toMain_key).get x = none
      rw [get_update, hnodes, hnone]
      rfl
    rw [hget x, if_neg hself, hnone₃] at hn'
    cases hn'

theorem archiveBranch_reflects
    (h : archiveBranch (fun _ => g) branchId expectedProject expected g = .ok g') : Reflects (fun _ => False) gap g g' := by
  unfold archiveBranch at h
  cases hb : g.branches.get branchId with
  | none => simp [hb] at h
  | some =>
    simp only [hb] at h
    obtain ⟨-, h⟩ := guard_ok h
    obtain ⟨g₁, hclaim, h⟩ := bind_ok h
    obtain ⟨_, -, h⟩ := bind_ok h
    rw [flushBranch_ok h]
    exact Reflects.claimed hclaim (.of_extends (extends_of_eq rfl) (fun _ _ _ _ => ⟨rfl, rfl⟩))

/-! Artifacts -/

theorem applyArtifact_reflects {target : Node}
    (ht : g.nodes.get target.id = some target) (h : applyArtifact uuid now target payload g = .ok g') :
    Reflects (· = target.id) gap g g' := by
  cases payload with
  | createChild =>
    obtain ⟨g₁, hnode, h⟩ := bind_ok h
    obtain ⟨g₂, hchild, h⟩ := bind_ok h
    have hext : Extends g.nodes g₂.nodes := (extends_insertNode hnode rfl).trans (extends_insertEdge hchild)
    refine Reflects.of_flush ht hext h ⟨rfl, rfl, rfl⟩ rfl rfl ?_
    intro x m _ hx
    exact ((undisturbed_insertNode hnode).trans (undisturbed_insertEdge hchild (fun _ heq => hx heq.symm))).trans
      (undisturbed_flushNode h)
  | updateNode =>
    exact Reflects.of_flush ht (.refl g.nodes) h ⟨rfl, rfl, rfl⟩ rfl rfl (fun _ _ _ _ => undisturbed_flushNode h)
  | createBlock =>
    obtain ⟨g₁, hblock, h⟩ := bind_ok h
    have hnodes : g₁.nodes = g.nodes := by
      obtain ⟨blocks, -, rfl⟩ := insertBlock_ok hblock
      rfl
    refine Reflects.of_flush ht (extends_of_eq hnodes) h ⟨rfl, rfl, rfl⟩ rfl rfl ?_
    intro x m _ hx
    exact (undisturbed_insertBlock hblock (fun heq => hx heq.symm)).trans (undisturbed_flushNode h)

theorem approveArtifact_reflects {targetNodeId : String} {d : ArtifactReview}
    (h : approveArtifact (fun _ => g) uuid now projectId targetNodeId payload d g = .ok g') :
    Reflects (· = targetNodeId) gap g g' := by
  unfold approveArtifact at h
  cases ht : g.nodes.get targetNodeId with
  | none => simp [ht] at h
  | some target =>
    simp only [ht] at h
    split at h
    · obtain ⟨g₁, hclaim, h⟩ := bind_ok h
      obtain ⟨_, -, h⟩ := bind_ok h
      have hid : target.id = targetNodeId := get_key ht
      rw [← hid] at ht ⊢
      exact Reflects.claimed hclaim (applyArtifact_reflects ((extends_claim hclaim).keeps _ _ ht) h)
    · cases h

end Routes

/-! Batches -/

theorem Op.touches_withId {ι κ : Type} (op : Op ι) (f : ι → κ) : (op.withId f).touches = op.touches := by
  cases op <;> rfl

theorem Fills.touches {raw : Op String} (h : Fills raw op) : op.touches = raw.touches := by
  cases h with
  | node => rfl
  | other => rfl

theorem Op.touches_of_updated (h : op.updated = some x) : x ∈ op.touches := by
  cases op with
  | updateNode =>
    cases h
    simp [Op.touches, Op.expectations]
  | createNode => cases h
  | createEdge => cases h
  | createContentBlock => cases h
  | createBranch => cases h

theorem Op.touches_of_ends (h : op.ends = some e.ends) : e.fromNodeId ∈ op.touches := by
  cases op with
  | createNode =>
    obtain ⟨q, hq, heq⟩ := Option.map_eq_some_iff.mp h
    have hfrom : q.1 = e.fromNodeId := congrArg (fun t => t.2.1) heq
    simp [Op.touches, Op.expectations, hq, hfrom]
  | createEdge id a =>
    have hfrom : a = e.fromNodeId := congrArg (fun t => t.2.1) (Option.some.inj h)
    simp [Op.touches, Op.expectations, hfrom]
  | updateNode => cases h
  | createContentBlock => cases h
  | createBranch => cases h

theorem Op.touches_of_owner (h : op.owner = some x) : x ∈ op.touches := by
  cases op with
  | createContentBlock =>
    cases h
    simp [Op.touches, Op.expectations]
  | createNode => cases h
  | updateNode => cases h
  | createEdge => cases h
  | createBranch => cases h

theorem Op.touches_sub {ι : Type} {op : Op ι} (h : x ∈ op.touches) : ∃ expected, (x, expected) ∈ op.expectations := by
  cases op with
  | createBranch => cases h
  | createNode =>
    obtain ⟨y, hy, rfl⟩ := List.mem_map.mp h
    exact ⟨y.2, hy⟩
  | updateNode =>
    obtain ⟨y, hy, rfl⟩ := List.mem_map.mp h
    exact ⟨y.2, hy⟩
  | createEdge =>
    obtain ⟨y, hy, rfl⟩ := List.mem_map.mp h
    exact ⟨y.2, hy⟩
  | createContentBlock =>
    obtain ⟨y, hy, rfl⟩ := List.mem_map.mp h
    exact ⟨y.2, hy⟩

section Applied

variable {uuid : Nat → Nat → String} {now : Int} {grant : Grant} {actor : String} {body : Batch} {g g' : Graph}
  {ops : List (Op String)} {order : List (Op String × Nat)} {results : List (OpResult × Nat)} {allowed : List String}
  {g₁ g₂ : Graph} (ha : Applied uuid now grant actor body g g' ops order results allowed g₁ g₂)
include ha

/-- The nodes the operations touch are those of the request. -/
theorem Applied.touches_iff : (∃ op ∈ ops, x ∈ op.touches) ↔ ∃ op ∈ body.operations, x ∈ op.touches := by
  have hraw : (∃ op ∈ ops, x ∈ op.touches) ↔ ∃ op ∈ identified (fun i => uuid i 0) body.operations, x ∈ op.touches := by
    have hall := ha.fills
    generalize identified (fun i => uuid i 0) body.operations = raws at hall
    clear ha
    induction hall with
    | nil => simp
    | cons hd _ ih => simp only [List.mem_cons, exists_eq_or_imp, ih, hd.touches]
  rw [hraw, identified]
  constructor
  · rintro ⟨op, hop, hx⟩
    obtain ⟨y, hy, rfl⟩ := List.mem_map.mp hop
    rw [Op.touches_withId] at hx
    exact ⟨y.1, List.fst_mem_of_mem_zipIdx hy, hx⟩
  · rintro ⟨op, hop, hx⟩
    obtain ⟨i, hi, rfl⟩ := List.mem_iff_getElem.mp hop
    have hmem : (body.operations[i], i) ∈ body.operations.zipIdx := by
      rw [List.mk_mem_zipIdx_iff_getElem?]
      exact List.getElem?_eq_getElem hi
    refine ⟨_, List.mem_map_of_mem hmem, ?_⟩
    rw [Op.touches_withId]
    exact hx

theorem Applied.touched_has (hn : g₁.nodes.get x = some n) (hop : op ∈ ops)
    (hx : x ∈ op.touches) : g₁.Has grant.projectId x := by
  obtain ⟨expected, hx⟩ := Op.touches_sub hx
  obtain ⟨b, href⟩ := ha.validated.refs ha.inScope (fun o ho => ha.self ho) hop hx
  cases href with
  | existing hsnap => exact ⟨_, ha.snapshot.mp hsnap⟩
  | new _ _ hnew =>
    obtain ⟨o, ho, honew⟩ := List.mem_filterMap.mp hnew
    obtain ⟨i, hi⟩ := ha.scheduled ho
    have hnone := (ha.grown.created x b (List.mem_filterMap.mpr ⟨_, hi, honew⟩)).1
    rw [hn] at hnone
    cases hnone

theorem Applied.reflects : Reflects (fun x => ∃ op ∈ body.operations, x ∈ op.touches) gap g g' := by
  refine Reflects.claimed ha.claim ?_
  have hgrown := ha.grown
  have hiff : ∀ x n, g₁.nodes.get x = some n →
      (x ∈ touchedNodes g₁ grant.projectId ops ↔ ∃ op ∈ body.operations, x ∈ op.touches) := by
    intro x n hn
    rw [mem_touchedNodes, ha.touches_iff.symm]
    refine ⟨fun h => h.1, fun ⟨op, hop, hx⟩ => ⟨⟨op, hop, hx⟩, ha.touched_has hn hop hx⟩⟩
  have hidle : ∀ x, ¬ (∃ op ∈ body.operations, x ∈ op.touches) → ∀ op ∈ order, x ∉ op.1.touches := by
    intro x hx op hop hin
    exact hx (ha.touches_iff.mp ⟨op.1, ha.mem hop, hin⟩)
  refine ⟨?_, ?_, ?_, ?_⟩
  · intro x n n' hn hn' hx
    obtain ⟨m, hm, hevolves, -⟩ := hgrown.keeps x n hn
    rw [ha.bump.nodes, if_pos ((hiff x n hn).mpr hx), hm] at hn'
    cases hn'
    show bumped m.revision = bumped n.revision
    rw [hevolves.revision]
  · intro x n n' hn hn' hx
    obtain ⟨m, hm, -, hsame⟩ := hgrown.keeps x n hn
    rw [ha.bump.nodes, if_neg (fun hin => hx ((hiff x n hn).mp hin)), hm] at hn'
    cases hn'
    exact hsame fun op hop hupdated => hidle x hx op hop (Op.touches_of_updated hupdated)
  · intro x n _ hn _ hx _
    obtain ⟨es, hedges, hes⟩ := hgrown.edges
    obtain ⟨bs, hblocks, hbs⟩ := hgrown.blocks
    have hnew : ∀ y, IsCopy g₁ order g₂ y → y ≠ x := by
      rintro y ⟨⟨hnone, -⟩, -⟩ rfl
      rw [hn] at hnone
      cases hnone
    have hrest : Undisturbed x g₂ g' := by
      rw [ha.bump.rest]
      exact ⟨rfl, rfl⟩
    refine (undisturbed_added hedges hblocks ?_ ?_).trans hrest
    · intro e he _ hfrom
      rcases (hes e he).2.2 with ⟨op, hop, hends⟩ | ⟨hcopy, -⟩
      · exact hidle x hx op hop (hfrom ▸ Op.touches_of_ends hends)
      · exact hnew _ hcopy hfrom
    · intro b hb hnode
      rcases (hbs b hb).2 with ⟨op, hop, howner⟩ | hcopy
      · exact hidle x hx op hop (hnode ▸ Op.touches_of_owner howner)
      · exact hnew _ hcopy hnode
  · intro x n' hnone hn'
    have hx : x ∉ touchedNodes g₁ grant.projectId ops := by
      intro hx
      obtain ⟨-, n, hn, -⟩ := mem_touchedNodes.mp hx
      rw [hnone] at hn
      cases hn
    rw [ha.bump.nodes, if_neg hx] at hn'
    by_cases hcopy : IsCopy g₁ order g₂ x
    · obtain ⟨_, _, _, _, _, -, -, _, _, _, _, _, _, _, -, -, -, rfl⟩ := hgrown.copied x n' hn' hcopy
      rfl
    · have hnamed : ∃ b, (x, b) ∈ newNodes order := by
        by_contra hno
        exact hcopy ⟨⟨hnone, n', hn'⟩, fun b hb => hno ⟨b, hb⟩⟩
      obtain ⟨b, hb⟩ := hnamed
      obtain ⟨-, n, hn, -, -, hrev⟩ := hgrown.created x b hb
      rw [hn] at hn'
      cases hn'
      exact hrev

end Applied

end GrowthMap.Canon
