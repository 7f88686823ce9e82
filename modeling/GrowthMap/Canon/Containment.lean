import GrowthMap.Canon.Steps
import GrowthMap.Lib.Runs

/- Containment over whole runs: whether it stays a forest, and whether it stays inside branches.

   Both are guards on the edges that are added. A request that owes the guard something meets
   a condition on its input and the state before it. -/
namespace GrowthMap.Canon

open Relational Relation Forest Table

/-! Runs -/

/-- A request with what it draws. -/
structure Event where
  request : Request
  uuid : Nat → Nat → String
  now : Int
  ids : ∀ i k, isUuid (uuid i k) = true

/-- The graph after a request; a request that is refused leaves it. -/
def Graph.after (g : Graph) (e : Event) : Graph :=
  match e.request.run (fun _ => g) e.uuid e.now g with
  | .ok g' => g'
  | .error _ => g

variable {guard : Graph → List Edge → Prop} {es : List Edge} {e : Edge} {g g' : Graph} {b a p x y : String}
  {op : Op String} {i : Nat} {pre post : List (Op String × Nat)}

theorem commit_invariant (pol : Policy guard) {I : Graph → Prop}
    (hI : ∀ {g g' claim}, Wf g → I g → Commit guard g g' claim → I g') {P : Graph → Event → Prop}
    (hP : ∀ g e, Wf g → I g → P g e → e.request.Obliged guard e.uuid e.now g) (h0 : I Graph.empty) {es : List Event}
    (h : Runs.Along Graph.after P Graph.empty es) : I (Runs.run Graph.after Graph.empty es) := by
  suffices hboth : Wf (Runs.run Graph.after Graph.empty es) ∧ I (Runs.run Graph.after Graph.empty es) from hboth.2
  refine h.invariant (fun g => Wf g ∧ I g) ?_ ⟨wf_empty, h0⟩
  rintro g e ⟨hw, hi⟩ hp
  unfold Graph.after
  split
  · rename_i g' hrun
    have hcommit := (Request.commit pol e.ids hw (hP g e hw hi hp) hrun).1
    exact ⟨(hcommit.sound hw).1, hI hw hi hcommit⟩
  · exact ⟨hw, hi⟩

/-! Forests -/

def forestGuard (g : Graph) (es : List Edge) : Prop := IsForest (arcs g.edges.rows) → IsForest (arcs g.edges.rows ++ arcs es)

theorem arcs_sublist {es' : List Edge} (h : es'.Sublist es) : (arcs es').Sublist (arcs es) := (h.filter _).map _

theorem arcs_single (h : e.isContainment = true) : arcs [e] = [(e.fromNodeId, e.toNodeId)] := by
  simp [arcs, h]

theorem forestGuard_single (he : e.isContainment = true)
    (hsingle : ∀ x, (x, e.toNodeId) ∉ arcs g.edges.rows)
    (hback : ¬ ReflTransGen (Arc (arcs g.edges.rows)) e.toNodeId e.fromNodeId) : forestGuard g [e] := by
  intro hf
  rw [arcs_single he]
  exact hf.snoc hsingle hback

theorem not_mem_arcs_to (h : ∀ e ∈ es, e.toNodeId ≠ b) (x : String) : (x, b) ∉ arcs es := by
  intro hx
  obtain ⟨e, he, -, -, hto⟩ := mem_arcs.mp hx
  exact h e he hto

theorem not_mem_arcs_from (h : ∀ e ∈ es, e.fromNodeId ≠ a) (x : String) : (a, x) ∉ arcs es := by
  intro hx
  obtain ⟨e, he, -, hfrom, -⟩ := mem_arcs.mp hx
  exact h e he hfrom

theorem forestGuard_leaf (hfree : ∀ x ∈ g.edges.rows, x.fromNodeId ≠ e.toNodeId ∧ x.toNodeId ≠ e.toNodeId)
    (hne : e.fromNodeId ≠ e.toNodeId) : forestGuard g [e] := by
  by_cases he : e.isContainment = true
  · refine forestGuard_single he (not_mem_arcs_to fun x hx => (hfree x hx).2) ?_
    intro hback
    exact hne (eq_of_reflTransGen (not_mem_arcs_from fun x hx => (hfree x hx).1) hback)
  · intro hf
    simpa [arcs, he] using hf

/-- New names are on no edge that is there. -/
theorem rename_apart {f : String → Option String} {l : List (String × String)}
    (hfree : ∀ a c, f a = some c → ∀ x ∈ g.edges.rows, x.fromNodeId ≠ c ∧ x.toNodeId ≠ c) :
    ∀ x ∈ arcs g.edges.rows, ∀ y ∈ Forest.rename f l, x.2 ≠ y.1 ∧ y.2 ≠ x.1 ∧ x.2 ≠ y.2 := by
  intro x hx y hy
  obtain ⟨e, he, -, hfrom, hto⟩ := mem_arcs.mp hx
  obtain ⟨z, -, hz₁, hz₂⟩ := mem_rename.mp hy
  rw [← hfrom, ← hto]
  exact ⟨(hfree _ _ hz₁ e he).2, fun heq => (hfree _ _ hz₂ e he).1 heq.symm, (hfree _ _ hz₂ e he).2⟩

theorem policy_forest : Policy forestGuard := by
  refine ⟨?_, ?_, fun hfree hne _ => forestGuard_leaf hfree hne, ?_⟩
  · intro g g' es hsimilar hg
    rw [forestGuard, hsimilar.arcs]
    exact hg
  · intro g es hes hf
    rw [hes, List.append_nil]
    exact hf
  · intro g es l f hes hl hinj hfree _ hf
    rw [hes]
    exact hf.append ((hf.sublist hl).rename hinj) (rename_apart hfree)

section Arcs

variable {P : List (String × String) → Prop} (hsub : ∀ {l l'}, P l → l'.Sublist l → P l')
include hsub

/-- What fewer arcs keep is kept by every write whose new edges keep it. -/
theorem arcs_write (hf : P (arcs g.edges.rows))
    (h : Write (fun g es => P (arcs g.edges.rows) → P (arcs g.edges.rows ++ arcs es)) p g g') : P (arcs g'.edges.rows) := by
  cases h with
  | projectRow _ _ h => rwa [flushProject_ok h]
  | node _ _ h =>
    obtain ⟨-, nodes, -, rfl⟩ := insertNode_ok h
    exact hf
  | nodeRow _ _ h => rwa [flushNode_ok h]
  | edges _ hguard h =>
    obtain ⟨edges, hrows, rfl⟩ := insertEdges_ok h
    show P (arcs edges.rows)
    rw [hrows, arcs_append]
    exact hguard hf
  | @edgeRow old new _ _ h =>
    rw [flushEdge_ok h]
    show P (arcs (g.edges.modify old.id (old.patch new) Edge.patch_key).rows)
    rwa [arcs_patch]
  | block _ h =>
    obtain ⟨blocks, -, rfl⟩ := insertBlock_ok h
    exact hf
  | blockRow _ h => rwa [flushBlock_ok h]
  | blocksGone => exact hf
  | branch _ _ _ h =>
    obtain ⟨branches, -, rfl⟩ := insertBranch_ok h
    exact hf
  | branchRow _ h => rwa [flushBranch_ok h]
  | edgesGone => exact hsub hf (arcs_sublist List.filter_sublist)
  | nodesGone => exact hsub hf (arcs_sublist List.filter_sublist)
  | toMain => exact hf

theorem arcs_commit {claim : Option (String × Int)} (hf : P (arcs g.edges.rows))
    (h : Commit (fun g es => P (arcs g.edges.rows) → P (arcs g.edges.rows ++ arcs es)) g g' claim) : P (arcs g'.edges.rows) := by
  have hwrites : ∀ {p : String} {g g' : Graph}, P (arcs g.edges.rows) →
      Writes (fun g es => P (arcs g.edges.rows) → P (arcs g.edges.rows ++ arcs es)) p g g' → P (arcs g'.edges.rows) := by
    intro p g g' hf h
    induction h with
    | refl => exact hf
    | tail _ hstep ih => exact arcs_write hsub ih hstep
  cases h with
  | claimed hclaim h =>
    refine hwrites ?_ h
    rwa [(claim_rows hclaim).2.1]
  | created _ _ hins h =>
    refine hwrites ?_ h
    obtain ⟨projects, -, rfl⟩ := insertProject_ok hins
    exact hf
  | deleted hclaim h =>
    subst h
    refine hsub ?_ (arcs_sublist List.filter_sublist)
    rwa [(claim_rows hclaim).2.1]

end Arcs

theorem forest_commit {claim : Option (String × Int)} (hf : IsForest (arcs g.edges.rows))
    (h : Commit forestGuard g g' claim) : IsForest (arcs g'.edges.rows) :=
  arcs_commit (fun hf hsub => hf.sublist hsub) hf h

/-! What the walks see -/

theorem mem_children : b ∈ g.children a ↔ (a, b) ∈ arcs g.edges.rows := by
  rw [mem_arcs, Graph.children, List.mem_map]
  constructor
  · rintro ⟨e, he, rfl⟩
    obtain ⟨hmem, hsel⟩ := List.mem_filter.mp he
    rw [Bool.and_eq_true, decide_eq_true_eq] at hsel
    exact ⟨e, hmem, hsel.1, hsel.2, rfl⟩
  · rintro ⟨e, hmem, hc, rfl, rfl⟩
    exact ⟨e, List.mem_filter.mpr ⟨hmem, by simp [hc]⟩, rfl⟩

theorem children_arc (g : Graph) : (fun a b => b ∈ g.children a) = Arc (arcs g.edges.rows) := by
  funext a b
  exact propext mem_children

theorem mem_descendants : y ∈ g.descendants x ↔ TransGen (Arc (arcs g.edges.rows)) x y := by
  have hu : ∀ a b, b ∈ g.children a → b ∈ (g.edges.rows.map Edge.toNodeId).toFinset := by
    intro a b hb
    obtain ⟨e, he, -, -, rfl⟩ := mem_arcs.mp (mem_children.mp hb)
    exact List.mem_toFinset.mpr (List.mem_map_of_mem he)
  have hfuel : (g.edges.rows.map Edge.toNodeId).toFinset.card + 1 ≤ g.edges.rows.length + 1 := by
    have hcard := List.toFinset_card_le (g.edges.rows.map Edge.toNodeId)
    rw [List.length_map] at hcard
    omega
  rw [Graph.descendants, mem_walk hu hfuel]
  rw [children_arc]

theorem parentEdges_nil (h : g.parentEdges b = []) (x : String) : (x, b) ∉ arcs g.edges.rows := by
  intro hx
  obtain ⟨e, he, hc, -, hto⟩ := mem_arcs.mp hx
  have hmem : e ∈ g.parentEdges b := List.mem_filter.mpr ⟨he, by simp [hc, hto]⟩
  rw [h] at hmem
  cases hmem

theorem not_reaches (hne : y ≠ x) (hdesc : y ∉ g.descendants x) : ¬ ReflTransGen (Arc (arcs g.edges.rows)) x y := by
  intro hback
  rcases reflTransGen_iff_eq_or_transGen.mp hback with heq | htrans
  · exact hne heq
  · exact hdesc (mem_descendants.mpr htrans)

theorem not_reaches_detach (hne : y ≠ x) (hdesc : y ∉ g.descendants x) :
    ¬ ReflTransGen (Arc (arcs (detach x g).edges.rows)) x y := by
  intro hback
  exact not_reaches hne hdesc (ReflTransGen.mono (fun _ _ hab => (arcs_sublist List.filter_sublist).subset hab) _ _ hback)

theorem forestGuard_detach (he : e.Joins y x) (hne : y ≠ x) (hdesc : y ∉ g.descendants x) :
    forestGuard (detach x g) [e] := by
  obtain ⟨hc, rfl, rfl⟩ := he
  refine forestGuard_single hc ?_ (not_reaches_detach hne hdesc)
  intro z hz
  obtain ⟨o, ho, hoc, -, hto⟩ := mem_arcs.mp hz
  have hkept := (List.mem_filter.mp ho).2
  simp [hoc, hto] at hkept

/-! Where containment stays a forest -/

/-- The containment edges of an import file between nodes of the file. -/
def ImportFile.contained (f : ImportFile) : List (String × String) :=
  f.arcs.filter (fun x => f.nodes.any (fun n => decide (n.id = x.1)) && f.nodes.any (fun n => decide (n.id = x.2)))

/-- The containment an operation adds between nodes it names. -/
def Op.arc (op : Op String) : Option (String × String) :=
  op.ends.bind (fun x => if x.1 = "child_of" then some x.2 else none)

/-- The containment edge that `create_edge` adds. -/
def Op.joined : Op String → Option (String × String)
  | .createEdge _ a b _ _ relationType .. => if relationType = "child_of" then some (a, b) else none
  | _ => none

def otherArcs (g : Graph) (ops : List (Op String)) (i : Nat) : List (String × String) :=
  arcs g.edges.rows ++ (ops.eraseIdx i).filterMap Op.arc

/-- No request gives a node a second parent or puts it below itself: `create_edge`, alone and in a batch, goes to a
node that has no parent and does not lead to the source; `move_node` is not to the node itself; the target of a
merge is not below the root of the branch; the containment of an import file is a forest. -/
def Event.KeepsForest (g : Graph) (e : Event) : Prop :=
  match e.request with
  | .createEdge d => d.relationType = "child_of" → g.parentEdges d.toNodeId = [] ∧ d.fromNodeId ∉ g.descendants d.toNodeId
  | .moveNode nodeId d => d.newParentId ≠ nodeId
  | .mergeBranch branchId d => ∀ root, branchRoot g branchId = some root → d.targetNodeId ∉ g.descendants root.id
  | .importProject _ f => IsForest f.contained
  | .batch _ _ body => ∀ i op a b, (identified (fun i => e.uuid i 0) body.operations)[i]? = some op → op.joined = some (a, b) →
    let others := otherArcs g (identified (fun i => e.uuid i 0) body.operations) i
    (∀ x, (x, b) ∉ others) ∧ ¬ ReflTransGen (Arc others) b a
  | _ => True

theorem rename_contained (f : ImportFile) (uuid : Nat → String) :
    Forest.rename (f.idMap uuid) f.arcs = Forest.rename (f.idMap uuid) f.contained := by
  have hknown : ∀ x c, f.idMap uuid x = some c → f.nodes.any (fun n => decide (n.id = x)) = true := by
    intro x c hc
    obtain ⟨n, hn, hid, -⟩ := ImportFile.idMap_ok hc
    exact List.any_eq_true.mpr ⟨n.1, List.fst_mem_of_mem_zipIdx hn, by simp [hid]⟩
  simp only [Forest.rename, ImportFile.contained, List.filterMap_filter]
  apply List.filterMap_congr
  intro x hx
  split
  · rfl
  · rename_i hno
    cases ha : f.idMap uuid x.1 with
    | none => rfl
    | some =>
      cases hb : f.idMap uuid x.2 with
      | none => rfl
      | some => exact absurd (by rw [hknown _ _ ha, hknown _ _ hb]; rfl) hno

theorem obliged_import {f : ImportFile} {uuid : Nat → Nat → String} {seats : Option Nat} {now : Int}
    (h : IsForest f.contained) : (Request.importProject seats f).Obliged forestGuard uuid now g := by
  intro g₁ hedges hnew hinj hf
  rw [hedges] at hf ⊢
  rw [arcs_newEdges, rename_contained]
  exact hf.append (h.rename hinj) (rename_apart fun a c hc => (hnew a c hc).2)

theorem Fills.ends {raw : Op String} (h : Fills raw op) : op.ends = raw.ends := by
  cases h with
  | node => rfl
  | other => rfl

section Applied

variable {uuid : Nat → Nat → String} {now : Int} {grant : Grant} {actor : String} {body : Batch} {g g' : Graph}
  {ops : List (Op String)} {order : List (Op String × Nat)} {results : List (OpResult × Nat)} {allowed : List String}
  {g₁ g₂ : Graph} (ha : Applied uuid now grant actor body g g' ops order results allowed g₁ g₂)
include ha

theorem Applied.raw (hi : (op, i) ∈ order) :
    ∃ raw, (identified (fun i => uuid i 0) body.operations)[i]? = some raw ∧ Fills raw op := by
  have hop := List.mk_mem_zipIdx_iff_getElem?.mp (ha.perm.subset hi)
  obtain ⟨hlen, hget⟩ := List.getElem?_eq_some_iff.mp hop
  have hlen' : i < (identified (fun i => uuid i 0) body.operations).length := by
    rw [ha.fills.length_eq]
    exact hlen
  refine ⟨_, List.getElem?_eq_getElem hlen', ?_⟩
  have hfills := ha.fills.get hlen' hlen
  simp only [List.get_eq_getElem] at hfills
  rwa [hget] at hfills

/-- An edge of the graph in the middle of the run is one of the start, one of an operation before, or between copies. -/
theorem Applied.arc_cases (hw : Wf g) (horder : order = pre ++ (op, i) :: post) {h : Graph}
    (hran : Ran (fun i k => uuid i (k + 1)) now grant.projectId actor g₁ pre h)
    (hxy : (x, y) ∈ arcs h.edges.rows) :
    ((x, y) ∈ otherArcs g (identified (fun i => uuid i 0) body.operations) i ∧ ¬ IsCopy g₁ pre h x) ∨
      IsCopy g₁ pre h x ∧ IsCopy g₁ pre h y := by
  obtain ⟨es, hrows, hes⟩ := (ha.grown_prefix horder hran).edges
  obtain ⟨e, he, hc, rfl, rfl⟩ := mem_arcs.mp hxy
  rw [hrows, List.mem_append] at he
  rcases he with he | he
  · refine .inl ⟨List.mem_append_left _ (mem_arcs.mpr ⟨e, ?_, hc, rfl, rfl⟩), ?_⟩
    · rwa [(claim_rows ha.claim).2.1] at he
    · rintro ⟨⟨hnone, -⟩, -⟩
      obtain ⟨n, hn, -⟩ := (wf_claim hw ha.claim).from_has he
      rw [hnone] at hn
      cases hn
  · obtain ⟨-, -, ⟨⟨o, j⟩, ho, hends⟩ | hcopies⟩ := hes e he
    · refine .inl ⟨List.mem_append_right _ ?_, (ha.settled_ends horder ho hends).1.not_copy⟩
      obtain ⟨raw, hraw, hfills⟩ := ha.raw (by rw [horder]; exact List.mem_append_left _ ho)
      have hne : j ≠ i := by
        rintro rfl
        have hnodup := ha.nodup
        have hsame : o = op := by
          have h₁ := List.mk_mem_zipIdx_iff_getElem?.mp (ha.perm.subset (by rw [horder]; exact List.mem_append_left _ ho))
          have h₂ : ops[j]? = some op := List.mk_mem_zipIdx_iff_getElem?.mp (ha.perm.subset (by rw [horder]; simp))
          rw [h₁] at h₂
          exact Option.some.inj h₂
        rw [horder, List.nodup_append] at hnodup
        exact hnodup.2.2 _ ho _ List.mem_cons_self (by rw [hsame])
      refine List.mem_filterMap.mpr ⟨raw, List.mem_eraseIdx_iff_getElem?.mpr ⟨j, hne, hraw⟩, ?_⟩
      rw [Op.arc, ← hfills.ends, hends]
      simpa [Edge.ends, Edge.isContainment] using hc
    · exact .inr hcopies

theorem Applied.reach_cases (hw : Wf g) (horder : order = pre ++ (op, i) :: post) {h : Graph}
    (hran : Ran (fun i k => uuid i (k + 1)) now grant.projectId actor g₁ pre h)
    (hx : ¬ IsCopy g₁ pre h x) (hxy : ReflTransGen (Arc (arcs h.edges.rows)) x y) :
    ReflTransGen (Arc (otherArcs g (identified (fun i => uuid i 0) body.operations) i)) x y ∨ IsCopy g₁ pre h y := by
  induction hxy with
  | refl => exact .inl .refl
  | tail _ hstep ih =>
    rcases ha.arc_cases hw horder hran hstep with ⟨harc, hnot⟩ | ⟨-, hcopy⟩
    · rcases ih with ih | ih
      · exact .inl (ih.tail harc)
      · exact absurd ih hnot
    · exact .inr hcopy

/-- A batch keeps a guard that lets an edge to a new node through, and each edge between nodes it names, by what leads to
their nodes before and beside it. -/
theorem Applied.guarded (hw : Wf g)
    (hleaf : ∀ {h : Graph} {e : Edge}, (∀ x ∈ h.edges.rows, x.fromNodeId ≠ e.toNodeId ∧ x.toNodeId ≠ e.toNodeId) →
      e.fromNodeId ≠ e.toNodeId → guard h [e])
    (hjoin : ∀ i op a b, (identified (fun i => uuid i 0) body.operations)[i]? = some op → op.joined = some (a, b) →
      ∀ {h : Graph} {e : Edge}, e.Joins a b →
        (∀ x, (x, b) ∈ arcs h.edges.rows → (x, b) ∈ otherArcs g (identified (fun i => uuid i 0) body.operations) i) →
        (ReflTransGen (Arc (arcs h.edges.rows)) b a →
          ReflTransGen (Arc (otherArcs g (identified (fun i => uuid i 0) body.operations) i)) b a) → guard h [e]) :
    Guarded guard uuid now grant.projectId actor g₁ order := by
  intro pre op i post h h' e horder hran hwf hedges hbranches hnew hends hc
  have hin : (op, i) ∈ order := by rw [horder]; simp
  have hop := ha.mem hin
  cases op with
  | createNode id parent c =>
    obtain ⟨⟨q, expected⟩, rfl, heq⟩ := Option.map_eq_some_iff.mp hends
    obtain ⟨-, hfrom, hto⟩ : "child_of" = e.relationType ∧ q = e.fromNodeId ∧ id = e.toNodeId := by
      simpa [Edge.ends] using heq
    refine hleaf ?_ ?_
    · rw [hedges, ← hto]
      exact ends_ne hwf (hnew id c rfl).1
    · rw [← hfrom, ← hto]
      exact fun hself => ha.self hop id rfl (by simp [Op.dependsOn, hself])
  | createEdge id a b ea eb relationType =>
    obtain ⟨hrel, hfrom, hto⟩ : relationType = e.relationType ∧ a = e.fromNodeId ∧ b = e.toNodeId := by
      simpa [Op.ends, Edge.ends] using hends
    have hchild : relationType = "child_of" := by rw [hrel]; simpa [Edge.isContainment] using hc
    obtain ⟨raw, hraw, hfills⟩ := ha.raw hin
    obtain ⟨branchA, branchB, hrefA, hrefB, -⟩ := ha.validated.edge ha.inScope hop
    have hA := ha.settled_ref horder (by simp [Op.dependsOn]) hrefA
    have hB := ha.settled_ref horder (by simp [Op.dependsOn]) hrefB
    refine hjoin i raw a b hraw (by cases hfills; simp [Op.joined, hchild]) ⟨hc, hfrom.symm, hto.symm⟩ ?_ ?_
    · intro x hx
      rw [hedges] at hx
      rcases ha.arc_cases hw horder hran hx with ⟨hothers, -⟩ | ⟨-, hcopy⟩
      · exact hothers
      · exact absurd hcopy hB.not_copy
    · intro hpath
      rw [hedges] at hpath
      rcases ha.reach_cases hw horder hran hB.not_copy hpath with hpath | hcopy
      · exact hpath
      · exact absurd hcopy hA.not_copy
  | _ => cases hends

theorem Applied.forest (hw : Wf g)
    (hcond : ∀ i op a b, (identified (fun i => uuid i 0) body.operations)[i]? = some op → op.joined = some (a, b) →
      let others := otherArcs g (identified (fun i => uuid i 0) body.operations) i
      (∀ x, (x, b) ∉ others) ∧ ¬ ReflTransGen (Arc others) b a) :
    Guarded forestGuard uuid now grant.projectId actor g₁ order := by
  refine ha.guarded hw forestGuard_leaf ?_
  rintro i op a b hop hjoined h e ⟨hc, rfl, rfl⟩ hsame hpath
  obtain ⟨hsingle, hback⟩ := hcond i op _ _ hop hjoined
  exact forestGuard_single hc (fun x hx => hsingle x (hsame x hx)) (fun hx => hback (hpath hx))

end Applied

/-- What a request owes the forest. -/
theorem Event.KeepsForest.obliged {e : Event} (hw : Wf g) (h : e.KeepsForest g) :
    e.request.Obliged forestGuard e.uuid e.now g := by
  unfold Event.KeepsForest at h
  cases hr : e.request with
  | createEdge =>
    rw [hr] at h
    rintro hrel hne x ⟨hc, hfrom, hto⟩
    obtain ⟨hparent, hdesc⟩ := h hrel
    refine forestGuard_single hc (by rw [hto]; exact parentEdges_nil hparent) ?_
    rw [hfrom, hto]
    exact not_reaches hne hdesc
  | moveNode =>
    rw [hr] at h
    exact fun hdesc _ x hx => forestGuard_detach hx h hdesc
  | reparentNode => exact fun hdesc hne _ x hx => forestGuard_detach hx hne hdesc
  | mergeBranch branchId =>
    rw [hr] at h
    intro target root htarget hmain hroot _ x hx
    exact forestGuard_detach (g := mainlined branchId g) hx (target_ne_root htarget hmain hroot) (h root hroot)
  | importProject =>
    rw [hr] at h
    exact obliged_import h
  | batch =>
    rw [hr] at h
    exact fun g' ops order results allowed g₁ g₂ ha => ha.forest hw h
  | _ => trivial

/-- Every node has at most one parent, and no node is below itself. -/
def Graph.IsForest (g : Graph) : Prop :=
  (∀ x, (g.parentEdges x).length ≤ 1) ∧ ∀ x, ¬ TransGen (fun a b => b ∈ g.children a) x x

theorem parentEdges_length (g : Graph) (x : String) : (g.parentEdges x).length = ((arcs g.edges.rows).map Prod.snd).count x := by
  rw [arcs, List.map_map, List.count_eq_countP, List.countP_map, List.countP_filter, List.countP_eq_length_filter,
    Graph.parentEdges]
  congr 1
  apply List.filter_congr
  intro e _
  simp [Bool.and_comm, beq_eq_decide]

theorem isForest_iff : g.IsForest ↔ Forest.IsForest (arcs g.edges.rows) := by
  rw [Graph.IsForest, children_arc]
  constructor
  · rintro ⟨hsingle, hacyclic⟩
    refine ⟨List.nodup_iff_count_le_one.mpr fun x => ?_, hacyclic⟩
    rw [← parentEdges_length]
    exact hsingle x
  · rintro ⟨hsingle, hacyclic⟩
    refine ⟨fun x => ?_, hacyclic⟩
    rw [parentEdges_length]
    exact List.nodup_iff_count_le_one.mp hsingle x

/-- Along every run whose requests give no node a second parent and put none below itself, containment is a forest. -/
theorem containment_forest {es : List Event} (h : Runs.Along Graph.after (fun g e => e.KeepsForest g) Graph.empty es) :
    (Runs.run Graph.after Graph.empty es).IsForest := by
  rw [isForest_iff]
  refine commit_invariant policy_forest (I := fun g => Forest.IsForest (arcs g.edges.rows))
    (fun _ hf hcommit => forest_commit hf hcommit) (fun g e hw _ hp => hp.obliged hw) isForest_nil h

def sampleId : Nat → String
  | 0 => "00000000-0000-4000-8000-000000000000"
  | 1 => "00000000-0000-4000-8000-000000000001"
  | 2 => "00000000-0000-4000-8000-000000000002"
  | 3 => "00000000-0000-4000-8000-000000000003"
  | 4 => "00000000-0000-4000-8000-000000000004"
  | 5 => "00000000-0000-4000-8000-000000000005"
  | _ => "00000000-0000-4000-8000-00000000000f"

theorem isUuid_sampleId (n : Nat) : isUuid (sampleId n) = true := by
  unfold sampleId
  split <;> decide

theorem isUuid_sampleIds (k : Nat) : ∀ _ i : Nat, isUuid (sampleId (k + i)) = true := fun _ _ => isUuid_sampleId _

def sampleEvent (k : Nat) (request : Request) : Event := ⟨request, fun _ i => sampleId (k + i), 0, fun _ _ => isUuid_sampleId _⟩

def sampleProject : List Event :=
  [sampleEvent 0 (.createProject none ⟨"p", "", "", .json "{}"⟩),
    sampleEvent 2 (.createNode (sampleId 0) ⟨1, some 1, "a", "", "idea", some (sampleId 1), none, "", []⟩)]

theorem containment_forest_sample :
    (Runs.run Graph.after Graph.empty sampleProject).edges.rows.length = 1 ∧
      (Runs.run Graph.after Graph.empty sampleProject).IsForest :=
  ⟨by decide +kernel, containment_forest ⟨trivial, trivial, trivial⟩⟩

/-- An edge from a node to its parent closes a cycle. -/
theorem containment_cycle :
    ¬ (Runs.run Graph.after Graph.empty
      (sampleProject ++ [sampleEvent 4 (.createEdge ⟨2, sampleId 2, sampleId 1, "child_of", 1, "", false⟩)])).IsForest := by
  rintro ⟨-, hacyclic⟩
  refine hacyclic (sampleId 1) (.tail (.single (b := sampleId 2) ?_) ?_)
  · decide +kernel
  · decide +kernel

/-! Branches -/

/-- Containment edges inside a branch, or inside the main projection. -/
def branchGuard (g : Graph) (es : List Edge) : Prop :=
  ∀ e ∈ es, e.isContainment = true → g.branchOf e.fromNodeId = g.branchOf e.toNodeId

theorem policy_branch : Policy branchGuard := by
  refine ⟨?_, ?_, ?_, fun _ _ _ _ hbranches e he _ => hbranches e he⟩
  · intro g g' es hsimilar hg e he hc
    rw [hsimilar.branches, hsimilar.branches]
    exact hg e he hc
  · intro g es hes e he hc
    have hmem := mem_arcs.mpr ⟨e, he, hc, rfl, rfl⟩
    rw [hes] at hmem
    cases hmem
  · intro g e _ _ hbranch x hx _
    rw [List.mem_singleton.mp hx]
    exact hbranch

/-- All containment edges are inside a branch. -/
def Aligned (g : Graph) : Prop := branchGuard g g.edges.rows

theorem Aligned.mono (h : Aligned g) (hsub : ∀ e ∈ g'.edges.rows, e ∈ g.edges.rows)
    (hbranch : ∀ e ∈ g'.edges.rows, g.branchOf e.fromNodeId = g.branchOf e.toNodeId →
      g'.branchOf e.fromNodeId = g'.branchOf e.toNodeId) : Aligned g' :=
  fun e he hc => hbranch e he (h e (hsub e he) hc)

theorem Aligned.of_nodes (hw : Wf g) (h : Aligned g) {nodes : Nodes}
    (hkeep : ∀ x n, g.nodes.get x = some n → (nodes.get x).map Node.branchId = some n.branchId) : Aligned { g with nodes } := by
  refine h.mono (fun _ he => he) ?_
  intro e he heq
  obtain ⟨a, b, ha, hb, -, -⟩ := hw.edge e he
  have hsame : a.branchId = b.branchId := by simpa [Graph.branchOf, ha, hb] using heq
  show (nodes.get e.fromNodeId).map Node.branchId = (nodes.get e.toNodeId).map Node.branchId
  rw [hkeep _ a ha, hkeep _ b hb, hsame]

theorem aligned_keep {xs : List String} (h : Aligned g) : Aligned (deleteNodes xs g) := by
  refine h.mono (fun e he => List.mem_of_mem_filter he) ?_
  intro e he heq
  have hkept := (List.mem_filter.mp he).2
  simp only [decide_eq_true_eq] at hkept
  have hget : ∀ x, x ∉ xs → (deleteNodes xs g).branchOf x = g.branchOf x := by
    intro x hx
    have hsame : (g.nodes.keep (fun n => n.id ∉ xs)).get x = g.nodes.get x :=
      get_keep_eq (fun n hn => by simpa [get_key hn] using hx)
    show ((g.nodes.keep (fun n => n.id ∉ xs)).get x).map Node.branchId = _
    rw [hsame]
    rfl
  rw [hget _ hkept.1, hget _ hkept.2]
  exact heq

theorem aligned_write (hw : Wf g) (h : Aligned g) (hwrite : Write branchGuard p g g') : Aligned g' := by
  cases hwrite with
  | projectRow _ _ hflush => rwa [flushProject_ok hflush]
  | node _ _ hnode =>
    obtain ⟨-, nodes, hins, rfl⟩ := insertNode_ok hnode
    apply h.of_nodes hw
    intro x n hn
    rw [get_insert_old hins hn, Option.map_some]
  | @nodeRow old new _ _ hb hflush =>
    rw [flushNode_ok hflush]
    apply h.of_nodes hw
    intro x n hn
    rw [get_modify, hn]
    split
    · simp [Node.patch, hb]
    · rfl
  | edges _ hguard hins =>
    obtain ⟨edges, hrows, rfl⟩ := insertEdges_ok hins
    intro e he hc
    rw [hrows, List.mem_append] at he
    rcases he with he | he
    · exact h e he hc
    · exact hguard e he hc
  | edgeRow _ hflush =>
    rw [flushEdge_ok hflush]
    intro e he hc
    obtain ⟨row, hrow, ⟨rfl, -⟩ | rfl⟩ := mem_modify_rows Edge.patch_key he
    · exact h row hrow hc
    · exact h e hrow hc
  | block _ hins =>
    obtain ⟨blocks, -, rfl⟩ := insertBlock_ok hins
    exact h
  | blockRow _ hflush => rwa [flushBlock_ok hflush]
  | blocksGone => exact h
  | branch _ _ _ hins =>
    obtain ⟨branches, -, rfl⟩ := insertBranch_ok hins
    exact h
  | branchRow _ hflush => rwa [flushBranch_ok hflush]
  | edgesGone => exact h.mono (fun e he => List.mem_of_mem_filter he) (fun _ _ heq => heq)
  | nodesGone => exact aligned_keep h
  | @toMain b =>
    refine h.mono (fun _ he => he) ?_
    intro e _ heq
    have hget : ∀ x, ({ g with nodes := g.nodes.update (fun n => decide (n.branchId = some b)) Node.toMain Node.toMain_key } :
        Graph).branchOf x = (g.branchOf x).map (fun c => if c = some b then none else c) := by
      intro x
      show ((g.nodes.update (fun n => decide (n.branchId = some b)) Node.toMain Node.toMain_key).get x).map Node.branchId = _
      rw [get_update, Graph.branchOf, Option.map_map, Option.map_map]
      congr 1
      funext n
      simp only [Function.comp_apply, decide_eq_true_eq]
      split <;> rfl
    rw [hget, hget, heq]

theorem aligned_commit {claim : Option (String × Int)} (hw : Wf g) (h : Aligned g)
    (hcommit : Commit branchGuard g g' claim) : Aligned g' := by
  have hwrites : ∀ {p : String} {g₁ g₂ : Graph}, Wf g₁ → Aligned g₁ → Writes branchGuard p g₁ g₂ → Wf g₂ ∧ Aligned g₂ := by
    intro p g₁ g₂ hw₁ h₁ hs
    induction hs with
    | refl => exact ⟨hw₁, h₁⟩
    | tail _ hstep ih => exact ⟨wf_write ih.1 hstep, aligned_write ih.1 ih.2 hstep⟩
  cases hcommit with
  | claimed hclaim hs =>
    refine (hwrites (wf_claim hw hclaim) ?_ hs).2
    obtain ⟨_, -, -, rfl⟩ := claimProjectRevision_ok hclaim
    exact h
  | created _ _ hins hs =>
    refine (hwrites (wf_insertProject hw hins) ?_ hs).2
    obtain ⟨projects, -, rfl⟩ := insertProject_ok hins
    exact h
  | @deleted p r g₁ hclaim hs =>
    subst hs
    have hw₁ := wf_claim hw hclaim
    have h₁ : Aligned g₁ := by
      obtain ⟨_, -, -, rfl⟩ := claimProjectRevision_ok hclaim
      exact h
    refine h₁.mono (fun e he => List.mem_of_mem_filter he) ?_
    intro e he heq
    have hkept := (List.mem_filter.mp he).2
    have hne : e.projectId ≠ p := by
      simp only [Bool.and_eq_true, decide_eq_true_eq] at hkept
      exact hkept.1.1
    have hget : ∀ x, g₁.Has e.projectId x → (deleteProjectRow p g₁).branchOf x = g₁.branchOf x := by
      rintro x ⟨n, hn, hp⟩
      have hsame : (deleteProjectRow p g₁).nodes.get x = g₁.nodes.get x := by
        apply get_keep_eq
        intro m hm
        rw [hn] at hm
        cases hm
        simpa [hp] using hne
      simp only [Graph.branchOf, hsame]
    rw [hget _ (hw₁.from_has (List.mem_of_mem_filter he)), hget _ (hw₁.to_has (List.mem_of_mem_filter he))]
    exact heq

/-- A node that the batch finds or puts on the main projection. -/
inductive OnMain (g : Graph) (ops : List (Op String)) : String → Prop where
  | existing {x : String} {n : Node} (hn : g.nodes.get x = some n) (hb : n.branchId = none) : OnMain g ops x
  | root {x title summary nodeType : String} (h : Op.createNode x none none title summary nodeType ∈ ops) : OnMain g ops x
  | child {x q title summary nodeType : String} {expected : Revision}
      (h : Op.createNode x (some (q, expected)) none title summary nodeType ∈ ops) (hq : OnMain g ops q) : OnMain g ops x

/-- No request joins nodes of two branches: `create_edge`, `move_node` and `reparent_node` join nodes of one branch, and
no `create_node` of a batch names a branch below a parent on the main projection. -/
def Event.KeepsBranches (g : Graph) (e : Event) : Prop :=
  match e.request with
  | .createEdge d => d.relationType = "child_of" → g.branchOf d.fromNodeId = g.branchOf d.toNodeId
  | .moveNode nodeId d | .reparentNode nodeId d => g.branchOf d.newParentId = g.branchOf nodeId
  | .batch _ _ body => ∀ id q expected b title summary nodeType,
    Op.createNode id (some (q, expected)) (some b) title summary nodeType ∈ identified (fun i => e.uuid i 0) body.operations →
      ¬ OnMain g (identified (fun i => e.uuid i 0) body.operations) q
  | _ => True

section Applied

variable {uuid : Nat → Nat → String} {now : Int} {grant : Grant} {actor : String} {body : Batch} {g g' : Graph}
  {ops : List (Op String)} {order : List (Op String × Nat)} {results : List (OpResult × Nat)} {allowed : List String}
  {g₁ g₂ : Graph} (ha : Applied uuid now grant actor body g g' ops order results allowed g₁ g₂)
include ha

theorem Applied.raw_mem (hi : (op, i) ∈ order) :
    ∃ raw ∈ identified (fun i => uuid i 0) body.operations, Fills raw op := by
  obtain ⟨raw, hraw, hfills⟩ := ha.raw hi
  exact ⟨raw, List.mem_of_getElem? hraw, hfills⟩

theorem Applied.wf (hw : Wf g) : Wf g₂ := (ha.ran_writes policy_true hw (fun _ _ _ _ _ _ _ _ _ _ _ _ _ _ _ => trivial)).1

theorem Applied.truthy_new (hw : Wf g) {done : List (Op String × Nat)} (horder : order = done ++ post)
    {b : Option String} (hx : (x, b) ∈ newNodes done) : truthy b = b := by
  have hin : (x, b) ∈ newNodes order := by
    rw [horder, newNodes, List.filterMap_append]
    exact List.mem_append_left _ hx
  obtain ⟨-, n, hn, -, hb, -⟩ := ha.grown.created x b hin
  rw [← hb]
  exact truthy_branch (ha.wf hw) hn

/-- A new node without a branch is on the main projection. -/
theorem Applied.onMain (hw : Wf g) {done : List (Op String × Nat)} (horder : order = done ++ post) {q : String}
    (hq : (q, none) ∈ newNodes done) : OnMain g (identified (fun i => uuid i 0) body.operations) q := by
  induction done using List.reverseRecOn generalizing post q with
  | nil => cases hq
  | append_singleton done x ih =>
    obtain ⟨op, i⟩ := x
    rw [List.append_assoc, List.singleton_append] at horder
    rw [newNodes_snoc, List.mem_append, Option.mem_toList] at hq
    rcases hq with hq | hq
    · exact ih horder hq
    · have hin : (op, i) ∈ order := by rw [horder]; simp
      have hop := ha.mem hin
      obtain ⟨raw, hraw, hfills⟩ := ha.raw_mem hin
      cases hfills with
      | other hnone =>
        rw [hnone] at hq
        cases hq
      | @node id parent named b title summary nodeType hnamed =>
        cases hq
        have hnone : named = none := by
          by_contra hne
          exact hne (hnamed hne).symm
        subst hnone
        cases parent with
        | none => exact .root hraw
        | some parent =>
          obtain ⟨r, expected⟩ := parent
          have hne : r ≠ q := fun heq => ha.self hop q rfl (by simp [Op.dependsOn, heq])
          obtain ⟨named', inherited, -, href, hchild, -⟩ := ha.validated.child ha.inScope hne hop
          -- the parent is on the main projection as well
          have hinherited : truthy inherited = none := by
            by_contra hsome
            have heq := (childBranch_ok hchild).2.1 (Option.isSome_iff_ne_none.mpr hsome)
            rw [← heq] at hsome
            exact hsome rfl
          refine .child hraw ?_
          rcases ha.settled horder (by simp [Op.dependsOn]) href with ⟨n, hn, -, hb, -⟩ | hnew
          · rw [(claim_rows ha.claim).1] at hn
            refine .existing hn ?_
            rw [← truthy_branch hw hn, hb, hinherited]
          · rw [ha.truthy_new hw horder hnew] at hinherited
            rw [hinherited] at hnew
            exact ih horder hnew

theorem Applied.onMain_ref (hw : Wf g) {x : Op String × Nat} (horder : order = pre ++ x :: post)
    {r : String} {expected : Int} (hr : r ∈ x.1.dependsOn)
    (href : Ref (snapshotOf (fun _ => g) grant.projectId ops) allowed ops r expected none) :
    OnMain g (identified (fun i => uuid i 0) body.operations) r := by
  rcases ha.settled horder hr href with ⟨n, hn, -, hb, -⟩ | hnew
  · rw [(claim_rows ha.claim).1] at hn
    exact .existing hn hb
  · exact ha.onMain hw horder hnew

theorem Applied.aligned (hw : Wf g)
    (hcond : ∀ id q expected b title summary nodeType,
      Op.createNode id (some (q, expected)) (some b) title summary nodeType ∈ identified (fun i => uuid i 0) body.operations →
      ¬ OnMain g (identified (fun i => uuid i 0) body.operations) q) :
    Guarded branchGuard uuid now grant.projectId actor g₁ order := by
  intro pre op i post h h' e horder hran hwf _ hbranches hnew hends hc x hx _
  rw [List.mem_singleton.mp hx]
  have hin : (op, i) ∈ order := by rw [horder]; simp
  have hop := ha.mem hin
  cases op with
  | createNode id parent b =>
    obtain ⟨⟨q, expected⟩, rfl, heq⟩ := Option.map_eq_some_iff.mp hends
    obtain ⟨-, hfrom, hto⟩ : "child_of" = e.relationType ∧ q = e.fromNodeId ∧ id = e.toNodeId := by
      simpa [Edge.ends] using heq
    have hne : q ≠ id := fun heq => ha.self hop id rfl (by simp [Op.dependsOn, heq])
    obtain ⟨named, inherited, hraw, href, hchild, -⟩ := ha.validated.child ha.inScope hne hop
    obtain ⟨n, hn, -, hb⟩ := ha.found horder hran (by simp [Op.dependsOn]) href
    have hparent : h'.branchOf q = some inherited := hbranches q inherited (by rw [Graph.branchOf, hn, Option.map_some, hb])
    have hsame : b = inherited := by
      obtain ⟨-, hsome, hnone⟩ := childBranch_ok hchild
      have htruthy : truthy inherited = inherited := by
        rw [← hb]
        exact truthy_branch hwf hn
      rw [htruthy] at hsome hnone
      cases inherited with
      | some => exact hsome rfl
      | none =>
        rw [hnone rfl]
        cases named with
        | none => rfl
        | some => exact absurd (ha.onMain_ref hw horder (by simp [Op.dependsOn]) href) (hcond _ _ _ _ _ _ _ hraw)
    rw [← hfrom, ← hto, hparent, (hnew id b rfl).2, hsame]
  | createEdge id a b ea eb relationType =>
    obtain ⟨hrel, hfrom, hto⟩ : relationType = e.relationType ∧ a = e.fromNodeId ∧ b = e.toNodeId := by
      simpa [Op.ends, Edge.ends] using hends
    have hchild : relationType = "child_of" := by rw [hrel]; simpa [Edge.isContainment] using hc
    obtain ⟨branchA, branchB, hrefA, hrefB, hsame⟩ := ha.validated.edge ha.inScope hop
    obtain ⟨n, hn, -, hb⟩ := ha.found horder hran (by simp [Op.dependsOn]) hrefA
    obtain ⟨m, hm, -, hb'⟩ := ha.found horder hran (by simp [Op.dependsOn]) hrefB
    rw [← hfrom, ← hto, hbranches a branchA (by rw [Graph.branchOf, hn, Option.map_some, hb]),
      hbranches b branchB (by rw [Graph.branchOf, hm, Option.map_some, hb']), hsame hchild]
  | _ => cases hends

end Applied

/-- What a request owes the branches. -/
theorem Event.KeepsBranches.obliged {e : Event} (hw : Wf g) (h : e.KeepsBranches g) :
    e.request.Obliged branchGuard e.uuid e.now g := by
  unfold Event.KeepsBranches at h
  cases hr : e.request with
  | createEdge =>
    rw [hr] at h
    rintro hrel - x ⟨-, hfrom, hto⟩ y hy -
    rw [List.mem_singleton.mp hy, hfrom, hto]
    exact h hrel
  | moveNode =>
    rw [hr] at h
    rintro - - x ⟨-, hfrom, hto⟩ y hy -
    rw [List.mem_singleton.mp hy, hfrom, hto]
    exact h
  | reparentNode =>
    rw [hr] at h
    rintro - - - x ⟨-, hfrom, hto⟩ y hy -
    rw [List.mem_singleton.mp hy, hfrom, hto]
    exact h
  | mergeBranch branchId d =>
    -- the target is on the main projection, and the root of the branch is moved there
    rintro target root htarget hmain hroot - x ⟨-, hfrom, hto⟩ y hy -
    obtain ⟨hmem, hbranch⟩ := branchRoot_ok hroot
    rw [List.mem_singleton.mp hy, hfrom, hto]
    show ((mainlined branchId g).nodes.get d.targetNodeId).map Node.branchId =
      ((mainlined branchId g).nodes.get root.id).map Node.branchId
    simp [mainlined, get_update, htarget, get_of_mem hmem, hmain, hbranch, Node.toMain]
  | importProject =>
    intro g₁ _ hnew _ x hx _
    obtain ⟨-, ⟨a, ha⟩, b, hb⟩ := importEdges_ends hx
    rw [(hnew a _ ha).1, (hnew b _ hb).1]
  | batch =>
    rw [hr] at h
    exact fun g' ops order results allowed g₁ g₂ ha => ha.aligned hw h
  | _ => trivial

/-- The ends of every containment edge are in one project and one branch. -/
def Graph.Contained (g : Graph) : Prop :=
  ∀ e ∈ g.edges.rows, e.isContainment = true → ∃ a b, g.nodes.get e.fromNodeId = some a ∧ g.nodes.get e.toNodeId = some b ∧
    a.projectId = b.projectId ∧ a.branchId = b.branchId

/-- Along every run whose requests join no nodes of two branches, containment never crosses a branch boundary. -/
theorem containment_branches {es : List Event} (h : Runs.Along Graph.after (fun g e => e.KeepsBranches g) Graph.empty es) :
    (Runs.run Graph.after Graph.empty es).Contained := by
  refine commit_invariant (I := fun g => Wf g ∧ Aligned g) policy_branch ?_ (fun g e hw _ hp => hp.obliged hw)
    ⟨wf_empty, by intro e he; cases he⟩ h |>.elim ?_
  · rintro g g' claim - ⟨hw, haligned⟩ hcommit
    exact ⟨(hcommit.sound hw).1, aligned_commit hw haligned hcommit⟩
  · intro hw haligned e he hc
    obtain ⟨a, b, ha, hb, hpa, hpb⟩ := hw.edge e he
    have hbranch := haligned e he hc
    simp only [Graph.branchOf, ha, hb, Option.map_some, Option.some.injEq] at hbranch
    exact ⟨a, b, ha, hb, hpa.trans hpb.symm, hbranch⟩

def sampleBranch : List Event := sampleProject ++ [sampleEvent 4 (.createBranch (sampleId 0) ⟨2, sampleId 2, "b", ""⟩)]

theorem containment_branches_sample :
    (Runs.run Graph.after Graph.empty sampleBranch).branches.rows.length = 1 ∧
      (Runs.run Graph.after Graph.empty sampleBranch).Contained :=
  ⟨by decide +kernel, containment_branches ⟨trivial, trivial, trivial, trivial⟩⟩

/-- An edge from the root of the project to the copy in the branch crosses into it. -/
theorem containment_crossing :
    ¬ (Runs.run Graph.after Graph.empty
      (sampleBranch ++ [sampleEvent 6 (.createEdge ⟨3, sampleId 1, sampleId 5, "child_of", 1, "", false⟩)])).Contained := by
  intro h
  have hcross : ((Runs.run Graph.after Graph.empty
      (sampleBranch ++ [sampleEvent 6 (.createEdge ⟨3, sampleId 1, sampleId 5, "child_of", 1, "", false⟩)])).edges.rows.any
        (fun e => e.isContainment && decide (e.fromNodeId = sampleId 1 ∧ e.toNodeId = sampleId 5))) = true := by
    decide +kernel
  obtain ⟨e, he, hends⟩ := List.any_eq_true.mp hcross
  simp only [Bool.and_eq_true, decide_eq_true_eq] at hends
  obtain ⟨a, b, ha, hb, -, hbranch⟩ := h e he hends.1
  have hdiffer : ((Runs.run Graph.after Graph.empty
      (sampleBranch ++ [sampleEvent 6 (.createEdge ⟨3, sampleId 1, sampleId 5, "child_of", 1, "", false⟩)])).branchOf
        (sampleId 1)) ≠ (Runs.run Graph.after Graph.empty
      (sampleBranch ++ [sampleEvent 6 (.createEdge ⟨3, sampleId 1, sampleId 5, "child_of", 1, "", false⟩)])).branchOf
        (sampleId 5) := by
    decide +kernel
  rw [hends.2.1] at ha
  rw [hends.2.2] at hb
  exact hdiffer (by rw [Graph.branchOf, Graph.branchOf, ha, hb, Option.map_some, Option.map_some, hbranch])

end GrowthMap.Canon
