import GrowthMap.AgentPort.Port
import GrowthMap.Canon.Revisions

/- A batch is all or nothing, with an exact frame.

   A batch that is refused leaves the database as it was. One that commits advances its
   project and every older node that one of its operations changes, by one each; nothing else
   that was there changes, and what is new is at its first revision. The response
   reports the revisions that were committed. -/
namespace GrowthMap.AgentPort

open Canon Relational Table

/-! Revisions -/

/-- The revision of what an operation creates or updates. -/
def committed {ι : Type} (g : Graph) (op : Op ι) (id : String) : Option Int :=
  match op with
  | .createNode .. | .updateNode .. => (g.nodes.get id).map Node.revision
  | .createEdge .. => (g.edges.get id).map Edge.revision
  | .createContentBlock .. => (g.blocks.get id).map ContentBlock.revision
  | .createBranch .. => (g.branches.get id).map Branch.revision

/-- The result names the operation and what it made or updated, and the revision that has now. -/
structure Reported (g : Graph) (op : Op (Option String)) (r : OpResult) : Prop where
  name : r.op = op.name
  created : ∀ id, op.created = some (some id) → r.id = id
  updated : ∀ x expected fields, op = .updateNode x expected fields → r.id = x
  revision : committed g op r.id = some r.revision

/-- What a committed batch of project `p` does to the graph, and what it reports. -/
structure Exact (p : String) (operations : List (Op (Option String))) (results : List OpResult) (g g' : Graph) : Prop where
  project : ∃ row, g.projects.get p = some row ∧ g'.projects.get p = some { row with revision := row.revision + 1 }
  projects : ∀ q, q ≠ p → g'.projects.get q = g.projects.get q
  touched : ∀ x n, g.nodes.get x = some n → (∃ op ∈ operations, x ∈ op.touches) →
    ∃ n', g'.nodes.get x = some n' ∧ n'.revision = n.revision + 1
  kept : ∀ x n, g.nodes.get x = some n → (¬ ∃ op ∈ operations, x ∈ op.touches) → g'.nodes.get x = some n
  nodes : ∀ x n, g.nodes.get x = none → g'.nodes.get x = some n → n.revision = 1
  edges : ∃ es, g'.edges.rows = g.edges.rows ++ es ∧ ∀ e ∈ es, e.revision = 1
  blocks : ∃ bs, g'.blocks.rows = g.blocks.rows ++ bs ∧ ∀ b ∈ bs, b.revision = 1
  branches : ∃ bs, g'.branches.rows = g.branches.rows ++ bs ∧ ∀ b ∈ bs, b.revision = 1
  results : List.Forall₂ (Reported g') operations results

/-! What the operations make -/

/-- A result tells of an operation whose id is known. -/
structure Told (g : Graph) (op : Op String) (r : OpResult) : Prop where
  name : r.op = op.name
  created : ∀ id, op.created = some id → r.id = id
  updated : ∀ x, op.updated = some x → r.id = x
  revision : committed g op r.id = some r.revision

variable {R α β : Type} {x : String} {order : List (Op String × Nat)} {key : R → String} {t t' : Table String R key}
  {id : String}

theorem get_append {rows : List R} (h : t'.rows = t.rows ++ rows)
    {r : R} (hr : t.get x = some r) : t'.get x = some r := by
  obtain ⟨hmem, hkey⟩ := get_eq_some.mp hr
  exact get_eq_some.mpr ⟨by rw [h]; exact List.mem_append_left _ hmem, hkey⟩

section Executed

variable {uuid : Nat → String} {now : Int} {p actor : String} {g g' : Graph} {op : Op String}

theorem map_get_inserted {r : R} (h : t.insert r = some t') (f : R → Int) :
    (t'.get (key r)).map f = some (f r) := by
  rw [get_insert_self h, Option.map_some]

/-- What an operation creates is at its first revision. -/
theorem made_of_executed (h : Executed uuid now p actor g g' op) (hid : op.created = some id) :
    committed g' op id = some 1 := by
  cases h with
  | root hnode =>
    cases hid
    obtain ⟨-, nodes, hins, rfl⟩ := insertNode_ok hnode
    exact map_get_inserted hins Node.revision
  | child hnode hedge =>
    cases hid
    obtain ⟨-, nodes, hins, rfl⟩ := insertNode_ok hnode
    obtain ⟨-, edges, -, rfl⟩ := insertEdge_ok hedge
    exact map_get_inserted hins Node.revision
  | update => cases hid
  | edge hedge =>
    cases hid
    obtain ⟨-, edges, hins, rfl⟩ := insertEdge_ok hedge
    exact map_get_inserted hins Edge.revision
  | block hblock =>
    cases hid
    obtain ⟨blocks, hins, rfl⟩ := insertBlock_ok hblock
    exact map_get_inserted hins ContentBlock.revision
  | @branch _ x name description expected hcopy =>
    cases hid
    have heffect : Effect p actor g g' (.createBranch id x expected name description) := effect_copy hcopy
    obtain ⟨bs, hrows, hids, hbs⟩ := heffect.branches
    obtain ⟨b, hb, rfl⟩ := List.mem_map.mp (show _ ∈ bs.map Branch.id by rw [hids]; exact List.mem_singleton.mpr rfl)
    have hget : g'.branches.get b.id = some b := get_of_mem (by rw [hrows]; exact List.mem_append_right _ hb)
    show (g'.branches.get b.id).map Branch.revision = some 1
    rw [hget, Option.map_some, (hbs b hb).2]

/-- No operation changes the revision of what is there. -/
theorem committed_of_effect {o : Op String} (h : Effect p actor g g' o) {r : Int} (hr : committed g op id = some r) :
    committed g' op id = some r := by
  have hnode : ∀ n, g.nodes.get id = some n → ∃ n', g'.nodes.get id = some n' ∧ n'.revision = n.revision := by
    intro n hn
    obtain ⟨n', hn', hevolves, -⟩ := h.keeps id n hn
    exact ⟨n', hn', hevolves.revision⟩
  obtain ⟨es, hedges, -⟩ := h.edges
  obtain ⟨bs, hblocks, -⟩ := h.blocks
  obtain ⟨cs, hbranches, -⟩ := h.branches
  cases op with
  | createNode | updateNode =>
    obtain ⟨n, hn, rfl⟩ := Option.map_eq_some_iff.mp hr
    obtain ⟨n', hn', hrev⟩ := hnode n hn
    exact Option.map_eq_some_iff.mpr ⟨n', hn', hrev⟩
  | createEdge =>
    obtain ⟨e, he, rfl⟩ := Option.map_eq_some_iff.mp hr
    exact Option.map_eq_some_iff.mpr ⟨e, get_append hedges he, rfl⟩
  | createContentBlock =>
    obtain ⟨b, hb, rfl⟩ := Option.map_eq_some_iff.mp hr
    exact Option.map_eq_some_iff.mpr ⟨b, get_append hblocks hb, rfl⟩
  | createBranch =>
    obtain ⟨b, hb, rfl⟩ := Option.map_eq_some_iff.mp hr
    exact Option.map_eq_some_iff.mpr ⟨b, get_append hbranches hb, rfl⟩

end Executed

theorem made_of_ran {uuid : Nat → Nat → String} {now : Int} {p actor : String} {g g' : Graph}
    (h : Ran uuid now p actor g order g') :
    ∀ x ∈ order, ∀ id, x.1.created = some id → committed g' x.1 id = some 1 := by
  refine h.invariant (fun done g₁ => ∀ x ∈ done, ∀ id, x.1.created = some id → committed g₁ x.1 id = some 1) (by simp) ?_
  rintro done op i post g₁ g₂ - - ih hexec x hx id hid
  rcases List.mem_append.mp hx with hx | hx
  · exact committed_of_effect hexec.effect (ih x hx id hid)
  · rw [List.mem_singleton.mp hx] at hid ⊢
    exact made_of_executed hexec hid

/-! The results in the order of the operations -/

theorem forall₂_range {R : α → β → Prop} (xs : List α) (f : Nat → Option β)
    (hf : ∀ i x, xs[i]? = some x → ∃ y, f i = some y ∧ R x y) : List.Forall₂ R xs ((List.range xs.length).filterMap f) := by
  induction xs generalizing f with
  | nil => exact .nil
  | cons x xs ih =>
    obtain ⟨y, hy, hR⟩ := hf 0 x rfl
    rw [List.length_cons, List.range_succ_eq_map, List.filterMap_cons_some hy, List.filterMap_map]
    exact .cons hR (ih (f ∘ Nat.succ) (fun i z hz => hf (i + 1) z hz))

theorem forall₂_comp {γ : Type} {R : α → β → Prop} {S : β → γ → Prop} {T : α → γ → Prop}
    (hT : ∀ a b c, R a b → S b c → T a c) {as : List α} {bs : List β} {cs : List γ} (h : List.Forall₂ R as bs)
    (h' : List.Forall₂ S bs cs) : List.Forall₂ T as cs := by
  induction h generalizing cs with
  | nil =>
    cases h'
    exact .nil
  | cons hR _ ih =>
    cases h' with
    | cons hS hrest => exact .cons (hT _ _ _ hR hS) (ih hrest)

/-- The result of an operation is found by the operation's index. -/
theorem ordered_forall₂ {P : Op String → OpResult → Prop} {ops : List (Op String)}
    {results : List (OpResult × Nat)} (hperm : order.Perm ops.zipIdx)
    (h : List.Forall₂ (fun x r => r.2 = x.2 ∧ P x.1 r.1) order results) : List.Forall₂ P ops (ordered ops.length results) := by
  refine forall₂_range ops _ ?_
  intro i op hop
  have hin : (op, i) ∈ order := hperm.symm.subset (List.mk_mem_zipIdx_iff_getElem?.mpr hop)
  have hsome : (results.find? (fun r => decide (r.2 = i))).isSome = true := by
    obtain ⟨k, hk, heq⟩ := List.getElem_of_mem hin
    obtain ⟨hlen, hget⟩ := List.forall₂_iff_get.mp h
    have hk' : k < results.length := hlen ▸ hk
    rw [List.find?_isSome]
    refine ⟨results[k], List.getElem_mem hk', ?_⟩
    have hidx := (hget k hk hk').1
    simp only [List.get_eq_getElem, heq] at hidx
    simpa using hidx
  obtain ⟨r, hr⟩ := Option.isSome_iff_exists.mp hsome
  have hri : r.2 = i := by simpa using List.find?_some hr
  obtain ⟨k, hk, rfl⟩ := List.getElem_of_mem (List.mem_of_find?_eq_some hr)
  obtain ⟨hlen, hget⟩ := List.forall₂_iff_get.mp h
  obtain ⟨hidx, hP⟩ := hget k (hlen ▸ hk) hk
  have hk' : k < order.length := hlen ▸ hk
  have hmem : order[k] ∈ ops.zipIdx := hperm.subset (List.getElem_mem _)
  have hop' : ops[order[k].2]? = some order[k].1 := List.mk_mem_zipIdx_iff_getElem?.mp hmem
  simp only [List.get_eq_getElem] at hidx hP
  rw [← hidx, hri, hop, Option.some.injEq] at hop'
  refine ⟨results[k].1, by simp [hr], hop' ▸ hP⟩

/-! The applied batch -/

section Applied

variable {uuid : Nat → Nat → String} {now : Int} {grant : Grant} {actor : String} {body : Batch} {g g' : Graph}
  {ops : List (Op String)} {order : List (Op String × Nat)} {results : List (OpResult × Nat)} {allowed : List String}
  {g₁ g₂ : Graph} (ha : Applied uuid now grant actor body g g' ops order results allowed g₁ g₂)
include ha

variable {n : Node} {op : Op String}

theorem touched_revision (hn : g₁.nodes.get x = some n) (hop : op ∈ ops)
    (hx : x ∈ op.touches) : 1 ≤ n.revision := by
  obtain ⟨expected, hx⟩ := Op.touches_sub hx
  obtain ⟨b, href⟩ := ha.validated.refs ha.inScope (fun o ho => ha.self ho) hop hx
  cases href with
  | existing hsnap hrev =>
    have hget := (ha.snapshot.mp hsnap).1
    rw [hn] at hget
    cases hget
    rw [hrev]
    exact expected.2
  | new _ _ hnew =>
    obtain ⟨o, ho, honew⟩ := List.mem_filterMap.mp hnew
    obtain ⟨i, hi⟩ := ha.scheduled ho
    have hnone := (ha.grown.created x b (List.mem_filterMap.mpr ⟨_, hi, honew⟩)).1
    rw [hn] at hnone
    cases hnone

theorem bumped_touched (hn : g₁.nodes.get x = some n) (hop : op ∈ ops)
    (hx : x ∈ op.touches) : ∃ n', g'.nodes.get x = some n' ∧ n'.revision = n.revision + 1 := by
  obtain ⟨m, hm, hevolves, -⟩ := ha.grown.keeps x n hn
  have hin : x ∈ touchedNodes g₁ grant.projectId ops := mem_touchedNodes.mpr ⟨⟨op, hop, hx⟩, ha.touched_has hn hop hx⟩
  refine ⟨m.bump, by rw [ha.bump.nodes, if_pos hin, hm, Option.map_some], ?_⟩
  have hpos := touched_revision ha hn hop hx
  show bumped m.revision = n.revision + 1
  rw [hevolves.revision, bumped, orOne_of_pos hpos]

theorem kept_untouched (hn : g₁.nodes.get x = some n) (hx : ¬ ∃ op ∈ ops, x ∈ op.touches) :
    g'.nodes.get x = some n := by
  obtain ⟨m, hm, -, hsame⟩ := ha.grown.keeps x n hn
  have hout : x ∉ touchedNodes g₁ grant.projectId ops := fun hin => hx (mem_touchedNodes.mp hin).1
  rw [ha.bump.nodes, if_neg hout, hm]
  refine congrArg some (hsame ?_)
  intro op hop hupdated
  exact hx ⟨op.1, ha.mem hop, Op.touches_of_updated hupdated⟩

theorem committed_created {x : Op String × Nat} (hx : x ∈ order) (hid : x.1.created = some id) :
    committed g' x.1 id = some 1 := by
  have hmade := made_of_ran ha.ran x hx id hid
  obtain ⟨op, i⟩ := x
  cases op with
  | createNode y parent b =>
    cases hid
    have hnone := (ha.grown.created id b (List.mem_filterMap.mpr ⟨_, hx, rfl⟩)).1
    have hout : id ∉ touchedNodes g₁ grant.projectId ops := by
      intro hin
      obtain ⟨-, n, hn, -⟩ := mem_touchedNodes.mp hin
      rw [hnone] at hn
      cases hn
    show (g'.nodes.get id).map Node.revision = some 1
    rw [ha.bump.nodes, if_neg hout]
    exact hmade
  | updateNode => cases hid
  | createEdge | createContentBlock | createBranch =>
    rw [ha.bump.rest]
    exact hmade

theorem told_reported {x : Op String × Nat} (hx : x ∈ order) {h : Graph}
    (hran : ∃ pre post, order = pre ++ x :: post ∧ Ran (fun i k => uuid i (k + 1)) now grant.projectId actor g₁ pre h) :
    Told g' x.1 (x.1.reported h) := by
  obtain ⟨op, i⟩ := x
  cases op with
  | updateNode y =>
    refine ⟨rfl, by rintro id ⟨⟩, fun z hz => Option.some.inj hz, ?_⟩
    obtain ⟨n, hn, -, -⟩ := ha.updates hx rfl
    obtain ⟨pre, post, horder, hran⟩ := hran
    obtain ⟨m, hm, hevolves, -⟩ := (ha.grown_prefix horder hran).keeps y n hn
    obtain ⟨n', hn', hrev⟩ := bumped_touched ha hn (ha.mem hx) (by simp [Op.touches, Op.expectations])
    show (g'.nodes.get y).map Node.revision = some (((h.nodes.get y).map Node.revision).getD 0 + 1)
    rw [hn', hm, Option.map_some, Option.map_some, Option.getD_some, hrev, hevolves.revision]
  | createNode | createEdge | createContentBlock | createBranch =>
    exact ⟨rfl, fun id hid => Option.some.inj hid, by rintro y ⟨⟩, committed_created ha hx rfl⟩

/-- An operation of the request and what the validation made of it: the id is given or drawn. -/
def Becomes (raw : Op (Option String)) (op : Op String) : Prop :=
  ∃ f : Option String → String, (∀ id, f (some id) = id) ∧ Fills (raw.withId f) op

omit ha in
theorem created_of_fills {a b : Op String} (h : Fills a b) : b.created = a.created := by
  cases h with
  | node => rfl
  | other => rfl

omit ha in
theorem Becomes.reported {raw : Op (Option String)} (h : Becomes raw op) {r : OpResult} (ht : Told g' op r) :
    Reported g' raw r := by
  obtain ⟨f, hf, hfills⟩ := h
  have hid : ∀ id, raw.created = some (some id) → op.created = some id := by
    intro id hid
    rw [created_of_fills hfills, created_withId, hid, Option.map_some, hf]
  refine ⟨?_, fun id h => ht.created id (hid id h), ?_, ?_⟩
  · rw [ht.name]
    cases raw <;> cases hfills <;> rfl
  · rintro x expected fields rfl
    cases hfills
    exact ht.updated x rfl
  · rw [← ht.revision]
    cases raw <;> cases hfills <;> rfl

theorem becomes_ops : List.Forall₂ Becomes body.operations ops := by
  have hraws : List.Forall₂ (fun (raw : Op (Option String)) (op : Op String) => ∃ f : Option String → String,
      (∀ id, f (some id) = id) ∧ op = raw.withId f) body.operations (identified (fun i => uuid i 0) body.operations) := by
    rw [identified, List.forall₂_map_right_iff, List.forall₂_iff_get]
    refine ⟨by simp, ?_⟩
    intro i hi hi'
    exact ⟨fun id => id.getD (uuid i 0), fun _ => rfl, by simp⟩
  refine forall₂_comp ?_ hraws ha.fills
  rintro raw _ op ⟨f, hf, rfl⟩ hfills
  exact ⟨f, hf, hfills⟩

theorem results_reported : List.Forall₂ (Reported g') body.operations (ordered ops.length results) := by
  have hresults : List.Forall₂ (fun (x : Op String × Nat) (r : OpResult × Nat) => r.2 = x.2 ∧ Told g' x.1 r.1) order results := by
    obtain ⟨hlen, hget⟩ := List.forall₂_iff_get.mp ha.reports
    refine List.forall₂_iff_get.mpr ⟨hlen, ?_⟩
    intro i hi hi'
    obtain ⟨hidx, pre, post, h, horder, hran, hr⟩ := hget i hi hi'
    refine ⟨hidx, ?_⟩
    rw [hr]
    exact told_reported ha (List.get_mem ..) ⟨pre, post, horder, hran⟩
  exact forall₂_comp (fun raw op r hbecomes ht => hbecomes.reported ht) (becomes_ops ha) (ordered_forall₂ ha.perm hresults)

/-- An applied batch has its exact frame. -/
theorem exact_of_applied : Exact grant.projectId body.operations (ordered ops.length results) g g' := by
  have hgrown := ha.grown
  have hnodes : g₁.nodes = g.nodes := (claim_rows ha.claim).1
  have hprojects : g'.projects = g₁.projects := by rw [ha.bump.rest, ← hgrown.projects]
  obtain ⟨row, hrow, -, hclaim⟩ := claimProjectRevision_ok ha.claim
  obtain ⟨es, hedges, hes⟩ := hgrown.edges
  obtain ⟨bs, hblocks, hbs⟩ := hgrown.blocks
  obtain ⟨cs, hbranches, -, hcs⟩ := hgrown.branches
  have hbump : g'.edges = g₂.edges ∧ g'.blocks = g₂.blocks ∧ g'.branches = g₂.branches := by
    rw [ha.bump.rest]
    exact ⟨rfl, rfl, rfl⟩
  obtain ⟨-, hedges₁, hblocks₁, hbranches₁⟩ := claim_rows ha.claim
  refine ⟨⟨row, hrow, ?_⟩, ?_, ?_, ?_, ?_, ⟨es, ?_, fun e he => (hes e he).2.1⟩, ⟨bs, ?_, fun b hb => (hbs b hb).1⟩,
    ⟨cs, ?_, fun b hb => (hcs b hb).2⟩, results_reported ha⟩
  · rw [hprojects, hclaim]
    exact get_modify_self Project.claim_key hrow
  · intro q hq
    rw [hprojects, hclaim]
    exact get_modify_ne Project.claim_key hq
  · intro x n hn hx
    obtain ⟨op, hop, hx⟩ := ha.touches_iff.mpr hx
    exact bumped_touched ha (hnodes ▸ hn) hop hx
  · intro x n hn hx
    exact kept_untouched ha (hnodes ▸ hn) (fun h => hx (ha.touches_iff.mp h))
  · intro x n hnone hn
    have hreflects : Reflects (fun x => ∃ op ∈ body.operations, x ∈ op.touches) (fun _ => False) g g' := ha.reflects
    exact hreflects.born x n hnone hn
  · rw [hbump.1, hedges, hedges₁]
  · rw [hbump.2.1, hblocks, hblocks₁]
  · rw [hbump.2.2, hbranches, hbranches₁]

end Applied

/-! Batches -/

variable {digest : Document → String}

/-- The choices of a request that runs alone: all its reads see the database as it is. -/
def Choice.alone (c : Choice) (p : Port) : Choice := { c with see := fun _ => p.graph }

/-- What a batch that commits does to the database. -/
structure Work.Commits (digest : Document → String) (c : Choice) (w : Work) (p p' : Port) (r : Response) : Prop where
  exact : ∃ results, Exact w.grant.projectId w.body.operations results p.graph p'.graph ∧
    r = .applied c.receiptId w.grant.projectId (w.body.expectedProjectRevision.val + 1) results (digest (.batch w.body))
  fresh : p.receipts.get w.slot = none
  receipt : p.receipts.insert (w.receipt digest c.receiptId r) = some p'.receipts
  grants : p'.grants = p.grants
  proposals : ∀ id, w.approves.map Prod.fst ≠ some id → p'.proposals.get id = p.proposals.get id

theorem Work.Wrote.commits {c : Choice} {w : Work} {p p' : Port} {r : Response} (h : w.Wrote digest (c.alone p) p p' r) :
    w.Commits digest c p p' r := by
  obtain ⟨revision, results, happly, hr⟩ := h.graph
  obtain ⟨ops, order, told, allowed, g₁, g₂, ha, rfl, rfl⟩ := applyOperations_ok happly
  refine ⟨⟨_, exact_of_applied ha, hr⟩, insert_fresh h.receipt, h.receipt, h.grants, ?_⟩
  intro id hid
  cases happroves : w.approves with
  | none => rw [h.own happroves]
  | some review =>
    rw [(h.review review.1 review.2 happroves).2]
    refine get_modify_ne _ ?_
    intro heq
    exact hid (by rw [happroves, heq, Option.map_some])

/-- A batch is refused and changes nothing, is answered from its receipt and changes nothing, or commits as a whole. -/
theorem batch_all_or_nothing (c : Choice) (w : Work) (p : Port) :
    match applyBatch digest (c.alone p) w p with
    | (.error _, p') => p' = p
    | (.ok r, p') => (p' = p ∧ ∃ receipt, p.receipts.get w.slot = some receipt ∧ receipt.response = r) ∨ w.Commits digest c p p' r := by
  unfold applyBatch Work.lookup
  cases hprior : p.receipts.get w.slot with
  | some receipt =>
    simp only [Option.map_some, Receipt.replay]
    split
    · next h =>
      split at h
      · cases h
        rfl
      · cases h
    · next h =>
      split at h
      · cases h
      · cases h
        exact .inl ⟨rfl, receipt, rfl, rfl⟩
  | none =>
    simp only [Option.map_none]
    cases hwrite : w.write digest (c.alone p) p with
    | raised e => rfl
    | lost => simp only [Work.recover, hprior]
    | done p' r => exact .inr (Work.write_done hwrite).commits

end GrowthMap.AgentPort
