import GrowthMap.AgentPort.Exactness
import GrowthMap.Canon.Containment
import GrowthMap.Canon.Unsigned

/- Two ways of a list of operations into the graph: a proposal that is approved, and a batch.

   A proposal is validated on models, whose null fields are dropped, and a batch on
   dictionaries, which keep them; so an update of nothing is refused on one way only. The review
   and the batch then run the same code, under other keys and actors. -/
namespace GrowthMap.AgentPort

open Canon Relational Fallible

variable {ι : Type} {grant : Grant} {snap : Snapshot} {s : Checked}

def isEmptyUpdate : Op ι → Bool
  | .updateNode _ _ fields => fields.all (fun c => decide (c.2 = .null))
  | _ => false

theorem isEmptyUpdate_withId {κ : Type} (f : ι → κ) (op : Op ι) : isEmptyUpdate (op.withId f) = isEmptyUpdate op := by
  cases op <;> rfl

/-! The two validations -/

variable {op : Op String} {w : Work}

theorem checkOp_models (h : isEmptyUpdate op = false) :
    checkOp true grant snap s op = checkOp false grant snap s op := by
  cases op with
  | updateNode x expected fields =>
    have hfields : fields.all (fun c => decide (c.2 = .null)) = false := h
    simp only [checkOp, hfields, Bool.false_eq_true, and_false, if_false]
  | _ => rfl

theorem checkOp_empty (h : isEmptyUpdate op = true) {r : Checked × Op String} :
    checkOp true grant snap s op ≠ .ok r := by
  intro hok
  cases op with
  | updateNode x expected fields =>
    have hfields : fields.all (fun c => decide (c.2 = .null)) = true := h
    simp only [checkOp, hfields, error_bind] at hok
    cases hn : snap.nodes x with
    | none =>
      simp only [hn] at hok
      obtain ⟨_, -, hok⟩ := bind_ok hok
      cases hok
    | some =>
      simp only [hn] at hok
      obtain ⟨-, hok⟩ := guard_ok hok
      exact (guard_ok hok).1 ⟨trivial, trivial⟩
  | _ => cases h

theorem checkOps_models {ops : List (Op String)} (h : ∀ op ∈ ops, isEmptyUpdate op = false) :
    checkOps true grant snap s ops = checkOps false grant snap s ops := by
  induction ops generalizing s with
  | nil => rfl
  | cons op ops ih =>
    simp only [checkOps, checkOp_models (h op List.mem_cons_self), ih (fun q hq => h q (List.mem_cons_of_mem _ hq))]

theorem checkOps_empty {ops : List (Op String)} {op : Op String} (hop : op ∈ ops) (h : isEmptyUpdate op = true)
    {out : List (Op String)} : checkOps true grant snap s ops ≠ .ok out := by
  induction ops generalizing s out with
  | nil => cases hop
  | cons q ops ih =>
    intro hok
    obtain ⟨⟨s', q'⟩, hq, hok⟩ := bind_ok hok
    obtain ⟨rest, hrest, -⟩ := bind_ok hok
    rcases List.mem_cons.mp hop with rfl | hop
    · exact checkOp_empty h hq
    · exact ih hop hrest

section Validation

variable {see : Nat → Graph} {draw : Nat → String} {operations : List (Op (Option String))}

theorem validate_models (h : ∀ op ∈ operations, isEmptyUpdate op = false) :
    validateOperations true see draw grant operations = validateOperations false see draw grant operations := by
  unfold validateOperations
  congr 1
  funext allowed
  cases hreserve : reserve draw (usedIds see grant.projectId) operations.zipIdx with
  | error => rfl
  | ok =>
    refine checkOps_models (fun op hop => ?_)
    rw [reserve_map hreserve] at hop
    obtain ⟨x, hx, rfl⟩ := List.mem_map.mp hop
    rw [isEmptyUpdate_withId]
    exact h x.1 (List.fst_mem_of_mem_zipIdx hx)

theorem validate_empty {op : Op (Option String)} (hop : op ∈ operations) (h : isEmptyUpdate op = true)
    {out : List (Op String)} : validateOperations true see draw grant operations ≠ .ok out := by
  intro hok
  obtain ⟨allowed, -, hok⟩ := bind_ok hok
  obtain ⟨ops, hreserve, hok⟩ := bind_ok hok
  obtain ⟨i, hi, rfl⟩ := List.mem_iff_getElem.mp hop
  refine @checkOps_empty _ _ _ _ (operations[i].withId (fun id => id.getD (draw i))) ?_ ?_ _ hok
  · rw [reserve_map hreserve]
    exact List.mem_map.mpr ⟨(operations[i], i), List.mem_zipIdx_iff_getElem?.mpr (List.getElem?_eq_getElem hi), rfl⟩
  · rw [isEmptyUpdate_withId, h]

def Passes (models : Bool) (see : Nat → Graph) (draw : Nat → String) (grant : Grant)
    (operations : List (Op (Option String))) : Prop :=
  ∃ out, validateOperations models see draw grant operations = .ok out

theorem verdicts_agree_iff : (Passes true see draw grant operations ↔ Passes false see draw grant operations) ↔
    (∀ op ∈ operations, isEmptyUpdate op = false) ∨ ¬ Passes false see draw grant operations := by
  by_cases h : ∀ op ∈ operations, isEmptyUpdate op = false
  · have hsame : Passes true see draw grant operations ↔ Passes false see draw grant operations := by
      rw [Passes, Passes, validate_models h]
    exact iff_of_true hsame (.inl h)
  · obtain ⟨op, hop, hempty⟩ : ∃ op ∈ operations, isEmptyUpdate op = true := by
      by_contra hno
      exact h (fun op hop => by
        by_contra hne
        exact hno ⟨op, hop, by simpa using hne⟩)
    have hrefused : ¬ Passes true see draw grant operations := fun ⟨_, hok⟩ => validate_empty hop hempty hok
    simp only [hrefused, h, false_iff, false_or]

end Validation

/-! The two writes -/

variable {digest : Document → String} {c : Choice} {p : Port}

/-- The agent applies the operations of a proposal itself, under a key of its own. -/
def Proposal.direct (grant : Grant) (key : String) (x : Proposal) : Work :=
  ⟨grant, grant.agentIdentity, ⟨x.expectedProjectRevision, key, x.operations⟩, none⟩

def refusedReceipt (grantId projectId receiptId : String) (p : Port) : Prop :=
  (p.grants.get grantId).isNone ∨ (p.graph.projects.get projectId).isNone ∨
    p.receipts.rows.any (fun x => decide (x.id = receiptId)) = true

instance {grantId projectId receiptId : String} {p : Port} : Decidable (refusedReceipt grantId projectId receiptId p) :=
  inferInstanceAs (Decidable (_ ∨ _ ∨ _))

def Work.lands (c : Choice) (w : Work) (p : Port) : Option Graph :=
  match applyOperations c.see c.uuid c.now w.grant w.actor w.body p.graph with
  | .ok (graph, _, _) =>
    if refusedReceipt w.grant.id w.grant.projectId c.receiptId { p with graph } ∨ c.busy then none else some graph
  | .error _ => none

theorem decide_graph (h : ∀ id note, w.approves = some (id, note) → (p.proposals.get id).isSome = true) :
    ∃ p', w.decide p = .ok p' ∧ p'.graph = p.graph := by
  unfold Work.decide
  cases happroves : w.approves with
  | none => exact ⟨p, rfl, rfl⟩
  | some review =>
    have hthere : (p.proposals.get review.1).isNone = false := by simpa using h review.1 review.2 happroves
    simp only [decideProposal, hthere, Bool.false_eq_true, if_false]
    exact ⟨_, rfl, rfl⟩

theorem applyBatch_graph (hfree : p.receipts.get w.slot = none)
    (hproposal : ∀ id note, w.approves = some (id, note) → (p.proposals.get id).isSome = true) :
    (applyBatch digest c w p).2.graph = (w.lands c p).getD p.graph := by
  have hlookup : w.lookup digest p = none := by rw [Work.lookup, hfree, Option.map_none]
  unfold applyBatch
  rw [hlookup]
  simp only [Work.write, Work.lands]
  cases applyOperations c.see c.uuid c.now w.grant w.actor w.body p.graph with
  | error e => cases e <;> rfl
  | ok out =>
    obtain ⟨g, revision, results⟩ := out
    obtain ⟨receipts, hreceipts⟩ := Table.insert_isSome (t := p.receipts) (r := w.receipt digest c.receiptId
      (.applied c.receiptId w.grant.projectId revision results (digest (.batch w.body)))) hfree
    have hinsert : insertReceipt (w.receipt digest c.receiptId
        (.applied c.receiptId w.grant.projectId revision results (digest (.batch w.body)))) { p with graph := g } =
          if refusedReceipt w.grant.id w.grant.projectId c.receiptId { p with graph := g } then .error .integrity
          else .ok { p with graph := g, receipts } := by
      simp only [insertReceipt, hreceipts]
      rfl
    simp only [hinsert]
    by_cases hrefused : refusedReceipt w.grant.id w.grant.projectId c.receiptId { p with graph := g }
    · simp only [hrefused, if_true, true_or, Option.getD_none]
    · obtain ⟨p', hdecide, hgraph⟩ := decide_graph (p := { p with graph := g, receipts }) hproposal
      simp only [hrefused, if_false, hdecide, false_or]
      cases c.busy with
      | true => rfl
      | false => exact hgraph

/-- Up to the actors a batch commits what another one with the same operations commits. -/
theorem lands_unsigned {w' : Work} (hgrant : w'.grant = w.grant) (hops : w'.body.operations = w.body.operations)
    (hrev : w'.body.expectedProjectRevision = w.body.expectedProjectRevision) :
    (w.lands c p).map Graph.unsigned = (w'.lands c p).map Graph.unsigned := by
  have hsame := applyOperations_unsigned c.see c.uuid c.now w.grant w.actor w'.actor hops hrev p.graph
  rw [Work.lands, Work.lands, hgrant]
  cases happly : applyOperations c.see c.uuid c.now w.grant w.actor w.body p.graph with
  | error =>
    cases happly' : applyOperations c.see c.uuid c.now w.grant w'.actor w'.body p.graph with
    | error => rfl
    | ok =>
      rw [happly, happly'] at hsame
      cases hsame
  | ok out =>
    cases happly' : applyOperations c.see c.uuid c.now w.grant w'.actor w'.body p.graph with
    | error =>
      rw [happly, happly'] at hsame
      cases hsame
    | ok out' =>
      rw [happly, happly'] at hsame
      have hgraph : out.1.unsigned = out'.1.unsigned := (Prod.mk.inj (Except.ok.inj hsame)).1
      have hprojects : out.1.projects = out'.1.projects :=
        show out.1.unsigned.projects = out'.1.unsigned.projects from congrArg Graph.projects hgraph
      have hrefused : refusedReceipt w.grant.id w.grant.projectId c.receiptId { p with graph := out.1 } ↔
          refusedReceipt w.grant.id w.grant.projectId c.receiptId { p with graph := out'.1 } := by
        simp only [refusedReceipt, hprojects]
      simp only [hrefused]
      split
      · rfl
      · exact congrArg some hgraph

theorem applied_ne (hfree : p.receipts.get w.slot = none) {r : Response}
    (h : (applyBatch digest (c.alone p) w p).1 = .ok r) :
    (applyBatch digest (c.alone p) w p).2.graph.unsigned ≠ p.graph.unsigned := by
  have hcommits := @batch_all_or_nothing digest c w p
  cases hr : applyBatch digest (c.alone p) w p with
  | mk answer p' =>
    rw [hr] at hcommits h
    obtain rfl : answer = .ok r := h
    rcases hcommits with ⟨-, receipt, hreceipt, -⟩ | hcommits
    · rw [hfree] at hreceipt
      cases hreceipt
    · obtain ⟨results, hexact, -⟩ := hcommits.exact
      obtain ⟨row, hrow, hrow'⟩ := hexact.project
      intro heq
      have hprojects : p'.graph.projects = p.graph.projects :=
        show p'.graph.unsigned.projects = p.graph.unsigned.projects from congrArg Graph.projects heq
      rw [hprojects, hrow] at hrow'
      have hrevision := congrArg Project.revision (Option.some.inj hrow')
      simp only at hrevision
      omega

theorem refused_eq (h : ∀ r, (applyBatch digest (c.alone p) w p).1 ≠ .ok r) :
    (applyBatch digest (c.alone p) w p).2 = p := by
  have hall := @batch_all_or_nothing digest c w p
  cases hr : applyBatch digest (c.alone p) w p with
  | mk answer =>
    rw [hr] at hall h
    cases answer with
    | error => exact hall
    | ok r => exact absurd rfl (h r)

/-- A stored proposal and the direct batch: the verdicts on the operations agree, and the approval ends in the graph of
the batch up to the actors. -/
structure Agree (digest : Document → String) (c : Choice) (grant : Grant) (x : Proposal) (reviewer note key : String) (p : Port) :
    Prop where
  verdicts : Passes true (fun _ => p.graph) (fun i => c.uuid i 0) grant x.operations ↔
    Passes false (fun _ => p.graph) (fun i => c.uuid i 0) grant x.operations
  graphs : (applyBatch digest (c.alone p) (x.work grant reviewer note) p).2.graph.unsigned =
    (applyBatch digest (c.alone p) (x.direct grant key) p).2.graph.unsigned

/-- The two ways agree exactly when no update is empty and no receipt stands under the key of the review, or where the
direct way is refused. -/
theorem ways_agree_iff (c : Choice) (grant : Grant) (x : Proposal) (reviewer note key : String) (p : Port)
    (hx : p.proposals.get x.id = some x) (hkey : p.receipts.get (grant.id, key) = none) :
    Agree digest c grant x reviewer note key p ↔
      ((∀ op ∈ x.operations, isEmptyUpdate op = false) ∨
        ¬ Passes false (fun _ => p.graph) (fun i => c.uuid i 0) grant x.operations) ∧
      (p.receipts.get (grant.id, reviewKey x.id) = none ∨
        ∀ r, (applyBatch digest (c.alone p) (x.direct grant key) p).1 ≠ .ok r) := by
  have hgraphs : (applyBatch digest (c.alone p) (x.work grant reviewer note) p).2.graph.unsigned =
      (applyBatch digest (c.alone p) (x.direct grant key) p).2.graph.unsigned ↔
        (p.receipts.get (grant.id, reviewKey x.id) = none ∨
          ∀ r, (applyBatch digest (c.alone p) (x.direct grant key) p).1 ≠ .ok r) := by
    cases hslot : p.receipts.get (grant.id, reviewKey x.id) with
    | none =>
      refine iff_of_true ?_ (.inl rfl)
      have hproposal : ∀ id note', (x.work grant reviewer note).approves = some (id, note') →
          (p.proposals.get id).isSome = true := by
        intro id note' happroves
        obtain ⟨rfl, -⟩ := Prod.mk.inj (Option.some.inj happroves)
        rw [hx]
        rfl
      have hlands : ((x.work grant reviewer note).lands (c.alone p) p).map Graph.unsigned =
          ((x.direct grant key).lands (c.alone p) p).map Graph.unsigned := lands_unsigned rfl rfl rfl
      rw [applyBatch_graph hslot hproposal, applyBatch_graph hkey (by simp [Proposal.direct]),
        ← Option.getD_map Graph.unsigned, ← Option.getD_map Graph.unsigned, hlands]
    | some receipt =>
      -- the review is answered from the receipt and writes nothing
      have hstays : (applyBatch digest (c.alone p) (x.work grant reviewer note) p).2 = p := by
        simp only [applyBatch, Work.lookup, show p.receipts.get (x.work grant reviewer note).slot = some receipt from hslot,
          Option.map_some]
      rw [hstays]
      constructor
      · intro heq
        exact .inr (fun r hr => applied_ne hkey hr heq.symm)
      · intro hrefused
        rw [refused_eq (hrefused.resolve_left (by simp))]
  exact ⟨fun h => ⟨verdicts_agree_iff.mp h.verdicts, hgraphs.mp h.graphs⟩,
    fun h => ⟨verdicts_agree_iff.mpr h.1, hgraphs.mpr h.2⟩⟩

def nullFields : List (NodeField × Value) :=
  [.title, .summary, .description, .rulesText, .constraintsText, .examplesText, .questionsText, .decisionNotes, .tags, .status,
    .maturity, .priority, .confidence, .workflowStatus, .filePaths].map (fun c => (c, .null))

/-- A proposal to change nothing of the root of the sample project. -/
def emptyUpdate : Proposal :=
  ⟨"proposal", "g", sampleId 0, none, "No change", "", [.updateNode (sampleId 1) ⟨2, Canon.one_le_two⟩ nullFields], ⟨2, Canon.one_le_two⟩,
    .pending, ""⟩

def samplePort : Port := ⟨Runs.run Graph.after Graph.empty sampleProject, .empty, .empty, ⟨[emptyUpdate], by decide⟩⟩

def sampleGrant : Grant := ⟨"g", sampleId 0, .write, none, none, "agent"⟩

def sampleChoice : Choice := ⟨fun _ => .empty, fun _ _ => sampleId 5, "row", "receipt", 0, false⟩

/-- The proposal is refused, the batch is not. -/
theorem empty_update_disagrees :
    validateOperations true (fun _ => samplePort.graph) (fun i => sampleChoice.uuid i 0) sampleGrant emptyUpdate.operations =
        .error (.http 422 "update_node fields cannot be empty") ∧
      validateOperations false (fun _ => samplePort.graph) (fun i => sampleChoice.uuid i 0) sampleGrant emptyUpdate.operations =
        .ok [.updateNode (sampleId 1) ⟨2, by decide⟩ nullFields] ∧
      ¬ (Passes true (fun _ => samplePort.graph) (fun i => sampleChoice.uuid i 0) sampleGrant emptyUpdate.operations ↔
        Passes false (fun _ => samplePort.graph) (fun i => sampleChoice.uuid i 0) sampleGrant emptyUpdate.operations) := by
  have hrefused : validateOperations true (fun _ => samplePort.graph) (fun i => sampleChoice.uuid i 0) sampleGrant
      emptyUpdate.operations = .error (.http 422 "update_node fields cannot be empty") := by decide +kernel
  have haccepted : validateOperations false (fun _ => samplePort.graph) (fun i => sampleChoice.uuid i 0) sampleGrant
      emptyUpdate.operations = .ok [.updateNode (sampleId 1) ⟨2, by decide⟩ nullFields] := by decide +kernel
  refine ⟨hrefused, haccepted, fun hagree => ?_⟩
  obtain ⟨out, hout⟩ := hagree.mpr ⟨_, haccepted⟩
  rw [hrefused] at hout
  cases hout

theorem ways_agree_iff_sample :
    Agree (fun _ => "digest") sampleChoice sampleGrant emptyUpdate "human" "" "key-0001" samplePort ↔
      ((∀ op ∈ emptyUpdate.operations, isEmptyUpdate op = false) ∨
        ¬ Passes false (fun _ => samplePort.graph) (fun i => sampleChoice.uuid i 0) sampleGrant emptyUpdate.operations) ∧
      (samplePort.receipts.get (sampleGrant.id, reviewKey emptyUpdate.id) = none ∨
        ∀ r, (applyBatch (fun _ => "digest") (sampleChoice.alone samplePort) (emptyUpdate.direct sampleGrant "key-0001")
          samplePort).1 ≠ .ok r) :=
  ways_agree_iff sampleChoice sampleGrant emptyUpdate "human" "" "key-0001" samplePort rfl rfl

end GrowthMap.AgentPort
