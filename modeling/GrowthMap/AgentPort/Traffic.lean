import GrowthMap.AgentPort.Port
import GrowthMap.Lib.Runs

/- Requests to the agent port, interleaved.

   A request advances part by part, and between two parts any other request may. What a
   write reads before its claim is part of its choice, so that those reads may see any state.
   Whoever else writes to the database changes the graph and the grants; receipts
   and proposals are the port's own. -/
namespace GrowthMap.AgentPort

open Canon Relational Fallible Table

inductive Call where
  | batch (grantId : String) (body : Batch)
  | record (grantId : String) (r : Record)
  | review (proposalId : String) (decision : Decision) (reviewer note : String)
  deriving DecidableEq, Repr

inductive Answer where
  | refused (e : Err)
  /-- the receipt of an earlier request -/
  | replayed (r : Response)
  /-- a batch, or the approval of a proposal -/
  | applied (r : Response)
  /-- an event or a proposal -/
  | stored (r : Response)
  | rejected
  /-- the review of a proposal that was decided before -/
  | settled (status : ProposalStatus)
  deriving DecidableEq, Repr

/-- What a request does next. -/
inductive Stage where
  | arrived
  | lookup (w : Work)
  | write (w : Work)
  | recover (w : Work)
  | find (grant : Grant) (r : Record)
  | store (grant : Grant) (r : Record)
  | reject (proposalId note : String)
  | answered (a : Answer)
  deriving DecidableEq, Repr

structure Task where
  call : Call
  stage : Stage
  deriving DecidableEq, Repr

structure Traffic where
  port : Port
  tasks : List Task

inductive Event where
  | arrive (c : Call)
  | advance (i : Nat) (c : Choice)
  | outside (graph : Graph) (grants : Table String AgentGrant AgentGrant.id)

def orRefuse {α : Type} (x : Except Err α) (f : α → Stage) : Stage :=
  match x with
  | .error e => .answered (.refused e)
  | .ok a => f a

def invalidKey : Err := .http 422 "Unprocessable Entity"

/-- `review` before it writes: `reject`, or the batch to apply. -/
def reviewProposal (now : Int) (proposalId : String) (decision : Decision) (reviewer note : String) (p : Port) : Stage :=
  match p.proposals.get proposalId with
  | none => .answered (.refused (.http 404 "Proposal not found"))
  | some row =>
    if row.status ≠ .pending then .answered (.settled row.status)
    else match decision with
      | .reject => .reject proposalId note
      | .approve => orRefuse (reviewGrant now row p) fun grant => .lookup (row.work grant reviewer note)

/-- What a request does before its first look-up or write. -/
def Call.arrive (c : Choice) (p : Port) : Call → Stage
  | .batch grantId body =>
    orRefuse (authorize c.now .write "write" grantId p) fun grant =>
      if !isKey body.idempotencyKey then .answered (.refused invalidKey)
      else .lookup ⟨grant, grant.agentIdentity, body, none⟩
  | .record grantId r =>
    orRefuse (authorize c.now .propose "propose" grantId p) fun grant =>
      if !isKey r.key then .answered (.refused invalidKey)
      else orRefuse (r.check c grant) fun _ => .find grant r
  | .review proposalId decision reviewer note => reviewProposal c.now proposalId decision reviewer note p

section Digest

variable (digest : Document → String)

def Task.advance (c : Choice) (t : Task) (p : Port) : Stage × Port :=
  match t.stage with
  | .arrived => (t.call.arrive c p, p)
  | .lookup w =>
    match w.lookup digest p with
    | none => (.write w, p)
    | some answer => (orRefuse answer fun r => .answered (.replayed r), p)
  | .write w =>
    match w.write digest c p with
    | .raised e => (.answered (.refused e), p)
    | .lost => (.recover w, p)
    | .done p r => (.answered (.applied r), p)
  | .recover w => (orRefuse (w.recover digest p) fun r => .answered (.replayed r), p)
  | .find grant r =>
    match r.lookup digest grant p with
    | none => (.store grant r, p)
    | some answer => (orRefuse answer fun x => .answered (.replayed x), p)
  | .store grant r =>
    match r.store digest c grant p with
    | .error e => (.answered (.refused e), p)
    | .ok (p, x) => (.answered (.stored x), p)
  | .reject proposalId note =>
    match decideProposal proposalId .rejected note p with
    | .error e => (.answered (.refused e), p)
    | .ok p => (.answered .rejected, p)
  | .answered a => (.answered a, p)

def step (s : Traffic) : Event → Traffic
  | .arrive call => { s with tasks := s.tasks ++ [⟨call, .arrived⟩] }
  | .advance i c =>
    match s.tasks[i]? with
    | none => s
    | some t => ⟨(t.advance digest c s.port).2, s.tasks.set i { t with stage := (t.advance digest c s.port).1 }⟩
  | .outside graph grants => { s with port := { s.port with graph, grants } }

variable {digest}

/-! What a part does to the database -/

/-- What a store wrote: its receipt, and a new row if it is of a proposal. -/
structure Record.Stored (digest : Document → String) (c : Choice) (grant : Grant) (r : Record) (p p' : Port) (x : Response) : Prop where
  graph : p'.graph = p.graph
  receipt : p.receipts.insert ⟨c.receiptId, grant.id, grant.projectId, r.key, digest r.document, x⟩ = some p'.receipts
  grants : p'.grants = p.grants
  event : ∀ d, r = .event d → p'.proposals = p.proposals
  proposal : ∀ d, r = .proposal d → p.proposals.insert ⟨c.rowId, grant.id, grant.projectId, d.targetNodeId, d.title, d.rationale,
    d.batch.operations, d.batch.expectedProjectRevision, .pending, ""⟩ = some p'.proposals

variable {p p' : Port} {c : Choice} {stage : Stage} {permission : Permission} {grantId : String}

theorem insertProposal_ok {x : Proposal} (h : insertProposal x p = .ok p') :
    p.proposals.insert x = some p'.proposals ∧ p' = { p with proposals := p'.proposals } := by
  obtain ⟨-, h⟩ := guard_ok h
  cases hins : p.proposals.insert x with
  | none => simp [hins] at h
  | some =>
    simp only [hins, Except.ok.injEq] at h
    subst h
    exact ⟨rfl, rfl⟩

variable {grant : Grant} {receipt : Receipt} {name : String}

theorem Record.store_ok {r : Record} {x : Response}
    (h : r.store digest c grant p = .ok (p', x)) : r.Stored digest c grant p p' x := by
  obtain ⟨⟨p₁, x₁⟩, hcreate, h⟩ := bind_ok h
  obtain ⟨p₂, hins, h⟩ := bind_ok h
  obtain ⟨-, h⟩ := guard_ok h
  cases h
  obtain ⟨hrow, hp₂⟩ := insertReceipt_ok hins
  cases r with
  | event =>
    obtain ⟨-, hcreate⟩ := guard_ok hcreate
    cases hcreate
    rw [hp₂]
    exact ⟨rfl, hrow, rfl, fun _ _ => rfl, by simp⟩
  | proposal =>
    simp only [Record.create] at hcreate
    split at hcreate
    · cases hcreate
    · obtain ⟨-, hcreate⟩ := guard_ok hcreate
      obtain ⟨p₃, hproposal, hcreate⟩ := bind_ok hcreate
      cases hcreate
      obtain ⟨hnew, hp₁⟩ := insertProposal_ok hproposal
      rw [hp₁] at hrow
      refine ⟨by rw [hp₂, hp₁], ?_, by rw [hp₂, hp₁], by simp, ?_⟩
      · exact hrow
      · rintro d' ⟨rfl⟩
        rw [hp₂]
        exact hnew

theorem replay_eq_ok {d message : String} {r : Response} (h : receipt.replay d message = .ok r) :
    receipt.requestDigest = d ∧ receipt.response = r := by
  obtain ⟨hsame, h⟩ := guard_ok h
  cases h
  exact ⟨not_not.mp hsame, rfl⟩

/-- What the next part of a request can be: the stage it leads to, and the database after it. -/
inductive Moves (digest : Document → String) (c : Choice) (t : Task) (p : Port) : Stage → Port → Prop where
  | start (h : t.stage = .arrived) : Moves digest c t p (t.call.arrive c p) p
  | missed {w : Work} (h : t.stage = .lookup w) (hnone : p.receipts.get w.slot = none) : Moves digest c t p (.write w) p
  | found {w : Work} {receipt : Receipt} (h : t.stage = .lookup w ∨ t.stage = .recover w) (hget : p.receipts.get w.slot = some receipt)
      (hsame : receipt.requestDigest = digest (.batch w.body)) : Moves digest c t p (.answered (.replayed receipt.response)) p
  | lost {w : Work} (h : t.stage = .write w) : Moves digest c t p (.recover w) p
  | wrote {w : Work} {p' : Port} {r : Response} (h : t.stage = .write w) (hwrote : w.Wrote digest c p p' r) :
      Moves digest c t p (.answered (.applied r)) p'
  | unknown {grant : Grant} {r : Record} (h : t.stage = .find grant r) (hnone : p.receipts.get (grant.id, r.key) = none) :
      Moves digest c t p (.store grant r) p
  | known {grant : Grant} {r : Record} {receipt : Receipt} (h : t.stage = .find grant r)
      (hget : p.receipts.get (grant.id, r.key) = some receipt) (hsame : receipt.requestDigest = digest r.document) :
      Moves digest c t p (.answered (.replayed receipt.response)) p
  | stored {grant : Grant} {r : Record} {p' : Port} {x : Response} (h : t.stage = .store grant r)
      (hstored : r.Stored digest c grant p p' x) : Moves digest c t p (.answered (.stored x)) p'
  | rejected {id note : String} (h : t.stage = .reject id note) (hsome : (p.proposals.get id).isSome = true) :
      Moves digest c t p (.answered .rejected)
        { p with proposals := p.proposals.modify id (Proposal.decide .rejected note) Proposal.decide_key }
  | refused {e : Err} (h : ∀ a, t.stage ≠ .answered a) : Moves digest c t p (.answered (.refused e)) p
  | answered {a : Answer} (h : t.stage = .answered a) : Moves digest c t p (.answered a) p

theorem Task.moves (c : Choice) (t : Task) (p : Port) :
    Moves digest c t p (t.advance digest c p).1 (t.advance digest c p).2 := by
  have hrefuse : ∀ (e : Err), (∀ a, t.stage ≠ .answered a) → Moves digest c t p (.answered (.refused e)) p := fun e h => .refused h
  unfold Task.advance
  cases hstage : t.stage with
  | arrived => exact .start hstage
  | lookup w =>
    simp only [Work.lookup]
    cases hget : p.receipts.get w.slot with
    | none => exact .missed hstage hget
    | some receipt =>
      simp only [Option.map_some]
      cases hreplay : receipt.replay (digest (.batch w.body)) "Key was used with different payload" with
      | error e => exact hrefuse e (by simp [hstage])
      | ok =>
        obtain ⟨hsame, rfl⟩ := replay_eq_ok hreplay
        exact .found (.inl hstage) hget hsame
  | write w =>
    simp only
    cases hwrite : w.write digest c p with
    | raised e => exact hrefuse e (by simp [hstage])
    | lost => exact .lost hstage
    | done => exact .wrote hstage (Work.write_done hwrite)
  | recover w =>
    simp only [Work.recover]
    cases hget : p.receipts.get w.slot with
    | none => exact hrefuse _ (by simp [hstage])
    | some receipt =>
      simp only
      cases hreplay : receipt.replay (digest (.batch w.body)) "Key payload mismatch" with
      | error e => exact hrefuse e (by simp [hstage])
      | ok =>
        obtain ⟨hsame, rfl⟩ := replay_eq_ok hreplay
        exact .found (.inr hstage) hget hsame
  | find grant r =>
    simp only [Record.lookup]
    cases hget : p.receipts.get (grant.id, r.key) with
    | none => exact .unknown hstage hget
    | some receipt =>
      simp only [Option.map_some]
      cases hreplay : receipt.replay (digest r.document) "Key payload mismatch" with
      | error e => exact hrefuse e (by simp [hstage])
      | ok =>
        obtain ⟨hsame, rfl⟩ := replay_eq_ok hreplay
        exact .known hstage hget hsame
  | store grant r =>
    simp only
    cases hstore : r.store digest c grant p with
    | error e => exact hrefuse e (by simp [hstage])
    | ok => exact .stored hstage (Record.store_ok hstore)
  | reject id note =>
    simp only
    cases hdecide : decideProposal id .rejected note p with
    | error e => exact hrefuse e (by simp [hstage])
    | ok =>
      obtain ⟨hsome, rfl⟩ := decideProposal_ok hdecide
      exact .rejected hstage hsome
  | answered => exact .answered hstage

theorem Moves.receipts {t : Task} (h : Moves digest c t p stage p')
    {k : String × String} (hget : p.receipts.get k = some receipt) : p'.receipts.get k = some receipt := by
  cases h with
  | wrote _ hwrote => exact get_insert_old hwrote.receipt hget
  | stored _ hstored => exact get_insert_old hstored.receipt hget
  | _ => exact hget

/-! The order of the parts -/

/-- The stage belongs to the call: what is looked up, written and answered is what the call asks for. -/
def Task.Fits (t : Task) : Prop :=
  match t.call, t.stage with
  | _, .arrived => True
  | .batch grantId body, .lookup w | .batch grantId body, .write w | .batch grantId body, .recover w =>
    w.grant.id = grantId ∧ w.body = body ∧ w.approves = none
  | .batch .., .answered a => (∃ e, a = .refused e) ∨ (∃ r, a = .replayed r) ∨ ∃ r, a = .applied r
  | .record grantId r, .find grant r' | .record grantId r, .store grant r' => grant.id = grantId ∧ r' = r
  | .record .., .answered a => (∃ e, a = .refused e) ∨ (∃ r, a = .replayed r) ∨ ∃ r, a = .stored r
  | .review id decision _ note, .lookup w | .review id decision _ note, .write w | .review id decision _ note, .recover w =>
    decision = .approve ∧ w.approves = some (id, note) ∧ w.body.idempotencyKey = reviewKey id
  | .review id decision _ note, .reject id' note' => decision = .reject ∧ id' = id ∧ note' = note
  | .review _ decision _ _, .answered a => (∃ e, a = .refused e) ∨ (∃ status, a = .settled status) ∨
    (decision = .approve ∧ ((∃ r, a = .replayed r) ∨ ∃ r, a = .applied r)) ∨ decision = .reject ∧ a = .rejected
  | .batch .., .find .. | .batch .., .store .. | .batch .., .reject .. => False
  | .record .., .lookup _ | .record .., .write _ | .record .., .recover _ | .record .., .reject .. => False
  | .review .., .find .. | .review .., .store .. => False

theorem fits_refused (call : Call) (e : Err) : Task.Fits ⟨call, .answered (.refused e)⟩ := by
  cases call <;> exact .inl ⟨e, rfl⟩

theorem authorize_ok {now : Int}
    (h : authorize now permission name grantId p = .ok grant) : ∃ row, p.grants.get grantId = some row ∧ row.grant = grant := by
  unfold authorize at h
  cases hrow : p.grants.get grantId with
  | none => simp [hrow] at h
  | some row =>
    simp only [hrow] at h
    obtain ⟨-, h⟩ := guard_ok h
    obtain ⟨-, h⟩ := guard_ok h
    cases h
    exact ⟨row, rfl, rfl⟩

theorem authorize_id {now : Int}
    (h : authorize now permission name grantId p = .ok grant) : grant.id = grantId := by
  obtain ⟨row, hrow, rfl⟩ := authorize_ok h
  have hid : row.id = grantId := get_key hrow
  exact hid

theorem fits_start (c : Choice) (p : Port) (call : Call) : Task.Fits ⟨call, call.arrive c p⟩ := by
  cases call with
  | batch grantId =>
    simp only [Call.arrive]
    cases hgrant : authorize c.now .write "write" grantId p with
    | error e => exact fits_refused _ e
    | ok =>
      simp only [orRefuse]
      split
      · exact fits_refused _ _
      · exact ⟨authorize_id hgrant, rfl, rfl⟩
  | record grantId r =>
    simp only [Call.arrive]
    cases hgrant : authorize c.now .propose "propose" grantId p with
    | error e => exact fits_refused _ e
    | ok grant =>
      simp only [orRefuse]
      split
      · exact fits_refused _ _
      · cases r.check c grant with
        | error e => exact fits_refused _ e
        | ok => exact ⟨authorize_id hgrant, rfl⟩
  | review id decision =>
    simp only [Call.arrive, reviewProposal]
    cases hrow : p.proposals.get id with
    | none => exact fits_refused _ _
    | some row =>
      simp only
      split
      · exact .inr (.inl ⟨_, rfl⟩)
      · cases decision with
        | reject => exact ⟨rfl, rfl, rfl⟩
        | approve =>
          simp only
          cases reviewGrant c.now row p with
          | error e => exact fits_refused _ e
          | ok => exact ⟨rfl, by rw [Proposal.work, get_key hrow], by rw [Proposal.work, get_key hrow]⟩

/-- Each part leaves the stage fitting. -/
theorem Moves.fits {t : Task} (h : Moves digest c t p stage p') (ht : t.Fits) :
    Task.Fits ⟨t.call, stage⟩ := by
  obtain ⟨call, old⟩ := t
  cases h with
  | start => exact fits_start c p call
  | refused => exact fits_refused call _
  | answered h =>
    cases h
    exact ht
  | missed h | lost h =>
    cases h
    cases call <;> exact ht
  | found h =>
    rcases h with h | h
    all_goals
      cases h
      cases call with
      | batch => exact .inr (.inl ⟨_, rfl⟩)
      | record => exact ht.elim
      | review => exact .inr (.inr (.inl ⟨ht.1, .inl ⟨_, rfl⟩⟩))
  | wrote h =>
    cases h
    cases call with
    | batch => exact .inr (.inr ⟨_, rfl⟩)
    | record => exact ht.elim
    | review => exact .inr (.inr (.inl ⟨ht.1, .inr ⟨_, rfl⟩⟩))
  | unknown h =>
    cases h
    cases call <;> exact ht
  | known h =>
    cases h
    cases call with
    | record => exact .inr (.inl ⟨_, rfl⟩)
    | batch => exact ht.elim
    | review => exact ht.elim
  | stored h =>
    cases h
    cases call with
    | record => exact .inr (.inr ⟨_, rfl⟩)
    | batch => exact ht.elim
    | review => exact ht.elim
  | rejected h =>
    cases h
    cases call with
    | review => exact .inr (.inr (.inr ⟨ht.1, rfl⟩))
    | batch => exact ht.elim
    | record => exact ht.elim

/-! Runs -/

theorem invariant_of_moves {I : Traffic → Prop} {s₀ : Traffic} (hstart : I s₀)
    (harrive : ∀ s call, I s → I ⟨s.port, s.tasks ++ [⟨call, .arrived⟩]⟩)
    (hmove : ∀ s i c t stage p', I s → s.tasks[i]? = some t → Moves digest c t s.port stage p' →
      I ⟨p', s.tasks.set i ⟨t.call, stage⟩⟩)
    (houtside : ∀ s graph grants, I s → I ⟨{ s.port with graph, grants }, s.tasks⟩) {s : Traffic}
    (h : Runs.Reachable (step digest) s₀ s) : I s := by
  refine h.invariant I hstart ?_
  intro s e hs
  cases e with
  | arrive call => exact harrive s call hs
  | outside graph grants => exact houtside s graph grants hs
  | advance i c =>
    cases ht : s.tasks[i]? with
    | none => simpa only [step, ht] using hs
    | some t => simpa only [step, ht] using hmove s i c t _ _ hs ht (t.moves c s.port)

end Digest

end GrowthMap.AgentPort
