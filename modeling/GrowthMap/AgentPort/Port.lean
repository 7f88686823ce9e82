import GrowthMap.Canon.Batch

/- The agent port: grants, receipts and proposals beside the canonical graph.

   What an agent writes is stored once under its grant and idempotency key. The receipt
   holds the digest of the request's document and the response; a request that finds a
   receipt is answered from it, and the unique index of the receipts decides between requests
   that found none. A review that approves a proposal is a batch under a key made of
   the proposal's id.

   A request is cut where the database is read or written by itself: the look-up of the
   receipt, the write that ends in the commit, and the recovery after a failed one. The
   process-local locks only rule out some orders of these parts, so they are left out, and so are
   the columns that nothing reads (the kinds and states of receipts, rows of events, times of review).
   `digest` is SHA-256 of the canonical JSON text. -/
namespace GrowthMap.AgentPort

open Canon Relational

/-! Documents -/

/-- `Key` -/
def isKey (s : String) : Bool :=
  let allowed := fun c : Char => c.isAlphanum || c ∈ ['.', '_', ':', '-']
  decide (8 ≤ s.length ∧ s.length ≤ 80) && s.toList.all allowed

/-- `ProposalIn` -/
structure ProposalIn where
  batch : Batch
  targetNodeId : Option String
  title : String
  rationale : String
  deriving DecidableEq, Repr

/-- `EventIn` -/
structure EventIn where
  idempotencyKey : String
  targetNodeId : Option String
  eventType : String
  message : String
  payload : List (String × String)
  deriving DecidableEq, Repr

/-- What is digested. -/
inductive Document where
  | batch (b : Batch)
  | proposal (d : ProposalIn)
  | event (d : EventIn)
  deriving DecidableEq, Repr

/-- What a receipt stores. -/
inductive Response where
  | applied (receiptId projectId : String) (projectRevision : Int) (results : List OpResult) (requestDigest : String)
  | proposed (proposalId : String) (projectRevision : Int)
  | recorded (eventId : String)
  deriving DecidableEq, Repr

/-! Rows -/

structure AgentGrant where
  grant : Grant
  active : Bool
  expiresAt : Int
  revokedAt : Option Int
  deriving DecidableEq, Repr

def AgentGrant.id (g : AgentGrant) : String := g.grant.id

def AgentGrant.isActive (now : Int) (g : AgentGrant) : Bool := g.active && g.revokedAt.isNone && decide (now < g.expiresAt)

/-- `PERMISSIONS` -/
def rank : Permission → Nat
  | .read => 0
  | .propose => 1
  | .write => 2

structure Receipt where
  id : String
  grantId : String
  projectId : String
  idempotencyKey : String
  requestDigest : String
  response : Response
  deriving DecidableEq, Repr

def Receipt.slot (r : Receipt) : String × String := (r.grantId, r.idempotencyKey)

inductive ProposalStatus where
  | pending | approved | rejected
  deriving DecidableEq, Repr

structure Proposal where
  id : String
  grantId : String
  projectId : String
  targetNodeId : Option String
  title : String
  rationale : String
  operations : List (Op (Option String))
  expectedProjectRevision : Revision
  status : ProposalStatus
  reviewNote : String
  deriving DecidableEq, Repr

structure Port where
  graph : Graph
  grants : Table String AgentGrant AgentGrant.id
  receipts : Table (String × String) Receipt Receipt.slot
  proposals : Table String Proposal Proposal.id

def insertReceipt (r : Receipt) (p : Port) : Except Err Port :=
  if (p.grants.get r.grantId).isNone ∨ (p.graph.projects.get r.projectId).isNone ∨ p.receipts.rows.any (fun x => decide (x.id = r.id)) then
    .error .integrity
  else match p.receipts.insert r with
    | none => .error .integrity
    | some receipts => .ok { p with receipts }

def insertProposal (x : Proposal) (p : Port) : Except Err Port :=
  if (p.grants.get x.grantId).isNone ∨ (p.graph.projects.get x.projectId).isNone ∨
      x.targetNodeId.any (fun n => (p.graph.nodes.get n).isNone) then .error .integrity
  else match p.proposals.insert x with
    | none => .error .integrity
    | some proposals => .ok { p with proposals }

def Proposal.decide (status : ProposalStatus) (note : String) (x : Proposal) : Proposal := { x with status, reviewNote := note }

variable {note : String} {status : ProposalStatus}

theorem Proposal.decide_key (x : Proposal) : (x.decide status note).id = x.id := rfl

def decideProposal (id : String) (status : ProposalStatus) (note : String) (p : Port) : Except Err Port :=
  if (p.proposals.get id).isNone then .error .staleData
  else .ok { p with proposals := p.proposals.modify id (Proposal.decide status note) Proposal.decide_key }

/-! Receipts -/

def mismatch (message : String) : Err := .coded 409 "IDEMPOTENCY_MISMATCH" message

def Receipt.replay (requestDigest message : String) (r : Receipt) : Except Err Response :=
  if r.requestDigest ≠ requestDigest then .error (mismatch message) else .ok r.response

section Digest

variable (digest : Document → String)

/-! Batches -/

/-- A batch to apply: a batch of its agent, or the approval of a proposal with a note. -/
structure Work where
  grant : Grant
  actor : String
  body : Batch
  approves : Option (String × String)
  deriving DecidableEq, Repr

def Work.slot (w : Work) : String × String := (w.grant.id, w.body.idempotencyKey)

/-- The choices that are made for a write: what its reads see, the ids that are drawn, the time, and
whether the commit finds the database locked. -/
structure Choice where
  see : Nat → Graph
  uuid : Nat → Nat → String
  rowId : String
  receiptId : String
  now : Int
  busy : Bool

/-- How the write of a batch ends; `lost` is a failure of the flush or the commit at its end. -/
inductive Written where
  | raised (e : Err)
  | lost
  | done (p : Port) (r : Response)

/-- The look-up of `_apply_batch_serialized` -/
def Work.lookup (w : Work) (p : Port) : Option (Except Err Response) :=
  (p.receipts.get w.slot).map (Receipt.replay (digest (.batch w.body)) "Key was used with different payload")

def Work.receipt (receiptId : String) (w : Work) (response : Response) : Receipt :=
  ⟨receiptId, w.grant.id, w.grant.projectId, w.body.idempotencyKey, digest (.batch w.body), response⟩

def Work.decide (w : Work) (p : Port) : Except Err Port :=
  match w.approves with
  | none => .ok p
  | some (id, note) => decideProposal id .approved note p

/-- What `_apply_batch_serialized` writes; the commit takes all of it or nothing. -/
def Work.write (c : Choice) (w : Work) (p : Port) : Written :=
  match applyOperations c.see c.uuid c.now w.grant w.actor w.body p.graph with
  | .error .writeConflict => .lost
  | .error e => .raised e
  | .ok (graph, revision, results) =>
    let response := Response.applied c.receiptId w.grant.projectId revision results (digest (.batch w.body))
    match insertReceipt (w.receipt digest c.receiptId response) { p with graph } with
    | .error _ => .lost
    | .ok p =>
      match w.decide p with
      | .error e => .raised e
      | .ok p => if c.busy then .lost else .done p response

/-- After the rollback: the winner of the key, or a conflict of another kind. -/
def Work.recover (w : Work) (p : Port) : Except Err Response :=
  match p.receipts.get w.slot with
  | some r => r.replay (digest (.batch w.body)) "Key payload mismatch"
  | none => .error .writeConflict

/-- `apply_batch`, with no other request in between -/
def applyBatch (c : Choice) (w : Work) (p : Port) : Except Err Response × Port :=
  match w.lookup digest p with
  | some answer => (answer, p)
  | none =>
    match w.write digest c p with
    | .raised e => (.error e, p)
    | .lost => (w.recover digest p, p)
    | .done p r => (.ok r, p)

/-! Events and proposals -/

/-- What `store_once` stores. -/
inductive Record where
  | event (d : EventIn)
  | proposal (d : ProposalIn)
  deriving DecidableEq, Repr

def Record.key : Record → String
  | .event d => d.idempotencyKey
  | .proposal d => d.batch.idempotencyKey

def Record.document : Record → Document
  | .event d => .event d
  | .proposal d => .proposal d

/-- The look-up of `store_once` -/
def Record.lookup (grant : Grant) (r : Record) (p : Port) : Option (Except Err Response) :=
  (p.receipts.get (grant.id, r.key)).map (Receipt.replay (digest r.document) "Key payload mismatch")

/-- `create` -/
def Record.create (c : Choice) (grant : Grant) (r : Record) (p : Port) : Except Err (Port × Response) :=
  match r with
  | .event d =>
    if d.targetNodeId.any (fun n => (p.graph.nodes.get n).isNone) then .error .integrity else .ok (p, .recorded c.rowId)
  | .proposal d =>
    match (c.see 5).projects.get grant.projectId with
    | none => .error (.http 500 "Internal Server Error")
    | some project =>
      if d.batch.expectedProjectRevision.val ≠ project.revision then
        .error (.conflict "Project revision is stale" none d.batch.expectedProjectRevision.val (some project.revision) none)
      else do
        let p ← insertProposal ⟨c.rowId, grant.id, grant.projectId, d.targetNodeId, d.title, d.rationale, d.batch.operations,
          d.batch.expectedProjectRevision, .pending, ""⟩ p
        return (p, .proposed c.rowId project.revision)

/-- What `store_once` writes. -/
def Record.store (c : Choice) (grant : Grant) (r : Record) (p : Port) : Except Err (Port × Response) := do
  let (p, response) ← r.create c grant p
  let p ← insertReceipt ⟨c.receiptId, grant.id, grant.projectId, r.key, digest r.document, response⟩ p
  if c.busy then .error (.http 500 "Internal Server Error") else return (p, response)

/-! Endpoints -/

def permissionDenied (permission : String) : Err := .coded 403 "PERMISSION_DENIED" (permission ++ " permission required")

/-- `auth` and `require`; the secret of the token has found the grant. -/
def authorize (now : Int) (permission : Permission) (name grantId : String) (p : Port) : Except Err Grant :=
  match p.grants.get grantId with
  | none => .error (.coded 401 "INVALID_TOKEN" "Invalid token")
  | some row =>
    if !row.isActive now then .error (.coded 401 "GRANT_INACTIVE" "Grant is revoked or expired")
    else if rank row.grant.permission < rank permission then .error (permissionDenied name)
    else .ok row.grant

/-- `validate_scope` of an optional target -/
def validateScope (g : Graph) (grant : Grant) (target : Option String) : Except Err Unit := do
  let allowed ← allowedNodes g grant
  if (truthy target).any (fun x => decide (x ∉ allowed)) then .error (scopeDenied "Target is outside grant scope") else return ()

/-- What `event` and `propose` check before they store. -/
def Record.check (c : Choice) (grant : Grant) : Record → Except Err Unit
  | .event d => validateScope (c.see 0) grant d.targetNodeId
  | .proposal d => do
    validateScope (c.see 0) grant d.targetNodeId
    let _ ← validateOperations true (fun i => c.see (i + 1)) (fun i => c.uuid i 0) grant d.batch.operations
    return ()

inductive Decision where
  | approve | reject
  deriving DecidableEq, Repr

def reviewKey (proposalId : String) : String := "proposal:" ++ proposalId

def Proposal.work (grant : Grant) (reviewer note : String) (x : Proposal) : Work :=
  ⟨grant, reviewer, ⟨x.expectedProjectRevision, reviewKey x.id, x.operations⟩, some (x.id, note)⟩

def reviewGrant (now : Int) (x : Proposal) (p : Port) : Except Err Grant :=
  match p.grants.get x.grantId with
  | none => .error (.coded 409 "GRANT_INACTIVE" "Revocation/expiry invalidates pending proposals")
  | some row =>
    if !row.isActive now ∨ rank row.grant.permission < rank .propose then
      .error (.coded 409 "GRANT_INACTIVE" "Revocation/expiry invalidates pending proposals")
    else .ok row.grant

/-! The writes, inverted -/

variable {digest} {p p' : Port}

theorem insertReceipt_ok {r : Receipt} (h : insertReceipt r p = .ok p') :
    p.receipts.insert r = some p'.receipts ∧ p' = { p with receipts := p'.receipts } := by
  obtain ⟨-, h⟩ := Fallible.guard_ok h
  cases hins : p.receipts.insert r with
  | none => simp [hins] at h
  | some =>
    simp only [hins, Except.ok.injEq] at h
    subst h
    exact ⟨rfl, rfl⟩

theorem decideProposal_ok {id : String} (h : decideProposal id status note p = .ok p') :
    (p.proposals.get id).isSome = true ∧
      p' = { p with proposals := p.proposals.modify id (Proposal.decide status note) Proposal.decide_key } := by
  obtain ⟨hsome, h⟩ := Fallible.guard_ok h
  cases h
  exact ⟨by simpa [Option.isSome_iff_ne_none] using hsome, rfl⟩

/-- What a batch wrote: the graph, its receipt, and the proposal it approves. -/
structure Work.Wrote (digest : Document → String) (c : Choice) (w : Work) (p p' : Port) (r : Response) : Prop where
  graph : ∃ revision results, applyOperations c.see c.uuid c.now w.grant w.actor w.body p.graph = .ok (p'.graph, revision, results) ∧
    r = .applied c.receiptId w.grant.projectId revision results (digest (.batch w.body))
  receipt : p.receipts.insert (w.receipt digest c.receiptId r) = some p'.receipts
  grants : p'.grants = p.grants
  own : w.approves = none → p'.proposals = p.proposals
  review : ∀ id note, w.approves = some (id, note) → (p.proposals.get id).isSome = true ∧
    p'.proposals = p.proposals.modify id (Proposal.decide .approved note) Proposal.decide_key

theorem Work.write_done {c : Choice} {w : Work} {r : Response} (h : w.write digest c p = .done p' r) :
    w.Wrote digest c p p' r := by
  unfold Work.write at h
  cases happly : applyOperations c.see c.uuid c.now w.grant w.actor w.body p.graph with
  | error e => cases e <;> simp [happly] at h
  | ok out =>
    obtain ⟨graph, revision, results⟩ := out
    simp only [happly] at h
    cases hins : insertReceipt (w.receipt digest c.receiptId
        (.applied c.receiptId w.grant.projectId revision results (digest (.batch w.body)))) { p with graph } with
    | error e => simp [hins] at h
    | ok p₁ =>
      simp only [hins] at h
      cases hdecide : w.decide p₁ with
      | error => simp [hdecide] at h
      | ok =>
        simp only [hdecide] at h
        split at h
        · cases h
        · cases h
          obtain ⟨hrow, hp₁⟩ := insertReceipt_ok hins
          cases happroves : w.approves with
          | none =>
            simp only [Work.decide, happroves, Except.ok.injEq] at hdecide
            subst hdecide
            rw [hp₁]
            exact ⟨⟨revision, results, happly, rfl⟩, hrow, rfl, fun _ => rfl, by simp [happroves]⟩
          | some review =>
            obtain ⟨id, note⟩ := review
            simp only [Work.decide, happroves] at hdecide
            obtain ⟨hsome, rfl⟩ := decideProposal_ok hdecide
            rw [hp₁] at hsome ⊢
            refine ⟨⟨revision, results, happly, rfl⟩, hrow, rfl, by simp [happroves], ?_⟩
            intro id' note' hreview
            rw [happroves, Option.some.injEq, Prod.mk.injEq] at hreview
            obtain ⟨rfl, rfl⟩ := hreview
            exact ⟨hsome, rfl⟩

end Digest

end GrowthMap.AgentPort
