import Mathlib.Algebra.GroupWithZero.Nat
import GrowthMap.Payments.Reversal

/- The service object: the checkpoint file, `_commit_trusted`, and the programs
   that run the transaction bodies.

   The world of an operation is its connection, the checkpoint file, the flag
   `_checkpoint_failed` and how the coming publications will go. A statement
   outside a transaction is committed at once (the connection has
   `isolation_level=None`); the `with` block commits what is open when its body
   returns and rolls it back when it raises. `failedFrom` remembers, for the
   proofs, the committed ledger under the first publication that failed. -/
namespace GrowthMap.Payments

open Relational Transaction

/-- The members of the version-2 document. -/
structure Checkpoint where
  count : Nat
  root : String
  schema : String
  sequence : Nat
  version : Nat
  mac : String
  deriving DecidableEq, Repr

/-- The members of the version-1 document of schema 5. -/
structure LegacyCheckpoint where
  count : Nat
  root : String
  sequence : Nat
  version : Nat
  mac : String
  deriving DecidableEq, Repr

/-- The contents of `settlement_checkpoint_path`. -/
inductive CheckpointFile where
  | missing
  /-- not JSON, or without a `mac` -/
  | unreadable
  /-- JSON with other members -/
  | other
  | legacy (c : LegacyCheckpoint)
  | issuance (c : Checkpoint)
  deriving DecidableEq, Repr

def Ledger.rowsIn (l : Ledger) : TableName → Nat
  | .orders => l.orders.rows.length
  | .paymentProofs => l.proofs.rows.length
  | .externalEvents => l.externalEvents.rows.length
  | .settlementIntents => l.intents.rows.length
  | .auditEvents => l.audit.length
  | .migrationLedger => l.migrationLedger.rows.length
  | .terminalCheckpointState => 1
  | .revocationAssertions => l.assertions.rows.length
  | .entitlementOutbox => l.entitlements.rows.length
  | .revocationOutbox => l.revocations.rows.length
  | .settlementCandidates => l.candidates.rows.length
  | .whopWebhookInbox => l.inbox.rows.length

/-- The tables of `_issuance_snapshot`. -/
def snapshotTables : List TableName :=
  [.orders, .paymentProofs, .externalEvents, .settlementIntents, .auditEvents, .migrationLedger,
   .terminalCheckpointState, .revocationAssertions, .entitlementOutbox, .revocationOutbox,
   .settlementCandidates, .whopWebhookInbox]

/-- `sum(map(len,closure.values()))` over the tables that exist. -/
def rowCount (l : Ledger) : Nat := ((snapshotTables.filter l.schema.tables).map l.rowsIn).sum

def issuanceMac (cfg : Config) (count : Nat) (root schema : String) (sequence version : Nat) : String :=
  cfg.settlementMac (.obj "growthmap-issuance-checkpoint-v2" [("count", .int count), ("root", .str root),
    ("schema", .str schema), ("sequence", .int sequence), ("version", .int version)])

/-- `_checkpoint_document` -/
def checkpointDocument (cfg : Config) (l : Ledger) : Checkpoint :=
  { count := rowCount l, root := cfg.issuanceRoot l, schema := cfg.schemaDigest l.schema,
    sequence := l.sequence, version := 2,
    mac := issuanceMac cfg (rowCount l) (cfg.issuanceRoot l) (cfg.schemaDigest l.schema) l.sequence 2 }

/-- `_verify_or_initialize_checkpoint`: an authentic document of exactly these contents. -/
def verifyCheckpoint (cfg : Config) (file : CheckpointFile) (l : Ledger) : Except Err Unit :=
  match file with
  | .missing => .error (.runtime "external issuance checkpoint missing")
  | .unreadable => .error (.runtime "external issuance checkpoint invalid")
  | .other | .legacy _ => .error (.runtime "external issuance checkpoint authentication failed")
  | .issuance c =>
    if c.mac ≠ issuanceMac cfg c.count c.root c.schema c.sequence c.version then
      .error (.runtime "external issuance checkpoint authentication failed")
    else if c ≠ checkpointDocument cfg l then
      .error (.runtime "external issuance checkpoint/database mismatch")
    else .ok ()

/-- `_verify_terminal_evidence` -/
def verifyTerminalEvidence (cfg : Config) (l : Ledger) : Except Err Unit :=
  if l.intents.rows.all (fun i => !i.state.terminal ||
      decide (i.evidenceBinding.getD "" = storedBinding cfg i)) then .ok ()
  else .error (.runtime "terminal settlement evidence authentication failed")

/-- How a publication inside `_commit_trusted` goes. -/
inductive Publication where
  | ok | writeFails | commitFails
  deriving DecidableEq, Repr

structure World where
  conn : Conn Ledger
  checkpoint : CheckpointFile
  checkpointFailed : Bool
  /-- the coming publications; past the list they succeed -/
  publications : List Publication
  failedFrom : Option Ledger

abbrev Py (α : Type) := Prog World Err α

/-! Statements -/

def current : Py Ledger := fun w => (.ok w.conn.current, w)

def beginImmediate : Py Unit := fun w => (.ok (), { w with conn := w.conn.begin })

/-- The effect of statements that cannot fail. -/
def setCurrent (l : Ledger) : Py Unit := fun w => (.ok (), { w with conn := w.conn.exec (fun _ => l) })

def statement (f : Ledger → Except Err Ledger) : Py Unit := fun w =>
  match f w.conn.current with
  | .error e => (.error e, w)
  | .ok l => (.ok (), { w with conn := w.conn.exec (fun _ => l) })

def ofExcept {α : Type} : Except Err α → Py α
  | .ok a => pure a
  | .error e => throw e

/-- The `with self._db() as db:` block. -/
def withDb {α : Type} (p : Py α) : Py α := fun w =>
  match p w with
  | (.ok a, w) => (.ok a, { w with conn := w.conn.commit })
  | (.error e, w) => (.error e, { w with conn := w.conn.rollback })

/-! Trust and publication -/

def failClosed : Err := .runtime "payment service is fail-closed after checkpoint failure"
def publicationFailed : Err :=
  .runtime "external issuance checkpoint update failed; service is fail-closed"

/-- `_assert_terminal_trust` -/
def assertTerminalTrust (cfg : Config) : Py Unit := fun w =>
  if w.checkpointFailed then (.error failClosed, w)
  else match verifyCheckpoint cfg w.checkpoint w.conn.current with
    | .error e => (.error e, w)
    | .ok () => (verifyTerminalEvidence cfg w.conn.current, w)

def bumpSequence (l : Ledger) : Ledger := { l with sequence := l.sequence + 1 }

def World.publication (w : World) : Publication := w.publications.headD .ok

/-- The handler of `_commit_trusted`: roll back, close the service. -/
def closeService (w : World) : Except Err Unit × World :=
  (.error publicationFailed,
    { w with conn := w.conn.rollback, checkpointFailed := true,
             failedFrom := some (w.failedFrom.getD w.conn.committed) })

/-- `_commit_trusted`: bump the sequence, publish the checkpoint, commit. -/
def commitTrusted (cfg : Config) : Py Unit := fun w =>
  let w := { w with conn := w.conn.exec bumpSequence }
  let file := CheckpointFile.issuance (checkpointDocument cfg w.conn.current)
  let rest := { w with publications := w.publications.tail }
  match w.publication with
  | .ok => (.ok (), { rest with checkpoint := file, conn := rest.conn.commit })
  | .writeFails => closeService rest
  | .commitFails => closeService { rest with checkpoint := file }

/-- What follows the trust check: the body and the end it decides on. -/
def runBody {α : Type} (cfg : Config) (body : Body α) : Py α := do
  match body (← current) with
  | .commit l a => do
    setCurrent l
    commitTrusted cfg
    return a
  | .commitRaise l e => do
    setCurrent l
    commitTrusted cfg
    throw e
  | .leave a => return a
  | .raise e => throw e

def transaction {α : Type} (cfg : Config) (body : Body α) : Py α :=
  withDb do
    beginImmediate
    assertTerminalTrust cfg
    runBody cfg body

/-! Operations of more than one transaction, or with handlers of their own -/

/-- The `try` block of `_apply_whop_event`. -/
def whopTry (cfg : Config) (clk : Nat → Time) (ev : InboxEvent) : Py InboxState := do
  let r := applyWhopBusinessLocked cfg clk ev (← current)
  setCurrent r.1
  ofExcept r.2
  statement (whopApplied cfg clk ev)
  commitTrusted cfg
  return .applied

/-- Its `except Exception` block. -/
def whopExcept (cfg : Config) (clk : Nat → Time) (ev : InboxEvent) (maxAttempts : Int) (error : Err) :
    Py InboxState := do
  statement (whopFailed cfg clk ev maxAttempts error)
  commitTrusted cfg
  return failedInboxState ev maxAttempts

/-- `_apply_whop_event`. The handler catches what `_commit_trusted` raises too, and
then runs on a connection whose transaction is gone. -/
def applyWhopEvent (cfg : Config) (clk : Nat → Time) (eventId : String) (maxAttempts : Int) :
    Py InboxState :=
  withDb do
    beginImmediate
    assertTerminalTrust cfg
    match (← current).inbox.get eventId with
    | none => throw (.key "Whop event")
    | some ev =>
      if ev.state ≠ .received then return ev.state
      else Prog.tryCatch (whopTry cfg clk ev) (whopExcept cfg clk ev maxAttempts)

def receiveWhopEvent (cfg : Config) (clk clk' : Nat → Time) (ev : WhopEvent) (rawDigest : String)
    (maxAttempts : Int) : Py InboxState := do
  transaction cfg (storeWhopEvent cfg clk ev rawDigest maxAttempts)
  applyWhopEvent cfg clk' ev.eventId maxAttempts

/-- `fail_outbox`: a row copy that has crossed is requeued for readback, and that
requeue's RuntimeErrors end the operation quietly. -/
def failOutbox (cfg : Config) (clk : Nat → Time) (row : Entitlement) (worker : String) (error : Err)
    (maxAttempts : Nat) : Py Unit :=
  withDb do
    beginImmediate
    assertTerminalTrust cfg
    if row.phase = .crossingAuthorized ∨ row.phase = .readbackOnly then
      Prog.tryCatch (runBody cfg (requeueReconciliationFailure cfg clk row worker error maxAttempts))
        (fun e => if e.cls = .runtime then pure () else throw e)
    else runBody cfg (failUncrossed cfg clk row worker error maxAttempts)

/-- `reconcile_intent`; `reconcile` is the reconciler's answer, `none` when it lacks a field. -/
def reconcileIntent (cfg : Config) (clk clk' : Nat → Time) (iid : String)
    (reconcile : Intent → Option ReconcilerEvidence) (adminActor : String) : Py Unit := do
  match ← transaction cfg (fun l => .leave (l.intents.get iid)) with
  | none => throw (.value "intent not reconcilable")
  | some i =>
    if ¬ (i.state = .prepared ∨ i.state = .ambiguous) then throw (.value "intent not reconcilable")
    else match reconcile i with
      | none => throw (.value "reconciliation evidence binding")
      | some ev =>
        if ev.proofHash ≠ i.proofHash ∨ ev.nonceHash ≠ i.nonceHash ∨ ev.orderId ≠ i.orderId then
          throw (.value "reconciliation evidence binding")
        else if ev.outcome = some .paid then do
          let _ ← transaction cfg (recordSettlementResult cfg clk iid
            ⟨ev.txHash, ev.evidenceHash, ev.source, ev.finalityAt, some ev.payer, ev.finalityBasis⟩ adminActor)
          let _ ← transaction cfg (finalizeX402Intent cfg clk' iid)
        else if ev.outcome ≠ some .unpaid ∨ ev.txHash.isSome ∨
            ev.finalityAt.any (fun t => decide (clk 0 < t)) then
          throw (.value "final unpaid evidence required")
        else do
          let _ ← transaction cfg (cancelUnpaid cfg clk' iid ev adminActor)

/-- `finalize_x402_intent` of each, under clocks of their own. -/
def finalizeAll (cfg : Config) (clks : Nat → Nat → Time) : List String → Py Unit
  | [] => pure ()
  | iid :: rest => do
    let _ ← transaction cfg (finalizeX402Intent cfg (clks rest.length) iid)
    finalizeAll cfg clks rest

def settledIds (l : Ledger) : List String :=
  ((l.intents.rows.filter (fun i => decide (i.state = .settled))).mergeSort
    (fun a b => decide (a.createdAt ≤ b.createdAt))).map (fun i => i.intentId)

/-- `recover_durable_settlements`: finalize every settled intent, oldest first. -/
def recoverDurableSettlements (cfg : Config) (clks : Nat → Nat → Time) : Py Unit := do
  finalizeAll cfg clks (settledIds (← current))

/-! Delivery of one claimed entitlement -/

/-- What the Authority answers to a read of an acknowledgement. -/
inductive Readback where
  | raised
  | malformed
  | ack (a : EntitlementAck)
  deriving DecidableEq, Repr

/-- The Authority's answers at one point of a delivery; `none` is a handshake that
raised. -/
structure Answer where
  handshake : Option Identity
  again : Option Identity
  readback : Readback

/-- `_verify_authority_handshake` -/
def verifyHandshake (cfg : Config) : Option Identity → Except Err Unit
  | none => .error (.runtime "authority_identity_unavailable")
  | some i => if i = cfg.identity then .ok () else .error (.runtime "authority_identity_mismatch")

/-- Where a run of `deliver_claimed_outbox` stands, between two of its transactions
or remote calls. -/
inductive Pc where
  | start
  | checked
  | handshaken
  | prepared
  /-- about to compare the pinned identity and, unless readback_only, to call
  `create_external_entitlement` -/
  | crossing
  | called
  | rechecked
  | unread
  | read (a : EntitlementAck)
  | verified (a : EntitlementAck)
  | done (r : Except Err EntitlementAck)

/-- A run of `deliver_claimed_outbox`: its worker, its own copy of the row, and where
it stands. -/
structure Delivery where
  worker : String
  row : Entitlement
  pc : Pc

/-- Run a transaction of the delivery; its exception ends the delivery. -/
def Delivery.attempt {α : Type} (d : Delivery) (p : Py α) (next : α → Delivery) : Py Delivery := fun w =>
  match p w with
  | (.ok a, w) => (.ok (next a), w)
  | (.error e, w) => (.ok { d with pc := .done (.error e) }, w)

def Delivery.after (d : Delivery) (r : Except Err Unit) (pc : Pc) : Delivery :=
  match r with
  | .ok () => { d with pc := pc }
  | .error e => { d with pc := .done (.error e) }

/-- The delivery is about to call `create_external_entitlement`. -/
def Delivery.creates (cfg : Config) (d : Delivery) : Bool :=
  match d.pc with
  | .crossing => decide (d.row.identity = some cfg.identity) && decide (d.row.phase ≠ .readbackOnly)
  | _ => false

def reconciliationPending : Err := .runtime "authority_reconciliation_pending"

/-- A requeue lost to a refund that kept the crossing for readback is told from any
other loss. -/
def explainLost (l : Ledger) (oid : String) (lost : Err) : Err :=
  match l.entitlements.get oid, orderState l oid with
  | some e, some .refunded =>
    if lost.cls = .runtime ∧ e.state = .quarantined ∧ e.phase = .readbackOnly then reconciliationPending
    else lost
  | _, _ => lost

/-- The failed readback of a delivery: requeue it; the delivery ends with an exception
either way. -/
def requeueUnread (cfg : Config) (clk : Nat → Time) (d : Delivery) : Py EntitlementAck := do
  Prog.tryCatch
    (transaction cfg (requeueReconciliationFailure cfg clk d.row d.worker
      (.runtime "authority_operation_unavailable") 8))
    (fun lost => do throw (explainLost (← current) d.row.payload.orderId lost))
  throw reconciliationPending

/-- What the delivery makes of an acknowledgement: two more handshakes and the checks. -/
def verifyAcknowledgement (cfg : Config) (ans : Answer) (d : Delivery) (a : EntitlementAck) : Except Err Unit := do
  verifyHandshake cfg ans.handshake
  verifyHandshake cfg ans.again
  let _ ← validateEntitlementAck cfg a d.row.payload cfg.identity (payloadDigest cfg d.row.payload)

/-- One step of `deliver_claimed_outbox`. -/
def deliverStep (cfg : Config) (clk : Nat → Time) (ans : Answer) (d : Delivery) : Py Delivery :=
  match d.pc with
  | .start =>
    d.attempt (transaction cfg (revalidateLease d.row d.worker)) (fun _ => { d with pc := .checked })
  | .checked =>
    pure (d.after (verifyHandshake cfg ans.handshake)
      (if d.row.phase = .readbackOnly then .crossing else .handshaken))
  | .handshaken =>
    d.attempt (transaction cfg (prepareCrossing d.row d.worker)) (fun _ => { d with pc := .prepared })
  | .prepared =>
    d.attempt (transaction cfg (authorizeCrossing d.row d.worker))
      (fun _ => { d with row := { d.row with phase := .crossingAuthorized }, pc := .crossing })
  | .crossing =>
    -- the call itself cannot raise: its exceptions are dropped and the readback decides
    pure (d.after (if d.row.identity = some cfg.identity then .ok ()
      else .error (.runtime "authority_identity_mismatch")) .called)
  | .called => pure (d.after (verifyHandshake cfg ans.handshake) .rechecked)
  | .rechecked =>
    match ans.readback with
    | .raised => pure { d with pc := .unread }
    | .malformed => pure { d with pc := .done (.error ackInvalid) }
    | .ack a => pure { d with pc := .read a }
  | .unread => d.attempt (requeueUnread cfg clk d) (fun a => { d with pc := .done (.ok a) })
  | .read a =>
    match verifyAcknowledgement cfg ans d a with
    | .ok () => pure { d with pc := .verified a }
    | .error _ => pure { d with pc := .done (.error ackInvalid) }
  | .verified a =>
    d.attempt (transaction cfg (commitDelivery cfg clk d.row d.worker a))
      (fun a => { d with pc := .done (.ok a) })
  | .done _ => pure d

/-- A delivery run to its end by itself; ten steps are enough (`deliver_ends`). -/
def deliverLoop (cfg : Config) (clk : Nat → Nat → Time) (ans : Nat → Answer) : Nat → Delivery → Py Delivery
  | 0, d => pure d
  | n + 1, d => do
    let d ← deliverStep cfg (clk n) (ans n) d
    deliverLoop cfg clk ans n d

def deliverClaimedOutbox (cfg : Config) (clk : Nat → Nat → Time) (ans : Nat → Answer) (row : Entitlement)
    (worker : String) : Py EntitlementAck := do
  let d ← deliverLoop cfg clk ans 10 ⟨worker, row, .start⟩
  match d.pc with
  | .done r => ofExcept r
  | _ => throw (.runtime "")

/-- `claim_outbox`: the row is read back after the commit. -/
def claimOutboxRow (cfg : Config) (clk : Nat → Time) (worker : String) (leaseSeconds : Int)
    (orderId : Option String) : Py (Option Entitlement) := do
  match ← transaction cfg (claimOutbox clk worker leaseSeconds orderId) with
  | none => return none
  | some oid => return (← current).entitlements.get oid

/-- `deliver_entitlement`; without a claim, a delivered row is revalidated (the source
polls for it). -/
def deliverEntitlement (cfg : Config) (clk clk' : Nat → Time) (clks : Nat → Nat → Time)
    (ans : Nat → Answer) (worker oid : String) : Py EntitlementAck := do
  match ← claimOutboxRow cfg clk worker 30 (some oid) with
  | none =>
    match (← current).entitlements.get oid with
    | none => throw (.value "entitlement unavailable")
    | some e =>
      if e.state ≠ .delivered then throw (.value "entitlement unavailable")
      else match e.identity with
        | none => throw (.runtime "legacy_identity_unproven")
        | some stored =>
          if e.identityStatus ≠ .verified then throw (.runtime "legacy_identity_unproven")
          else if stored ≠ cfg.identity then throw (.runtime "authority_identity_mismatch")
          else ofExcept (validateEntitlementAck cfg
            ⟨e.payload.source, e.payload.sourceId, payloadDigest cfg e.payload, e.licenseId.getD "",
              stored.authorityId, stored, e.deliveryReceipt.getD "", e.ackSignature.getD ""⟩
            e.payload stored (payloadDigest cfg e.payload))
  | some row =>
    Prog.tryCatch (deliverClaimedOutbox cfg clks ans row worker)
      (fun error =>
        if error.msg = "authority_reconciliation_pending" ∨ error.msg = "authority_reconciliation_state_lost" then
          throw error
        else do
          failOutbox cfg clk' row worker error 8
          throw error)

/-! Delivery of one claimed revocation -/

structure RevocationAnswers where
  handshake : Option Identity
  response : Option RevocationAck
  again : Option Identity
  readback : Option RevocationAck
  last : Option Identity

/-- The members of an answer the service compares with what the acknowledgement says. -/
def RevocationAck.response (a : RevocationAck) : String × Time × String × String × Identity × String :=
  (a.licenseId, a.revokedAt, a.revocationReceipt, a.authorityId, a.signerIdentity, a.ackSignature)

def deliverClaimedRevocation (cfg : Config) (clk : Nat → Time) (ans : RevocationAnswers)
    (row : Revocation) (worker : String) : Py RevocationAck := do
  ofExcept (verifyHandshake cfg ans.handshake)
  if row.identity ≠ some cfg.identity ∨ row.payload.authorityId ≠ cfg.identity.authorityId then
    throw (.runtime "authority_identity_mismatch")
  match ans.response with
  | none => throw (.runtime "authority_operation_unavailable")
  | some response => do
    ofExcept (verifyHandshake cfg ans.again)
    match ans.readback with
    | none => throw (.runtime "authority_operation_unavailable")
    | some ack => do
      ofExcept (verifyHandshake cfg ans.last)
      let receipt ← ofExcept (validateRevocationAck cfg ack row.payload cfg.identity)
      if response.response ≠ receipt.response then throw ackInvalid
      transaction cfg (commitRevocation cfg clk row worker receipt)

def claimRevocationRow (cfg : Config) (clk : Nat → Time) (worker : String) (leaseSeconds : Int)
    (orderId : Option String) : Py (Option Revocation) := do
  match ← transaction cfg (claimRevocation clk worker leaseSeconds orderId) with
  | none => return none
  | some eid => return (← current).revocations.get eid

def deliverRevocation (cfg : Config) (clk clk' clk'' : Nat → Time) (ans : RevocationAnswers)
    (worker oid : String) : Py RevocationAck := do
  match ← claimRevocationRow cfg clk worker 30 (some oid) with
  | none =>
    match (revocationOfOrder (← current) oid).filter (fun r => decide (r.state = .delivered)) with
    | none => throw (.value "revocation unavailable")
    | some r =>
      match r.identity, r.authorityRevokedAt with
      | some stored, some revokedAt =>
        if r.identityStatus ≠ .verified then throw (.runtime "legacy_identity_unproven")
        else if stored ≠ cfg.identity then throw (.runtime "authority_identity_mismatch")
        else ofExcept (validateRevocationAck cfg
          { source := r.payload.source, sourceId := r.payload.sourceId,
            payloadDigest := r.payload.entitlementPayloadDigest, licenseId := r.payload.licenseId,
            action := r.payload.action, reason := r.payload.reason, paymentProof := r.payload.proofHash,
            txHash := r.payload.txHash, createdAt := r.payload.createdAt, revokedAt,
            requestDigest := r.authorityRequestDigest.getD "", revocationReceipt := r.authorityReceipt.getD "",
            authorityId := r.payload.authorityId, signerIdentity := stored,
            ackSignature := r.ackSignature.getD "" } r.payload stored)
      | _, _ => throw (.runtime "legacy_identity_unproven")
  | some row =>
    Prog.tryCatch (deliverClaimedRevocation cfg clk' ans row worker)
      (fun error => do
        transaction cfg (failRevocation cfg clk'' row worker error 8)
        throw error)

end GrowthMap.Payments
