import Mathlib.Algebra.Group.Int.Defs
import Mathlib.Data.List.MinMax
import GrowthMap.Payments.Settlement

/- The two outboxes: the transaction bodies of `claim_outbox`,
   `deliver_claimed_outbox`, `_requeue_reconciliation_failure`, `fail_outbox` and
   their revocation counterparts, and the acknowledgements they accept.

   A worker holds a copy of the row it claimed. `holds` is the test every write
   of a worker makes against the stored row: leased, to this owner, under this
   fencing version. What a worker does between two transactions (handshakes and
   calls to the Authority) is not here. -/
namespace GrowthMap.Payments

open Relational Transaction

def orderState (l : Ledger) (oid : String) : Option OrderState :=
  (l.orders.get oid).map (fun o => o.state)

/-- `state='leased' AND lease_owner=? AND fencing_version=?` -/
def Entitlement.holds (e : Entitlement) (worker : String) (fence : Nat) : Bool :=
  decide (e.state = .leased ∧ e.leaseOwner = some worker ∧ e.fencingVersion = fence)

def Revocation.holds (r : Revocation) (worker : String) (fence : Nat) : Bool :=
  decide (r.state = .leased ∧ r.leaseOwner = some worker ∧ r.fencingVersion = fence)

/-- `next_attempt_at IS NULL OR next_attempt_at<=now` -/
def due (now : Time) : Option Time → Bool
  | none => true
  | some t => decide (t ≤ now)

/-- `lease_expires_at<=now`, false of NULL. -/
def expiredBy (now : Time) : Option Time → Bool
  | none => false
  | some t => decide (t ≤ now)

/-- `type(error).__name__+":"+str(error)` -/
def Err.text (e : Err) : String :=
  (match e.cls with
    | .value => "ValueError" | .key => "KeyError" | .runtime => "RuntimeError"
    | .integrity => "IntegrityError" | .operational => "OperationalError" | .os => "OSError"
    | .typeError => "TypeError" | .stopIteration => "StopIteration") ++ ":" ++ e.msg

/-- `min(3600,2**min(attempts,10))` seconds -/
def backoff (attempts : Nat) : Time := seconds (min 3600 (2 ^ min attempts 10))

/-! claim_outbox -/

/-- The three-way eligibility of `claim_outbox`. -/
def claimable (now : Time) (o : OrderState) (e : Entitlement) : Bool :=
  let recoverable := decide (o = .paymentConfirmed ∨ o = .refunded) ||
    decide (o = .revoked ∧ e.phase = .readbackOnly)
  (decide (o = .paymentConfirmed ∧ e.state = .pending) && due now e.nextAttemptAt) ||
  (decide (e.state = .leased) && expiredBy now e.leaseExpiresAt && recoverable) ||
  (decide (e.phase = .crossingAuthorized ∨ e.phase = .readbackOnly) &&
    decide (e.state = .quarantined) && due now e.nextAttemptAt && recoverable)

def claimWhere (now : Time) (orderId : Option String) (l : Ledger) (e : Entitlement) : Bool :=
  (match orderState l e.payload.orderId with
    | some o => claimable now o e
    | none => false) &&
  (match orderId with
    | some oid => decide (e.payload.orderId = oid)
    | none => true)

def Entitlement.resetPrepared (now : Time) (e : Entitlement) : Entitlement :=
  { e with state := .quarantined, phase := .none, leaseOwner := none, leaseExpiresAt := none,
           fencingVersion := e.fencingVersion + 1, nextAttemptAt := some now }

variable {now : Time}

@[simp] theorem Entitlement.resetPrepared_orderId (e : Entitlement) :
    (Entitlement.resetPrepared now e).payload.orderId = e.payload.orderId := rfl

/-- The claim itself: a new owner under the next fence; a crossing that may have
happened is only read back from here on. -/
def Entitlement.leaseTo (worker : String) (expires : Time) (e : Entitlement) : Entitlement :=
  { e with state := .leased, leaseOwner := some worker, leaseExpiresAt := some expires,
           attemptCount := e.attemptCount + 1, fencingVersion := e.fencingVersion + 1,
           phase := if e.phase = .crossingAuthorized ∨ e.phase = .readbackOnly then .readbackOnly else e.phase }

variable {worker errorHash : String} {expires : Time} {maxAttempts : Nat}

@[simp] theorem Entitlement.leaseTo_orderId (e : Entitlement) :
    (Entitlement.leaseTo worker expires e).payload.orderId = e.payload.orderId := rfl

def leaseEntitlement (worker : String) (expires : Time) (oid : String) (l : Ledger) :
    Verdict Ledger Err (Option String) :=
  orRaise (updateEntitlement oid (Entitlement.leaseTo worker expires) Entitlement.leaseTo_orderId l) fun l =>
  .commit l (some oid)

def oldest {R : Type} (createdAt : R → Time) (rows : List R) : Option R :=
  @List.argmin R Time Int.instLinearOrder.toPreorder Int.decLt createdAt rows

theorem oldest_mem {R : Type} {createdAt : R → Time} {rows : List R} {r : R} (h : oldest createdAt rows = some r) : r ∈ rows :=
  @List.argmin_mem R Time Int.instLinearOrder.toPreorder Int.decLt createdAt rows r h

theorem oldest_eq_none {R : Type} {createdAt : R → Time} {rows : List R} : oldest createdAt rows = none ↔ rows = [] :=
  @List.argmin_eq_none R Time Int.instLinearOrder.toPreorder Int.decLt createdAt rows

/-- `claim_outbox` up to its commit; it returns the order id under which the row is
read back after it. -/
def claimOutbox (clk : Nat → Time) (worker : String) (leaseSeconds : Int)
    (orderId : Option String) : Body (Option String) := fun l =>
  let now := clk 0
  let expires := now + seconds leaseSeconds
  match oldest (fun e => e.createdAt) (l.entitlements.rows.filter (claimWhere now orderId l)) with
  | none => .leave none
  | some row =>
    let oid := row.payload.orderId
    if row.state = .leased ∧ row.phase = .crossingPrepared then
      if row.licenseId.isSome ∨ row.deliveryReceipt.isSome ∨ row.ackSignature.isSome then
        .raise (.runtime "prepared recovery evidence contradiction")
      else if row.identityStatus ≠ .verified then .raise (.runtime "prepared recovery lost")
      else
        orRaise (updateEntitlement oid (Entitlement.resetPrepared now) Entitlement.resetPrepared_orderId l) fun l =>
        if orderState l oid = some .refunded then .commit l none
        else if orderState l oid ≠ some .paymentConfirmed then
          .raise (.runtime "prepared recovery order state invalid")
        else leaseEntitlement worker expires oid l
    else leaseEntitlement worker expires oid l

/-! deliver_claimed_outbox: its transactions -/

/-- The first transaction: fence and local policy before anything crosses. -/
def revalidateLease (row : Entitlement) (worker : String) : Body Unit := fun l =>
  match l.entitlements.get row.payload.orderId, orderState l row.payload.orderId with
  | some fresh, some o =>
    if !fresh.holds worker row.fencingVersion ||
        !decide (o = .paymentConfirmed ∨ o = .refunded ∨ o = .revoked) ||
        (decide (o = .refunded ∨ o = .revoked) && decide (row.phase ≠ .readbackOnly)) then
      .raise (.runtime "outbox lease lost")
    else .leave ()
  | _, _ => .raise (.runtime "outbox lease lost")

def Entitlement.withPhase (phase : Phase) (e : Entitlement) : Entitlement := { e with phase := phase }

@[simp] theorem Entitlement.withPhase_orderId {phase : Phase} (e : Entitlement) :
    (Entitlement.withPhase phase e).payload.orderId = e.payload.orderId := rfl

/-- none → crossing_prepared under the worker's fence. -/
def prepareCrossing (row : Entitlement) (worker : String) : Body Unit := fun l =>
  match l.entitlements.get row.payload.orderId with
  | none => .raise (.runtime "outbox lease lost")
  | some fresh =>
    if !fresh.holds worker row.fencingVersion || decide (fresh.phase ≠ .none) then
      .raise (.runtime "outbox lease lost")
    else
      orRaise (updateEntitlement row.payload.orderId (Entitlement.withPhase .crossingPrepared)
        Entitlement.withPhase_orderId l) fun l => .commit l ()

/-- crossing_prepared → crossing_authorized, only while the order is confirmed. -/
def authorizeCrossing (row : Entitlement) (worker : String) : Body Unit := fun l =>
  match l.entitlements.get row.payload.orderId with
  | none => .raise (.runtime "outbox crossing authorization lost")
  | some fresh =>
    if !fresh.holds worker row.fencingVersion || decide (fresh.phase ≠ .crossingPrepared) ||
        decide (orderState l row.payload.orderId ≠ some .paymentConfirmed) then
      .raise (.runtime "outbox crossing authorization lost")
    else
      orRaise (updateEntitlement row.payload.orderId (Entitlement.withPhase .crossingAuthorized)
        Entitlement.withPhase_orderId l) fun l => .commit l ()

/-- The UPDATE that requeues a crossing for readback, or hands it to an operator. -/
def Entitlement.requeue (errorHash : String) (now : Time) (maxAttempts : Nat) (e : Entitlement) : Entitlement :=
  { e with state := .quarantined,
           phase := if maxAttempts ≤ e.attemptCount then .manualReview else .readbackOnly,
           leaseOwner := none, leaseExpiresAt := none,
           nextAttemptAt := some (now + backoff e.attemptCount), lastErrorHash := some errorHash }

@[simp] theorem Entitlement.requeue_orderId (e : Entitlement) :
    (Entitlement.requeue errorHash now maxAttempts e).payload.orderId = e.payload.orderId := rfl

/-- `_requeue_reconciliation_failure` -/
def requeueReconciliationFailure (cfg : Config) (clk : Nat → Time) (row : Entitlement)
    (worker : String) (error : Err) (maxAttempts : Nat) : Body Unit := fun l =>
  let lost := Verdict.raise (.runtime "authority_reconciliation_state_lost")
  if ¬ (row.phase = .crossingAuthorized ∨ row.phase = .readbackOnly) then lost
  else match l.entitlements.get row.payload.orderId with
    | none => lost
    | some fresh =>
      if !fresh.holds worker row.fencingVersion ||
          decide (¬ (fresh.phase = row.phase ∨ fresh.phase = .readbackOnly)) then lost
      else
        orRaise (updateEntitlement row.payload.orderId
          (Entitlement.requeue (cfg.sha256 (.text error.text)) (clk 0) maxAttempts) Entitlement.requeue_orderId l) fun l =>
        .commit l ()

/-- The UPDATE of a failure before the crossing. -/
def Entitlement.fail (errorHash : String) (now : Time) (maxAttempts : Nat) (e : Entitlement) : Entitlement :=
  { e with state := if maxAttempts ≤ e.attemptCount then .quarantined else .pending,
           leaseOwner := none, leaseExpiresAt := none,
           nextAttemptAt := some (now + backoff e.attemptCount), lastErrorHash := some errorHash }

@[simp] theorem Entitlement.fail_orderId (e : Entitlement) :
    (Entitlement.fail errorHash now maxAttempts e).payload.orderId = e.payload.orderId := rfl

/-- `fail_outbox` for a row copy that has not crossed; the other copies take
`_requeue_reconciliation_failure`. -/
def failUncrossed (cfg : Config) (clk : Nat → Time) (row : Entitlement) (worker : String)
    (error : Err) (maxAttempts : Nat) : Body Unit := fun l =>
  match l.entitlements.get row.payload.orderId with
  | none => .leave ()
  | some fresh =>
    if !fresh.holds worker row.fencingVersion then .leave ()
    else
      orRaise (updateEntitlement row.payload.orderId
        (Entitlement.fail (cfg.sha256 (.text error.text)) (clk 0) maxAttempts) Entitlement.fail_orderId l) fun l =>
      .commit l ()

/-! Acknowledgements -/

/-- `_outbox_payload_digest` -/
def payloadDigest (cfg : Config) (p : EntitlementPayload) : String :=
  cfg.sha256 (.obj "" [("order_id", .str p.orderId), ("source", .str p.source),
    ("source_id", .str p.sourceId), ("proof_hash", .str p.proofHash), ("tx_hash", .str p.txHash),
    ("evidence_hash", .str p.evidenceHash), ("payer", .str p.payer), ("network", .str p.network),
    ("asset", .str p.asset), ("amount_minor", .int p.amountMinor), ("product", .str p.product),
    ("major_version", .int p.majorVersion)])

structure EntitlementAck where
  source : String
  sourceId : String
  payloadDigest : String
  licenseId : String
  authorityId : String
  signerIdentity : Identity
  deliveryReceipt : String
  ackSignature : String
  deriving DecidableEq, Repr

def ackInvalid : Err := .runtime "authority_acknowledgement_invalid"

/-- `_validate_entitlement_ack` -/
def validateEntitlementAck (cfg : Config) (a : EntitlementAck) (p : EntitlementPayload)
    (identity : Identity) (digest : String) : Except Err EntitlementAck :=
  if a.signerIdentity ≠ identity ∨ a.authorityId ≠ identity.authorityId ∨ a.source ≠ p.source ∨
      a.sourceId ≠ p.sourceId ∨ a.payloadDigest ≠ digest ∨
      matchesFixed "gm_" 32 isLowerHex a.licenseId = false ∨
      matchesFixed "" 64 isLowerHex a.deliveryReceipt = false then .error ackInvalid
  else if a.deliveryReceipt ≠ cfg.sha256 (.obj "" [("license_id", .str a.licenseId),
      ("payload_digest", .str digest), ("signer_identity", .identity identity),
      ("source", .str p.source), ("source_id", .str p.sourceId)]) then .error ackInvalid
  else if cfg.verifyAck .entitlement (.obj "" [("authority_id", .str a.authorityId),
      ("delivery_receipt", .str a.deliveryReceipt), ("license_id", .str a.licenseId),
      ("payload_digest", .str a.payloadDigest), ("signer_identity", .identity a.signerIdentity),
      ("source", .str a.source), ("source_id", .str a.sourceId)]) a.ackSignature = false then
    .error ackInvalid
  else .ok a

/-! _enqueue_revocation -/

def ReversalAction.text : ReversalAction → String
  | .refund => "refund"
  | .revoke => "revoke"

def revocationEventId (cfg : Config) (p : EntitlementPayload) (licenseId : String)
    (action : ReversalAction) : String :=
  "gmr_" ++ cfg.sha256 (.obj "" [("action", .str action.text),
    ("authority_id", .str cfg.identity.authorityId), ("license_id", .str licenseId),
    ("order_id", .str p.orderId), ("payload_digest", .str (payloadDigest cfg p)),
    ("source", .str p.source), ("source_id", .str p.sourceId)])

/-- The row `_enqueue_revocation` inserts. -/
def newRevocation (cfg : Config) (p : EntitlementPayload) (licenseId : String) (action : ReversalAction)
    (reason : String) (createdAt : Time) : Revocation :=
  { payload := { eventId := revocationEventId cfg p licenseId action, orderId := p.orderId,
                 authorityId := cfg.identity.authorityId, source := p.source,
                 sourceId := p.sourceId, entitlementPayloadDigest := payloadDigest cfg p,
                 licenseId, action, reason, proofHash := p.proofHash, txHash := p.txHash,
                 evidenceHash := p.evidenceHash, createdAt },
    state := .pending, leaseOwner := none, leaseExpiresAt := none, attemptCount := 0,
    nextAttemptAt := some createdAt, lastErrorHash := none, fencingVersion := 0,
    deliveredAt := none, authorityReceipt := none, identity := some cfg.identity,
    identityStatus := .verified, ackSignature := none, authorityRevokedAt := none,
    authorityRequestDigest := none }

/-- `_enqueue_revocation`: INSERT OR IGNORE, then read the order's row back. -/
def enqueueRevocation (cfg : Config) (serviceNow : Time) (p : EntitlementPayload)
    (licenseId : String) (action : ReversalAction) (reason : String) (createdAt : Time)
    (l : Ledger) : Except Err (Ledger × Revocation) :=
  if createdAt < serviceNow - seconds 300 ∨ serviceNow + seconds 300 < createdAt then
    .error (.value "invalid revocation event time")
  else
    match insertRevocationOrIgnore (newRevocation cfg p licenseId action reason createdAt) l with
    | .error e => .error e
    | .ok l =>
      match revocationOfOrder l p.orderId with
      | none => .error (.typeError "'NoneType' object is not iterable")
      | some r => .ok (l, r)

/-! deliver_claimed_outbox: its last transaction -/

/-- `state='delivered'` with the verified acknowledgement, lease cleared. -/
def Entitlement.deliver (a : EntitlementAck) (now : Time) (e : Entitlement) : Entitlement :=
  { e with state := .delivered, licenseId := some a.licenseId, deliveredAt := some now,
           deliveryReceipt := some a.deliveryReceipt, ackSignature := some a.ackSignature,
           leaseOwner := none, leaseExpiresAt := none }

@[simp] theorem Entitlement.deliver_orderId {a : EntitlementAck} (e : Entitlement) :
    (Entitlement.deliver a now e).payload.orderId = e.payload.orderId := rfl

/-- `state='license_issued'` with the delivered license. -/
def Order.issue (licenseId : String) (now : Time) (o : Order) : Order :=
  { o with state := .licenseIssued, licenseId := some licenseId, updatedAt := now }

@[simp] theorem Order.issue_id {licenseId : String} (o : Order) :
    (Order.issue licenseId now o).id = o.id := rfl

/-- A license delivered for a reversed order is revoked in the same transaction. -/
def compensate (cfg : Config) (clk : Nat → Time) (p : EntitlementPayload) (a : EntitlementAck)
    (action : ReversalAction) (reason operation : String) (data : List (String × Value))
    (l : Ledger) : Verdict Ledger Err EntitlementAck :=
  match enqueueRevocation cfg (clk 1) p a.licenseId action reason (clk 0) l with
  | .error e => .raise e
  | .ok (l, _) => .commit (audit cfg (clk 2) "issuer" operation p.orderId data l) a

def commitDelivery (cfg : Config) (clk : Nat → Time) (row : Entitlement) (worker : String)
    (a : EntitlementAck) : Body EntitlementAck := fun l =>
  let oid := row.payload.orderId
  let now := clk 0
  let licensed : List (String × Value) := [("license_id", .str a.licenseId)]
  match l.entitlements.get oid with
  | none => .raise (.typeError "'NoneType' object is not subscriptable")
  | some fresh =>
    if !fresh.holds worker row.fencingVersion then
      -- a stale worker records what it verified only where it compensates a reversal
      if decide (orderState l oid = some .refunded ∨ orderState l oid = some .revoked) &&
          decide (fresh.state ≠ .delivered) then
        let action := if orderState l oid = some .refunded then ReversalAction.refund else .revoke
        let reason := if orderState l oid = some .refunded then "refund" else "chargeback"
        orRaise (updateEntitlement oid (Entitlement.deliver a now) Entitlement.deliver_orderId l) fun l =>
        compensate cfg clk fresh.payload a action reason "entitlement.compensating_revocation"
          (licensed ++ [("action", .str action.text), ("reason", .str reason)]) l
      else .raise (.runtime "outbox lease lost")
    else
      orRaise (updateEntitlement oid (Entitlement.deliver a now) Entitlement.deliver_orderId l) fun l =>
      match orderState l oid with
      | some .paymentConfirmed =>
        orRaise (updateOrder oid (Order.issue a.licenseId now) Order.issue_id l) fun l =>
        .commit (audit cfg (clk 1) "issuer" "entitlement.delivered" oid licensed l) a
      | some .refunded =>
        compensate cfg clk row.payload a .refund "refund" "entitlement.delivered_after_refund" licensed l
      | some .revoked =>
        compensate cfg clk row.payload a .revoke "chargeback" "entitlement.delivered_after_chargeback" licensed l
      | _ => .raise (.runtime "outbox lease lost")

/-! The revocation outbox -/

def revocationWhere (now : Time) (orderId : Option String) (r : Revocation) : Bool :=
  ((decide (r.state = .pending) && due now r.nextAttemptAt) ||
    (decide (r.state = .leased) && expiredBy now r.leaseExpiresAt)) &&
  (match orderId with
    | some oid => decide (r.payload.orderId = oid)
    | none => true)

def Revocation.leaseTo (worker : String) (expires : Time) (r : Revocation) : Revocation :=
  { r with state := .leased, leaseOwner := some worker, leaseExpiresAt := some expires,
           attemptCount := r.attemptCount + 1, fencingVersion := r.fencingVersion + 1 }

@[simp] theorem Revocation.leaseTo_eventId (r : Revocation) :
    (Revocation.leaseTo worker expires r).payload.eventId = r.payload.eventId := rfl

/-- `claim_revocation` up to its commit. -/
def claimRevocation (clk : Nat → Time) (worker : String) (leaseSeconds : Int)
    (orderId : Option String) : Body (Option String) := fun l =>
  match oldest (fun r => r.payload.createdAt)
      (l.revocations.rows.filter (revocationWhere (clk 0) orderId)) with
  | none => .leave none
  | some row =>
    orRaise (updateRevocation row.payload.eventId
      (Revocation.leaseTo worker (clk 0 + seconds leaseSeconds)) Revocation.leaseTo_eventId l) fun l =>
    .commit l (some row.payload.eventId)

structure RevocationAck where
  source : String
  sourceId : String
  payloadDigest : String
  licenseId : String
  action : ReversalAction
  reason : String
  paymentProof : String
  txHash : String
  createdAt : Time
  revokedAt : Time
  requestDigest : String
  revocationReceipt : String
  authorityId : String
  signerIdentity : Identity
  ackSignature : String
  deriving DecidableEq, Repr

def revocationRequestDigest (cfg : Config) (p : RevocationPayload) (identity : Identity) : String :=
  cfg.sha256 (.obj "" [("action", .str p.action.text), ("created_at", .time p.createdAt),
    ("license_id", .str p.licenseId), ("payload_digest", .str p.entitlementPayloadDigest),
    ("payment_proof", .str p.proofHash), ("reason", .str p.reason),
    ("signer_identity", .identity identity), ("source", .str p.source),
    ("source_id", .str p.sourceId), ("tx_hash", .str p.txHash)])

/-- `_validate_revocation_ack`; a `revoked_at` that is an instant is written canonically. -/
def validateRevocationAck (cfg : Config) (a : RevocationAck) (p : RevocationPayload)
    (identity : Identity) : Except Err RevocationAck :=
  if a.signerIdentity ≠ identity ∨ a.authorityId ≠ identity.authorityId ∨ a.source ≠ p.source ∨
      a.sourceId ≠ p.sourceId ∨ a.payloadDigest ≠ p.entitlementPayloadDigest ∨
      a.licenseId ≠ p.licenseId ∨ a.action ≠ p.action ∨ a.reason ≠ p.reason ∨
      a.paymentProof ≠ p.proofHash ∨ a.txHash ≠ p.txHash ∨ a.createdAt ≠ p.createdAt ∨
      matchesFixed "" 64 isLowerHex a.requestDigest = false ∨
      matchesFixed "" 64 isLowerHex a.revocationReceipt = false then .error ackInvalid
  else if a.requestDigest ≠ revocationRequestDigest cfg p identity ∨
      a.revocationReceipt ≠ cfg.sha256 (.obj "" [("authority_id", .str identity.authorityId),
        ("license_id", .str p.licenseId), ("request_digest", .str a.requestDigest),
        ("revoked_at", .time a.revokedAt)]) then .error ackInvalid
  else if cfg.verifyAck .revocation (.obj "" [("authority_id", .str a.authorityId),
      ("license_id", .str a.licenseId), ("request_digest", .str a.requestDigest),
      ("revocation_receipt", .str a.revocationReceipt), ("revoked_at", .time a.revokedAt),
      ("signer_identity", .identity a.signerIdentity), ("source", .str a.source),
      ("source_id", .str a.sourceId)]) a.ackSignature = false then .error ackInvalid
  else .ok a

def Revocation.deliver (a : RevocationAck) (now : Time) (r : Revocation) : Revocation :=
  { r with state := .delivered, deliveredAt := some now, authorityReceipt := some a.revocationReceipt,
           ackSignature := some a.ackSignature, authorityRevokedAt := some a.revokedAt,
           authorityRequestDigest := some a.requestDigest, leaseOwner := none, leaseExpiresAt := none }

@[simp] theorem Revocation.deliver_eventId {a : RevocationAck} (r : Revocation) :
    (Revocation.deliver a now r).payload.eventId = r.payload.eventId := rfl

/-- The last transaction of `deliver_claimed_revocation`, after the acknowledgement
has been verified. -/
def commitRevocation (cfg : Config) (clk : Nat → Time) (row : Revocation) (worker : String)
    (a : RevocationAck) : Body RevocationAck := fun l =>
  match l.revocations.get row.payload.eventId with
  | none => .raise (.runtime "revocation lease lost")
  | some fresh =>
    if !fresh.holds worker row.fencingVersion then .raise (.runtime "revocation lease lost")
    else
      orRaise (updateRevocation row.payload.eventId (Revocation.deliver a (clk 0))
        Revocation.deliver_eventId l) fun l =>
      .commit (audit cfg (clk 1) "issuer" "revocation.delivered" row.payload.orderId
        [("license_id", .str row.payload.licenseId), ("receipt", .str a.revocationReceipt)] l) a

def Revocation.fail (errorHash : String) (now : Time) (maxAttempts : Nat) (r : Revocation) : Revocation :=
  { r with state := if maxAttempts ≤ r.attemptCount then .quarantined else .pending,
           leaseOwner := none, leaseExpiresAt := none,
           nextAttemptAt := some (now + backoff r.attemptCount), lastErrorHash := some errorHash }

@[simp] theorem Revocation.fail_eventId (r : Revocation) :
    (Revocation.fail errorHash now maxAttempts r).payload.eventId = r.payload.eventId := rfl

def failRevocation (cfg : Config) (clk : Nat → Time) (row : Revocation) (worker : String)
    (error : Err) (maxAttempts : Nat) : Body Unit := fun l =>
  match l.revocations.get row.payload.eventId with
  | none => .leave ()
  | some fresh =>
    if !fresh.holds worker row.fencingVersion then .leave ()
    else
      orRaise (updateRevocation row.payload.eventId
        (Revocation.fail (cfg.sha256 (.text error.msg)) (clk 0) maxAttempts) Revocation.fail_eventId l) fun l =>
      .commit l ()

end GrowthMap.Payments
