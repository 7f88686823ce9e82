import GrowthMap.Payments.Types
import GrowthMap.Lib.Fallible

/- The statements of the ledger and what the schema refuses.

   One function per table and kind of statement. An INSERT checks the primary
   key, the UNIQUE columns, the foreign key and the BEFORE INSERT triggers; an
   UPDATE of one row checks the BEFORE UPDATE triggers and every UNIQUE column it
   changes. A refusal is SQLite's IntegrityError and leaves the table as it was
   (RAISE(ABORT) undoes the statement). The triggers carry the names the
   migrations give them. -/
namespace GrowthMap.Payments

open Relational

/-- SQL `a != b`: NULL on either side is not true. -/
def sqlNe {α : Type} [DecidableEq α] : Option α → Option α → Bool
  | some a, some b => decide (a ≠ b)
  | _, _ => false

def uniqueFailed : Err := .integrity "UNIQUE constraint failed"
def foreignKeyFailed : Err := .integrity "FOREIGN KEY constraint failed"
def checkFailed : Err := .integrity "CHECK constraint failed"

/-- INSERT with the table's constraints; `bad` is what refuses the row before the
primary key is looked at. -/
def insertChecked {K R : Type} [DecidableEq K] {key : R → K} (t : Table K R key) (r : R)
    (bad : Option Err) : Except Err (Table K R key) :=
  match bad with
  | some e => .error e
  | none =>
    match t.insert r with
    | none => .error uniqueFailed
    | some t' => .ok t'

theorem insertChecked_ok {K R : Type} [DecidableEq K] {key : R → K} {t t' : Table K R key}
    {r : R} {bad : Option Err} (h : insertChecked t r bad = .ok t') :
    bad = none ∧ t.insert r = some t' := by
  unfold insertChecked at h
  split at h
  · cases h
  · split at h
    · cases h
    · cases h
      exact ⟨rfl, ‹_›⟩

def firstBad (checks : List (Bool × Err)) : Option Err :=
  (checks.find? (·.1)).map (·.2)

variable {checks : List (Bool × Err)}

theorem firstBad_none (h : firstBad checks = none) :
    ∀ c ∈ checks, c.1 = false := by
  intro c hc
  have := List.find?_eq_none.mp (Option.map_eq_none_iff.mp h) c hc
  simpa using this

theorem firstBad_eq_none (h : ∀ c ∈ checks, c.1 = false) :
    firstBad checks = none := by
  rw [firstBad, Option.map_eq_none_iff, List.find?_eq_none]
  intro c hc
  simp [h c hc]

/-! orders -/

def insertOrder (o : Order) (l : Ledger) : Except Err Ledger :=
  match insertChecked l.orders o (firstBad
      [(l.orders.taken o.id (fun r => some r.recoveryCodeHash) (some o.recoveryCodeHash), uniqueFailed)]) with
  | .error e => .error e
  | .ok t => .ok { l with orders := t }

def orderRefuses (t : Orders) (k : String) (old new : Order) : Option Err :=
  firstBad
    [(t.clash k (fun r => r.txHash) old new, uniqueFailed),
     (t.clash k (fun r => r.saleOrdinal) old new, uniqueFailed),
     (t.clash k (fun r => r.licenseId) old new, uniqueFailed),
     (decide (new.saleOrdinal = some 0), checkFailed)]

def updateOrder (k : String) (f : Order → Order) (hf : ∀ r, (f r).id = r.id) (l : Ledger) :
    Except Err Ledger :=
  match l.orders.get k with
  | none => .ok l
  | some old =>
    match orderRefuses l.orders k old (f old) with
    | some e => .error e
    | none => .ok { l with orders := l.orders.modify k f hf }

/-! payment_proofs, external_events -/

def insertProof (p : PaymentProof) (l : Ledger) : Except Err Ledger :=
  match insertChecked l.proofs p (firstBad
      [(l.proofs.taken p.proofHash (fun r => r.txHash) p.txHash, uniqueFailed),
       ((l.orders.get p.orderId).isNone, foreignKeyFailed)]) with
  | .error e => .error e
  | .ok t => .ok { l with proofs := t }

def insertExternalEvent (v : ExternalEvent) (l : Ledger) : Except Err Ledger :=
  match insertChecked l.externalEvents v (firstBad
      [((l.orders.get v.orderId).isNone, foreignKeyFailed)]) with
  | .error e => .error e
  | .ok t => .ok { l with externalEvents := t }

/-! settlement_intents -/

/-- `NEW.state IN('settled','finalized_paid','cancelled_unpaid')` -/
def IntentState.terminal : IntentState → Bool
  | .settled | .finalizedPaid | .cancelledUnpaid => true
  | .prepared | .ambiguous => false

/-- `state IN('prepared','settled','ambiguous')`: the intent holds its ordinal. -/
def IntentState.holds : IntentState → Bool
  | .prepared | .settled | .ambiguous => true
  | .finalizedPaid | .cancelledUnpaid => false

/-- The reserved ordinal as `active_intent_ordinal` indexes it. -/
def Intent.activeOrdinal (i : Intent) : Option Nat :=
  if i.state = .cancelledUnpaid then none else some i.reservedOrdinal

def settlementEvidenceRequired (new : Intent) : Bool :=
  new.state.terminal && (new.evidenceHash.isNone || new.evidenceBinding.isNone)

/-- `settlement_terminal_immutable`: a terminal row changes only from settled to
finalized_paid, and then only `state` and `updated_at`. -/
def settlementTerminalImmutable (old new : Intent) : Bool :=
  old.state.terminal &&
    !(decide (old.state = .settled ∧ new.state = .finalizedPaid) &&
      decide ({ new with state := old.state, updatedAt := old.updatedAt } = old))

def insertIntent (i : Intent) (l : Ledger) : Except Err Ledger :=
  match insertChecked l.intents i (firstBad
      [(l.intents.taken i.intentId (fun r => some r.orderId) (some i.orderId), uniqueFailed),
       (l.intents.taken i.intentId (fun r => some r.proofHash) (some i.proofHash), uniqueFailed),
       (l.intents.taken i.intentId (fun r => some r.nonceHash) (some i.nonceHash), uniqueFailed),
       (l.intents.taken i.intentId (fun r => r.txHash) i.txHash, uniqueFailed),
       (l.intents.taken i.intentId (fun r => r.evidenceHash) i.evidenceHash, uniqueFailed),
       (l.intents.taken i.intentId (fun r => r.evidenceBinding) i.evidenceBinding, uniqueFailed),
       (l.intents.taken i.intentId Intent.activeOrdinal i.activeOrdinal, uniqueFailed),
       (settlementEvidenceRequired i, .integrity "settlement evidence binding required"),
       ((l.orders.get i.orderId).isNone, foreignKeyFailed)]) with
  | .error e => .error e
  | .ok t => .ok { l with intents := t }

def intentRefuses (t : Intents) (k : String) (old new : Intent) : Option Err :=
  firstBad
    [(settlementTerminalImmutable old new, .integrity "terminal settlement evidence is immutable"),
     (settlementEvidenceRequired new, .integrity "settlement evidence binding required"),
     (t.clash k (fun r => r.txHash) old new, uniqueFailed),
     (t.clash k (fun r => r.evidenceHash) old new, uniqueFailed),
     (t.clash k (fun r => r.evidenceBinding) old new, uniqueFailed),
     (t.clash k Intent.activeOrdinal old new, uniqueFailed)]

def updateIntent (k : String) (f : Intent → Intent) (hf : ∀ r, (f r).intentId = r.intentId)
    (l : Ledger) : Except Err Ledger :=
  match l.intents.get k with
  | none => .ok l
  | some old =>
    match intentRefuses l.intents k old (f old) with
    | some e => .error e
    | none => .ok { l with intents := l.intents.modify k f hf }

/-! settlement_candidates -/

def insertCandidate (c : Candidate) (l : Ledger) : Except Err Ledger :=
  match insertChecked l.candidates c (firstBad
      [(l.candidates.taken c.intentId (fun r => some r.txHash) (some c.txHash), uniqueFailed),
       (l.candidates.taken c.intentId (fun r => some r.responseHash) (some c.responseHash), uniqueFailed),
       (decide (c.amountMinor ≤ 0), checkFailed),
       ((l.intents.get c.intentId).isNone, foreignKeyFailed)]) with
  | .error e => .error e
  | .ok t => .ok { l with candidates := t }

/-! audit_events -/

/-- `_audit`: one more link of the hash chain. The row's `event_id` is a fresh
UUID and its chain hash covers its predecessor's, so the two UNIQUE columns of
the table are not modelled. -/
def audit (cfg : Config) (now : Time) (actor operation obj : String)
    (data : List (String × Value)) (l : Ledger) : Ledger :=
  let prev := match l.audit.getLast? with
    | some r => r.chainHash
    | none => String.ofList (List.replicate 64 '0')
  let dh := cfg.sha256 (.obj "" data)
  let chain := cfg.sha256 (.joined [.str prev, .time now, .str actor, .str operation, .str obj, .str dh])
  { l with audit := l.audit ++ [⟨now, actor, operation, obj, dh, prev, chain⟩] }

/-! entitlement_outbox -/

/-- `entitlement_outbox_reconciliation_protocol` -/
def reconciliationProtocol (old new : Entitlement) : Bool :=
  (decide (old.phase = .none ∧ new.phase ≠ .none) &&
    !(decide (new.phase = .crossingPrepared ∧ new.state = .leased) && new.leaseOwner.isSome &&
      decide (new.identityStatus = .verified))) ||
  decide (old.phase = .crossingPrepared ∧
    ¬ (new.phase = .crossingPrepared ∨ new.phase = .crossingAuthorized ∨ new.phase = .none)) ||
  (decide (old.phase = .crossingPrepared ∧ new.phase = .crossingAuthorized) &&
    !(decide (old.state = .leased ∧ new.state = .leased ∧ old.leaseOwner = new.leaseOwner) &&
      new.leaseOwner.isSome && decide (old.fencingVersion = new.fencingVersion))) ||
  (decide (old.phase = .crossingPrepared ∧ new.phase = .none) &&
    !(decide (new.state = .quarantined) && new.leaseOwner.isNone)) ||
  decide (old.phase = .crossingAuthorized ∧
    ¬ (new.phase = .crossingAuthorized ∨ new.phase = .readbackOnly)) ||
  decide (old.phase = .readbackOnly ∧ ¬ (new.phase = .readbackOnly ∨ new.phase = .manualReview)) ||
  decide (old.phase = .readbackOnly ∧ new.phase = .manualReview ∧ new.attemptCount < 8) ||
  decide (old.phase = .manualReview ∧ new.phase ≠ .manualReview)

/-- `entitlement_outbox_prepared_lease_immutable` -/
def preparedLeaseImmutable (old new : Entitlement) : Bool :=
  decide (old.phase = .crossingPrepared ∧ new.phase = .crossingPrepared) &&
    decide (new.state ≠ old.state ∨ new.leaseOwner ≠ old.leaseOwner ∨
      new.leaseExpiresAt ≠ old.leaseExpiresAt ∨ new.fencingVersion ≠ old.fencingVersion)

def entitlementPayloadImmutable (old new : Entitlement) : Bool :=
  decide (new.payload ≠ old.payload ∨ new.createdAt ≠ old.createdAt)

def entitlementAckOnce (old new : Entitlement) : Bool :=
  decide (old.state = .delivered) && (decide (new.state ≠ old.state) ||
    sqlNe new.licenseId old.licenseId || sqlNe new.deliveredAt old.deliveredAt)

def entitlementIdentityImmutable (old new : Entitlement) : Bool :=
  decide (new.identity ≠ old.identity ∨ new.identityStatus ≠ old.identityStatus)

def entitlementAuthorityAckOnce (old new : Entitlement) : Bool :=
  old.ackSignature.isSome && decide (new.ackSignature ≠ old.ackSignature)

def badLength (n : Nat) : Option String → Bool
  | none => true
  | some s => decide (s.toList.length ≠ n)

def entitlementDeliveredAckRequired (new : Entitlement) : Bool :=
  decide (new.state = .delivered) &&
    (new.licenseId.isNone || badLength 64 new.deliveryReceipt || badLength 88 new.ackSignature)

def protocolAbort : Err := .integrity "invalid reconciliation phase transition"
def preparedLeaseAbort : Err := .integrity "prepared crossing lease is immutable"

/-- What refuses an INSERT into `entitlement_outbox`, the primary key apart. -/
def newEntitlementRefuses (e : Entitlement) (l : Ledger) : Option Err :=
  firstBad
    [(e.identity.isNone || decide (e.identityStatus ≠ .verified), .integrity "authority signer identity required"),
     (l.entitlements.taken e.payload.orderId (fun r => some r.payload.proofHash) (some e.payload.proofHash), uniqueFailed),
     (l.entitlements.taken e.payload.orderId (fun r => some r.payload.txHash) (some e.payload.txHash), uniqueFailed),
     (l.entitlements.taken e.payload.orderId (fun r => some r.payload.evidenceHash) (some e.payload.evidenceHash), uniqueFailed),
     (l.entitlements.taken e.payload.orderId (fun r => some (r.payload.source, r.payload.sourceId))
        (some (e.payload.source, e.payload.sourceId)), uniqueFailed),
     (decide (e.payload.amountMinor ≤ 0), checkFailed),
     ((l.orders.get e.payload.orderId).isNone, foreignKeyFailed)]

def insertEntitlement (e : Entitlement) (l : Ledger) : Except Err Ledger :=
  match insertChecked l.entitlements e (newEntitlementRefuses e l) with
  | .error x => .error x
  | .ok t => .ok { l with entitlements := t }

/-- What refuses an UPDATE of one `entitlement_outbox` row. -/
def entitlementRefuses (t : Entitlements) (k : String) (old new : Entitlement) : Option Err :=
  firstBad
    [(reconciliationProtocol old new, protocolAbort),
     (preparedLeaseImmutable old new, preparedLeaseAbort),
     (entitlementPayloadImmutable old new, .integrity "entitlement outbox payload is immutable"),
     (entitlementAckOnce old new, .integrity "entitlement outbox acknowledgement is immutable"),
     (entitlementIdentityImmutable old new, .integrity "authority signer identity is immutable"),
     (entitlementAuthorityAckOnce old new, .integrity "authority acknowledgement is immutable"),
     (entitlementDeliveredAckRequired new, .integrity "delivered authority acknowledgement required"),
     (t.clash k (fun r => r.licenseId) old new, uniqueFailed),
     (t.clash k (fun r => r.deliveryReceipt) old new, uniqueFailed)]

def updateEntitlement (k : String) (f : Entitlement → Entitlement)
    (hf : ∀ r, (f r).payload.orderId = r.payload.orderId) (l : Ledger) : Except Err Ledger :=
  match l.entitlements.get k with
  | none => .ok l
  | some old =>
    match entitlementRefuses l.entitlements k old (f old) with
    | some e => .error e
    | none => .ok { l with entitlements := l.entitlements.modify k f hf }

/-! revocation_outbox, revocation_assertions -/

def revocationOfOrder (l : Ledger) (oid : String) : Option Revocation :=
  l.revocations.rows.find? (fun r => decide (r.payload.orderId = oid))

/-- INSERT OR IGNORE: a row that breaks a UNIQUE column is dropped; a missing
signer identity or order still aborts. -/
def insertRevocationOrIgnore (r : Revocation) (l : Ledger) : Except Err Ledger :=
  if r.identity.isNone || decide (r.identityStatus ≠ .verified) then
    .error (.integrity "authority signer identity required")
  else if l.revocations.taken r.payload.eventId (fun x => some x.payload.orderId) (some r.payload.orderId) ||
      l.revocations.taken r.payload.eventId (fun x => some x.payload.licenseId) (some r.payload.licenseId) ||
      l.revocations.taken r.payload.eventId
        (fun x => some (x.payload.authorityId, x.payload.source, x.payload.sourceId))
        (some (r.payload.authorityId, r.payload.source, r.payload.sourceId)) then .ok l
  else if (l.orders.get r.payload.orderId).isNone then .error foreignKeyFailed
  else match l.revocations.insert r with
    | none => .ok l
    | some t => .ok { l with revocations := t }

def revocationAckOnce (old new : Revocation) : Bool :=
  decide (old.state = .delivered) && (decide (new.state ≠ old.state) ||
    sqlNe new.deliveredAt old.deliveredAt || sqlNe new.authorityReceipt old.authorityReceipt)

def revocationDeliveredAckRequired (new : Revocation) : Bool :=
  decide (new.state = .delivered) &&
    (badLength 64 new.authorityReceipt || badLength 88 new.ackSignature ||
      new.authorityRevokedAt.isNone || new.authorityRequestDigest.isNone)

def revocationResultOnce (old new : Revocation) : Bool :=
  (old.authorityRevokedAt.isSome && decide (new.authorityRevokedAt ≠ old.authorityRevokedAt)) ||
    (old.authorityRequestDigest.isSome && decide (new.authorityRequestDigest ≠ old.authorityRequestDigest))

/-- What refuses an UPDATE of one `revocation_outbox` row. -/
def revocationRefuses (t : Revocations) (k : String) (old new : Revocation) : Option Err :=
  firstBad
    [(decide (new.payload ≠ old.payload), .integrity "revocation outbox payload is immutable"),
     (revocationAckOnce old new, .integrity "revocation acknowledgement is immutable"),
     (decide (new.identity ≠ old.identity ∨ new.identityStatus ≠ old.identityStatus),
       .integrity "authority signer identity is immutable"),
     (old.ackSignature.isSome && decide (new.ackSignature ≠ old.ackSignature),
       .integrity "authority acknowledgement is immutable"),
     (revocationDeliveredAckRequired new, .integrity "delivered authority acknowledgement required"),
     (revocationResultOnce old new, .integrity "authority revocation result is immutable"),
     (t.clash k (fun r => r.authorityReceipt) old new, uniqueFailed)]

def updateRevocation (k : String) (f : Revocation → Revocation)
    (hf : ∀ r, (f r).payload.eventId = r.payload.eventId) (l : Ledger) : Except Err Ledger :=
  match l.revocations.get k with
  | none => .ok l
  | some old =>
    match revocationRefuses l.revocations k old (f old) with
    | some e => .error e
    | none => .ok { l with revocations := l.revocations.modify k f hf }

/-- A row of `revocation_assertions` that would break a UNIQUE column or the
primary key. -/
def assertionClashes (a : Assertion) (l : Ledger) : Bool :=
  (l.assertions.get a.licenseId).isSome ||
    l.assertions.taken a.licenseId (fun r => some r.orderId) (some a.orderId) ||
    l.assertions.taken a.licenseId (fun r => some r.assertionJson) (some a.assertionJson)

def insertAssertion (a : Assertion) (l : Ledger) : Except Err Ledger :=
  match insertChecked l.assertions a (firstBad
      [(assertionClashes a l, uniqueFailed), ((l.orders.get a.orderId).isNone, foreignKeyFailed)]) with
  | .error e => .error e
  | .ok t => .ok { l with assertions := t }

def insertAssertionOrIgnore (a : Assertion) (l : Ledger) : Except Err Ledger :=
  if assertionClashes a l then .ok l else insertAssertion a l

/-! whop_webhook_inbox -/

def insertInbox (v : InboxEvent) (l : Ledger) : Except Err Ledger :=
  match insertChecked l.inbox v (firstBad
      [(decide (v.rawDigest.toList.length ≠ 64), checkFailed)]) with
  | .error e => .error e
  | .ok t => .ok { l with inbox := t }

/-- `whop_webhook_state_monotonic` -/
def inboxStateMonotonic (old new : InboxEvent) : Bool :=
  decide (old.state = .applied ∧ new.state ≠ .applied) ||
  decide (old.state = .quarantined ∧ new.state ≠ .quarantined) ||
  decide (new.attempts < old.attempts) ||
  (old.appliedAt.isSome && decide (new.appliedAt ≠ old.appliedAt))

def updateInbox (k : String) (f : InboxEvent → InboxEvent)
    (hf : ∀ r, (f r).eventId = r.eventId) (l : Ledger) : Except Err Ledger :=
  match l.inbox.get k with
  | none => .ok l
  | some old =>
    if inboxStateMonotonic old (f old) then .error (.integrity "Whop webhook state is monotonic")
    else .ok { l with inbox := l.inbox.modify k f hf }

end GrowthMap.Payments
