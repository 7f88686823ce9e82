import GrowthMap.Payments.Outbox

/- Reversals: `admin_transition`, and the Whop events of `receive_whop_event`.

   A refund or revocation of a delivered entitlement queues its revocation in the
   same transaction; a reversal of an undelivered one fences the outbox row
   (`Entitlement.cancel`). The Whop application is given as what it leaves in the
   open transaction and whether it raised: its caller catches the exception
   inside that transaction. -/
namespace GrowthMap.Payments

open Relational Transaction

def OrderState.text : OrderState → String
  | .pendingPayment => "pending_payment"
  | .paymentConfirmed => "payment_confirmed"
  | .licenseIssued => "license_issued"
  | .manualReview => "manual_review"
  | .rejected => "rejected"
  | .expired => "expired"
  | .refunded => "refunded"
  | .revoked => "revoked"

inductive AdminAction where
  | reject | refund | revoke
  deriving DecidableEq, Repr

def AdminAction.text : AdminAction → String
  | .reject => "reject"
  | .refund => "refund"
  | .revoke => "revoke"

def AdminAction.target : AdminAction → OrderState
  | .reject => .rejected
  | .refund => .refunded
  | .revoke => .revoked

/-- `TRANSITIONS` -/
def AdminAction.allows : AdminAction → OrderState → Bool
  | .reject, s => decide (s = .pendingPayment ∨ s = .manualReview)
  | .refund, s => decide (s = .paymentConfirmed ∨ s = .licenseIssued)
  | .revoke, s => decide (s = .licenseIssued)

/-- `entitlement["state"]=="delivered" and entitlement["license_id"]` -/
def Entitlement.deliveredLicense (e : Entitlement) : Option String :=
  if e.state = .delivered ∧ truthy e.licenseId = true then e.licenseId else none

/-- The UPDATE that fences an undelivered entitlement: a crossing that may have
happened is kept for readback, an unused one is cancelled. -/
def Entitlement.cancel (errorHash : String) (retryAt : Time) (e : Entitlement) : Entitlement :=
  { e with state := .quarantined,
           phase := if e.phase = .none ∨ e.phase = .crossingPrepared then .none else .readbackOnly,
           leaseOwner := none, leaseExpiresAt := none, fencingVersion := e.fencingVersion + 1,
           nextAttemptAt := if e.phase = .none then e.nextAttemptAt else some retryAt,
           lastErrorHash := some errorHash }

@[simp] theorem Entitlement.cancel_orderId {errorHash : String} {retryAt : Time} (e : Entitlement) :
    (Entitlement.cancel errorHash retryAt e).payload.orderId = e.payload.orderId := rfl

def reasonAllowed (r : Option String) : Bool :=
  r.all (fun s => s == "refund" || s == "chargeback" || s == "fraud" || s == "terms_violation" ||
    s == "administrative")

/-- `_revocation`: the signed assertion of a license's revocation. -/
def revocationAssertion (cfg : Config) (licenseId : String) (revokedAt : Time) (sequence : Nat)
    (reason : Option String) : Except Err Doc :=
  if cfg.hasSigningKey = false then .error (.runtime "signing key unavailable")
  else if reasonAllowed reason = false then .error (.value "invalid revocation reason")
  else
    let fields : List (String × Value) := [("schema_version", .int 1),
      ("assertion_type", .str "growthmap_license_revocation"), ("product", .str "growthmap"),
      ("major_version", .int 1), ("license_id", .str licenseId), ("revoked_at", .time revokedAt),
      ("sequence", .int sequence), ("reason_code", .opt reason)]
    .ok (.obj "" (fields ++ [("signature", .str (cfg.signRevocation (.obj "growthmap-revocation-v1" fields)))]))

structure AdminResult where
  orderId : String
  state : OrderState
  idempotent : Bool
  revocation : Option Doc
  revocationEvent : Option Revocation
  deriving DecidableEq, Repr

/-- The part of a refund or revocation that depends on the entitlement: queue the
revocation of a delivered license, or fence an undelivered row. -/
def reverseEntitlement (cfg : Config) (clk : Nat → Time) (oid : String) (action : AdminAction)
    (reasonCode : Option String) (l : Ledger) : Except Err (Ledger × Option Doc × Option Revocation) :=
  let now := clk 0
  match l.entitlements.get oid with
  | none => .ok (l, none, none)
  | some e =>
    match e.deliveredLicense, action with
    | _, .reject => .ok (l, none, none)
    | some license, action => do
      let rev : ReversalAction := if action = .refund then .refund else .revoke
      let reason := if action = .refund then "refund" else
        (if truthy reasonCode then reasonCode.getD "" else "administrative")
      let assertion ← revocationAssertion cfg license now 1 (some reason)
      let l ← insertAssertion ⟨license, oid, 1, now, some reason, assertion, now⟩ l
      let (l, r) ← enqueueRevocation cfg (clk 1) e.payload license rev reason now l
      return (l, some assertion, some r)
    | none, .refund => do
      let l ← updateEntitlement oid (Entitlement.cancel
        (cfg.sha256 (.text "cancelled_by_refund_before_delivery")) (now + seconds 2)) Entitlement.cancel_orderId l
      return (l, none, none)
    | none, .revoke => .ok (l, none, none)

def adminTransition (cfg : Config) (clk : Nat → Time) (oid : String) (action : AdminAction)
    (reasonCode : Option String) : Body AdminResult := fun l =>
  let target := action.target
  if action ≠ .revoke ∧ reasonCode.isSome then .raise (.value "reason is only valid for revocation")
  else match l.orders.get oid with
    | none => .raise (.key "order")
    | some r =>
      if r.state = target then
        let stored := if action = .reject then none else
          (l.assertions.rows.find? (fun a => decide (a.orderId = oid))).map (fun a => a.assertionJson)
        let event := if action = .reject then none else revocationOfOrder l oid
        .commit (audit cfg (clk 0) "admin" ("order." ++ action.text ++ ".idempotent") oid
          [("state", .str target.text)] l) ⟨oid, target, true, stored, event⟩
      else if action.allows r.state = false then
        .raise (.value ("illegal transition " ++ r.state.text ++ " -> " ++ target.text))
      else
        match reverseEntitlement cfg clk oid action reasonCode l with
        | .error e => .raise e
        | .ok (l, assertion, event) =>
          orRaise (setOrderState oid target (clk 0) l) fun l =>
          .commit (audit cfg (clk 2) "admin" ("order." ++ action.text) oid
              [("from", .str r.state.text), ("to", .str target.text),
               ("license_id", .opt ((l.entitlements.get oid).bind Entitlement.deliveredLicense)),
               ("revocation_enqueued", .bool event.isSome)] l)
            ⟨oid, target, false, assertion, event⟩

/-! receive_whop_event -/

structure WhopEvent where
  eventId : String
  occurredAt : String
  kind : WhopKind
  orderId : String
  providerOrderRef : String
  providerPaymentRef : String
  deriving DecidableEq, Repr

def WhopKind.text : WhopKind → String
  | .paid => "paid"
  | .refund => "refund"
  | .dispute => "dispute"
  | .chargeback => "chargeback"

/-- The first transaction of `receive_whop_event`: store the event, or find it. -/
def storeWhopEvent (cfg : Config) (clk : Nat → Time) (ev : WhopEvent) (rawDigest : String)
    (maxAttempts : Int) : Body Unit := fun l =>
  if matchesFixed "" 64 isLowerHex rawDigest = false ∨ maxAttempts < 1 ∨ 20 < maxAttempts then
    .raise (.value "invalid Whop event")
  else match l.inbox.get ev.eventId with
    | some row =>
      if row.rawDigest ≠ rawDigest ∨ row.occurredAt ≠ ev.occurredAt ∨ row.kind ≠ ev.kind ∨
          row.orderId ≠ ev.orderId ∨ row.providerOrderRef ≠ ev.providerOrderRef ∨
          row.providerPaymentRef ≠ ev.providerPaymentRef then .raise (.value "conflicting Whop event")
      else .leave ()
    | none =>
      orRaise (insertInbox
        { eventId := ev.eventId, rawDigest, occurredAt := ev.occurredAt, kind := ev.kind,
          orderId := ev.orderId, providerOrderRef := ev.providerOrderRef,
          providerPaymentRef := ev.providerPaymentRef, receivedAt := clk 0, state := .received,
          attempts := 0, appliedAt := none, lastAttemptAt := none, errorDigest := none } l) fun l =>
      .commit (audit cfg (clk 1) "whop.webhook" "whop.event.received" ev.orderId
        [("event_id_hash", .str (cfg.sha256 (.text ev.eventId))), ("kind", .str ev.kind.text)] l) ()

/-- The entitlement part of a Whop reversal. The assertion is written before the
revocation is queued, so a failure of the latter leaves it in the transaction. -/
def reverseByWhop (cfg : Config) (clk : Nat → Time) (oid : String) (kind : WhopKind)
    (l : Ledger) : Ledger × Except Err Unit :=
  match l.entitlements.get oid with
  | none => (l, .ok ())
  | some e =>
    match e.deliveredLicense with
    | some license =>
      let action := if kind = .refund then ReversalAction.refund else .revoke
      let reason := if kind = .refund then "refund" else "chargeback"
      match revocationAssertion cfg license (clk 1) 1 (some reason) with
      | .error x => (l, .error x)
      | .ok assertion =>
        match insertAssertionOrIgnore ⟨license, oid, 1, clk 1, some reason, assertion, clk 0⟩ l with
        | .error x => (l, .error x)
        | .ok l =>
          match enqueueRevocation cfg (clk 2) e.payload license action reason (clk 0) l with
          | .error x => (l, .error x)
          | .ok (l, _) => (l, .ok ())
    | none =>
      match updateEntitlement oid (Entitlement.cancel (cfg.sha256 (.text "cancelled_by_whop_reversal"))
          (clk 1 + seconds 2)) Entitlement.cancel_orderId l with
      | .error x => (l, .error x)
      | .ok l => (l, .ok ())

/-- `refund` refunds the order, `dispute` and `chargeback` revoke it. -/
def WhopKind.target (kind : WhopKind) : OrderState := if kind = .refund then .refunded else .revoked

/-- `_apply_whop_business_locked`: what it leaves in the open transaction, and
whether it raised. -/
def applyWhopBusinessLocked (cfg : Config) (clk : Nat → Time) (ev : InboxEvent) (l : Ledger) :
    Ledger × Except Err Unit :=
  match l.orders.get ev.orderId with
  | none => (l, .error (.value "unbound order"))
  | some order =>
    if ev.kind = .paid then
      if order.state = .refunded ∨ order.state = .revoked ∨ order.state = .rejected ∨
          order.state = .expired then (l, .ok ())
      else if ¬ (order.state = .paymentConfirmed ∨ order.state = .licenseIssued) then
        (l, .error (.value "reviewed Whop checkout binding unavailable"))
      else (l, .ok ())
    else if order.state = .refunded ∨ order.state = .revoked then (l, .ok ())
    else if order.state = .rejected ∨ order.state = .expired then (l, .ok ())
    else
      match reverseByWhop cfg clk order.id ev.kind l with
      | (l, .error x) => (l, .error x)
      | (l, .ok ()) =>
        match setOrderState order.id ev.kind.target (clk 0) l with
        | .error x => (l, .error x)
        | .ok l => (audit cfg (clk 3) "whop.webhook" ("order." ++ ev.kind.text) order.id
            [("from", .str order.state.text), ("to", .str ev.kind.target.text)] l, .ok ())

def InboxEvent.markApplied (now : Time) (v : InboxEvent) : InboxEvent :=
  { v with state := .applied, attempts := v.attempts + 1, lastAttemptAt := some now,
           appliedAt := some now, errorDigest := none }

variable {now : Time}

@[simp] theorem InboxEvent.markApplied_eventId (v : InboxEvent) :
    (InboxEvent.markApplied now v).eventId = v.eventId := rfl

/-- The statements that close a successful application. -/
def whopApplied (cfg : Config) (clk : Nat → Time) (ev : InboxEvent) (l : Ledger) : Except Err Ledger :=
  match updateInbox ev.eventId (InboxEvent.markApplied (clk 4)) InboxEvent.markApplied_eventId l with
  | .error e => .error e
  | .ok l => .ok (audit cfg (clk 5) "whop.webhook" "whop.event.applied" ev.orderId
      [("event_id_hash", .str (cfg.sha256 (.text ev.eventId))), ("kind", .str ev.kind.text)] l)

/-- `"quarantined" if attempts>=max_attempts else "received"` -/
def failedInboxState (ev : InboxEvent) (maxAttempts : Int) : InboxState :=
  if maxAttempts ≤ ev.attempts + 1 then .quarantined else .received

def InboxEvent.markFailed (state : InboxState) (attempts : Nat) (now : Time) (digest : String)
    (v : InboxEvent) : InboxEvent :=
  { v with state := state, attempts := attempts, lastAttemptAt := some now, errorDigest := some digest }

@[simp] theorem InboxEvent.markFailed_eventId {state : InboxState} {attempts : Nat} {digest : String} (v : InboxEvent) :
    (InboxEvent.markFailed state attempts now digest v).eventId = v.eventId := rfl

def whopFailed (cfg : Config) (clk : Nat → Time) (ev : InboxEvent) (maxAttempts : Int) (error : Err)
    (l : Ledger) : Except Err Ledger :=
  let state := failedInboxState ev maxAttempts
  match updateInbox ev.eventId (InboxEvent.markFailed state (ev.attempts + 1) (clk 6)
      (cfg.sha256 (.text error.text))) InboxEvent.markFailed_eventId l with
  | .error e => .error e
  | .ok l => .ok (audit cfg (clk 7) "whop.webhook" "whop.event.apply_failed" ev.orderId
      [("event_id_hash", .str (cfg.sha256 (.text ev.eventId))),
       ("state", .str (if state = .quarantined then "quarantined" else "received"))] l)

end GrowthMap.Payments
