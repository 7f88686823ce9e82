import GrowthMap.Authority.Effects
import GrowthMap.Lib.Runs
import GrowthMap.Lib.Table

/- The Whop fulfilment worker (whop_fulfillment.py), with the inbox it reads and the
   Authority it calls.

   The ingress stores a verified webhook once. A worker selects pending rows, and
   for each copy of a row it took it processes the event, then marks the row as
   processed, rejected or to be retried; a copy in hand is a job, and a worker that
   dies drops its jobs. Any number of workers run, so jobs go on in any order.

   Processing holds one local transaction, which the remote calls stand in the
   middle of: the Authority's own step happens or not, its answer arrives or not,
   other clients call it meanwhile, and the local commit comes last. A `Remote` is
   one such course of events. What the local transaction did is undone whenever an
   exception ends it; what the Authority did is not.

   `parse_event` is a function of the payload, and SHA-256 is taken to be free of
   collisions, so what a payload says is a function of its digest (`decode`). -/
namespace GrowthMap.Whop

open Relational Runs
open Payments (Time seconds Identity EntitlementAck)
open Authority (Crypto Call Store EntitlementRequest RevocationRequest)

/-! Events -/

inductive EventType where
  | paymentSucceeded
  | refundCreated
  | disputeCreated
  /-- a type that is not in `SUPPORTED` -/
  | unsupported
  deriving DecidableEq, Repr

inductive Tier where
  | early
  | standard
  deriving DecidableEq, Repr

/-- `Event`; the amount as it is written and as a number. -/
structure Event where
  webhookId : String
  eventType : EventType
  paymentId : String
  companyId : String
  productId : String
  planId : String
  currency : String
  amountText : String
  amount : ℚ
  status : String
  occurredAt : String
  payloadSha256 : String
  whopUserId : Option String
  deriving DecidableEq

def companyId : String := "biz_RVr0w7JHwRZgIq"

/-- `PRODUCTS` -/
def products (productId planId : String) : Option (Tier × ℚ) :=
  if productId = "prod_PvObOc5wfatCY" ∧ planId = "plan_rjuSiGxXCweMF" then some (.early, 10)
  else if productId = "prod_Lrwhtxe2bDQDD" ∧ planId = "plan_BIaeEIZ2e6OP3" then some (.standard, 29)
  else none

def earlyLimit : Nat := 50

def EventType.allowed : EventType → List String
  | .paymentSucceeded => ["succeeded"]
  | .refundCreated => ["refunded"]
  | .disputeCreated => ["open", "created"]
  | .unsupported => []

/-- What ends an attempt: `PermanentFulfillmentError`, or any other exception. -/
inductive Failure where
  | permanent (message : String)
  | retryable (message : String)
  deriving DecidableEq, Repr

def Failure.isPermanent : Failure → Bool
  | .permanent _ => true
  | .retryable _ => false

def lower (s : String) : String := String.ofList (s.toList.map Char.toLower)

/-- `_validate_semantics` -/
def validateSemantics (e : Event) : Except Failure Tier :=
  if e.companyId ≠ companyId then .error (.permanent "commercial binding mismatch")
  else match products e.productId e.planId with
    | none => .error (.permanent "commercial binding mismatch")
    | some (tier, expected) =>
      if lower e.currency ≠ "usd" ∨ e.amount ≠ expected then .error (.permanent "commercial binding mismatch")
      else if lower e.status ∉ e.eventType.allowed then .error (.permanent "commercial binding mismatch")
      else .ok tier

/-- What `_canonical_event_digest` is the digest of. -/
def commercialDigest (e : Event) : EventType × List String × Option String :=
  (e.eventType, [e.paymentId, e.companyId, e.productId, e.planId, lower e.currency, e.amountText, lower e.status],
    e.whopUserId)

/-! Tables -/

inductive Status where
  | verifiedPending
  | processed
  | rejected
  deriving DecidableEq, Repr

structure InboxRow where
  webhookId : String
  eventType : EventType
  payloadSha256 : String
  status : Status
  deriving DecidableEq, Repr

structure Attempt where
  webhookId : String
  payloadSha256 : String
  attempts : Nat
  nextAttemptAt : Time
  deriving DecidableEq, Repr

inductive FulfilmentState where
  | granting
  | granted
  | revoked
  deriving DecidableEq, Repr

/-- A row of `whop_fulfillments`, without the sealed recovery code. -/
structure Fulfilment where
  paymentId : String
  commercialDigest : EventType × List String × Option String
  productId : String
  planId : String
  tier : Tier
  sourceId : String
  payloadDigest : String
  licenseId : Option String
  state : FulfilmentState
  grantWebhookId : String
  grantedAt : Option Time
  revokedAt : Option Time
  whopUserId : String
  orderId : String
  recoveryCodeHash : String
  deriving DecidableEq

abbrev Inbox := Table String InboxRow InboxRow.webhookId
abbrev Attempts := Table String Attempt Attempt.webhookId
abbrev Fulfilments := Table String Fulfilment Fulfilment.paymentId

/-- How an attempt that raised nothing ended. -/
inductive Outcome where
  | granted
  | revoked
  | ignored
  deriving DecidableEq, Repr

/-- A copy of a row that a worker took, and what processing it came to. -/
structure Job where
  row : InboxRow
  attempts : Nat
  outcome : Option (Except Failure Outcome)

structure State where
  inbox : Inbox
  attempts : Attempts
  fulfilments : Fulfilments
  authority : Store
  jobs : List Job

def State.empty : State := ⟨.empty, .empty, .empty, .empty, []⟩

/-! Remote calls -/

/-- A call of another client of the Authority: the worker's edge is the only one whose
source is `whop`. -/
def foreign (e : Authority.Event) : Bool :=
  match e.op with
  | .createExternalEntitlement a _ => decide (a.source ≠ "whop")
  | _ => true

abbrev ForeignEvent := { e : Authority.Event // foreign e }

/-- What happens around the calls of one attempt. -/
structure Remote where
  /-- whether `BEGIN IMMEDIATE` gets the lock -/
  opened : Bool
  /-- the answer to the handshake -/
  identity : Option Identity
  /-- the call in which the Authority serves the request; `none`: it never arrives -/
  call : Option Call
  /-- the id a new license would get -/
  licenseId : String
  /-- whether the answer arrives -/
  heard : Bool
  meanwhile : List ForeignEvent
  /-- the call in which the Authority serves the reading of the acknowledgement -/
  read : Option Call
  readHeard : Bool
  orderId : String
  recoveryCodeHash : String
  now : Time
  /-- whether the local commit goes through -/
  commit : Bool

section Worker

variable (k : Crypto) (decode : String → Option Event)

/-- `hashlib.sha256(("whop-payment\0" + payment_id).encode()).hexdigest()` -/
def sourceId (paymentId : String) : String := k.sha256 (.text ("whop-payment\x00" ++ paymentId))

def others (a : Store) (es : List ForeignEvent) : Store := run (Authority.step k) a (es.map Subtype.val)

/-- `create_external_entitlement`, then `read_external_entitlement_acknowledgement`: the
Authority afterwards, and the acknowledgement if one was read. -/
def Remote.create (r : Remote) (body : EntitlementRequest) (a : Store) : Store × Option EntitlementAck :=
  match r.call with
  | none => (a, none)
  | some c =>
    match Authority.exec k a ⟨c, .createExternalEntitlement body r.licenseId⟩ with
    | (a, .entitlement _) =>
      if r.heard = false then (a, none) else
      let a := others k a r.meanwhile
      match r.read with
      | none => (a, none)
      | some c =>
        match Authority.reply k a ⟨c, .readExternalEntitlementAcknowledgement body.source body.sourceId body.signerIdentity⟩ with
        | .entitlementAck ack => (a, if r.readHeard then some ack else none)
        | _ => (a, none)
    | (a, _) => (a, none)

/-- `revoke_external_entitlement`, then `read_external_revocation_acknowledgement`: the
Authority afterwards, and the license the acknowledgement names. -/
def Remote.revoke (r : Remote) (body : RevocationRequest) (a : Store) : Store × Option String :=
  match r.call with
  | none => (a, none)
  | some c =>
    match Authority.exec k a ⟨c, .revokeExternalEntitlement body⟩ with
    | (a, .revocation _) =>
      if r.heard = false then (a, none) else
      let a := others k a r.meanwhile
      match r.read with
      | none => (a, none)
      | some c =>
        match Authority.reply k a ⟨c, .readExternalRevocationAcknowledgement body.source body.sourceId body.signerIdentity⟩ with
        | .revocationAck ack => (a, if r.readHeard then some ack.licenseId else none)
        | _ => (a, none)
    | (a, _) => (a, none)

/-! Grant -/

/-- The row `_grant` inserts. -/
def newFulfilment (e : Event) (tier : Tier) (user : String) (r : Remote) : Fulfilment :=
  { paymentId := e.paymentId, commercialDigest := commercialDigest e, productId := e.productId, planId := e.planId, tier,
    sourceId := sourceId k e.paymentId, payloadDigest := e.payloadSha256, licenseId := none, state := .granting,
    grantWebhookId := e.webhookId, grantedAt := none, revokedAt := none, whopUserId := user, orderId := r.orderId,
    recoveryCodeHash := r.recoveryCodeHash }

def insertFulfilment (f : Fulfilment) (t : Fulfilments) : Option Fulfilments :=
  if t.taken f.paymentId (fun g => some g.sourceId) (some f.sourceId) ∨
      t.taken f.paymentId (fun g => some g.grantWebhookId) (some f.grantWebhookId) ∨
      t.taken f.paymentId (fun g => some g.orderId) (some f.orderId) ∨
      t.taken f.paymentId (fun g => some g.recoveryCodeHash) (some f.recoveryCodeHash) then none
  else t.insert f

def earlyRows (t : Fulfilments) : Nat := t.rows.countP (fun f => decide (f.tier = .early))

/-- The body of the call, under the identity the handshake gave. -/
def grantBody (e : Event) (identity : Identity) : EntitlementRequest :=
  ⟨"whop", sourceId k e.paymentId, e.payloadSha256, identity.authorityId, identity, "personal", 1, 2⟩

def Fulfilment.grant (licenseId : String) (now : Time) (f : Fulfilment) : Fulfilment :=
  if f.state = .granting then { f with state := .granted, licenseId := some licenseId, grantedAt := some now } else f

theorem Fulfilment.grant_key (licenseId : String) (now : Time) (f : Fulfilment) :
    (f.grant licenseId now).paymentId = f.paymentId := by
  unfold Fulfilment.grant
  split <;> rfl

/-- The remote part of `_grant` and what follows it, on the table the transaction has
made so far. -/
def deliver (e : Event) (r : Remote) (t : Fulfilments) (s : State) : State × Except Failure Outcome :=
  match r.identity with
  | none => (s, .error (.retryable "handshake"))
  | some identity =>
    match r.create k (grantBody k e identity) s.authority with
    | (a, none) => ({ s with authority := a }, .error (.retryable "authority acknowledgement invalid"))
    | (a, some ack) =>
      if ack.sourceId ≠ sourceId k e.paymentId then
        ({ s with authority := a }, .error (.retryable "authority acknowledgement invalid"))
      else if t.taken e.paymentId (fun f => f.licenseId) (some ack.licenseId) then
        ({ s with authority := a }, .error (.retryable "UNIQUE constraint failed"))
      else if r.commit = false then ({ s with authority := a }, .error (.retryable "commit"))
      else
        ({ s with authority := a,
                  fulfilments := t.modify e.paymentId (Fulfilment.grant ack.licenseId r.now) (Fulfilment.grant_key _ _) },
          .ok .granted)

/-- `_grant` -/
def grant (e : Event) (tier : Tier) (r : Remote) (s : State) : State × Except Failure Outcome :=
  match e.whopUserId with
  | none => (s, .error (.permanent "verified buyer identity unavailable"))
  | some user =>
    if r.opened = false then (s, .error (.retryable "database is locked")) else
    match s.fulfilments.get e.paymentId with
    | some existing =>
      if existing.commercialDigest ≠ commercialDigest e then (s, .error (.permanent "conflicting provider payment id"))
      else if existing.state = .granted ∨ existing.state = .revoked then (s, .ok .granted)
      else deliver k e r s.fulfilments s
    | none =>
      if tier = .early ∧ earlyLimit ≤ earlyRows s.fulfilments then (s, .error (.permanent "early allocation exhausted"))
      else match insertFulfilment (newFulfilment k e tier user r) s.fulfilments with
        | none => (s, .error (.retryable "UNIQUE constraint failed"))
        | some t => deliver k e r t s

/-! Revoke -/

def revokeBody (e : Event) (linked : Fulfilment) (licenseId : String) (identity : Identity) : RevocationRequest :=
  let refund := decide (e.eventType = .refundCreated)
  { source := "whop", sourceId := linked.sourceId, payloadDigest := linked.payloadDigest,
    authorityId := identity.authorityId, signerIdentity := identity, licenseId,
    action := if refund then "refund" else "revoke", reason := if refund then "refund" else "chargeback",
    paymentProof := k.sha256 (.text ("whop-proof\x00" ++ e.paymentId)),
    txHash := "0x" ++ k.sha256 (.text ("whop-reference\x00" ++ e.paymentId)), createdAt := e.occurredAt }

def Fulfilment.revoke (now : Time) (f : Fulfilment) : Fulfilment := { f with state := .revoked, revokedAt := some now }

theorem Fulfilment.revoke_key (now : Time) (f : Fulfilment) : (f.revoke now).paymentId = f.paymentId := rfl

/-- `_revoke` -/
def revoke (e : Event) (r : Remote) (s : State) : State × Except Failure Outcome :=
  if r.opened = false then (s, .error (.retryable "database is locked")) else
  match s.fulfilments.get e.paymentId with
  | none => (s, .error (.retryable "linked entitlement unavailable"))
  | some linked =>
    match linked.state, linked.licenseId with
    | .granting, _ | _, none => (s, .error (.retryable "linked entitlement unavailable"))
    | state, some licenseId =>
      if linked.productId ≠ e.productId ∨ linked.planId ≠ e.planId then (s, .error (.permanent "reversal binding mismatch"))
      else if state = .revoked then (s, .ok .revoked)
      else match r.identity with
        | none => (s, .error (.retryable "handshake"))
        | some identity =>
          match r.revoke k (revokeBody k e linked licenseId identity) s.authority with
          | (a, none) => ({ s with authority := a }, .error (.retryable "authority acknowledgement invalid"))
          | (a, some acknowledged) =>
            if acknowledged ≠ licenseId then
              ({ s with authority := a }, .error (.retryable "authority acknowledgement invalid"))
            else if r.commit = false then ({ s with authority := a }, .error (.retryable "commit"))
            else
              ({ s with authority := a,
                        fulfilments := s.fulfilments.modify e.paymentId (Fulfilment.revoke r.now) (Fulfilment.revoke_key _) },
                .ok .revoked)

/-! The worker -/

/-- `parse_event` -/
def parseEvent (row : InboxRow) : Except Failure Event :=
  match decode row.payloadSha256 with
  | none => .error (.permanent "invalid verified event")
  | some e =>
    if e.webhookId = row.webhookId ∧ e.eventType = row.eventType ∧ e.payloadSha256 = row.payloadSha256 then .ok e
    else .error (.permanent "verified envelope mismatch")

/-- The body of the loop of `run_once`, up to what `_finish` or `_fail` records. -/
def processRow (row : InboxRow) (r : Remote) (s : State) : State × Except Failure Outcome :=
  if row.eventType = .unsupported then (s, .ok .ignored)
  else match parseEvent decode row with
    | .error f => (s, .error f)
    | .ok e =>
      match validateSemantics e with
      | .error f => (s, .error f)
      | .ok tier => if e.eventType = .paymentSucceeded then grant k e tier r s else revoke k e r s

/-- `_finish` and `_fail`: a row that is no longer pending stays as it is. -/
def InboxRow.mark (status : Status) (payloadSha256 : String) (row : InboxRow) : InboxRow :=
  if row.payloadSha256 = payloadSha256 ∧ row.status = .verifiedPending then { row with status := status } else row

theorem InboxRow.mark_key (status : Status) (payloadSha256 : String) (row : InboxRow) :
    (row.mark status payloadSha256).webhookId = row.webhookId := by
  unfold InboxRow.mark
  split <;> rfl

def State.markRow (s : State) (row : InboxRow) (status : Status) : State :=
  { s with inbox := s.inbox.modify row.webhookId (InboxRow.mark status row.payloadSha256) (InboxRow.mark_key _ _) }

/-- `min(3600, 2 ** min(attempts, 11))` seconds -/
def backoff (attempts : Nat) : Int := min 3600 (2 ^ min attempts 11)

def recordAttempt (a : Attempt) (t : Attempts) : Attempts :=
  ((t.keep (fun b => decide (b.webhookId ≠ a.webhookId))).insert a).getD t

/-- `_fail` -/
def fail (job : Job) (permanent : Bool) (now : Time) (s : State) : State :=
  let attempts := job.attempts + 1
  let recorded : Attempt := ⟨job.row.webhookId, job.row.payloadSha256, attempts, now + seconds (backoff attempts)⟩
  let s := { s with attempts := recordAttempt recorded s.attempts }
  if permanent then s.markRow job.row .rejected else s

/-- `_finish`, which raises when the row is no longer pending. -/
def finish (job : Job) (s : State) : Option State :=
  match s.inbox.get job.row.webhookId with
  | none => none
  | some row =>
    if row.payloadSha256 = job.row.payloadSha256 ∧ row.status = .verifiedPending then
      some { s.markRow job.row .processed with
        attempts := s.attempts.keep (fun a => decide (a.webhookId ≠ job.row.webhookId)) }
    else none

def terminal (maxAttempts : Nat) (job : Job) (f : Failure) : Bool :=
  f.isPermanent || decide (maxAttempts ≤ job.attempts + 1)

/-- What a job records when it is processed; `_finish` of a supported event raises inside
the same `try`. -/
def settle (maxAttempts : Nat) (job : Job) (now : Time) (s : State) : State :=
  match job.outcome with
  | none => s
  | some (.error f) => fail job (terminal maxAttempts job f) now s
  | some (.ok outcome) =>
    match finish job s with
    | some s => s
    | none =>
      if outcome = .ignored then s
      else fail job (terminal maxAttempts job (.retryable "inbox row changed")) now s

/-- The rows `run_once` selects. -/
def due (s : State) (now : Time) (limit : Nat) : List Job :=
  ((s.inbox.rows.filter (fun row => decide (row.status = .verifiedPending) &&
    (s.attempts.get row.webhookId).all (fun a => decide (a.nextAttemptAt ≤ now)))).take limit).map
      (fun row => ⟨row, ((s.attempts.get row.webhookId).map Attempt.attempts).getD 0, none⟩)

/-! Steps -/

/-- One step of the ingress, of a worker or of another client of the Authority. -/
inductive Step where
  /-- the ingress stores a webhook it verified, unless it has it -/
  | arrive (webhookId : String) (eventType : EventType) (payloadSha256 : String)
  | select (now : Time) (limit : Nat)
  | process (i : Nat) (r : Remote)
  | settle (i : Nat) (now : Time)
  /-- the worker dies with this job -/
  | crash (i : Nat)
  | authority (e : ForeignEvent)

def step (maxAttempts : Nat) (s : State) : Step → State
  | .arrive webhookId eventType payloadSha256 =>
    { s with inbox := (s.inbox.insert ⟨webhookId, eventType, payloadSha256, .verifiedPending⟩).getD s.inbox }
  | .select now limit => { s with jobs := s.jobs ++ due s now limit }
  | .process i r =>
    match s.jobs[i]? with
    | none => s
    | some job =>
      if job.outcome.isSome then s else
      let (s', outcome) := processRow k decode job.row r s
      { s' with jobs := s'.jobs.set i { job with outcome := some outcome } }
  | .settle i now =>
    match s.jobs[i]? with
    | none => s
    | some job =>
      if job.outcome.isNone then s else
      let s' := settle maxAttempts job now s
      { s' with jobs := s'.jobs.eraseIdx i }
  | .crash i => { s with jobs := s.jobs.eraseIdx i }
  | .authority e => { s with authority := Authority.step k s.authority e.val }

end Worker

/-! A concrete worker -/

namespace Demo

def crypto : Crypto := { Authority.Demo.crypto with sha256 := fun _ => Authority.Demo.zeros }

def call (t : Time) : Authority.Call := (Authority.Demo.event t .pinCeremony).call

def event (webhookId : String) (eventType : EventType) (status digest : String) (user : Option String) : Event :=
  ⟨webhookId, eventType, "pay_1", companyId, "prod_PvObOc5wfatCY", "plan_rjuSiGxXCweMF", "usd", "10", 10, status,
    "0001-01-01T00:00:00+00:00", digest, user⟩

/-- The payment is the payload of digest `zeros`, its refund the one of digest `refund`. -/
def payloads (d : String) : Option Event :=
  if d = Authority.Demo.zeros then some (event "w1" .paymentSucceeded "succeeded" d (some "user_1"))
  else if d = "refund" then some (event "w2" .refundCreated "refunded" d none)
  else none

theorem payloads_payment {d : String} {e : Event} (h : payloads d = some e) : e.paymentId = "pay_1" := by
  unfold payloads at h
  split at h
  · cases h
    rfl
  · split at h
    · cases h
      rfl
    · cases h

/-- The Authority serves the calls, if there is one; its first answer is heard or not. -/
def remote (serves heard : Bool) : Remote :=
  ⟨true, some Authority.Demo.ceremony.identity, if serves then some (call 5) else none, "W", heard, [], some (call 6), true,
    "order", "hash", 7, true⟩

def pinned : Step := .authority ⟨Authority.Demo.event 0 .pinCeremony, rfl⟩

def paid : Step := .arrive "w1" .paymentSucceeded Authority.Demo.zeros
def refunded : Step := .arrive "w2" .refundCreated "refund"

/-- One round of a worker, `n` hours after the start. -/
def round (n : Int) (r : Remote) : List Step :=
  [.select (Payments.seconds (3600 * n)) 1, .process 0 r, .settle 0 (Payments.seconds (3600 * n))]

/-- Seven rounds, hours apart, in which the Authority does not answer. -/
def outage : List Step :=
  let r := remote false false
  round 2 r ++ round 4 r ++ round 6 r ++ round 8 r ++ round 10 r ++ round 12 r ++ round 14 r

end Demo

end GrowthMap.Whop
