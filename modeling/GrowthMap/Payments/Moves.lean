import Mathlib.Logic.Relation
import GrowthMap.Payments.System

/- The sales ledger as an abstract machine.

   `Core` is what decides sales, entitlements and revocations: the audit chain, the
   inbox, the candidates, the signed assertions and the sequence number are left
   out. `Move` lists every change the service makes to it, one constructor per kind
   of change, each with what the code has checked when it makes it. A settlement
   move (`ambiguate`, `reviewAgain`, `cancel`, `finalize`) writes the state of an
   order from the state of its intent; the orders it may write are the parameter
   `P`, which a transaction instantiates with the orders it acts on. -/
namespace GrowthMap.Payments

open Relational

structure Core where
  userVersion : Int
  schema : Schema
  migrationLedger : MigrationLedger
  orders : Orders
  proofs : Proofs
  intents : Intents
  entitlements : Entitlements
  revocations : Revocations

def Ledger.core (l : Ledger) : Core :=
  { userVersion := l.userVersion, schema := l.schema, migrationLedger := l.migrationLedger,
    orders := l.orders, proofs := l.proofs, intents := l.intents, entitlements := l.entitlements,
    revocations := l.revocations }

def OrderState.terminal : OrderState → Bool
  | .rejected | .expired | .refunded | .revoked => true
  | _ => false

def OrderState.reversed : OrderState → Bool
  | .refunded | .revoked => true
  | _ => false

def OrderState.action (s : OrderState) : ReversalAction := if s = .refunded then .refund else .revoke

def Phase.crossed : Phase → Bool
  | .crossingAuthorized | .readbackOnly | .manualReview => true
  | .none | .crossingPrepared => false

/-- One UPDATE of an outbox row short of its delivery and its reversal, under the state
of its order. -/
inductive Turn (o : OrderState) (e : Entitlement) : Entitlement → Prop where
  | claim (worker : String) (expires : Time) (hs : e.state ≠ .delivered)
      (hp : e.phase ≠ .crossingPrepared) : Turn o e (e.leaseTo worker expires)
  | reset (now : Time) (hs : e.state = .leased) (hp : e.phase = .crossingPrepared) :
      Turn o e (e.resetPrepared now)
  | prepare (worker : String) (fence : Nat) (hh : e.holds worker fence = true) (hp : e.phase = .none) :
      Turn o e (e.withPhase .crossingPrepared)
  | authorize (worker : String) (fence : Nat) (hh : e.holds worker fence = true)
      (hp : e.phase = .crossingPrepared) (ho : o = .paymentConfirmed) :
      Turn o e (e.withPhase .crossingAuthorized)
  | requeue (worker : String) (fence : Nat) (errorHash : String) (now : Time) (maxAttempts : Nat)
      (hh : e.holds worker fence = true)
      (hp : e.phase = .crossingAuthorized ∨ e.phase = .readbackOnly) :
      Turn o e (e.requeue errorHash now maxAttempts)
  | fail (worker : String) (fence : Nat) (errorHash : String) (now : Time) (maxAttempts : Nat)
      (hh : e.holds worker fence = true) : Turn o e (e.fail errorHash now maxAttempts)

/-- The triggers of schema 11 on the phase machine let the UPDATE pass. -/
def Permitted (e e' : Entitlement) : Prop :=
  reconciliationProtocol e e' = false ∧ preparedLeaseImmutable e e' = false

/-- A later version of one revocation row: its payload is the same, its fence never
falls, and under one fence the owner only lets go. -/
structure Revocation.Later (r r' : Revocation) : Prop where
  payload : r'.payload = r.payload
  fence : r.fencingVersion ≤ r'.fencingVersion
  owner : r'.fencingVersion = r.fencingVersion → r'.leaseOwner = r.leaseOwner ∨ r'.leaseOwner = none

/-- Evidence `record_settlement_result` accepts for an intent. -/
structure SettlementEvidence.Accepted (ev : SettlementEvidence) (i : Intent) : Prop where
  tx : truthy ev.txHash = true
  evidence : truthy ev.evidenceHash = true
  payer : ev.payer.map lower = i.verifiedPayer
  verified : truthy i.verifiedPayer = true

/-- The binding `record_settlement_result` stores. -/
def paidBinding (cfg : Config) (ev : SettlementEvidence) (actor : String) (i : Intent) : String :=
  evidenceBinding cfg (i.authenticated ev actor) ev.txHash ev.evidenceHash ev.source ev.finalityAt .paid

def unpaidBinding (cfg : Config) (ev : ReconcilerEvidence) (actor : String) (i : Intent) : String :=
  evidenceBinding cfg { i with reconciledBy := some actor, settledPayer := some (lower ev.payer),
                               finalityBasis := ev.finalityBasis }
    none ev.evidenceHash ev.source ev.finalityAt .unpaid

def Free (orders : Orders) (intents : Intents) (n : Nat) : Prop :=
  (∀ k o, orders.get k = some o → o.saleOrdinal ≠ some n) ∧
    ∀ k i, intents.get k = some i → i.state.holds = true → i.reservedOrdinal ≠ n

inductive Move (cfg : Config) (P : String → Prop) (c : Core) : Core → Prop where
  | create (o : Order) (t : Orders) (hi : c.orders.insert o = some t)
      (hsale : o.saleOrdinal = none) (htx : o.txHash = none) :
      Move cfg P c { c with orders := t }
  | review (oid : String) (now : Time) (o : Order) (ho : c.orders.get oid = some o)
      (hst : o.state = .pendingPayment) :
      Move cfg P c { c with orders := c.orders.modify oid (Order.withState .manualReview now) Order.withState_id }
  | reject (oid : String) (now : Time) (o : Order) (ho : c.orders.get oid = some o)
      (hst : o.state = .pendingPayment ∨ o.state = .manualReview) :
      Move cfg P c { c with orders := c.orders.modify oid (Order.withState .rejected now) Order.withState_id }
  | payerRef (oid tx : String) (now : Time) :
      Move cfg P c { c with orders := c.orders.modify oid (Order.withPayerRef tx now) Order.withPayerRef_id }
  | reserve (i : Intent) (t : Intents) (o : Order) (hi : c.intents.insert i = some t)
      (ho : c.orders.get i.orderId = some o) (hrail : o.rail = .x402)
      (hquoted : o.quotedAmountMinor = i.amountMinor)
      (hamount : i.amountMinor = amountFor .x402 i.reservedOrdinal) (hpos : 0 < i.reservedOrdinal)
      (hfree : Free c.orders c.intents i.reservedOrdinal) (hst : i.state = .prepared)
      (htx : i.txHash = none) (hev : i.evidenceHash = none)
      (horder : c.intents.taken i.intentId (fun r => some r.orderId) (some i.orderId) = false)
      (hproof : c.intents.taken i.intentId (fun r => some r.proofHash) (some i.proofHash) = false)
      (hnonce : c.intents.taken i.intentId (fun r => some r.nonceHash) (some i.nonceHash) = false)
      (hord : c.intents.taken i.intentId Intent.activeOrdinal i.activeOrdinal = false) :
      Move cfg P c { c with intents := t }
  | settle (iid : String) (i : Intent) (ev : SettlementEvidence) (actor : String) (now : Time)
      (hi : c.intents.get iid = some i) (hst : i.state = .prepared ∨ i.state = .ambiguous)
      (hev : ev.Accepted i)
      (href : intentRefuses c.intents iid i (i.settle ev actor (paidBinding cfg ev actor i) now) = none) :
      Move cfg P c { c with intents := c.intents.modify iid (Intent.settle ev actor (paidBinding cfg ev actor i) now) Intent.settle_intentId }
  | ambiguate (iid : String) (i : Intent) (now now' : Time) (hi : c.intents.get iid = some i)
      (hst : i.state = .prepared) (hP : P i.orderId) :
      Move cfg P c { c with
        intents := c.intents.modify iid (Intent.withState .ambiguous now) Intent.withState_intentId,
        orders := c.orders.modify i.orderId (Order.withState .manualReview now') Order.withState_id }
  | reviewAgain (iid : String) (i : Intent) (now : Time) (hi : c.intents.get iid = some i)
      (hst : i.state = .ambiguous) (hP : P i.orderId) :
      Move cfg P c { c with
        orders := c.orders.modify i.orderId (Order.withState .manualReview now) Order.withState_id }
  | cancel (iid : String) (i : Intent) (ev : ReconcilerEvidence) (actor : String) (now : Time)
      (hi : c.intents.get iid = some i) (hst : i.state = .prepared ∨ i.state = .ambiguous)
      (href : intentRefuses c.intents iid i (i.cancel ev actor (unpaidBinding cfg ev actor i) now) = none)
      (hP : P i.orderId) :
      Move cfg P c { c with
        intents := c.intents.modify iid (Intent.cancel ev actor (unpaidBinding cfg ev actor i) now) Intent.cancel_intentId,
        orders := c.orders.modify i.orderId (Order.withState .expired now) Order.withState_id }
  | finalize (iid : String) (i : Intent) (o : Order) (tx evidenceHash payer : String) (now : Time)
      (tp : Proofs) (te : Entitlements) (hi : c.intents.get iid = some i) (hst : i.state = .settled)
      (htx : i.txHash = some tx) (hev : i.evidenceHash = some evidenceHash)
      (ho : c.orders.get i.orderId = some o)
      (hp : c.proofs.insert ⟨i.proofHash, .x402, i.orderId, some tx, now⟩ = some tp)
      (href : orderRefuses c.orders i.orderId o (o.confirmReserved i.reservedOrdinal tx now) = none)
      (he : c.entitlements.insert (newEntitlement cfg i tx evidenceHash payer now) = some te)
      (hP : P i.orderId) :
      Move cfg P c { c with
        proofs := tp, entitlements := te,
        orders := c.orders.modify i.orderId (Order.confirmReserved i.reservedOrdinal tx now) Order.confirmReserved_id,
        intents := c.intents.modify iid (Intent.withState .finalizedPaid now) Intent.withState_intentId }
  | confirm (oid : String) (o : Order) (ordinal : Nat) (payerRef txHash : Option String) (now : Time)
      (p : PaymentProof) (tp : Proofs) (ho : c.orders.get oid = some o)
      (hst : o.state = .pendingPayment) (hpos : 0 < ordinal) (hfree : Free c.orders c.intents ordinal)
      (hquoted : o.quotedAmountMinor = amountFor o.rail ordinal)
      (hp : c.proofs.insert p = some tp) (htx : p.txHash = txHash)
      (href : orderRefuses c.orders oid o (o.confirmDirect ordinal payerRef txHash now) = none) :
      Move cfg P c { c with
        proofs := tp,
        orders := c.orders.modify oid (Order.confirmDirect ordinal payerRef txHash now) Order.confirmDirect_id }
  | turn (oid : String) (o : Order) (e : Entitlement) (f : Entitlement → Entitlement)
      (hf : ∀ r, (f r).payload.orderId = r.payload.orderId) (ho : c.orders.get oid = some o)
      (he : c.entitlements.get oid = some e) (ht : Turn o.state e (f e)) (hperm : Permitted e (f e)) :
      Move cfg P c { c with entitlements := c.entitlements.modify oid f hf }
  | issue (oid : String) (o : Order) (e : Entitlement) (a : EntitlementAck) (now : Time)
      (ho : c.orders.get oid = some o) (hst : o.state = .paymentConfirmed)
      (he : c.entitlements.get oid = some e) (worker : String) (fence : Nat)
      (hh : e.holds worker fence = true) (hl : a.licenseId ≠ "")
      (hperm : Permitted e (e.deliver a now)) :
      Move cfg P c { c with
        entitlements := c.entitlements.modify oid (Entitlement.deliver a now) Entitlement.deliver_orderId,
        orders := c.orders.modify oid (Order.issue a.licenseId now) Order.issue_id }
  | compensate (oid : String) (o : Order) (e : Entitlement) (a : EntitlementAck) (now : Time)
      (r : Revocation) (t : Revocations) (ho : c.orders.get oid = some o)
      (hst : o.state.reversed = true) (he : c.entitlements.get oid = some e)
      (hs : e.state ≠ .delivered) (hl : a.licenseId ≠ "") (hperm : Permitted e (e.deliver a now))
      (hr : r.payload.orderId = oid ∧ r.payload.licenseId = a.licenseId ∧
        r.payload.entitlementPayloadDigest = payloadDigest cfg e.payload ∧
        r.payload.action = o.state.action)
      (hi : c.revocations.insert r = some t)
      (hfree : c.revocations.taken r.payload.eventId (fun x => some x.payload.orderId) (some oid) = false) :
      Move cfg P c { c with
        entitlements := c.entitlements.modify oid (Entitlement.deliver a now) Entitlement.deliver_orderId,
        revocations := t }
  | reverseBare (oid : String) (st : OrderState) (now : Time) (o : Order)
      (ho : c.orders.get oid = some o) (hlive : o.state.terminal = false) (hst : st.reversed = true)
      (he : c.entitlements.get oid = none) :
      Move cfg P c { c with orders := c.orders.modify oid (Order.withState st now) Order.withState_id }
  | reverseFenced (oid : String) (st : OrderState) (now retryAt : Time) (errorHash : String) (o : Order)
      (e : Entitlement) (ho : c.orders.get oid = some o) (hlive : o.state.terminal = false)
      (hst : st.reversed = true) (he : c.entitlements.get oid = some e) (hs : e.state ≠ .delivered)
      (hperm : Permitted e (e.cancel errorHash retryAt)) :
      Move cfg P c { c with
        entitlements := c.entitlements.modify oid (Entitlement.cancel errorHash retryAt) Entitlement.cancel_orderId,
        orders := c.orders.modify oid (Order.withState st now) Order.withState_id }
  | reverseDelivered (oid : String) (st : OrderState) (now : Time) (o : Order) (e : Entitlement)
      (license : String) (r : Revocation) (t : Revocations) (ho : c.orders.get oid = some o)
      (hlive : o.state.terminal = false) (hst : st.reversed = true)
      (he : c.entitlements.get oid = some e) (hs : e.state = .delivered)
      (hl : e.licenseId = some license)
      (hr : r.payload.orderId = oid ∧ r.payload.licenseId = license ∧
        r.payload.entitlementPayloadDigest = payloadDigest cfg e.payload ∧ r.payload.action = st.action)
      (hi : c.revocations.insert r = some t)
      (hfree : c.revocations.taken r.payload.eventId (fun x => some x.payload.orderId) (some oid) = false) :
      Move cfg P c { c with
        revocations := t,
        orders := c.orders.modify oid (Order.withState st now) Order.withState_id }
  | revocation (k : String) (f : Revocation → Revocation)
      (hf : ∀ r, (f r).payload.eventId = r.payload.eventId)
      (hlater : ∀ r, c.revocations.get k = some r → r.Later (f r)) :
      Move cfg P c { c with revocations := c.revocations.modify k f hf }

/-- What one transaction does: any number of moves. -/
abbrev Moves (cfg : Config) (P : String → Prop) : Core → Core → Prop :=
  Relation.ReflTransGen (Move cfg P)

end GrowthMap.Payments
