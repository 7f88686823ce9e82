import GrowthMap.Lib.LeastFree
import GrowthMap.Lib.Transaction
import GrowthMap.Payments.Schema

/- Orders and x402 settlement: the transaction bodies of `service.py` from
   `create_order` to `finalize_x402_intent`, and the direct and PayPal
   confirmations.

   A body is what runs between BEGIN IMMEDIATE (with the trust check after it)
   and `_commit_trusted`: a function of the ledger it sees to a `Verdict`. `clk k`
   is the k-th clock reading of the operation, identifiers the service draws at
   random are arguments. An exception leaves the `with` block, which rolls the
   transaction back: the verdict is `raise`. -/
namespace GrowthMap.Payments

open Relational Transaction LeastFree

abbrev Body (α : Type) := Ledger → Verdict Ledger Err α

/-- A statement's refusal ends the transaction. -/
def orRaise {α : Type} (r : Except Err Ledger) (k : Ledger → Verdict Ledger Err α) :
    Verdict Ledger Err α :=
  match r with
  | .error e => .raise e
  | .ok l => k l

/-- `except sqlite3.IntegrityError as e: raise err from e` around one statement. -/
def orRaiseAs {α : Type} (err : Err) (r : Except Err Ledger) (k : Ledger → Verdict Ledger Err α) :
    Verdict Ledger Err α :=
  match r with
  | .error _ => .raise err
  | .ok l => k l

def truthy : Option String → Bool
  | none => false
  | some s => decide (s ≠ "")

def Order.withState (st : OrderState) (now : Time) (o : Order) : Order :=
  { o with state := st, updatedAt := now }

variable {now : Time} {binding : String} {ordinal : Nat}

@[simp] theorem Order.withState_id {st : OrderState} (o : Order) :
    (Order.withState st now o).id = o.id := rfl

/-- `UPDATE orders SET state=?,updated_at=? WHERE id=?` -/
def setOrderState (oid : String) (st : OrderState) (now : Time) (l : Ledger) : Except Err Ledger :=
  updateOrder oid (Order.withState st now) Order.withState_id l

def Intent.withState (st : IntentState) (now : Time) (i : Intent) : Intent :=
  { i with state := st, updatedAt := now }

@[simp] theorem Intent.withState_intentId {st : IntentState} (i : Intent) :
    (Intent.withState st now i).intentId = i.intentId := rfl

/-- `UPDATE settlement_intents SET state=?,updated_at=? WHERE intent_id=?` -/
def setIntentState (iid : String) (st : IntentState) (now : Time) (l : Ledger) : Except Err Ledger :=
  updateIntent iid (Intent.withState st now) Intent.withState_intentId l

/-! create_order -/

structure Quote where
  orderId : String
  recoveryCode : String
  amountMinor : Int
  currency : String
  tier : Tier
  quoteExpiresAt : Time
  deriving DecidableEq, Repr

def currencyOf : Rail → String
  | .x402 => "USDC"
  | .paypal => "USD"

def Rail.text : Rail → String
  | .x402 => "x402"
  | .paypal => "paypal"

/-- Ordinals sold plus ordinals an open intent reserves. -/
def allocated (l : Ledger) : Nat :=
  (l.orders.rows.filter (fun o => o.saleOrdinal.isSome)).length +
    (l.intents.rows.filter (fun i => i.state.holds)).length

def createOrder (cfg : Config) (clk : Nat → Time) (oid recovery : String) (rail : Rail)
    (email licenseName : String) : Body Quote := fun l =>
  match normalizeEmail email with
  | .error e => .raise e
  | .ok email =>
    let now := clk 0
    let expiry := now + seconds cfg.quoteSeconds
    let isEarly := decide (allocated l < earlyLimit)
    let amount := if isEarly then early rail else regular rail
    let tier := if isEarly then Tier.early else Tier.regular
    orRaise (insertOrder
      { id := oid, recoveryCodeHash := cfg.sha256 (.text recovery), rail, state := .pendingPayment,
        quotedAmountMinor := amount, currency := currencyOf rail, tier, quoteExpiresAt := expiry,
        buyerEmail := email, licenseName := String.ofList ((strip licenseName).toList.take 100),
        payerRef := none, txHash := none, saleOrdinal := none, licenseId := none,
        createdAt := now, updatedAt := now, confirmedAt := none } l) fun l =>
    .commit (audit cfg (clk 1) "buyer" "order.created" oid
        [("rail", .str rail.text), ("amount_minor", .int amount),
         ("currency", .str (currencyOf rail)), ("email_hash", .str (cfg.sha256 (.text email)))] l)
      ⟨oid, recovery, amount, currencyOf rail, tier, expiry⟩

/-! prepare_x402_intent -/

/-- The ordinals held: sold, or reserved by an open intent. -/
def occupied (l : Ledger) : List Nat :=
  l.orders.rows.filterMap (fun o => o.saleOrdinal) ++
    (l.intents.rows.filter (fun i => i.state.holds)).map (fun i => i.reservedOrdinal)

structure Reservation where
  intentId : String
  ordinal : Nat
  deriving DecidableEq, Repr

def prepareX402Intent (cfg : Config) (clk : Nat → Time) (iid oid proofId nonce : String)
    (amount : Int) (payer : Option String) : Body Reservation := fun l =>
  let now := clk 0
  match l.orders.get oid with
  | none => .raise (.value "order unavailable")
  | some r =>
    if r.rail ≠ .x402 ∨ r.state ≠ .pendingPayment then .raise (.value "order unavailable")
    else match leastFree (occupied l) with
      | none => .raise ⟨.stopIteration, ""⟩
      | some ordinal =>
        let expected := amountFor .x402 ordinal
        if r.quoteExpiresAt ≤ now ∨ amount ≠ expected ∨ r.quotedAmountMinor ≠ expected then
          orRaise (setOrderState oid .manualReview now l) fun l =>
          .commitRaise (audit cfg (clk 1) "x402.verify" "payment.manual_review" oid
            [("provided", .int amount), ("expected", .int expected)] l) (.value "stale quote")
        else if payer.any (fun p => !matchesFixed "0x" 40 isHex p) then
          .raise (.value "invalid verified payer")
        else
          orRaiseAs (.value "duplicate authorization/order") (insertIntent
            { intentId := iid, orderId := oid, proofHash := cfg.sha256 (.text proofId),
              nonceHash := cfg.sha256 (.text nonce), amountMinor := amount, currency := "USDC",
              reservedOrdinal := ordinal, leaseExpiresAt := now + seconds cfg.intentSeconds,
              state := .prepared, txHash := none, evidenceHash := none, evidenceSource := none,
              finalityAt := none, reconciledBy := none, createdAt := now, updatedAt := now,
              evidenceBinding := none, verifiedPayer := payer.map lower, settledPayer := none,
              finalityBasis := none } l) fun l =>
          .commit (audit cfg (clk 1) "x402.verify" "settlement_intent.prepared" oid
              [("intent_id", .str iid), ("ordinal", .int ordinal),
               ("proof_hash", .str (cfg.sha256 (.text proofId)))] l) ⟨iid, ordinal⟩

/-! Settlement evidence -/

inductive Outcome where
  | paid | unpaid
  deriving DecidableEq, Repr

/-- `_evidence_binding`: the MAC over the row and its evidence. settled and
finalized_paid bind the one outcome "paid"; a row with none of the three columns
of schema 8 binds none of them. -/
def evidenceBinding (cfg : Config) (i : Intent) (txHash evidenceHash source : Option String)
    (finalityAt : Option Time) (outcome : Outcome) : String :=
  let legacy := i.finalityBasis.isNone && i.verifiedPayer.isNone && i.settledPayer.isNone
  let late (fs : List (String × Value)) := if legacy then [] else fs
  cfg.settlementMac (.obj ""
    ([("amount_minor", .int i.amountMinor), ("created_at", .time i.createdAt),
      ("currency", .str i.currency), ("evidence_hash", .opt evidenceHash),
      ("evidence_source", .opt source), ("finality_at", .optTime finalityAt)] ++
     late [("finality_basis", .opt i.finalityBasis)] ++
     [("intent_id", .str i.intentId), ("lease_expires_at", .time i.leaseExpiresAt),
      ("nonce_hash", .str i.nonceHash), ("order_id", .str i.orderId),
      ("proof_hash", .str i.proofHash), ("reconciled_by", .opt i.reconciledBy),
      ("reserved_ordinal", .int i.reservedOrdinal)] ++
     late [("settled_payer", .opt i.settledPayer)] ++
     [("state", .str (if outcome = .paid then "paid" else "cancelled_unpaid")),
      ("tx_hash", .opt txHash)] ++
     late [("verified_payer", .opt i.verifiedPayer)]))

/-- The binding `_verify_terminal_evidence` recomputes from a stored row. -/
def storedBinding (cfg : Config) (i : Intent) : String :=
  evidenceBinding cfg i i.txHash i.evidenceHash i.evidenceSource i.finalityAt
    (if i.state = .cancelledUnpaid then .unpaid else .paid)

structure SettlementEvidence where
  txHash : Option String
  evidenceHash : Option String
  source : Option String
  finalityAt : Option Time
  payer : Option String
  finalityBasis : Option String
  deriving DecidableEq, Repr

/-- The row as `record_settlement_result` authenticates it. -/
def Intent.authenticated (ev : SettlementEvidence) (actor : String) (i : Intent) : Intent :=
  { i with reconciledBy := some actor, settledPayer := ev.payer.map lower,
           finalityBasis := ev.finalityBasis }

def Intent.settle (ev : SettlementEvidence) (actor binding : String) (now : Time) (i : Intent) : Intent :=
  { i with state := .settled, txHash := ev.txHash, evidenceHash := ev.evidenceHash,
           evidenceSource := ev.source, finalityAt := ev.finalityAt, evidenceBinding := some binding,
           reconciledBy := some actor, updatedAt := now, settledPayer := ev.payer.map lower,
           finalityBasis := ev.finalityBasis }

variable {actor : String}

@[simp] theorem Intent.settle_intentId {ev : SettlementEvidence} (i : Intent) :
    (Intent.settle ev actor binding now i).intentId = i.intentId := rfl

def recordSettlementResult (cfg : Config) (clk : Nat → Time) (iid : String)
    (ev : SettlementEvidence) (actor : String) : Body (Option Intent) := fun l =>
  if !truthy ev.txHash || !truthy ev.evidenceHash || !truthy ev.source || ev.finalityAt.isNone ||
      !truthy ev.finalityBasis || ev.finalityAt.any (fun t => decide (clk 0 < t)) then
    .raise (.value "invalid settlement evidence")
  else match l.intents.get iid with
    | none => .raise (.key "intent")
    | some i =>
      if !truthy i.verifiedPayer || !truthy ev.payer || decide (ev.payer.map lower ≠ i.verifiedPayer) then
        .raise (.value "settlement payer mismatch")
      else
        let binding := evidenceBinding cfg (i.authenticated ev actor) ev.txHash ev.evidenceHash ev.source
          ev.finalityAt .paid
        if i.state = .settled ∨ i.state = .finalizedPaid then
          if i.txHash ≠ ev.txHash ∨ i.evidenceHash ≠ ev.evidenceHash ∨ i.evidenceBinding ≠ some binding then
            .raise (.value "conflicting settlement evidence")
          else .leave (some i)
        else if ¬ (i.state = .prepared ∨ i.state = .ambiguous) then
          .raise (.value "intent cannot become settled")
        else
          orRaiseAs (.value "settlement evidence already used") (updateIntent iid
            (Intent.settle ev actor binding (clk 1)) Intent.settle_intentId l) fun l =>
          .commit (audit cfg (clk 2) actor "settlement.evidence_recorded" i.orderId
            [("intent_id", .str iid), ("tx_hash", .str (cfg.sha256 (.text (ev.txHash.getD "")))),
             ("evidence_hash", .opt ev.evidenceHash), ("source", .opt ev.source),
             ("binding", .str binding)] l) (l.intents.get iid)

/-! finalize_x402_intent -/

/-- The `source_id` under which the Authority knows the order's entitlement. -/
def sourceId (cfg : Config) (oid : String) : String :=
  cfg.sha256 (.obj "" [("environment", .str cfg.environment), ("merchant", .str cfg.merchantId),
    ("payee", .str (lower cfg.recipient)), ("network", .str baseNetwork), ("asset", .str (lower baseUsdc)),
    ("product", .str "growthmap"), ("major", .int 1), ("order", .str oid)])

/-- The UPDATE of `_issue_reserved`. -/
def Order.confirmReserved (ordinal : Nat) (txHash : String) (now : Time) (o : Order) : Order :=
  { o with state := .paymentConfirmed, saleOrdinal := some ordinal, confirmedAt := some now,
           updatedAt := now, txHash := some txHash }

@[simp] theorem Order.confirmReserved_id {txHash : String} (o : Order) :
    (Order.confirmReserved ordinal txHash now o).id = o.id := rfl

/-- The row `_issue_reserved` enqueues. -/
def newEntitlement (cfg : Config) (i : Intent) (txHash evidenceHash payer : String) (now : Time) : Entitlement :=
  { payload := { orderId := i.orderId, source := "x402", sourceId := sourceId cfg i.orderId,
                 proofHash := i.proofHash, txHash, evidenceHash, payer, network := baseNetwork,
                 asset := baseUsdc, amountMinor := i.amountMinor, product := "growthmap",
                 majorVersion := 1 },
    createdAt := now, state := .pending, licenseId := none, deliveredAt := none, leaseOwner := none,
    leaseExpiresAt := none, attemptCount := 0, nextAttemptAt := some now, lastErrorHash := none,
    deliveryReceipt := none, fencingVersion := 0, identity := some cfg.identity,
    identityStatus := .verified, ackSignature := none, phase := .none }

/-- `_issue_reserved`: confirm the order under the reserved ordinal and enqueue its
entitlement. Nothing here looks at the order's state. -/
def issueReserved (cfg : Config) (clk : Nat → Time) (i : Intent) (txHash : String) (now : Time)
    (actor : String) (l : Ledger) : Except Err Ledger := do
  let l ← insertProof ⟨i.proofHash, .x402, i.orderId, some txHash, now⟩ l
  let l ← updateOrder i.orderId (Order.confirmReserved i.reservedOrdinal txHash now) Order.confirmReserved_id l
  let l := audit cfg (clk 1) actor "payment.confirmed" i.orderId [("ordinal", .int i.reservedOrdinal)] l
  -- NOT NULL columns of the outbox: the evidence and the payer it names
  match i.evidenceHash, i.settledPayer with
  | some evidenceHash, some payer =>
    let l ← insertEntitlement (newEntitlement cfg i txHash evidenceHash payer now) l
    let l ← setIntentState i.intentId .finalizedPaid now l
    return audit cfg (clk 2) "issuer" "entitlement.enqueued" i.orderId [("source", .str "x402")] l
  | _, _ => throw (.integrity "NOT NULL constraint failed")

def finalizeX402Intent (cfg : Config) (clk : Nat → Time) (iid : String) : Body (Option Order) := fun l =>
  match l.intents.get iid with
  | none => .raise (.key "intent")
  | some i =>
    if ¬ (i.state = .settled ∨ i.state = .finalizedPaid) ∨ truthy i.txHash = false ∨
        truthy i.evidenceHash = false then .raise (.value "durable paid evidence required")
    else if i.evidenceBinding.getD "" ≠
        evidenceBinding cfg i i.txHash i.evidenceHash i.evidenceSource i.finalityAt .paid then
      .raise (.value "settlement evidence binding mismatch")
    else if i.state = .finalizedPaid then .leave (l.orders.get i.orderId)
    else
      orRaise (issueReserved cfg clk i (i.txHash.getD "") (clk 0) "x402.finalize" l) fun l =>
      .commit l (l.orders.get i.orderId)

/-! record_settlement_candidate, mark_intent_ambiguous -/

/-- The name of an evidence source: a letter or digit, then at most 127 letters,
digits and `._:/` or a hyphen. -/
def isSourceName (s : String) : Bool :=
  let base (c : Char) := ('0' ≤ c && c ≤ '9') || ('a' ≤ c && c ≤ 'z')
  match s.toList with
  | [] => false
  | c :: rest => base c && decide (rest.length ≤ 127) &&
      rest.all (fun c => base c || c == '.' || c == '_' || c == ':' || c == '/' || c == '-')

structure CandidateReport where
  txHash : String
  payer : String
  network : String
  amountMinor : Int
  source : String
  responseHash : String
  deriving DecidableEq, Repr

def recordSettlementCandidate (cfg : Config) (clk : Nat → Time) (iid : String)
    (c : CandidateReport) : Body Candidate := fun l =>
  if !matchesFixed "0x" 64 isLowerHex c.txHash || !matchesFixed "0x" 40 isLowerHex c.payer ||
      decide (c.network ≠ baseNetwork) || decide (c.amountMinor ≤ 0) || !isSourceName c.source ||
      !matchesFixed "" 64 isLowerHex c.responseHash then
    .raise (.value "invalid settlement candidate")
  else match l.intents.get iid with
    | none => .raise (.key "intent")
    | some i =>
      if ¬ (i.state = .prepared ∨ i.state = .ambiguous) ∨ truthy i.verifiedPayer = false ∨
          some c.payer ≠ i.verifiedPayer ∨ c.amountMinor ≠ i.amountMinor then
        .raise (.value "settlement candidate binding mismatch")
      else
        let row : Candidate := ⟨iid, c.txHash, c.payer, c.network, c.amountMinor, c.source, clk 0, c.responseHash⟩
        match l.candidates.get iid with
        | some existing =>
          if { existing with observedAt := clk 0 } ≠ row then .raise (.value "conflicting settlement candidate")
          else .leave existing
        | none =>
          orRaiseAs (.value "settlement candidate already used") (insertCandidate row l) fun l =>
          orRaise (if i.state = .prepared then setIntentState iid .ambiguous (clk 1) l else .ok l) fun l =>
          orRaise (setOrderState i.orderId .manualReview (clk 2) l) fun l =>
          .commit (audit cfg (clk 3) "x402.settle" "settlement.candidate_recorded" i.orderId
            [("intent_id", .str iid), ("tx_hash", .str (cfg.sha256 (.text c.txHash))),
             ("response_hash", .str c.responseHash), ("source", .str c.source)] l) row

def markIntentAmbiguous (cfg : Config) (clk : Nat → Time) (iid reason : String) : Body Unit := fun l =>
  match l.intents.get iid with
  | none => .commit l ()
  | some i =>
    if i.state = .prepared then
      orRaise (setIntentState iid .ambiguous (clk 0) l) fun l =>
      orRaise (setOrderState i.orderId .manualReview (clk 1) l) fun l =>
      .commit (audit cfg (clk 2) "x402.settle" "settlement_intent.ambiguous" i.orderId
        [("intent_id", .str iid), ("reason_hash", .str (cfg.sha256 (.text reason)))] l) ()
    else .commit l ()

/-! reconcile_intent -/

/-- What a reconciler reports; `outcome` is `none` for any other text. -/
structure ReconcilerEvidence where
  outcome : Option Outcome
  txHash : Option String
  evidenceHash : Option String
  source : Option String
  finalityAt : Option Time
  finalityBasis : Option String
  payer : String
  proofHash : String
  nonceHash : String
  orderId : String
  deriving DecidableEq, Repr

structure Cancelled where
  intentId : String
  releasedOrdinal : Nat
  deriving DecidableEq, Repr

def Intent.cancel (ev : ReconcilerEvidence) (actor binding : String) (now : Time) (i : Intent) : Intent :=
  { i with state := .cancelledUnpaid, evidenceHash := ev.evidenceHash, evidenceSource := ev.source,
           finalityAt := ev.finalityAt, evidenceBinding := some binding, reconciledBy := some actor,
           updatedAt := now, settledPayer := some (lower ev.payer), finalityBasis := ev.finalityBasis }

@[simp] theorem Intent.cancel_intentId {ev : ReconcilerEvidence} (i : Intent) :
    (Intent.cancel ev actor binding now i).intentId = i.intentId := rfl

/-- The last transaction of `reconcile_intent`: final unpaid evidence cancels the
intent, releases its ordinal and expires the order. -/
def cancelUnpaid (cfg : Config) (clk : Nat → Time) (iid : String) (ev : ReconcilerEvidence)
    (adminActor : String) : Body Cancelled := fun l =>
  match l.intents.get iid with
  | none => .raise (.typeError "'NoneType' object is not subscriptable")
  | some fresh =>
    if ¬ (fresh.state = .prepared ∨ fresh.state = .ambiguous) then .raise (.value "reconciliation race")
    else
      let now := clk 0
      let authenticated := { fresh with reconciledBy := some adminActor, settledPayer := some (lower ev.payer),
                                        finalityBasis := ev.finalityBasis }
      let binding := evidenceBinding cfg authenticated none ev.evidenceHash ev.source ev.finalityAt .unpaid
      orRaiseAs (.value "settlement evidence already used") (updateIntent iid
        (Intent.cancel ev adminActor binding now) Intent.cancel_intentId l) fun l =>
      orRaise (setOrderState fresh.orderId .expired now l) fun l =>
      .commit (audit cfg (clk 1) adminActor "settlement.cancelled_unpaid" fresh.orderId
          [("intent_id", .str iid), ("ordinal_released", .int fresh.reservedOrdinal),
           ("evidence_hash", .opt ev.evidenceHash), ("source", .opt ev.source), ("binding", .str binding)] l)
        ⟨iid, fresh.reservedOrdinal⟩

/-! reconcile_expired_intents -/

/-- The loop body over the rows selected before it. -/
def expireIntents (cfg : Config) (now : Time) : List Intent → Ledger → Except Err Ledger
  | [], l => .ok l
  | i :: rest, l => do
    let l ← setIntentState i.intentId .ambiguous now l
    let l ← setOrderState i.orderId .manualReview now l
    expireIntents cfg now rest (audit cfg now "recovery" "settlement_intent.lease_expired" i.orderId
      [("intent_id", .str i.intentId)] l)

/-- `state='prepared' AND lease_expires_at<=now` -/
def leaseExpired (now : Time) (i : Intent) : Bool :=
  decide (i.state = .prepared) && decide (i.leaseExpiresAt ≤ now)

def reconcileExpiredIntents (cfg : Config) (clk : Nat → Time) : Body Unit := fun l =>
  orRaise (expireIntents cfg (clk 0) (l.intents.rows.filter (leaseExpired (clk 0))) l) fun l => .commit l ()

/-! Direct and PayPal confirmation -/

/-- The UPDATE of `_confirm_payment_locked`. -/
def Order.confirmDirect (ordinal : Nat) (payerRef txHash : Option String) (now : Time) (o : Order) : Order :=
  { o with state := .paymentConfirmed, saleOrdinal := some ordinal, confirmedAt := some now,
           updatedAt := now, payerRef := payerRef, txHash := txHash }

@[simp] theorem Order.confirmDirect_id {payerRef txHash : Option String} (o : Order) :
    (Order.confirmDirect ordinal payerRef txHash now o).id = o.id := rfl

/-- `_confirm_payment_locked` -/
def confirmPaymentLocked (cfg : Config) (clk : Nat → Time) (oid proofId : String) (amount : Int)
    (currency : String) (payerRef txHash : Option String) (actor : String) : Body (Option Order) := fun l =>
  match l.orders.get oid with
  | none => .raise (.key "order")
  | some r =>
    if r.state = .licenseIssued then .leave (some r)
    else if r.state ≠ .pendingPayment then .raise (.value "invalid state")
    else match leastFree (occupied l) with
      | none => .raise ⟨.stopIteration, ""⟩
      | some ordinal =>
        let expected := amountFor r.rail ordinal
        let now := clk 0
        if r.quoteExpiresAt ≤ now ∨ amount ≠ expected ∨ r.quotedAmountMinor ≠ expected ∨
            currency ≠ currencyOf r.rail then
          orRaise (setOrderState oid .manualReview now l) fun l =>
          let l := audit cfg (clk 1) actor "payment.manual_review" oid
            [("provided", .int amount), ("expected", .int expected), ("currency", .str currency)] l
          .commit l (l.orders.get oid)
        else
          orRaiseAs (.value "duplicate payment proof")
            (insertProof ⟨cfg.sha256 (.text proofId), r.rail, oid, txHash, now⟩ l) fun l =>
          orRaise (updateOrder oid (Order.confirmDirect ordinal payerRef txHash now) Order.confirmDirect_id l) fun l =>
          let l := audit cfg (clk 1) actor "payment.confirmed" oid [("ordinal", .int ordinal)] l
          let l := audit cfg (clk 2) "issuer" "entitlement.not_configured" oid [("rail", .str r.rail.text)] l
          .commit l (l.orders.get oid)

def confirmPaymentAndAllocateSale := confirmPaymentLocked

def Order.withPayerRef (tx : String) (now : Time) (o : Order) : Order :=
  { o with payerRef := some tx, updatedAt := now }

@[simp] theorem Order.withPayerRef_id {tx : String} (o : Order) :
    (Order.withPayerRef tx now o).id = o.id := rfl

def paypalSubmit (cfg : Config) (clk : Nat → Time) (oid transactionId : String) : Body Unit := fun l =>
  let tx := strip transactionId
  if tx = "" ∨ 120 < tx.toList.length then .raise (.value "transaction id")
  else match l.orders.get oid with
    | none => .raise (.value "PayPal order unavailable")
    | some r =>
      if r.rail ≠ .paypal ∨ r.state ≠ .pendingPayment then .raise (.value "PayPal order unavailable")
      else
        orRaiseAs (.value "duplicate transaction id")
          (insertExternalEvent ⟨cfg.sha256 (.text ("paypal:" ++ tx)), "paypal-claim", oid, clk 0⟩ l) fun l =>
        orRaise (updateOrder oid (Order.withPayerRef tx (clk 1)) Order.withPayerRef_id l) fun l =>
        .commit (audit cfg (clk 2) "buyer" "paypal.claim_submitted" oid
          [("transaction_hash", .str (cfg.sha256 (.text tx)))] l) ()

/-- The attestation of an admin; `minor` is what `paypal_minor` makes of its amount. -/
structure PaypalAttestation where
  minor : Except Err Int
  currency : String
  status : String
  payeeVerified : Bool

def paypalConfirm (cfg : Config) (clk : Nat → Time) (oid transactionId : String)
    (a : PaypalAttestation) (actor : String) : Body (Option Order) := fun l =>
  if a.status ≠ "COMPLETED" ∨ a.currency ≠ "USD" ∨ a.payeeVerified = false then
    .raise (.value "invalid PayPal attestation")
  else match (l.orders.get oid).filter (fun r => decide (r.rail = .paypal)) with
    | none => .raise (.value "transaction does not match submitted claim")
    | some r =>
      if r.payerRef ≠ some transactionId then .raise (.value "transaction does not match submitted claim")
      else match a.minor with
        | .error e => .raise e
        | .ok amount =>
          confirmPaymentLocked cfg clk oid transactionId amount "USD" none (some transactionId) actor l

end GrowthMap.Payments
