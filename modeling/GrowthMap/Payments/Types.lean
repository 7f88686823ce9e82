import GrowthMap.Lib.Table

/- The payment ledger: the rows of `service.py`'s SQLite tables at schema 13.

   One structure per table, with the columns under the source's names in camel
   case; a nullable column is an `Option`, a CHECK(… IN …) column an inductive
   type. Timestamps are instants in microseconds: the service writes them with
   `datetime.isoformat()` in UTC and compares the strings.

   Hashes are functions of the document hashed, not of its bytes: `Doc` is what
   `json.dumps` or a string join is given, and SHA-256, the HMAC under the
   settlement key and the two signature checks are functions of the
   configuration. -/
namespace GrowthMap.Payments

open Relational

/-- An instant, in microseconds. -/
abbrev Time := Int

def seconds (n : Int) : Time := n * 1000000

inductive Rail where
  | x402 | paypal
  deriving DecidableEq, Repr

inductive Tier where
  | early | regular
  deriving DecidableEq, Repr

inductive OrderState where
  | pendingPayment | paymentConfirmed | licenseIssued | manualReview
  | rejected | expired | refunded | revoked
  deriving DecidableEq, Repr

inductive IntentState where
  | prepared | settled | ambiguous | finalizedPaid | cancelledUnpaid
  deriving DecidableEq, Repr

/-- The `state` column of both outboxes. -/
inductive OutboxState where
  | pending | leased | delivered | quarantined
  deriving DecidableEq, Repr

/-- `reconciliation_phase`. -/
inductive Phase where
  | none | crossingPrepared | crossingAuthorized | readbackOnly | manualReview
  deriving DecidableEq, Repr

inductive IdentityStatus where
  | verified | legacyIdentityUnproven
  deriving DecidableEq, Repr

/-- The `action` column of `revocation_outbox`. -/
inductive ReversalAction where
  | refund | revoke
  deriving DecidableEq, Repr

inductive WhopKind where
  | paid | refund | dispute | chargeback
  deriving DecidableEq, Repr

inductive InboxState where
  | received | applied | quarantined
  deriving DecidableEq, Repr

/-- The five values that pin the reviewed Authority signer. -/
structure Identity where
  authorityId : String
  keyId : String
  generation : Nat
  publicKeySha256 : String
  attestation : String
  deriving DecidableEq, Repr

/-! Documents that are hashed, MACed or signed -/

inductive Value where
  | null
  | bool (b : Bool)
  | int (n : Int)
  | str (s : String)
  | time (t : Time)
  | identity (i : Identity)
  deriving DecidableEq, Repr

def Value.opt : Option String → Value
  | none => .null
  | some s => .str s

def Value.optTime : Option Time → Value
  | none => .null
  | some t => .time t

inductive Doc where
  /-- a string hashed as it is -/
  | text (s : String)
  /-- `"|".join(...)` -/
  | joined (parts : List Value)
  /-- `json.dumps` of an object, after a domain prefix (empty where there is none) -/
  | obj (domain : String) (fields : List (String × Value))
  deriving DecidableEq, Repr

/-! Rows -/

structure Order where
  id : String
  recoveryCodeHash : String
  rail : Rail
  state : OrderState
  quotedAmountMinor : Int
  currency : String
  tier : Tier
  quoteExpiresAt : Time
  buyerEmail : String
  licenseName : String
  payerRef : Option String
  txHash : Option String
  saleOrdinal : Option Nat
  licenseId : Option String
  createdAt : Time
  updatedAt : Time
  confirmedAt : Option Time
  deriving DecidableEq, Repr

structure PaymentProof where
  proofHash : String
  rail : Rail
  orderId : String
  txHash : Option String
  createdAt : Time
  deriving DecidableEq, Repr

structure ExternalEvent where
  eventHash : String
  source : String
  orderId : String
  receivedAt : Time
  deriving DecidableEq, Repr

structure Intent where
  intentId : String
  orderId : String
  proofHash : String
  nonceHash : String
  amountMinor : Int
  currency : String
  reservedOrdinal : Nat
  leaseExpiresAt : Time
  state : IntentState
  txHash : Option String
  evidenceHash : Option String
  evidenceSource : Option String
  finalityAt : Option Time
  reconciledBy : Option String
  createdAt : Time
  updatedAt : Time
  evidenceBinding : Option String
  verifiedPayer : Option String
  settledPayer : Option String
  finalityBasis : Option String
  deriving DecidableEq, Repr

structure Candidate where
  intentId : String
  txHash : String
  payer : String
  network : String
  amountMinor : Int
  source : String
  observedAt : Time
  responseHash : String
  deriving DecidableEq, Repr

/-- `audit_events` without its random `event_id`. -/
structure AuditEvent where
  at_ : Time
  actor : String
  operation : String
  objectId : String
  dataHash : String
  previousHash : String
  chainHash : String
  deriving DecidableEq, Repr

/-- The columns `entitlement_outbox_payload_immutable` protects, `created_at` apart. -/
structure EntitlementPayload where
  orderId : String
  source : String
  sourceId : String
  proofHash : String
  txHash : String
  evidenceHash : String
  payer : String
  network : String
  asset : String
  amountMinor : Int
  product : String
  majorVersion : Nat
  deriving DecidableEq, Repr

/-- A row of `entitlement_outbox`. -/
structure Entitlement where
  payload : EntitlementPayload
  createdAt : Time
  state : OutboxState
  licenseId : Option String
  deliveredAt : Option Time
  leaseOwner : Option String
  leaseExpiresAt : Option Time
  attemptCount : Nat
  nextAttemptAt : Option Time
  lastErrorHash : Option String
  deliveryReceipt : Option String
  fencingVersion : Nat
  identity : Option Identity
  identityStatus : IdentityStatus
  ackSignature : Option String
  phase : Phase
  deriving DecidableEq, Repr

/-- The columns `revocation_outbox_payload_immutable` protects. -/
structure RevocationPayload where
  eventId : String
  orderId : String
  authorityId : String
  source : String
  sourceId : String
  entitlementPayloadDigest : String
  licenseId : String
  action : ReversalAction
  reason : String
  proofHash : String
  txHash : String
  evidenceHash : String
  createdAt : Time
  deriving DecidableEq, Repr

/-- A row of `revocation_outbox`. -/
structure Revocation where
  payload : RevocationPayload
  state : OutboxState
  leaseOwner : Option String
  leaseExpiresAt : Option Time
  attemptCount : Nat
  nextAttemptAt : Option Time
  lastErrorHash : Option String
  fencingVersion : Nat
  deliveredAt : Option Time
  authorityReceipt : Option String
  identity : Option Identity
  identityStatus : IdentityStatus
  ackSignature : Option String
  authorityRevokedAt : Option Time
  authorityRequestDigest : Option String
  deriving DecidableEq, Repr

structure Assertion where
  licenseId : String
  orderId : String
  sequence : Nat
  revokedAt : Time
  reasonCode : Option String
  assertionJson : Doc
  createdAt : Time
  deriving DecidableEq, Repr

structure InboxEvent where
  eventId : String
  rawDigest : String
  occurredAt : String
  kind : WhopKind
  orderId : String
  providerOrderRef : String
  providerPaymentRef : String
  receivedAt : Time
  state : InboxState
  attempts : Nat
  appliedAt : Option Time
  lastAttemptAt : Option Time
  errorDigest : Option String
  deriving DecidableEq, Repr

/-- A row of `migration_ledger` without its `applied_at`, which nothing reads. -/
structure MigrationRow where
  version : Int
  filename : String
  checksum : String
  deriving DecidableEq, Repr

/-! The schema -/

inductive TableName where
  | orders | paymentProofs | externalEvents | auditEvents | settlementIntents | migrationLedger
  | terminalCheckpointState | revocationAssertions | entitlementOutbox | revocationOutbox
  | settlementCandidates | whopWebhookInbox
  deriving DecidableEq, Repr

/-- The indexes and triggers of the migrations, and the columns they add to a table that
is already there. -/
inductive SchemaObject where
  -- indexes
  | oneEarlyPerOrdinal | activeIntentOrdinal | settlementEvidenceIdentity | settlementEvidenceBinding
  | entitlementOutboxPending | revocationOutboxPending | whopWebhookInboxState
  -- columns
  | quotedAmountMinor | evidenceBinding | verifiedPayer | settledPayer | finalityBasis
  | entitlementAuthority | revocationAuthority
  -- triggers
  | auditNoUpdate | auditNoDelete
  | settlementEvidenceRequiredInsert | settlementEvidenceRequiredUpdate
  | settlementTerminalImmutable | settlementTerminalDelete
  | revocationAssertionNoUpdate | revocationAssertionNoDelete
  | entitlementOutboxPayloadImmutable | entitlementOutboxNoDelete | entitlementOutboxAckOnce
  | legacyLicenseJsonNoInsert | legacyLicenseJsonNoUpdate
  | revocationOutboxPayloadImmutable | revocationOutboxNoDelete | revocationOutboxAckOnce
  | entitlementOutboxAuthorityIdentityRequired | entitlementOutboxAuthorityIdentityImmutable
  | revocationOutboxAuthorityIdentityRequired | revocationOutboxAuthorityIdentityImmutable
  | entitlementOutboxAuthorityAckOnce | revocationOutboxAuthorityAckOnce
  | entitlementOutboxDeliveredAckRequired | revocationOutboxDeliveredAckRequired
  | revocationOutboxAuthorityResultOnce | entitlementOutboxReconciliationProtocol
  | entitlementOutboxPreparedLeaseImmutable
  | settlementCandidateImmutable | settlementCandidateDelete
  | whopWebhookPayloadImmutable | whopWebhookNoDelete | whopWebhookStateMonotonic
  deriving DecidableEq, Repr

/-- `sqlite_master`: the tables that exist, and for each other object the migration that
wrote it. -/
structure Schema where
  tables : TableName → Bool
  objects : SchemaObject → Option Nat

abbrev Orders := Table String Order Order.id
abbrev Proofs := Table String PaymentProof PaymentProof.proofHash
abbrev ExternalEvents := Table String ExternalEvent ExternalEvent.eventHash
abbrev Intents := Table String Intent Intent.intentId
abbrev Candidates := Table String Candidate Candidate.intentId
abbrev Entitlements := Table String Entitlement (fun e => e.payload.orderId)
abbrev Revocations := Table String Revocation (fun r => r.payload.eventId)
abbrev Assertions := Table String Assertion Assertion.licenseId
abbrev Inbox := Table String InboxEvent InboxEvent.eventId
abbrev MigrationLedger := Table Int MigrationRow MigrationRow.version

/-- The database: `PRAGMA user_version`, the schema, and every table of the issuance
closure. The rows of a table the schema does not have, and the values of a column it does
not have, are read by nothing. -/
structure Ledger where
  userVersion : Int
  schema : Schema
  migrationLedger : MigrationLedger
  orders : Orders
  proofs : Proofs
  externalEvents : ExternalEvents
  intents : Intents
  candidates : Candidates
  audit : List AuditEvent
  entitlements : Entitlements
  revocations : Revocations
  assertions : Assertions
  inbox : Inbox
  /-- `terminal_checkpoint_state.sequence` -/
  sequence : Nat

/-! Errors and configuration -/

/-- The exception classes the source tells apart. -/
inductive ErrClass where
  | value | key | runtime | integrity | operational | os | typeError | stopIteration
  deriving DecidableEq, Repr

structure Err where
  cls : ErrClass
  msg : String
  deriving DecidableEq, Repr

def Err.value (m : String) : Err := ⟨.value, m⟩
def Err.key (m : String) : Err := ⟨.key, m⟩
def Err.runtime (m : String) : Err := ⟨.runtime, m⟩
def Err.integrity (m : String) : Err := ⟨.integrity, m⟩
def Err.operational (m : String) : Err := ⟨.operational, m⟩
def Err.typeError (m : String) : Err := ⟨.typeError, m⟩

/-- The acknowledgement payloads the Authority signs. -/
inductive AckDomain where
  | entitlement | revocation
  deriving DecidableEq, Repr

/-- The fields of `Config` the ledger operations read, with the cryptographic
functions its keys fix: `settlementMac` is HMAC-SHA256 under `settlement_mac_key`,
`verifyAck` the Ed25519 check under `authority_public_key`, `signRevocation` the
signature under `signing_key`. `issuanceRoot` is SHA-256 of the canonical JSON of
the schema and of every row, `schemaDigest` that of the schema alone, and
`terminalRoot` the root of schema 5 over its terminal intents. -/
structure Config where
  environment : String
  merchantId : String
  recipient : String
  quoteSeconds : Int
  intentSeconds : Int
  identity : Identity
  hasSigningKey : Bool
  sha256 : Doc → String
  settlementMac : Doc → String
  verifyAck : AckDomain → Doc → String → Bool
  signRevocation : Doc → String
  issuanceRoot : Ledger → String
  schemaDigest : Schema → String
  terminalRoot : List Intent → String

def baseNetwork : String := "eip155:8453"
def baseUsdc : String := "0x833589fCD6eDb6E08f4c7C32D4f71b54bdA02913"
def earlyLimit : Nat := 50

/-- `EARLY` -/
def early : Rail → Int
  | .x402 => 10000000
  | .paypal => 1000

/-- `REGULAR` -/
def regular : Rail → Int
  | .x402 => 29000000
  | .paypal => 2900

/-- `EARLY[rail] if ordinal<=EARLY_LIMIT else REGULAR[rail]` -/
def amountFor (rail : Rail) (ordinal : Nat) : Int :=
  if ordinal ≤ earlyLimit then early rail else regular rail

theorem amountFor_pos (rail : Rail) (n : Nat) : 0 < amountFor rail n := by
  unfold amountFor
  cases rail <;> split <;> decide

/-! Text, as Python's `str` methods and the source's regular expressions read it -/

/-- `str.lower()`; letters outside ASCII are left alone. -/
def lower (s : String) : String := String.ofList (s.toList.map Char.toLower)

/-- `str.isspace` of one character. -/
def isSpace (c : Char) : Bool :=
  let n := c.toNat
  (0x09 ≤ n && n ≤ 0x0d) || (0x1c ≤ n && n ≤ 0x20) || n == 0x85 || n == 0xa0 || n == 0x1680 ||
    (0x2000 ≤ n && n ≤ 0x200a) || n == 0x2028 || n == 0x2029 || n == 0x202f || n == 0x205f ||
    n == 0x3000

/-- `str.strip()` -/
def strip (s : String) : String :=
  String.ofList ((s.toList.dropWhile isSpace).reverse.dropWhile isSpace).reverse

/-- `[0-9a-f]` -/
def isLowerHex (c : Char) : Bool := ('0' ≤ c && c ≤ '9') || ('a' ≤ c && c ≤ 'f')

/-- `[0-9a-fA-F]` -/
def isHex (c : Char) : Bool := isLowerHex c || ('A' ≤ c && c ≤ 'F')

/-- `pre` followed by exactly `n` characters of the class. -/
def matchesFixed (pre : String) (n : Nat) (cls : Char → Bool) (s : String) : Bool :=
  match s.toList.dropPrefix? pre.toList with
  | none => false
  | some rest => decide (rest.length = n) && rest.all cls

/-- `[^\s@]+@[^\s@]+\.[^\s@]+` -/
def isEmail (s : String) : Bool :=
  let cs := s.toList
  let loc := cs.takeWhile (· ≠ '@')
  let dom := (cs.dropWhile (· ≠ '@')).tail
  !loc.isEmpty && !dom.isEmpty && !dom.contains '@' && decide (cs.contains '@') &&
    !cs.any isSpace && ((dom.drop 1).dropLast).contains '.'

/-- `normalize_email` -/
def normalizeEmail (s : String) : Except Err String :=
  let v := lower (strip s)
  if 254 < v.toList.length || !isEmail v then .error (.value "invalid email") else .ok v

end GrowthMap.Payments
