import GrowthMap.Payments.Service

/- The migrations of `services/payments/migrations`, from an empty file to schema 13.

   A migration is one transaction: its statements, its row of `migration_ledger` and
   `user_version` commit together or not at all. `Ddl` is what its statements do to the
   schema: a table it names must be there, a table, column, index or trigger it creates
   must not. `migrateRows` is what they do to the rows; a table it creates is empty, a
   column it adds is NULL in every row. The files carry the checksums of `migrations`. -/
namespace GrowthMap.Payments

open Relational Transaction

def schemaVersion : Nat := 13

/-- `MIGRATIONS` -/
def migrations : List MigrationRow :=
  [⟨1, "001_payments_v1.sql", "311bc81c68f1fc7f63ec27c309600b8ac852774ee7f535a5783bc2dc625ca28d"⟩,
   ⟨2, "002_settlement_security.sql", "2330d6397b12b2d5bd4ecd89dd98bb3a59cf05c2722a4a82d64640b0fc09b54c"⟩,
   ⟨3, "003_evidence_identity.sql", "28814bd1eac98f1e31310a823c4e2983928811ce1b3a05f80266703583f04106"⟩,
   ⟨4, "004_terminal_evidence_trust.sql", "f2400926eda875753a06c64c2bd045b0806b02fdc4bc23f1f05c177b3883d451"⟩,
   ⟨5, "005_external_terminal_checkpoint.sql", "85c2eb7ccaf6d57c916cd2fbbe594c32ad70436fb38605949e25602b345ce045"⟩,
   ⟨6, "006_authenticated_issuance_closure.sql", "842904b883fc5e529d25019b8deed41467429df239ec4db92df9dd2fa23e4c9e"⟩,
   ⟨7, "007_signed_revocation_assertions.sql", "32e37e78522e54330753b1843dc7b7fdaf98015442320221350629cdd85489c7"⟩,
   ⟨8, "008_device_activation_entitlements.sql", "2c72ffee4fbd739c84f85c9ae7d8cf267bdffb84bea88779198e50e78e6e71af"⟩,
   ⟨9, "009_authority_revocation_outbox.sql", "367b701a724639518e9854fd0159d24bb2ce78309242f58fe64206f9367989fc"⟩,
   ⟨10, "010_terminal_payer_basis_immutability.sql", "101c8dc450685c8b26eaabb427e0b1c2f96765c0cbd74ace70f1cd3f66fcbd07"⟩,
   ⟨11, "011_authority_signer_identity_binding.sql", "1d585bb206d86e018794a96ff8adbc91b84e02355d4d12daf45e09c94d195d42"⟩,
   ⟨12, "012_facilitator_candidate_settlement.sql", "88c4b81c4b5926179546b69a67c7efd5d2d68555511c42a49effb3944e9a159a"⟩,
   ⟨13, "013_whop_webhook_inbox.sql", "b587441a7e1af84a1143577180e93056374bfa011161269ebaf14bc8690e1f38"⟩]

/-- `{v:MIGRATIONS[v] for v in range(1,version+1)}` -/
def supportedLedger (version : Int) : List MigrationRow :=
  migrations.filter (fun m => decide (m.version ≤ version))

/-! The schema -/

structure Ddl where
  /-- tables the statements name without creating them -/
  needs : List TableName
  creates : List TableName
  /-- DROP TRIGGER IF EXISTS, and what goes with a table that is rebuilt -/
  drops : List SchemaObject
  adds : List SchemaObject

/-- The four triggers migrations 5 and 6 take away and write again around their updates. -/
def settlementTriggers : List SchemaObject :=
  [.settlementTerminalImmutable, .settlementTerminalDelete, .settlementEvidenceRequiredInsert,
   .settlementEvidenceRequiredUpdate]

def ddl : Nat → Ddl
  | 1 => ⟨[], [.orders, .paymentProofs, .externalEvents, .auditEvents], [], [.oneEarlyPerOrdinal]⟩
  | 2 =>
    -- `orders` is rebuilt as `orders_v2`, and its indexes and triggers go with it
    ⟨[.orders, .paymentProofs, .externalEvents, .auditEvents], [.settlementIntents, .migrationLedger],
     [.oneEarlyPerOrdinal, .legacyLicenseJsonNoInsert, .legacyLicenseJsonNoUpdate],
     [.quotedAmountMinor, .oneEarlyPerOrdinal, .activeIntentOrdinal, .auditNoUpdate, .auditNoDelete]⟩
  | 3 =>
    ⟨[.settlementIntents, .migrationLedger], [], [],
     [.evidenceBinding, .settlementEvidenceIdentity, .settlementEvidenceBinding,
      .settlementEvidenceRequiredInsert, .settlementEvidenceRequiredUpdate]⟩
  | 4 =>
    ⟨[.settlementIntents, .migrationLedger], [], [], [.settlementTerminalImmutable, .settlementTerminalDelete]⟩
  | 5 =>
    ⟨[.orders, .settlementIntents, .migrationLedger], [.terminalCheckpointState], settlementTriggers,
     settlementTriggers⟩
  | 6 => ⟨[.orders, .settlementIntents, .migrationLedger], [], settlementTriggers, settlementTriggers⟩
  | 7 =>
    ⟨[.migrationLedger], [.revocationAssertions], [], [.revocationAssertionNoUpdate, .revocationAssertionNoDelete]⟩
  | 8 =>
    ⟨[.orders, .settlementIntents, .migrationLedger], [.entitlementOutbox], [],
     [.verifiedPayer, .settledPayer, .finalityBasis, .entitlementOutboxPending,
      .entitlementOutboxPayloadImmutable, .entitlementOutboxNoDelete, .entitlementOutboxAckOnce,
      .legacyLicenseJsonNoInsert, .legacyLicenseJsonNoUpdate]⟩
  | 9 =>
    ⟨[.migrationLedger], [.revocationOutbox], [],
     [.revocationOutboxPending, .revocationOutboxPayloadImmutable, .revocationOutboxNoDelete,
      .revocationOutboxAckOnce]⟩
  | 10 =>
    ⟨[.settlementIntents, .migrationLedger], [], [.settlementTerminalImmutable], [.settlementTerminalImmutable]⟩
  | 11 =>
    ⟨[.entitlementOutbox, .revocationOutbox, .migrationLedger], [], [],
     [.entitlementAuthority, .revocationAuthority, .entitlementOutboxAuthorityIdentityRequired,
      .entitlementOutboxAuthorityIdentityImmutable, .revocationOutboxAuthorityIdentityRequired,
      .revocationOutboxAuthorityIdentityImmutable, .entitlementOutboxAuthorityAckOnce,
      .revocationOutboxAuthorityAckOnce, .entitlementOutboxDeliveredAckRequired,
      .revocationOutboxDeliveredAckRequired, .revocationOutboxAuthorityResultOnce,
      .entitlementOutboxReconciliationProtocol, .entitlementOutboxPreparedLeaseImmutable]⟩
  | 12 =>
    ⟨[.migrationLedger], [.settlementCandidates], [], [.settlementCandidateImmutable, .settlementCandidateDelete]⟩
  | 13 =>
    ⟨[.migrationLedger], [.whopWebhookInbox], [],
     [.whopWebhookInboxState, .whopWebhookPayloadImmutable, .whopWebhookNoDelete, .whopWebhookStateMonotonic]⟩
  | _ => ⟨[], [], [], []⟩

/-- The schema after the statements of migration `n`, or SQLite's refusal. -/
def applyDdl (n : Nat) (s : Schema) : Except Err Schema :=
  let kept : SchemaObject → Option Nat := fun o => if o ∈ (ddl n).drops then none else s.objects o
  if (ddl n).needs.all s.tables = false then .error (.operational "no such table")
  else if (ddl n).creates.any s.tables || (ddl n).adds.any (fun o => (kept o).isSome) then
    .error (.operational "already exists")
  else .ok { tables := fun t => decide (t ∈ (ddl n).creates) || s.tables t,
             objects := fun o => if o ∈ (ddl n).adds then some n else kept o }

/-! The rows -/

def uniqueRows {R V : Type} [DecidableEq V] (rows : List R) (col : R → Option V) : Bool :=
  decide (rows.filterMap col).Nodup

/-- `CASE WHEN rail='paypal' THEN CAST(quoted_amount/10000 AS INTEGER) ELSE quoted_amount END` -/
def Order.inMinorUnits (o : Order) : Order :=
  { o with quotedAmountMinor :=
      if o.rail = .paypal then o.quotedAmountMinor.tdiv 10000 else o.quotedAmountMinor }

@[simp] theorem Order.inMinorUnits_id (o : Order) : o.inMinorUnits.id = o.id := rfl

/-- Migration 2: `orders` under the checks of `orders_v2`. -/
def settlementSecurity (l : Ledger) : Except Err Ledger :=
  let orders := l.orders.update (fun _ => true) Order.inMinorUnits Order.inMinorUnits_id
  if orders.rows.all (fun o => decide (0 < o.quotedAmountMinor) && decide (o.currency = currencyOf o.rail)) then
    .ok { l with orders, intents := Table.empty, migrationLedger := Table.empty }
  else .error checkFailed

def Intent.beforePayers (i : Intent) : Intent :=
  { i with verifiedPayer := none, settledPayer := none, finalityBasis := none }

@[simp] theorem Intent.beforePayers_intentId (i : Intent) : i.beforePayers.intentId = i.intentId := rfl

/-- The binding migration 3 gives a row that has evidence. -/
def Intent.backfill (cfg : Config) (i : Intent) : Intent :=
  { i with evidenceBinding := if i.evidenceHash.isSome then some (storedBinding cfg i.beforePayers) else none }

@[simp] theorem Intent.backfill_intentId {cfg : Config} (i : Intent) :
    (Intent.backfill cfg i).intentId = i.intentId := rfl

def evidenceIdentity (cfg : Config) (l : Ledger) : Except Err Ledger :=
  let intents := l.intents.update (fun _ => true) (Intent.backfill cfg) Intent.backfill_intentId
  if uniqueRows l.intents.rows (fun i => i.evidenceHash) && uniqueRows intents.rows (fun i => i.evidenceBinding) then
    .ok { l with intents }
  else .error uniqueFailed

/-- `UPDATE settlement_intents SET state='ambiguous',evidence_binding=NULL,...` -/
def Intent.quarantine (now : Time) (i : Intent) : Intent :=
  { i with state := .ambiguous, evidenceBinding := none, updatedAt := now }

@[simp] theorem Intent.quarantine_intentId {now : Time} (i : Intent) :
    (Intent.quarantine now i).intentId = i.intentId := rfl

def hasTerminalIntent (l : Ledger) (o : Order) : Bool :=
  l.intents.rows.any (fun i => i.state.terminal && decide (i.orderId = o.id))

/-- The updates of migrations 5 and 6: terminal intents and their orders are set aside. A
cancelled intent comes back to hold its ordinal, which `active_intent_ordinal` may refuse. -/
def quarantineTerminal (now : Time) (l : Ledger) : Except Err Ledger :=
  let orders := l.orders.update (hasTerminalIntent l) (Order.withState .manualReview now) Order.withState_id
  let intents := l.intents.update (fun i => i.state.terminal) (Intent.quarantine now) Intent.quarantine_intentId
  if (l.schema.objects .activeIntentOrdinal).isSome && !uniqueRows intents.rows Intent.activeOrdinal then
    .error uniqueFailed
  else .ok { l with orders, intents }

/-- `UPDATE ... SET state='quarantined',last_error_hash='legacy_identity_unproven' WHERE state
IN('pending','leased')`, as the two columns it sets. -/
def unproven (s : OutboxState) (lastErrorHash : Option String) : OutboxState × Option String :=
  if s = .pending ∨ s = .leased then (.quarantined, some "legacy_identity_unproven") else (s, lastErrorHash)

def Entitlement.legacy (e : Entitlement) : Entitlement :=
  { e with identity := none, identityStatus := .legacyIdentityUnproven, ackSignature := none, phase := .none,
           state := (unproven e.state e.lastErrorHash).1, lastErrorHash := (unproven e.state e.lastErrorHash).2 }

@[simp] theorem Entitlement.legacy_orderId (e : Entitlement) : e.legacy.payload.orderId = e.payload.orderId := rfl

def Revocation.legacy (r : Revocation) : Revocation :=
  { r with identity := none, identityStatus := .legacyIdentityUnproven, ackSignature := none,
           authorityRevokedAt := none, authorityRequestDigest := none,
           state := (unproven r.state r.lastErrorHash).1, lastErrorHash := (unproven r.state r.lastErrorHash).2 }

@[simp] theorem Revocation.legacy_eventId (r : Revocation) : r.legacy.payload.eventId = r.payload.eventId := rfl

def migrateRows (cfg : Config) (now : Time) (n : Nat) (l : Ledger) : Except Err Ledger :=
  match n with
  | 1 => .ok { l with orders := Table.empty, proofs := Table.empty, externalEvents := Table.empty, audit := [] }
  | 2 => settlementSecurity l
  | 3 => evidenceIdentity cfg l
  | 5 => (quarantineTerminal now l).map (fun l => { l with sequence := 0 })
  | 6 => quarantineTerminal now l
  | 7 => .ok { l with assertions := Table.empty }
  | 8 => .ok { l with intents := l.intents.update (fun _ => true) Intent.beforePayers Intent.beforePayers_intentId,
                      entitlements := Table.empty }
  | 9 => .ok { l with revocations := Table.empty }
  | 11 => .ok { l with entitlements := l.entitlements.update (fun _ => true) Entitlement.legacy Entitlement.legacy_orderId,
                       revocations := l.revocations.update (fun _ => true) Revocation.legacy Revocation.legacy_eventId }
  | 12 => .ok { l with candidates := Table.empty }
  | 13 => .ok { l with inbox := Table.empty }
  -- 4 and 10 only rewrite triggers
  | _ => .ok l

/-! One migration -/

def insertMigrationRow (m : MigrationRow) (l : Ledger) : Except Err Ledger :=
  match insertChecked l.migrationLedger m (firstBad
      [(l.migrationLedger.taken m.version (fun r => some r.filename) (some m.filename), uniqueFailed)]) with
  | .error e => .error e
  | .ok t => .ok { l with migrationLedger := t }

/-- The rows of `migration_ledger` a migration writes: none before the table exists, then
the first two together. -/
def ledgerRowsOf (n : Nat) : List MigrationRow :=
  if n = 1 then []
  else if n = 2 then migrations.take 2
  else (migrations.drop (n - 1)).take 1

def insertMigrationRows : List MigrationRow → Ledger → Except Err Ledger
  | [], l => .ok l
  | m :: ms, l =>
    match insertMigrationRow m l with
    | .error e => .error e
    | .ok l => insertMigrationRows ms l

/-- `_apply_migration` -/
def applyMigration (cfg : Config) (now : Time) (target : Nat) (l : Ledger) : Except Err Ledger := do
  let schema ← applyDdl target l.schema
  let l ← migrateRows cfg now target { l with schema }
  let l ← insertMigrationRows (ledgerRowsOf target) l
  return { l with userVersion := target }

end GrowthMap.Payments
