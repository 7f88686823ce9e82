import GrowthMap.Payments.Migrations

/- Start-up: `PaymentService._init`, and the ledger a first start leaves.

   `_init` checks the version and the migration ledger, verifies the checkpoint of a
   schema-5 database, migrates, writes a checkpoint if it migrated, verifies the checkpoint
   and the terminal evidence, finalizes what is settled and expires what is overdue. -/
namespace GrowthMap.Payments

open Relational Transaction

/-- Statements that name a table the schema does not have raise. -/
def requireTables (ts : List TableName) (l : Ledger) : Except Err Unit :=
  if ts.all l.schema.tables then .ok () else .error (.operational "no such table")

/-- `rows=={v:MIGRATIONS[v] for v in range(1,version+1)}` -/
def migrationLedgerMatches (version : Int) (l : Ledger) : Bool :=
  l.migrationLedger.rows.all (fun m => decide (m ∈ supportedLedger version)) &&
    (supportedLedger version).all (fun m => decide (m ∈ l.migrationLedger.rows))

def ledgerMismatch : Err := .runtime "migration ledger checksum mismatch"

def terminalMac (cfg : Config) (count : Nat) (root : String) (sequence version : Nat) : String :=
  cfg.settlementMac (.obj "growthmap-terminal-checkpoint-v1" [("count", .int count), ("root", .str root),
    ("sequence", .int sequence), ("version", .int version)])

def legacyTerminalRows (l : Ledger) : List Intent :=
  ((l.intents.rows.filter (fun i => i.state.terminal)).map Intent.beforePayers).mergeSort
    (fun a b => decide (a.intentId ≤ b.intentId))

/-- The document a schema-5 service published for these contents. -/
def legacyDocument (cfg : Config) (l : Ledger) : LegacyCheckpoint :=
  { count := (legacyTerminalRows l).length, root := cfg.terminalRoot (legacyTerminalRows l),
    sequence := l.sequence, version := 1,
    mac := terminalMac cfg (legacyTerminalRows l).length (cfg.terminalRoot (legacyTerminalRows l)) l.sequence 1 }

/-- `_verify_legacy_v5_checkpoint` -/
def verifyLegacyV5Checkpoint (cfg : Config) (file : CheckpointFile) (l : Ledger) : Except Err Unit := do
  requireTables [.settlementIntents, .terminalCheckpointState] l
  match file with
  | .missing =>
    if legacyTerminalRows l ≠ [] then
      throw (.runtime "external settlement checkpoint missing with terminal rows")
  | .unreadable => throw (.runtime "external settlement checkpoint unreadable")
  | .other | .issuance _ => throw (.runtime "external settlement checkpoint authentication failed")
  | .legacy c =>
    if c.mac ≠ terminalMac cfg c.count c.root c.sequence c.version ∨ c ≠ legacyDocument cfg l then
      throw (.runtime "external settlement checkpoint authentication failed")

/-- What `_init` refuses before it writes anything. -/
def checkStored (cfg : Config) (file : CheckpointFile) (l : Ledger) : Except Err Unit :=
  if (schemaVersion : Int) < l.userVersion then .error (.runtime "unsupported payment schema")
  else if l.userVersion = 0 ∧ snapshotTables.any l.schema.tables = true then
    .error (.runtime "unversioned non-empty payment database")
  else if 2 ≤ l.userVersion ∧ l.schema.tables .migrationLedger = false then
    .error (.runtime "migration ledger missing")
  else if 2 ≤ l.userVersion ∧ migrationLedgerMatches l.userVersion l = false then .error ledgerMismatch
  -- MIGRATIONS has no entry for the first target after a negative version
  else if l.userVersion < 0 then .error (.key "MIGRATIONS")
  else if l.userVersion = 5 then verifyLegacyV5Checkpoint cfg file l
  else .ok ()

/-- `range(version+1,SCHEMA_VERSION+1)` -/
def targets (version : Int) : List Nat :=
  List.range' (version.toNat + 1) (schemaVersion - version.toNat)

/-- The migrations one after the other, each committed before the next begins. -/
def migrateTo (cfg : Config) (now : Nat → Time) : List Nat → Py Unit
  | [] => pure ()
  | target :: rest => do
    beginImmediate
    statement (applyMigration cfg (now target) target)
    fun w => (.ok (), { w with conn := w.conn.commit })
    migrateTo cfg now rest

def checkpointFile : Py CheckpointFile := fun w => (.ok w.checkpoint, w)

/-- The first block of `_init`; it returns `migrated`. -/
def upgrade (cfg : Config) (now : Nat → Time) : Py Bool :=
  withDb do
    let l ← current
    ofExcept (checkStored cfg (← checkpointFile) l)
    migrateTo cfg now (targets l.userVersion)
    let l' ← current
    ofExcept (requireTables [.migrationLedger] l')
    ofExcept (if migrationLedgerMatches schemaVersion l' then .ok () else .error ledgerMismatch)
    return decide (l.userVersion < schemaVersion)

/-- The tables `_issuance_snapshot` reads without asking whether they exist. -/
def closureTables : List TableName :=
  [.orders, .paymentProofs, .externalEvents, .settlementIntents, .auditEvents, .migrationLedger,
   .terminalCheckpointState]

/-- `_write_checkpoint` -/
def writeCheckpoint (cfg : Config) : Py Unit := fun w =>
  match requireTables closureTables w.conn.current with
  | .error e => (.error e, w)
  | .ok () =>
    let rest := { w with publications := w.publications.tail }
    let file := CheckpointFile.issuance (checkpointDocument cfg w.conn.current)
    match w.publication with
    | .ok => (.ok (), { rest with checkpoint := file })
    | .writeFails => (.error ⟨.os, "checkpoint"⟩, rest)
    | .commitFails => (.error (.operational "commit"), { rest with checkpoint := file })

/-- `_init` as far as its first checkpoint. -/
def establish (cfg : Config) (now : Nat → Time) : Py Unit := do
  if ← upgrade cfg now then writeCheckpoint cfg

/-- `_verify_or_initialize_checkpoint()` and `_verify_terminal_evidence()` -/
def verifyStored (cfg : Config) : Py Unit := fun w =>
  match requireTables closureTables w.conn.current with
  | .error e => (.error e, w)
  | .ok () => assertTerminalTrust cfg w

/-- The clock readings of a start-up. -/
structure StartClock where
  migration : Nat → Time
  finalize : Nat → Nat → Time
  expire : Nat → Time

/-- `_init` -/
def init (cfg : Config) (clk : StartClock) : Py Unit := do
  establish cfg clk.migration
  verifyStored cfg
  recoverDurableSettlements cfg clk.finalize
  transaction cfg (reconcileExpiredIntents cfg clk.expire)

/-! The first start -/

def lastWritten : SchemaObject → Nat
  | .quotedAmountMinor | .oneEarlyPerOrdinal | .activeIntentOrdinal | .auditNoUpdate | .auditNoDelete => 2
  | .evidenceBinding | .settlementEvidenceIdentity | .settlementEvidenceBinding => 3
  | .settlementTerminalDelete | .settlementEvidenceRequiredInsert | .settlementEvidenceRequiredUpdate => 6
  | .revocationAssertionNoUpdate | .revocationAssertionNoDelete => 7
  | .verifiedPayer | .settledPayer | .finalityBasis | .entitlementOutboxPending
  | .entitlementOutboxPayloadImmutable | .entitlementOutboxNoDelete | .entitlementOutboxAckOnce
  | .legacyLicenseJsonNoInsert | .legacyLicenseJsonNoUpdate => 8
  | .revocationOutboxPending | .revocationOutboxPayloadImmutable | .revocationOutboxNoDelete
  | .revocationOutboxAckOnce => 9
  | .settlementTerminalImmutable => 10
  | .settlementCandidateImmutable | .settlementCandidateDelete => 12
  | .whopWebhookInboxState | .whopWebhookPayloadImmutable | .whopWebhookNoDelete
  | .whopWebhookStateMonotonic => 13
  | _ => 11

def schema13 : Schema := ⟨fun _ => true, fun o => some (lastWritten o)⟩

/-- The ledger of schema 13 with no row but the migration ledger's. -/
def freshLedger : Ledger :=
  { userVersion := schemaVersion, schema := schema13, migrationLedger := ⟨migrations, by decide⟩,
    orders := Table.empty, proofs := Table.empty, externalEvents := Table.empty, intents := Table.empty,
    candidates := Table.empty, audit := [], entitlements := Table.empty,
    revocations := Table.empty, assertions := Table.empty, inbox := Table.empty, sequence := 0 }

def blankLedger : Ledger :=
  { freshLedger with userVersion := 0, schema := ⟨fun _ => false, fun _ => none⟩, migrationLedger := Table.empty }

/-- A new service object over a database and a checkpoint file. -/
def opened (l : Ledger) (file : CheckpointFile) (publications : List Publication) : World :=
  { conn := ⟨l, none⟩, checkpoint := file, checkpointFailed := false, publications, failedFrom := none }

end GrowthMap.Payments
