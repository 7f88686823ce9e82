import GrowthMap.Db.Contract
import GrowthMap.Lib.Fallible

/- The desktop's read-only look at a database (`_open_validated` and
   `schema_status` of desktop/database_maintenance.py) and the migration that the
   backend runs on it at a writable start (db/migrations.py).

   Both read one database content, as SQLite answers their queries. What a
   statement of the migration makes of the content is a parameter; the statements
   that were executed are recorded. -/
namespace GrowthMap.Db

/-- A row of `sqlite_schema`. -/
structure SchemaObject where
  type : String
  name : String
  tblName : String
  sql : Option String
  deriving DecidableEq, Repr

/-- The columns of a row of a table: NULL, or the text that SQL's `length` measures. -/
abbrev Row := String → Option String

structure Content where
  pageCount : Nat
  pageSize : Nat
  /-- `sqlite_schema`, in its order -/
  schema : List SchemaObject
  tempObjects : Nat
  quickCheck : List String
  foreignKeyErrors : Nat
  userVersion : Int
  tableInfo : String → List Column
  rows : String → List Row

/-- `WHERE name=?`, the first row of the answer -/
def Content.object (c : Content) (name : String) : Option SchemaObject := c.schema.find? (·.name = name)

def Content.column (c : Content) (table name : String) : Option Column := (c.tableInfo table).find? (·.name = name)

/-- `{row[1]:row for row in rows}.get(name)` -/
def Content.columnByName (c : Content) (table name : String) : Option Column :=
  (c.tableInfo table).reverse.find? (·.name = name)

/-- `SELECT 1 FROM table WHERE column IS NULL LIMIT 1` has a row. -/
def Content.hasNull (c : Content) (table column : String) : Bool := (c.rows table).any (fun row => row column = none)

def require (p : Prop) [Decidable p] (message : String) : Except String Unit := if p then .ok () else .error message

variable {message : String}

@[simp] theorem require_eq_ok {p : Prop} [Decidable p] {u : Unit} : require p message = .ok u ↔ p := by
  by_cases hp : p
  · simp [require, hp]
  · simp [require, hp]

theorem require_bind {p : Prop} [Decidable p] {α : Type} {f : Unit → Except String α} {a : α} :
    require p message >>= f = .ok a ↔ p ∧ f () = .ok a := by
  by_cases hp : p
  · simp [require, hp]
  · simp [require, hp]

/-! The read-only validator -/

def coreTables : List String := [
  "projects", "nodes", "edges", "content_blocks", "suggestions", "action_logs", "provider_configs", "branches",
  "agent_artifacts", "agent_sessions", "agent_grants", "agent_receipts", "agent_proposals", "agent_events", "agent_readbacks"]

def extensionTableColumns : List (String × List String) := [
  ("schema_migrations", [
    "migration_id", "checksum", "applied_at"]),
  ("game_content_packs", [
    "id", "pack_key", "version", "chapter_key", "source_revision", "source_mapping_path", "source_sha256", "artifact_sha256",
    "owner_node_ids_json", "output_flow_node_id", "status", "created_at", "updated_at"]),
  ("game_events", [
    "id", "content_pack_id", "event_key", "chapter_key", "section_key", "order_index", "public_prompt", "reveal_tier",
    "canonical_input_json", "optional_ui_prep_json", "condition_json", "next_routing_json", "metadata_json"]),
  ("game_choices", [
    "id", "event_id", "choice_key", "label", "leaf_order", "condition_json", "outcome_json", "effects_json", "outputs_json",
    "negative_refs_json", "metadata_json"]),
  ("game_content_releases", [
    "id", "pack_key", "content_version", "contract_version", "release_schema_version", "source_mapping_path", "source_sha256",
    "artifact_path", "artifact_sha256", "owner_node_ids_json", "event_count", "choice_count", "serializer_version",
    "replay_verifier_version", "release_digest", "status", "created_at"]),
  ("player_chapter_runs", [
    "id", "player_id", "content_pack_id", "chapter_key", "run_key", "current_event_id", "status", "state_json", "created_at",
    "updated_at"]),
  ("player_event_resolutions", [
    "id", "run_id", "content_pack_id", "event_id", "choice_id", "sequence_no", "idempotency_key", "content_version",
    "event_key", "choice_key", "known_state_json", "input_refs_json", "outcome_json", "effects_json", "outputs_json",
    "resolved_at", "integrity_hash"]),
  ("player_grant_ledger", [
    "id", "run_id", "resolution_id", "grant_key", "payload_json", "granted_at"]),
  ("player_idempotency_operations", [
    "id", "operation_type", "operation_scope", "player_id", "idempotency_key", "request_digest", "status", "result_json",
    "receipt_json", "created_at", "completed_at"]),
  ("player_action_receipts", [
    "id", "run_id", "resolution_id", "receipt_kind", "sequence_no", "prev_receipt_hash", "receipt_hash",
    "canonical_action_json", "canonical_input_json", "canonical_result_json", "canonical_effects_json",
    "canonical_grants_json", "rng_json", "external_inputs_json", "projection_digest", "contract_version", "content_version",
    "artifact_sha256", "asset_manifest_version", "asset_manifest_sha256", "rule_version", "projection_version",
    "serializer_version", "verifier_version", "resolved_at"]),
  ("player_run_replay_pins", [
    "run_id", "release_id", "contract_version", "content_version", "artifact_sha256", "asset_manifest_version",
    "asset_manifest_sha256", "rule_version", "projection_version", "serializer_version", "replay_verifier_version",
    "genesis_hash", "chain_head", "next_sequence", "created_at"])]

def allowedIndexTables : List (String × String) := [
  ("idx_nodes_project", "nodes"), ("idx_nodes_type", "nodes"), ("idx_nodes_status", "nodes"), ("idx_edges_project", "edges"),
  ("idx_edges_from", "edges"), ("idx_edges_to", "edges"), ("idx_content_blocks_node", "content_blocks"),
  ("idx_suggestions_node", "suggestions"), ("idx_suggestions_status", "suggestions"),
  ("idx_action_logs_project", "action_logs"), ("idx_action_logs_node", "action_logs"), ("idx_branches_project", "branches"),
  ("idx_agent_artifacts_session", "agent_artifacts"), ("idx_agent_artifacts_status", "agent_artifacts"),
  ("ux_edges_one_mainline_per_parent", "edges"), ("ix_agent_grants_token_prefix", "agent_grants"),
  ("ix_agent_grants_project_id", "agent_grants"), ("ix_agent_receipts_grant_id", "agent_receipts"),
  ("ix_agent_receipts_project_id", "agent_receipts"), ("ux_agent_receipt_idempotency", "agent_receipts"),
  ("ix_agent_proposals_grant_id", "agent_proposals"), ("ix_agent_proposals_project_id", "agent_proposals"),
  ("ix_agent_events_grant_id", "agent_events"), ("ix_agent_events_project_id", "agent_events"),
  ("ix_agent_readbacks_grant_id", "agent_readbacks"), ("ix_agent_readbacks_project_id", "agent_readbacks"),
  ("idx_game_choices_event", "game_choices"), ("idx_game_events_pack", "game_events"),
  ("idx_player_idempotency_lookup", "player_idempotency_operations"), ("idx_player_receipts_run", "player_action_receipts"),
  ("idx_player_runs_player", "player_chapter_runs"), ("idx_resolutions_run", "player_event_resolutions"),
  ("ux_player_receipt_action_resolution", "player_action_receipts"), ("ux_player_receipt_run_init", "player_action_receipts")]

def allowedTriggerTables : List (String × String) := [
  ("trg_edges_one_mainline_insert", "edges"), ("trg_edges_one_mainline_update", "edges"),
  ("trg_edges_normalize_null_insert", "edges"), ("trg_edges_normalize_null_update", "edges"),
  ("trg_action_receipt_immutable_delete", "player_action_receipts"),
  ("trg_action_receipt_immutable_update", "player_action_receipts"),
  ("trg_action_receipt_pins_before_insert", "player_action_receipts"),
  ("trg_active_content_pack_delete", "game_content_packs"), ("trg_active_content_pack_update", "game_content_packs"),
  ("trg_active_pack_choice_delete", "game_choices"), ("trg_active_pack_choice_insert", "game_choices"),
  ("trg_active_pack_choice_update", "game_choices"), ("trg_active_pack_event_delete", "game_events"),
  ("trg_active_pack_event_insert", "game_events"), ("trg_active_pack_event_update", "game_events"),
  ("trg_content_release_immutable_delete", "game_content_releases"),
  ("trg_content_release_immutable_update", "game_content_releases"), ("trg_grant_immutable_delete", "player_grant_ledger"),
  ("trg_grant_immutable_update", "player_grant_ledger"),
  ("trg_player_idempotency_immutable_delete", "player_idempotency_operations"),
  ("trg_player_idempotency_immutable_update", "player_idempotency_operations"),
  ("trg_replay_pins_immutable_delete", "player_run_replay_pins"),
  ("trg_replay_pins_immutable_update", "player_run_replay_pins"),
  ("trg_replay_pins_release_before_insert", "player_run_replay_pins"),
  ("trg_resolution_immutable_delete", "player_event_resolutions"),
  ("trg_resolution_immutable_update", "player_event_resolutions")]

def extensionSqlSha256 : List (String × String) := [
  ("idx_game_choices_event", "e39c5233dfb0b6d0577733d460d709b91d19c84ddd5c99f68e8e4bf682775acc"),
  ("idx_game_events_pack", "cbd3a03fcecd293daff2d59b07cc11f39761b14a21147e4bdc7bc805e4b32ead"),
  ("idx_player_idempotency_lookup", "f3b98aad3c2155e833ec567592c9b054c8a35c647f2d7cbcc0d2fcd137715920"),
  ("idx_player_receipts_run", "2204577f6903debcc4026767c88f7b007cac49f46e28fd0d0219414903fee33a"),
  ("idx_player_runs_player", "b5036522c7dabbf494091905e095b425cdaf86ecfb3051d951674afebe57de55"),
  ("idx_resolutions_run", "7e38271a5a1a5d54fb89a600a68ce9ff79a7b13061b1d323f396dd490b158630"),
  ("ux_player_receipt_action_resolution", "e983ea2b53a2647ac69fd5eae413a573a1c3b76b223effa900e7d8adba07cf60"),
  ("ux_player_receipt_run_init", "1f527314225956e250b26532a35995e1f7d6366282c4a960cd7505c83bcc37f9"),
  ("game_choices", "5981fa0dcb112d737059d0179e92204d92aceaaf2f3b243b58da442bec12d58c"),
  ("game_content_packs", "e4e8e82f3238cc162b7d09191d394b86b8385514d4d29324d7481b99570aae8f"),
  ("game_content_releases", "8799dacfcd622adc70495696dffe2ad690e2c7c4c840b2cd829be1467c315027"),
  ("game_events", "300fc5dac5c2c30867cca514cab8e9b5a9cfe25ad5740fd458e07e4c487d5500"),
  ("player_action_receipts", "9129943b8a06338823a5b391d8e382257e2080371c93eb6da08cc8956df34c18"),
  ("player_chapter_runs", "bfffe8f411c123a9d11366d4d9b7d4b1b35dad050f88b9e224ab7b587345b7a6"),
  ("player_event_resolutions", "aa5856b91d99c871e4ca814d6e83622c24f07941d9ad55ec02872a77c45b4e10"),
  ("player_grant_ledger", "6d2ee12ab2eaa748d090259dc9c5e68b17fe0d62adedd206e046c3ea0f810a81"),
  ("player_idempotency_operations", "3331805b05aac1f219dacb92d3e726e63a33d10b79d5070d621cd7cf08240405"),
  ("player_run_replay_pins", "16543fae68bd0ba7679e01c1611ec4aac330c60abf2d77477848ae46b8672bdd"),
  ("schema_migrations", "358175f7a55bf13134311d0e433b2e6adaec0865c908fe3a3b4b3897d7064b13"),
  ("trg_action_receipt_immutable_delete", "548fac38db24707efa603837d5dd8917d9620a070e1188fe188072699ece56c5"),
  ("trg_action_receipt_immutable_update", "ea6caa6f0b194ae5dab11a00446504b54e81a33d1531214d8d381146fa955fd3"),
  ("trg_action_receipt_pins_before_insert", "03ee702b611f09a003f789af8948d7d43af3719d523bcea6553e7c332d383fa1"),
  ("trg_active_content_pack_delete", "e74387f247a8493046d793026388aa34ca202b6a5e7400defc23dd9262f5257b"),
  ("trg_active_content_pack_update", "d2de23359b1db95468cd78e2815dc42e224ef3f2245b6566559c7863239a7cce"),
  ("trg_active_pack_choice_delete", "cb265ab617dc1a4bee811eb9771c75c6eb88f997ed8f33efdd22009518be4092"),
  ("trg_active_pack_choice_insert", "f0b87077b0079bea9c08360a12ac4be7b6547baf7565b963ab8ab463ab585793"),
  ("trg_active_pack_choice_update", "466fc312307c7b3e29f684328ee791c79122b232cef3c4af7b015fb46efb2f38"),
  ("trg_active_pack_event_delete", "d6c97f74db0f3e6eee55a0bbcac838a61158a8cc3a7bcd3a5f9bb503f25d87a9"),
  ("trg_active_pack_event_insert", "dbf485a307790f85e683123d79b63adcbb9637984fc53dd437dc2edc8ad387bf"),
  ("trg_active_pack_event_update", "4e487b47217bc748ac08ca5e53641b0ac33415bc7d6c9b3be96ddbc2ee4f509c"),
  ("trg_content_release_immutable_delete", "423726d14a733cba383650a657fead038200531ef6cfd8efe43c5f3f78bc8bda"),
  ("trg_content_release_immutable_update", "42536a2dc970c32cfa5444e1c75922d73b48ce087f3641948ca8237253f14d60"),
  ("trg_grant_immutable_delete", "fa40a0550c45fe93bffa1411a14a15111bedc4244094ab14ce0c5ea7a4265b83"),
  ("trg_grant_immutable_update", "96e290900bd9524f3a7fd828a95dcdba2c149671a304594901965d8a2be1bfef"),
  ("trg_player_idempotency_immutable_delete", "fe4c97a6adeb47e162b74183b3f133646b77ebcf8db421b8a0a96f8a80798b79"),
  ("trg_player_idempotency_immutable_update", "3e8c2d25625ad3f23345c48fdb71a0632aa3cd90f85f0d446a7dfc163dc039cf"),
  ("trg_replay_pins_immutable_delete", "129b01e392f94986a52adbec93b766b8eb0f623510e0e1817e6ebfb8314fb33d"),
  ("trg_replay_pins_immutable_update", "447c449e18946d8188c7cedfb2026905efb0ceceb209e27f93bfc79777f3a64c"),
  ("trg_replay_pins_release_before_insert", "4c66b35de4c75ef49e8a9ebbafb129df82552e85d67340ffbca2af2faa12ee0f"),
  ("trg_resolution_immutable_delete", "0a942781f3faf2d27fa852cda8038f881b76d84dadeb7fc599157f0e55f0bc43"),
  ("trg_resolution_immutable_update", "e1c75e17f5990a80546209c6b3154756f170f15476deb4a9fadd67a91144713e")]

/-- `REQUIRED` -/
def required : List (String × List String) := [
  ("projects", ["id", "name", "status", "created_at", "updated_at"]),
  ("nodes", ["id", "project_id", "title", "node_type", "status", "maturity"]),
  ("edges", ["id", "project_id", "from_node_id", "to_node_id", "relation_type"]),
  ("content_blocks", ["id", "node_id", "block_type", "content", "order_index"]),
  ("action_logs", ["id", "project_id", "actor_type", "action_type", "created_at"]),
  ("provider_configs", ["id", "name", "provider_type", "model_name", "enabled"])]

def maxCounts : List (String × Nat) := [
  ("projects", 100000), ("nodes", 5000000), ("edges", 10000000), ("content_blocks", 5000000), ("action_logs", 20000000)]

def allowedTables : List String := coreTables ++ extensionTableColumns.map Prod.fst

/-- SQL's LIKE: `_` is any character, `%` any text, letters match in both cases. -/
def like : List Char → List Char → Bool
  | [], s => s.isEmpty
  | '%' :: pattern, s => s.tails.any (like pattern)
  | _ :: _, [] => false
  | p :: pattern, c :: s => (p == '_' || p.toLower == c.toLower) && like pattern s

section Validator

variable (U : Unicode) (sha256 : List Char → String)

/-- `" ".join(s.split())` -/
def squeeze (s : List Char) : List Char := [' '].intercalate ((s.splitOnP isSpace).filter (· ≠ []))

/-- `if sql` -/
def truthy (sql : Option String) : Option String := sql.filter (· ≠ "")

def objectDigest (sql : Option String) : String :=
  match truthy sql with
  | some sql => sha256 (squeeze (U.lowerText (strip sql.toList)))
  | none => ""

def isVirtual (sql : String) : Bool := "CREATE VIRTUAL".toList <+: U.upperText (sql.toList.dropWhile isSpace)

/-- `actual == expected`, of sets -/
def sameSet (actual expected : List String) : Bool := actual.all expected.contains && expected.all actual.contains

def approve (c : Content) (o : SchemaObject) : Except String Unit := do
  require (∀ digest ∈ extensionSqlSha256.lookup o.name, objectDigest U sha256 o.sql = digest)
    "database contains an incompatible extension schema object"
  if o.type = "table" ∧ o.name ∈ allowedTables ∧ (truthy o.sql).any (fun sql => !isVirtual U sql) then
    require (∀ expected ∈ extensionTableColumns.lookup o.name, sameSet ((c.tableInfo o.name).map Column.name) expected)
      "database contains an incompatible extension table"
  else
    require ((o.type = "index" ∧ allowedIndexTables.lookup o.name = some o.tblName) ∨
        (o.type = "trigger" ∧ allowedTriggerTables.lookup o.name = some o.tblName))
      "database contains an unapproved schema object"

/-- What `_validate_connection` returns. -/
structure Validated where
  userVersion : Int
  counts : List (String × Nat)
  pageCount : Nat
  pageSize : Nat

variable (maxBytes : Int)

def validateConnection (c : Content) : Except String Validated := do
  require (0 < c.pageCount ∧ 0 < c.pageSize ∧ c.pageCount * c.pageSize ≤ maxBytes) "database page limits exceeded"
  (c.schema.filter (fun o => !like "sqlite_autoindex_%".toList o.name.toList)).forM (approve U sha256 c)
  require (c.tempObjects = 0) "temporary schema objects are not allowed"
  require (c.quickCheck = ["ok"]) "SQLite quick check failed"
  require (c.foreignKeyErrors = 0) "foreign key check failed"
  require (c.userVersion ≤ currentUserVersion) "database schema is newer than this application"
  required.forM (fun (table, columns) => do
    require ((c.object table).map SchemaObject.type = some "table") "required table is missing"
    require (∀ column ∈ columns, column ∈ (c.tableInfo table).map Column.name) "required columns are missing")
  maxCounts.forM (fun (table, limit) => require ((c.rows table).length ≤ limit) "database row limits exceeded")
  [("projects", "name"), ("nodes", "title"), ("content_blocks", "content")].forM (fun (table, column) =>
    require (∀ row ∈ c.rows table, ∀ value ∈ row column, value.length ≤ 16777216) "database value limits exceeded")
  return {
    userVersion := c.userVersion
    counts := maxCounts.map (fun (table, _) => (table, (c.rows table).length)) ++
      [("activeProjects", ((c.rows "projects").filter (fun row => row "status" = some "active")).length)]
    pageCount := c.pageCount
    pageSize := c.pageSize }

/-- A database file that is there. -/
structure Source where
  /-- the path starts with two backslashes -/
  network : Bool
  /-- a part of the path is a reparse point (Windows only) -/
  reparse : Bool
  symlink : Bool
  regular : Bool
  links : Nat
  size : Nat
  device : Nat
  inode : Nat
  bytes : List UInt8
  content : Content

def Source.regularFile (s : Source) : Except String Unit := do
  require (s.network = false) "network paths are not allowed"
  require (s.reparse = false) "database path contains a reparse point"
  require (s.symlink = false ∧ s.regular = true ∧ s.links = 1) "database must be a single-link regular file"
  require (100 ≤ s.size ∧ s.size ≤ maxBytes) "database size is outside limits"
  require (s.bytes.take 16 = ("SQLite format 3".toList ++ [Char.ofNat 0]).map (fun c => UInt8.ofNat c.toNat)) "not a SQLite database"

/-- What `_open_validated` returns beside the connection. -/
structure Opened extends Validated where
  size : Nat
  fileSha256 : String
  device : String
  inode : String

variable (fileDigest : List UInt8 → String)

def openValidated (s : Source) : Except String Opened := do
  s.regularFile maxBytes
  let validated ← validateConnection U sha256 maxBytes s.content
  return { validated with
    size := s.size, fileSha256 := fileDigest s.bytes, device := toString s.device, inode := toString s.inode }

/-! `schema_status` -/

def ormReasons (c : Content) : List String :=
  ormReadColumns.flatMap (fun (table, contract) => contract.filterMap (fun (column, expected) =>
    (ormColumnProblem U (c.columnByName table column) expected).map
      (fun problem => problem.text ++ "_orm_column:" ++ table ++ "." ++ column)))

/-- A column that is missing is reported by the ORM contract and not looked into. -/
def nullReasons (c : Content) : List String :=
  rowRequiredNonNull.flatMap (fun (table, columns) => columns.filterMap (fun column =>
    if column ∈ (c.tableInfo table).map Column.name ∧ c.hasNull table column = true then
      some ("null_data:" ++ table ++ "." ++ column)
    else none))

def columnReasons (c : Content) : List String :=
  columns.filterMap (fun spec =>
    match c.column spec.table spec.column with
    | none => some ("column:" ++ spec.table ++ "." ++ spec.column)
    | some row =>
      if columnMatches U row spec then none else some ("incompatible_column:" ++ spec.table ++ "." ++ spec.column))

def objectReasons (c : Content) : List String :=
  objectSql.filterMap (fun (name, sql) =>
    match c.object name with
    | none => some ("object:" ++ name)
    | some row => if normalizeSql U row.sql = normalizeSql U (some sql) then none else some ("incompatible_object:" ++ name))

def versionReasons (userVersion : Int) : List String :=
  if userVersion = currentUserVersion then [] else ["user_version:" ++ toString userVersion]

structure Evidence where
  fileSha256 : String
  size : Nat
  userVersion : Int

structure Status where
  present : Bool
  compatible : Bool
  migrationNeeded : Bool
  reasons : List String
  evidence : Option Evidence

def schemaStatus : Option Source → Except String Status
  | none => .ok { present := false, compatible := false, migrationNeeded := true, reasons := ["database_missing"], evidence := none }
  | some s => do
    let opened ← openValidated U sha256 maxBytes fileDigest s
    let reasons := ormReasons U s.content ++ nullReasons s.content ++ columnReasons U s.content ++ objectReasons U s.content ++
      versionReasons opened.userVersion
    return {
      present := true
      compatible := reasons.isEmpty
      migrationNeeded := !reasons.isEmpty
      reasons := reasons
      evidence := some { fileSha256 := opened.fileSha256, size := opened.size, userVersion := opened.userVersion } }

end Validator

/-! `migrate_sqlite` -/

inductive Statement where
  | ddl (sql : String)
  | setUserVersion (version : Int)
  deriving DecidableEq, Repr

/-- The content as it is now, and the statements executed so far. -/
structure Migration where
  content : Content
  executed : List Statement

section Migrate

variable (U : Unicode) (execute : String → Content → Except String Content) (failAfter : Option String)

def Migration.run (m : Migration) (sql : String) : Except String Migration := do
  let content ← execute sql m.content
  return { content := content, executed := m.executed ++ [.ddl sql] }

def validateColumn (c : Content) (spec : ColumnSpec) : Except String Bool :=
  match c.column spec.table spec.column with
  | none => .ok false
  | some row => do
    require (columnMatches U row spec = true) ("incompatible migration column " ++ spec.table ++ "." ++ spec.column)
    return true

/-- A round of the loop over `COLUMNS`. -/
def migrateColumn (upgrading : Bool) (step : ColumnSpec × Nat) (m : Migration) : Except String Migration := do
  let present ← validateColumn U m.content step.1
  let m ← if present then .ok m else do
    require (upgrading = true) ("missing migration column " ++ step.1.table ++ "." ++ step.1.column)
    m.run execute step.1.ddl
  require (¬ (upgrading = true ∧ failAfter = some (toString step.2))) "injected migration failure"
  return m

/-- `expected` of `_validate_objects`: name, kind and text -/
def expectedObjects : List (String × String × String) :=
  ("ux_edges_one_mainline_per_parent", "index", indexSql) :: triggers.map (fun (name, sql) => (name, "trigger", sql))

/-- A round of the loop of `_validate_objects`. -/
def validateObject (createMissing : Bool) (expected : String × String × String) (m : Migration) : Except String Migration :=
  let (name, kind, sql) := expected
  match m.content.object name with
  | none => do
    require (createMissing = true) ("missing migration " ++ kind ++ " " ++ name)
    m.run execute sql
  | some row => do
    require (row.type = kind ∧ normalizeSql U row.sql = normalizeSql U (some sql)) ("incompatible migration " ++ kind ++ " " ++ name)
    return m

def validateOrmReadContract (c : Content) : Except String Unit :=
  ormReadColumns.forM (fun (table, contract) => contract.forM (fun (column, expected) =>
    match ormColumnProblem U (c.columnByName table column) expected with
    | some problem => .error (problem.text ++ " ORM read column " ++ table ++ "." ++ column)
    | none => .ok ()))

def validateRequiredRows (c : Content) : Except String Unit :=
  rowRequiredNonNull.forM (fun (table, columns) => columns.forM (fun column =>
    require (c.hasNull table column = false) ("incompatible NULL data " ++ table ++ "." ++ column)))

def advanceVersion (upgrading : Bool) (m : Migration) : Migration :=
  if upgrading then {
    content := { m.content with userVersion := currentUserVersion }
    executed := m.executed ++ [.setUserVersion currentUserVersion] }
  else m

def migrateSqlite (c : Content) : Except String Migration := do
  require (c.userVersion ≤ currentUserVersion) "database schema is newer than this application"
  let upgrading := decide (c.userVersion < currentUserVersion)
  let m ← Fallible.each (migrateColumn U execute failAfter upgrading) (columns.zipIdx 1) { content := c, executed := [] }
  let m ← Fallible.each (validateObject U execute upgrading) expectedObjects m
  columns.forM (fun spec => do
    let present ← validateColumn U m.content spec
    require (present = true) "AssertionError")
  validateOrmReadContract U m.content
  validateRequiredRows m.content
  let m := advanceVersion upgrading m
  require (m.content.userVersion = currentUserVersion) "migration version did not validate"
  return m

end Migrate

end GrowthMap.Db
