import GrowthMap.Lib.JsonText
import GrowthMap.Desktop.Entitlements

/- The evidence the desktop keeps under `userData` (desktop/strict-json.js,
   desktop/protected-history.js, desktop/license-freshness-store.js,
   desktop/revocation-store.js, desktop/trial-store.js).

   A protected file holds the encrypted text of a JSON value. Every replacement
   of a file is atomic: it is written under a temporary name and renamed. What a
   function writes is therefore a list of replacements, in the order of the
   source, and a crash leaves the disk after some first part of that list. -/
namespace GrowthMap.Desktop

/-- What the stores take from the platform. -/
structure Platform where
  /-- `safeStorage.encryptString` -/
  encrypt : String → Bytes
  /-- `safeStorage.decryptString`, which may throw -/
  decrypt : Bytes → Option String
  /-- `Buffer.from(text)` -/
  toBytes : String → Bytes
  /-- `buffer.toString('utf8')` -/
  toText : Bytes → String
  /-- `key.toLocaleLowerCase('und').normalize('NFC')` -/
  fold : String → String
  /-- the number of a numeral; one of integral value is an integer -/
  number : String → Json
  /-- `Date.parse`, in milliseconds; `none` is NaN -/
  dateParse : String → Option Int
  /-- `new Date(ms).toISOString()` -/
  toISOString : Int → String
  /-- `strict_json_loads(path.read_text("utf-8"))` of the backend -/
  loads : Bytes → Option Json

/-- A regular file under `userData`. -/
inductive Stored where
  | absent
  /-- it exists and reading it fails -/
  | unreadable
  | content (bytes : Bytes)
  deriving DecidableEq, Repr

/-- `fs.existsSync` -/
def Stored.exists_ : Stored → Bool
  | .absent => false
  | _ => true

/-! Reading JSON -/

mutual

def distinctKeys (S : Platform) : Json → Bool
  | .arr items => distinctKeysItems S items
  | .obj fields => decide ((fields.map (fun f => S.fold f.1)).Nodup) && distinctKeysFields S fields
  | _ => true

def distinctKeysItems (S : Platform) : List Json → Bool
  | [] => true
  | j :: items => distinctKeys S j && distinctKeysItems S items

def distinctKeysFields (S : Platform) : List (String × Json) → Bool
  | [] => true
  | (_, j) :: fields => distinctKeys S j && distinctKeysFields S fields

end

mutual

def evaluate (S : Platform) : Json → Json
  | .int n => S.number (String.ofList (Json.renderInt n))
  | .real text => S.number text
  | .arr items => .arr (evaluateItems S items)
  | .obj fields => .obj (evaluateFields S fields)
  | j => j

def evaluateItems (S : Platform) : List Json → List Json
  | [] => []
  | j :: items => evaluate S j :: evaluateItems S items

def evaluateFields (S : Platform) : List (String × Json) → List (String × Json)
  | [] => []
  | (key, j) :: fields => (key, evaluate S j) :: evaluateFields S fields

end

/-- `JSON.parse` -/
def jsonParse (S : Platform) (raw : String) : Option Json := (Json.loads raw).map (evaluate S)

/-- `parseStrictJson`: the scan refuses keys that collide, then `JSON.parse`
builds the value. -/
def parseStrictJson (S : Platform) (raw : String) : Option Json := do
  let scanned ← Json.parse raw
  if distinctKeys S scanned then jsonParse S raw else none

/-- `JSON.stringify` -/
def jsonStringify (j : Json) : String := Json.stringify Json.compact j

/-- `parseStrictJson(fs.readFileSync(file, 'utf8'))` -/
def readStrict (S : Platform) : Stored → Option Json
  | .content b => parseStrictJson S (S.toText b)
  | _ => none

/-- `parseStrictJson(decrypt(fs.readFileSync(file)))` -/
def decryptJson (S : Platform) : Stored → Option Json
  | .content b => (S.decrypt b).bind (parseStrictJson S)
  | _ => none

/-- `encrypt(JSON.stringify(value))` -/
def encryptJson (S : Platform) (j : Json) : Stored := .content (S.encrypt (jsonStringify j))

/-- The fields of an object that has exactly these keys; `exact`. A key that holds
the separator of the source names none of the fields read after it. -/
def exact (keys : List String) : Json → Option (List (String × Json))
  | .obj fields => if exactKeys fields keys then some fields else none
  | _ => none

/-- `===` of two values of different documents. -/
def strictEq : Json → Json → Bool
  | .null, .null => true
  | .bool a, .bool b => decide (a = b)
  | .int m, .int n => decide (m = n)
  | .real s, .real t => decide (s = t)
  | .str s, .str t => decide (s = t)
  | _, _ => false

/-- The value is `undefined` where the field is missing. -/
def strictEqField (a b : Option Json) : Bool :=
  match a, b with
  | some x, some y => strictEq x y
  | none, none => true
  | _, _ => false

def isTruthy : Json → Bool
  | .null => false
  | .bool b => b
  | .int n => decide (n ≠ 0)
  | .str s => decide (s ≠ "")
  | _ => true

/-- `String(value)` of a value that is no object. -/
def toStringJs : Json → String
  | .null => "null"
  | .bool true => "true"
  | .bool false => "false"
  | .int n => String.ofList (Json.renderInt n)
  | .real t => t
  | .str s => s
  | _ => "[object Object]"

/-! The folder -/

/-- The files of `userData` that startup goes by. -/
structure UserData where
  /-- license.json -/
  license : Stored := .absent
  /-- trial-state.json -/
  trialState : Stored := .absent
  /-- trial-marker.bin -/
  trialMarker : Stored := .absent
  /-- installation-identity.bin -/
  identity : Stored := .absent
  /-- license-freshness.json -/
  freshness : Stored := .absent
  /-- license-freshness.bin -/
  freshnessReceipt : Stored := .absent
  /-- revocation.json -/
  revocation : Stored := .absent
  /-- revocation-receipt.bin -/
  revocationReceipt : Stored := .absent
  /-- commercial-history.bin -/
  history : Stored := .absent
  /-- commercial-history-presence.bin -/
  presence : Stored := .absent
  /-- growthmap.db -/
  database : Stored := .absent
  /-- update-pending.json -/
  updatePending : Stored := .absent
  /-- migration-authorization.json -/
  migrationAuthorization : Stored := .absent
  /-- files under the names an interrupted replacement of the database leaves -/
  residue : List Stored := []
  /-- `listManagedBackups(userData).length > 0` -/
  managedBackup : Bool := false

/-- One atomic replacement of a file. -/
inductive Write where
  | freshness (file : Stored)
  | freshnessReceipt (file : Stored)
  | presence (file : Stored)
  | history (file : Stored)
  | identity (file : Stored)
  | trialMarker (file : Stored)

def Write.apply (u : UserData) : Write → UserData
  | .freshness file => { u with freshness := file }
  | .freshnessReceipt file => { u with freshnessReceipt := file }
  | .presence file => { u with presence := file }
  | .history file => { u with history := file }
  | .identity file => { u with identity := file }
  | .trialMarker file => { u with trialMarker := file }

def UserData.after (u : UserData) (writes : List Write) : UserData := writes.foldl Write.apply u

/-! The commercial history -/

def presenceKind : String := "growthmap-commercial-history-present"

/-- `kinds` of the history file: at least one, each known, none twice. -/
def kindsOf : Json → Option (List String)
  | .arr items =>
    let kinds := items.filterMap textOf
    if 1 ≤ items.length ∧ (∀ j ∈ items, (textOf j).any (fun k => decide (k ∈ ["paid", "revocation"]))) ∧ kinds.Nodup then some kinds
    else none
  | _ => none

/-- `read` of the history; `none` is `null`. -/
def historyRead (S : Platform) (u : UserData) : Option (List String) :=
  if u.history.exists_ = false ∧ u.presence.exists_ = false then some []
  else if u.history.exists_ = false ∨ u.presence.exists_ = false then none
  else do
    let x ← (decryptJson S u.history).bind (exact ["schemaVersion", "kinds"])
    let p ← (decryptJson S u.presence).bind (exact ["schemaVersion", "kind"])
    if strictEq (at_ x "schemaVersion") (.int 1) ∧ strictEq (at_ p "schemaVersion") (.int 1) ∧ (at_ p "kind").is presenceKind then
      kindsOf (at_ x "kinds")
    else none

/-- `[...prior.add(kind)].sort()` -/
def addKind (kind : String) (prior : List String) : List String :=
  ["paid", "revocation"].filter (fun k => decide (k = kind ∨ k ∈ prior))

def presenceFile (S : Platform) : Stored := encryptJson S (.obj [("schemaVersion", .int 1), ("kind", .str presenceKind)])

def historyFile (S : Platform) (kinds : List String) : Stored :=
  encryptJson S (.obj [("schemaVersion", .int 1), ("kinds", .arr (kinds.map .str))])

/-- `mark`: the replacements, or the history is invalid. -/
def historyMark (S : Platform) (u : UserData) (kind : String) : Except String (List Write) :=
  match historyRead S u with
  | none => .error "Protected commercial history is invalid"
  | some prior => .ok [.presence (presenceFile S), .history (historyFile S (addKind kind prior))]

/-! License freshness -/

structure Freshness where
  licenseId : Json
  firstSeenAt : Json
  lastSeenAt : Json

/-- What `read` of the freshness store returns. -/
inductive FreshnessEvidence where
  /-- `null` -/
  | none
  | invalid
  | seen (x : Freshness)

def freshnessKeys : List String := ["schemaVersion", "licenseId", "firstSeenAt", "lastSeenAt"]

def digest (P : Primitives) (S : Platform) (text : String) : String := P.sha256 (S.toBytes text)

def freshnessAgrees (P : Primitives) (S : Platform) (x y : Json) : Option Freshness := do
  let state ← exact freshnessKeys x
  let receipt ← exact (freshnessKeys ++ ["sha256"]) y
  if strictEq (at_ state "schemaVersion") (.int 1) ∧ strictEq (at_ receipt "schemaVersion") (.int 1) ∧
      strictEq (at_ state "licenseId") (at_ receipt "licenseId") ∧
      strictEq (at_ state "firstSeenAt") (at_ receipt "firstSeenAt") ∧
      strictEq (at_ state "lastSeenAt") (at_ receipt "lastSeenAt") ∧
      (at_ receipt "sha256").is (digest P S (jsonStringify x)) then
    some ⟨at_ state "licenseId", at_ state "firstSeenAt", at_ state "lastSeenAt"⟩
  else none

/-- `read` of the freshness store. -/
def freshnessRead (P : Primitives) (S : Platform) (u : UserData) : FreshnessEvidence :=
  match historyRead S u with
  | none => .invalid
  | some kinds =>
    if u.freshness.exists_ = false ∧ u.freshnessReceipt.exists_ = false then
      if "paid" ∈ kinds then .invalid else .none
    else if u.freshness.exists_ = false ∨ u.freshnessReceipt.exists_ = false ∨ "paid" ∉ kinds then .invalid
    else match readStrict S u.freshness, decryptJson S u.freshnessReceipt with
      | some x, some y => match freshnessAgrees P S x y with
        | some z => .seen z
        | none => .invalid
      | _, _ => .invalid

def rollbackTolerance : Int := 300000

/-- The clock is more than the tolerance behind the last reading. -/
def rolledBack (S : Platform) (now : Int) (x : Freshness) : Bool :=
  (S.dateParse (toStringJs x.lastSeenAt)).any (fun last => decide (now + rollbackTolerance < last))

/-- What `checkpoint` writes for this reading. -/
def Freshness.state (x : Freshness) : Json :=
  .obj [("schemaVersion", .int 1), ("licenseId", x.licenseId), ("firstSeenAt", x.firstSeenAt), ("lastSeenAt", x.lastSeenAt)]

def Freshness.receipt (P : Primitives) (S : Platform) (x : Freshness) : Json :=
  .obj [("schemaVersion", .int 1), ("licenseId", x.licenseId), ("firstSeenAt", x.firstSeenAt), ("lastSeenAt", x.lastSeenAt),
    ("sha256", .str (digest P S (jsonStringify x.state)))]

/-- The reading `checkpoint` records: the first one stays. -/
def Freshness.next (S : Platform) (prior : Option Freshness) (licenseId : String) (now : Int) : Freshness :=
  let first := match prior with
    | some x => if isTruthy x.firstSeenAt then x.firstSeenAt else .str (S.toISOString now)
    | none => .str (S.toISOString now)
  ⟨.str licenseId, first, .str (S.toISOString now)⟩

/-- The replacements of the state, its receipt and the history, and the outcome. -/
def recordFreshness (P : Primitives) (S : Platform) (u : UserData) (x : Freshness) : List Write × Except String Freshness :=
  let files := [Write.freshness (.content (S.toBytes (jsonStringify x.state))), Write.freshnessReceipt (encryptJson S (x.receipt P S))]
  match historyMark S u "paid" with
  | .error reason => (files, .error reason)
  | .ok marks => (files ++ marks, .ok x)

/-- `checkpoint(licenseId)` -/
def checkpoint (P : Primitives) (S : Platform) (u : UserData) (now : Int) (licenseId : String) :
    List Write × Except String Freshness :=
  match freshnessRead P S u with
  | .invalid => ([], .error "License freshness evidence is invalid")
  | .none => recordFreshness P S u (Freshness.next S none licenseId now)
  | .seen prior =>
    if prior.licenseId.is licenseId = false then ([], .error "License freshness identity mismatch")
    else if rolledBack S now prior then ([], .error "System clock rollback detected")
    else recordFreshness P S u (Freshness.next S (some prior) licenseId now)

/-! Revocation -/

inductive Revocation where
  | none
  | invalid (reason : String)
  | accepted (licenseId sequence : Option Json)

def receiptMatches (P : Primitives) (S : Platform) (bytes : Bytes) (doc mark : Json) : Bool :=
  match exact ["schemaVersion", "licenseId", "sequence", "sha256"] mark with
  | none => false
  | some m =>
    strictEq (at_ m "schemaVersion") (.int 1) && strictEqField (m.lookup "licenseId") (doc.field "license_id") &&
      strictEqField (m.lookup "sequence") (doc.field "sequence") && (at_ m "sha256").is (P.sha256 bytes)

/-- `inspect` -/
def revocationInspect (P : Primitives) (S : Platform) (u : UserData) : Revocation :=
  match historyRead S u with
  | none => .invalid "revocation_history_invalid"
  | some kinds =>
    if u.revocation.exists_ = false ∧ u.revocationReceipt.exists_ = false then
      if "revocation" ∈ kinds then .invalid "revocation_evidence_deleted" else .none
    else if u.revocation.exists_ = false ∨ u.revocationReceipt.exists_ = false ∨ "revocation" ∉ kinds then
      .invalid "revocation_evidence_deleted"
    else match u.revocation with
      | .content bytes => match parseStrictJson S (S.toText bytes), decryptJson S u.revocationReceipt with
        | some .null, _ => .invalid "revocation_evidence_tampered"
        | some doc, some mark =>
          if receiptMatches P S bytes doc mark then .accepted (mark.field "licenseId") (mark.field "sequence")
          else .invalid "revocation_evidence_tampered"
        | _, _ => .invalid "revocation_evidence_tampered"
      | _ => .invalid "revocation_evidence_tampered"

/-! The trial -/

/-- `[0-9a-f]{8}-[0-9a-f]{4}-[1-5][0-9a-f]{3}-[89ab][0-9a-f]{3}-[0-9a-f]{12}`, in
either case. -/
def isUuid (s : String) : Bool :=
  let cs := s.toList.map Char.toLower
  decide (cs.length = 36) && (cs.zipIdx.all (fun c =>
    if c.2 = 8 ∨ c.2 = 13 ∨ c.2 = 18 ∨ c.2 = 23 then decide (c.1 = '-')
    else if c.2 = 14 then decide (c.1 ∈ ['1', '2', '3', '4', '5'])
    else if c.2 = 19 then decide (c.1 ∈ ['8', '9', 'a', 'b'])
    else isLowerHex c.1))

/-- `validIso` -/
def validIso (S : Platform) (j : Json) : Bool := (textOf j).any (fun s => (S.dateParse s).isSome)

structure Marker where
  installationId : String
  startedAt : String

/-- `null`, `{corrupt: true}`, or the value. -/
inductive Found (α : Type) where
  | missing
  | corrupt
  | value (x : α)

/-- `secureMarker` -/
def secureMarker (S : Platform) (u : UserData) : Found Marker :=
  match u.trialMarker with
  | .absent => .missing
  | file => match (decryptJson S file).bind (exact ["schemaVersion", "installationId", "startedAt"]) with
    | none => .corrupt
    | some m =>
      if strictEq (at_ m "schemaVersion") (.int 1) ∧ (textOf (at_ m "installationId")).any isUuid ∧ validIso S (at_ m "startedAt") then
        .value ⟨(textOf (at_ m "installationId")).getD "", (textOf (at_ m "startedAt")).getD ""⟩
      else .corrupt

/-- `jsonState`: the installation and the start of the free state. -/
def jsonState (S : Platform) (u : UserData) : Found Marker :=
  match u.trialState with
  | .absent => .missing
  | .unreadable => .corrupt
  | .content b => match (jsonParse S (S.toText b)).bind (exact freeFields) with
    | none => .corrupt
    | some m =>
      if strictEq (at_ m "schema_version") (.int 1) ∧ (textOf (at_ m "installation_id")).any isUuid ∧
          validIso S (at_ m "started_at") ∧ validIso S (at_ m "last_seen_at") then
        .value ⟨(textOf (at_ m "installation_id")).getD "", (textOf (at_ m "started_at")).getD ""⟩
      else .corrupt

/-- `SQLite format 3\0` -/
def databaseHeader : Bytes :=
  [0x53, 0x51, 0x4c, 0x69, 0x74, 0x65, 0x20, 0x66, 0x6f, 0x72, 0x6d, 0x61, 0x74, 0x20, 0x33, 0x00]

/-- `validDatabase` -/
def validDatabase : Stored → Bool
  | .content b => decide (100 ≤ b.length ∧ b.take 16 = databaseHeader)
  | _ => false

/-- `validJsonMarker` -/
def validJsonMarker (S : Platform) (kind : String) : Stored → Bool
  | .content b => match jsonParse S (S.toText b) with
    | some j => strictEqField (j.field "schemaVersion") (some (.int 1)) && strictEqField (j.field "kind") (some (.str kind)) &&
        ((j.field "backupId").bind textOf).isSome && (j.field "createdAt").any (validIso S)
    | none => false
  | _ => false

def validIdentity (S : Platform) (file : Stored) : Bool :=
  match (decryptJson S file).bind (exact ["schemaVersion", "kind", "installationId", "createdAt"]) with
  | none => false
  | some m => strictEq (at_ m "schemaVersion") (.int 1) && (at_ m "kind").is "growthmap-installation-receipt" &&
      (textOf (at_ m "installationId")).any isUuid && validIso S (at_ m "createdAt")

/-- `hasPriorUse`; an invalid identity throws. -/
def hasPriorUse (S : Platform) (u : UserData) : Except Unit Bool :=
  match u.identity with
  | .absent => .ok (validDatabase u.database || u.managedBackup || validJsonMarker S "update" u.updatePending ||
      validJsonMarker S "pre-migration-backup" u.migrationAuthorization || u.residue.any validDatabase)
  | file => if validIdentity S file then .ok true else .error ()

inductive Trial where
  | fresh (marker : Marker)
  | existing (marker : Marker)
  | extraction (reason : String)

/-- `prepare`, at this time and with this new installation. -/
def trialPrepare (S : Platform) (u : UserData) (now : Int) (installation : String) : Trial :=
  match secureMarker S u, jsonState S u with
  | .missing, .missing => match hasPriorUse S u with
    | .error () => .extraction "prior_installation_evidence_invalid"
    | .ok true => .extraction "prior_installation_evidence"
    | .ok false => .fresh ⟨installation, S.toISOString now⟩
  | .value marker, .value state =>
    if marker.installationId ≠ state.installationId ∨ S.dateParse marker.startedAt ≠ S.dateParse state.startedAt then
      .extraction "trial_state_mismatch"
    else .existing marker
  | _, _ => .extraction "trial_state_mismatch"

def identityFile (S : Platform) (marker : Marker) (now : Int) : Stored :=
  encryptJson S (.obj [("schemaVersion", .int 1), ("kind", .str "growthmap-installation-receipt"),
    ("installationId", .str marker.installationId), ("createdAt", .str (S.toISOString now))])

def markerFile (S : Platform) (marker : Marker) : Stored :=
  encryptJson S (.obj [("schemaVersion", .int 1), ("installationId", .str marker.installationId), ("startedAt", .str marker.startedAt)])

/-- `commit` -/
def trialCommit (S : Platform) (u : UserData) (now : Int) (marker : Marker) : Except String (List Write) :=
  if u.trialMarker.exists_ ∨ u.identity.exists_ then .error "secure installation identity already exists"
  else .ok [.identity (identityFile S marker now), .trialMarker (markerFile S marker)]

end GrowthMap.Desktop
