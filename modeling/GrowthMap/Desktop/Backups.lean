import Mathlib
import GrowthMap.Lib.Double
import GrowthMap.Lib.Fallible
import GrowthMap.Lib.Folder
import GrowthMap.Lib.IsoTime
import GrowthMap.Lib.JsonText

/- Managed backups and the markers that rest on them: desktop/managed-backup.js,
   the backup part of desktop/database-manager.js, desktop/update-recovery.js with
   the `update-available` handler of desktop/updater.js, and
   src/backend/desktop/migration_auth.py.

   Two programs in two languages read one disk. What Node and Python take from
   their standard libraries and from SQLite is a `Host`; both share its SHA-256
   and HMAC, and JSON text is read and written as `Json` has it, with one layout
   for each writer. The disk does not change while a function runs, so the
   identity comparisons of the stable reads are not spelled out; that a file is
   a single-link regular one is. -/
namespace GrowthMap.Desktop

/-! Texts and patterns -/

/-- A pattern of fixed length: one class of characters for each place. -/
def fits : List (Char → Bool) → List Char → Bool
  | [], [] => true
  | p :: ps, c :: cs => p c && fits ps cs
  | _, _ => false

/-- How an engine of regular expressions reads `\d`, and a letter under the flag
`i`. -/
structure Dialect where
  digit : Char → Bool
  same : Char → Char → Bool

def Dialect.word (d : Dialect) (s : String) : List (Char → Bool) := s.toList.map d.same

def Dialect.digits (d : Dialect) (n : Nat) : List (Char → Bool) := List.replicate n d.digit

def Dialect.among (d : Dialect) (s : String) : Char → Bool := fun c => s.toList.any (fun p => d.same p c)

def Dialect.hex (d : Dialect) (n : Nat) : List (Char → Bool) := List.replicate n (d.among "0123456789abcdef")

/-- `UUID` -/
def Dialect.uuid (d : Dialect) : List (Char → Bool) :=
  d.hex 8 ++ d.word "-" ++ d.hex 4 ++ d.word "-" ++ d.among "12345" :: d.hex 3 ++ d.word "-" ++
    d.among "89ab" :: d.hex 3 ++ d.word "-" ++ d.hex 12

def Dialect.backupOf (d : Dialect) (kind : String) : List (Char → Bool) :=
  d.word kind ++ d.word "-" ++ d.digits 4 ++ d.word "-" ++ d.digits 2 ++ d.word "-" ++ d.digits 2 ++ d.word "T" ++
    d.digits 2 ++ d.word "-" ++ d.digits 2 ++ d.word "-" ++ d.digits 2 ++ d.word "-" ++ d.digits 3 ++ d.word "Z-" ++
    d.uuid ++ d.word ".db"

/-- `BACKUP` and `_BACKUP` -/
def Dialect.backup (d : Dialect) (s : String) : Bool :=
  fits (d.backupOf "backup") s.toList || fits (d.backupOf "rollback") s.toList

/-- Node: the digits are those of ASCII, and without the flag `u` no letter outside
ASCII equals one inside. -/
def node : Dialect := ⟨Char.isDigit, fun p c => decide (c.toLower = p.toLower)⟩

/-- Python: `\d` takes every decimal digit of Unicode, and the Kelvin sign is a `k`. -/
def python (decimal : Char → Bool) : Dialect where
  digit c := c.isDigit || decimal c
  same p c := decide (c.toLower = p.toLower) || (decide (p.toLower = 'k') && decide (c = '\u212a'))

/-- `/^[0-9a-f]{64}$/` -/
def isSha256 (s : String) : Bool :=
  fits (List.replicate 64 (fun c => decide ('0' ≤ c ∧ c ≤ '9') || decide ('a' ≤ c ∧ c ≤ 'f'))) s.toList

/-- The parts of a text that matches the time stamp pattern
`\d{4}-\d\d-\d\dT\d\d:\d\d:\d\d(?:\.\d+)?(?:Z|[+-]\d\d:\d\d)`, the offset in hours and
minutes. -/
structure TimeText where
  year : Nat
  month : Nat
  day : Nat
  hour : Nat
  minute : Nat
  second : Nat
  fraction : List Char
  offset : Nat × Nat
  deriving DecidableEq, Repr

def readPoint : List Char → Option (List Char × List Char)
  | '.' :: cs =>
    if cs.takeWhile IsoTime.isDigit = [] then none
    else some (cs.takeWhile IsoTime.isDigit, cs.dropWhile IsoTime.isDigit)
  | cs => some ([], cs)

def readOffset : List Char → Option (Nat × Nat)
  | ['Z'] => some (0, 0)
  | sign :: cs => do
    if sign ≠ '+' ∧ sign ≠ '-' then none
    let (h, cs) ← IsoTime.readDigits 2 0 cs
    let cs ← IsoTime.expect ':' cs
    let (m, cs) ← IsoTime.readDigits 2 0 cs
    if cs = [] then some (h, m) else none
  | [] => none

def readTime (text : String) : Option TimeText := do
  let (year, cs) ← IsoTime.readDigits 4 0 text.toList
  let cs ← IsoTime.expect '-' cs
  let (month, cs) ← IsoTime.readDigits 2 0 cs
  let cs ← IsoTime.expect '-' cs
  let (day, cs) ← IsoTime.readDigits 2 0 cs
  let cs ← IsoTime.expect 'T' cs
  let (hour, cs) ← IsoTime.readDigits 2 0 cs
  let cs ← IsoTime.expect ':' cs
  let (minute, cs) ← IsoTime.readDigits 2 0 cs
  let cs ← IsoTime.expect ':' cs
  let (second, cs) ← IsoTime.readDigits 2 0 cs
  let (fraction, cs) ← readPoint cs
  let offset ← readOffset cs
  return ⟨year, month, day, hour, minute, second, fraction, offset⟩

/-- What `Date.parse` takes: a day that the month lacks runs over into the next one,
and midnight may be written `24:00`. -/
def TimeText.finite (t : TimeText) : Bool :=
  decide (1 ≤ t.month ∧ t.month ≤ 12 ∧ 1 ≤ t.day ∧ t.day ≤ 31 ∧ t.minute < 60 ∧ t.second < 60 ∧
    t.offset.1 < 24 ∧ t.offset.2 < 60) &&
    (decide (t.hour < 24) ||
      decide (t.hour = 24 ∧ t.minute = 0 ∧ t.second = 0) && t.fraction.all (fun c => c == '0'))

/-- `validTimestamp` -/
def validTimestamp (text : String) : Bool :=
  match readTime text with
  | some t => t.finite
  | none => false

/-- `_timestamp`: `datetime.fromisoformat` wants a day of the calendar. -/
def timestamp (text : String) : Bool :=
  match readTime text with
  | some t =>
    decide (1 ≤ t.year ∧ 1 ≤ t.month ∧ t.month ≤ 12 ∧ 1 ≤ t.day ∧ t.day ≤ IsoTime.daysInMonth t.year t.month ∧
      t.hour < 24 ∧ t.minute < 60 ∧ t.second < 60 ∧ t.offset.1 < 24 ∧ t.offset.2 < 60)
  | none => false

/-- `date.toISOString()` -/
def toISOString (d : IsoTime.DateTime) : String :=
  String.ofList (IsoTime.digits 4 d.year ++ '-' :: (IsoTime.digits 2 d.month ++ '-' :: (IsoTime.digits 2 d.day ++
    'T' :: (IsoTime.digits 2 d.hour ++ ':' :: (IsoTime.digits 2 d.minute ++ ':' :: (IsoTime.digits 2 d.second ++
      '.' :: (IsoTime.digits 3 (d.microsecond / 1000) ++ ['Z'])))))))

/-- `stamp`: colons and points become dashes. -/
def stamp (d : IsoTime.DateTime) : String :=
  String.ofList ((toISOString d).toList.map (fun c => if c = ':' ∨ c = '.' then '-' else c))

/-! JSON of the two languages -/

/-- One character in `JSON.stringify`: the short forms first, then every other
character below a blank by its code. -/
def quoteChar (c : Char) : List Char :=
  if c = Char.ofNat 8 then ['\\', 'b']
  else if c = '\t' then ['\\', 't']
  else if c = '\n' then ['\\', 'n']
  else if c = Char.ofNat 12 then ['\\', 'f']
  else if c = '\r' then ['\\', 'r']
  else if c = '"' then ['\\', '"']
  else if c = '\\' then ['\\', '\\']
  else if c.toNat < 32 then
    ['\\', 'u', '0', '0', Json.hexDigit (c.toNat / 16), Json.hexDigit (c.toNat % 16)]
  else [c]

theorem quoteChar_eq : quoteChar = Json.escapeChar := by
  funext c
  unfold quoteChar Json.escapeChar
  by_cases h1 : c = Char.ofNat 8
  · subst h1; decide
  by_cases h2 : c = '\t'
  · subst h2; decide
  by_cases h3 : c = '\n'
  · subst h3; decide
  by_cases h4 : c = Char.ofNat 12
  · subst h4; decide
  by_cases h5 : c = '\r'
  · subst h5; decide
  by_cases h6 : c = '"'
  · subst h6; decide
  by_cases h7 : c = '\\'
  · subst h7; decide
  simp only [h1, h2, h3, h4, h5, h6, h7, if_false]

theorem quoteChar_read (c : Char) (rest : List Char) :
    Json.readUnits (quoteChar c ++ rest) = (Json.readUnits rest).map (fun p => (c.toNat :: p.1, p.2)) := by
  rw [quoteChar_eq]
  exact Json.readUnits_escapeChar c rest

/-- `JSON.stringify(value)` -/
def stringifyLayout : Json.Layout := ⟨fun _ => [], [], quoteChar, Json.compact.line_blank, Json.compact.colon_blank, quoteChar_read⟩

/-- `JSON.stringify(value, null, 2)` -/
def indentLayout : Json.Layout where
  line d := '\n' :: List.replicate (2 * d) ' '
  colon := [' ']
  escape := quoteChar
  line_blank d := by simp [Json.isBlank]
  colon_blank := by decide
  escape_read := quoteChar_read

/-- `Number.isSafeInteger` -/
def safeInteger (n : Int) : Bool := decide (-(2 ^ 53 - 1) ≤ n ∧ n ≤ 2 ^ 53 - 1)

/-- `exact` -/
def hasExactly (fields : List (String × Json)) (keys : List String) : Bool := (fields.map Prod.fst).isPerm keys

/-! The disk -/

/-- A directory, with links resolved. -/
abbrev Path := List String

structure Entry where
  bytes : ByteArray
  /-- a file, and not a symbolic link -/
  regular : Bool
  links : Nat
  deriving DecidableEq

abbrev Disk := Path → AList (fun _ : String => Entry)

def Disk.get (disk : Disk) (dir : Path) (name : String) : Option Entry := Folder.get (disk dir) name

def Disk.put (disk : Disk) (dir : Path) (name : String) (e : Entry) : Disk :=
  Function.update disk dir (Folder.put name e (disk dir))

def Disk.unlink (disk : Disk) (dir : Path) (name : String) : Disk :=
  Function.update disk dir (Folder.remove name (disk dir))

/-- What the two programs take from elsewhere. -/
structure Host where
  /-- what `backups` in a directory resolves to -/
  backups : Path → Path
  windows : Bool
  /-- SHA-256 and HMAC-SHA-256, in hexadecimal -/
  sha256 : ByteArray → String
  hmac : ByteArray → ByteArray → String
  hmac_hex : ∀ key message, isSha256 (hmac key message)
  /-- `_validate_connection`: the number of projects in a database it accepts -/
  connection : ByteArray → Option Nat
  /-- SQLite's online backup -/
  copy : ByteArray → ByteArray
  /-- `MAX_BYTES` -/
  maxBytes : Nat
  /-- `toString('utf8')` of bytes that are no UTF-8 -/
  lossy : ByteArray → String
  /-- `normalize('NFC')` -/
  nfc : String → String
  /-- `localeCompare` does not put the first before the second -/
  notBefore : String → String → Bool
  /-- the decimal digits outside ASCII -/
  decimal : Char → Bool

def stableRead (e : Option Entry) : Option ByteArray := do
  let e ← e
  if e.regular ∧ e.links = 1 then some e.bytes else none

def mebibyte : Nat := 1024 * 1024

/-! managed-backup.js -/

inductive Durability where
  | fsync
  | flushFileBuffers
  deriving DecidableEq, Repr

def Durability.json : Durability → Json
  | .fsync => .obj [("fileFsync", .bool true), ("directoryFsync", .bool true)]
  | .flushFileBuffers =>
    .obj [("fileFlush", .str "FlushFileBuffers"), ("directoryFlush", .str "unsupported-windows-best-effort")]

/-- `validDurability` -/
def validDurability : Json → Bool
  | .obj [(a, .bool true), (b, .bool true)] =>
    decide ((a, b) = ("fileFsync", "directoryFsync")) || decide ((a, b) = ("directoryFsync", "fileFsync"))
  | .obj [(a, .str x), (b, .str y)] =>
    decide ((a, x, b, y) = ("fileFlush", "FlushFileBuffers", "directoryFlush", "unsupported-windows-best-effort")) ||
      decide ((a, x, b, y) = ("directoryFlush", "unsupported-windows-best-effort", "fileFlush", "FlushFileBuffers"))
  | _ => false

structure Manifest where
  createdAt : String
  file : String
  size : Int
  projects : Int
  sha256 : String
  deriving DecidableEq

def manifestKeys : List String := ["format", "createdAt", "file", "size", "projects", "sha256", "durability"]

/-- `validateManifest` -/
def validateManifest (host : Host) (value : Json) (expectedFile : String) : Except String Manifest :=
  match value with
  | .obj fields =>
    match fields.lookup "format", fields.lookup "createdAt", fields.lookup "file", fields.lookup "size",
        fields.lookup "projects", fields.lookup "sha256", fields.lookup "durability" with
    | some (.str format), some (.str createdAt), some (.str file), some (.int size), some (.int projects),
        some (.str sha256), some durability =>
      if hasExactly fields manifestKeys = false ∨ format ≠ "growthmap-backup-v1" ∨ validTimestamp createdAt = false ∨
          file ≠ host.nfc file ∨ file.toList.any (fun c => c == '/' || c == '\\') ∨ node.backup file = false ∨
          file ≠ expectedFile ∨ safeInteger size = false ∨ size < 100 ∨ safeInteger projects = false ∨ projects < 0 ∨
          isSha256 sha256 = false ∨ validDurability durability = false then
        .error "invalid managed backup manifest"
      else .ok ⟨createdAt, file, size, projects, sha256⟩
    | _, _, _, _, _, _, _ => .error "invalid managed backup manifest"
  | _ => .error "invalid managed backup manifest"

def Host.text (host : Host) (b : ByteArray) : String := (String.fromUTF8? b).getD (host.lossy b)

/-- The size and hash a caller has on record. -/
structure Expected where
  size : Int
  sha256 : String

/-- `verifyManagedBackup`; `dir` is the directory above `backups`. -/
def verifyManagedBackup (host : Host) (disk : Disk) (dir : Path) (backupId : String) (expected : Option Expected) :
    Except String Manifest :=
  if node.backup backupId = false then .error "invalid managed backup id" else
  match stableRead (disk.get (host.backups dir) backupId),
      stableRead (disk.get (host.backups dir) (backupId ++ ".json")) with
  | some db, some mf =>
    if mebibyte < mf.size then .error "managed evidence is too large" else
    match Json.loads (host.text mf) with
    | none => .error "Unexpected token in JSON"
    | some value => do
      let manifest ← validateManifest host value backupId
      if (db.size : Int) ≠ manifest.size ∨ host.sha256 db ≠ manifest.sha256 then
        .error "managed backup hash or size mismatch"
      else match expected with
        | none => .ok manifest
        | some x =>
          if manifest.size ≠ x.size ∨ manifest.sha256 ≠ x.sha256 then .error "managed backup does not match evidence"
          else .ok manifest
  | _, _ => .error "managed evidence must be a single-link regular file"

def manifestOf (name : String) : Option String :=
  if ".db.json".toList.isSuffixOf name.toList then some (String.ofList (name.toList.take (name.length - 5))) else none

/-- `listManagedBackups`: the newest first. -/
def listManagedBackups (host : Host) (disk : Disk) (dir : Path) : List (String × Manifest) :=
  let rows := (Folder.listing manifestOf (disk (host.backups dir))).filterMap
    (fun id => (verifyManagedBackup host disk dir id none).toOption.map (fun m => (id, m)))
  rows.mergeSort (fun a b => host.notBefore a.2.createdAt b.2.createdAt)

/-! database_maintenance.py -/

structure Meta where
  projects : Nat
  size : Nat
  sha256 : String

def sqliteHeader : ByteArray := ⟨#[83, 81, 76, 105, 116, 101, 32, 102, 111, 114, 109, 97, 116, 32, 51, 0]⟩

/-- `validate` -/
def Host.validate (host : Host) (e : Option Entry) : Option Meta := do
  let bytes ← stableRead e
  if bytes.size < 100 ∨ host.maxBytes < bytes.size ∨ bytes.extract 0 16 ≠ sqliteHeader then none
  let projects ← host.connection bytes
  return ⟨projects, bytes.size, host.sha256 bytes⟩

/-- `_durability` -/
def Host.durability (host : Host) : Durability := if host.windows then .flushFileBuffers else .fsync

/-- `validated_snapshot`, into the folder of backups. -/
def Host.snapshot (host : Host) (disk : Disk) (source : Option Entry) (dir : Path) (name : String) :
    Option (Disk × Meta) := do
  if (disk.get (host.backups dir) name).isSome then none
  let _ ← host.validate source
  let bytes ← stableRead source
  let written : Entry := ⟨host.copy bytes, true, 1⟩
  let final ← host.validate (some written)
  return (disk.put (host.backups dir) name written, final)

/-! database-manager.js -/

/-- The manifest `writeManifest` writes. -/
def manifestJson (host : Host) (createdAt : IsoTime.DateTime) (name : String) (final : Meta) : Json :=
  .obj [("format", .str "growthmap-backup-v1"), ("createdAt", .str (toISOString createdAt)), ("file", .str name),
    ("size", .int final.size), ("projects", .int final.projects), ("sha256", .str final.sha256),
    ("durability", host.durability.json)]

def textEntry (t : String) : Entry := ⟨t.toUTF8, true, 1⟩

/-- `writeManifest`: the file is opened with `wx`, which fails where it exists. -/
def writeManifest (host : Host) (disk : Disk) (dir : Path) (createdAt : IsoTime.DateTime) (name : String) (final : Meta) :
    Except String Disk :=
  if (disk.get (host.backups dir) (name ++ ".json")).isSome then .error "EEXIST" else
  .ok (disk.put (host.backups dir) (name ++ ".json")
    (textEntry (Json.stringify indentLayout (manifestJson host createdAt name final))))

/-- `validManaged` -/
def validManaged (host : Host) (disk : Disk) (dir : Path) : List (String × Manifest) :=
  (listManagedBackups host disk dir).filter (fun row =>
    match host.validate (disk.get (host.backups dir) row.2.file) with
    | some m => decide ((m.projects : Int) = row.2.projects ∧ m.sha256 = row.2.sha256 ∧ (m.size : Int) = row.2.size)
    | none => false)

/-- `prune` -/
def prune (host : Host) (retention : Nat) (disk : Disk) (dir : Path) : Disk :=
  ((validManaged host disk dir).drop retention).foldl
    (fun disk row => (disk.unlink (host.backups dir) row.2.file).unlink (host.backups dir) (row.2.file ++ ".json")) disk

/-- The readings a backup takes: the clock for the name and for the manifest, and
`crypto.randomUUID()`. -/
structure Readings where
  named : IsoTime.DateTime
  written : IsoTime.DateTime
  uuid : String

def backupName (r : Readings) : String := "backup-" ++ stamp r.named ++ "-" ++ r.uuid ++ ".db"

/-- `backupInternal` -/
def backupInternal (host : Host) (retention : Nat) (disk : Disk) (dir : Path) (r : Readings) : Except String (Disk × Meta) :=
  match host.snapshot disk (disk.get dir "growthmap.db") dir (backupName r) with
  | none => .error "database maintenance failed"
  | some (disk, final) => do
    let disk ← writeManifest host disk dir r.written (backupName r) final
    return (prune host retention disk dir, final)

/-- What `backup` and `migrationBackup` report: `verifiedManaged` is true. -/
structure Evidence where
  projects : Nat
  backupId : String
  sha256 : String
  size : Int

/-- `backupEvidence` -/
def backupEvidence (host : Host) (disk : Disk) (dir : Path) (backupId : String) (final : Meta) : Except String Evidence :=
  match (validManaged host disk dir).find? (fun row => row.1 == backupId) with
  | none => .error "managed backup verification failed"
  | some row => .ok ⟨final.projects, backupId, row.2.sha256, row.2.size⟩

/-- `migrationBackup`, and the action `backup` runs offline. -/
def migrationBackup (host : Host) (retention : Nat) (disk : Disk) (dir : Path) (r : Readings) :
    Except String (Disk × Evidence) := do
  let (disk, final) ← backupInternal host retention disk dir r
  let evidence ← backupEvidence host disk dir (backupName r) final
  return (disk, evidence)

/-! update-recovery.js -/

/-- A number of a version: no zero in front of other digits. -/
def readComponent (cs : List Char) : Option (Nat × List Char) :=
  let ds := cs.takeWhile Char.isDigit
  if ds = [] ∨ (ds.head? = some '0' ∧ 1 < ds.length) then none
  else some (Nat.ofDigitChars 10 ds 0, cs.dropWhile Char.isDigit)

def identifiers (cs : List Char) : Bool :=
  (cs.splitOn '.').all (fun part => !part.isEmpty && part.all (fun c => c.isAlphanum || c == '-'))

def versionTail (cs : List Char) : Bool :=
  let before := cs.takeWhile (fun c => c != '+')
  let after := cs.dropWhile (fun c => c != '+')
  (match before with
    | [] => true
    | c :: ids => c == '-' && identifiers ids) &&
  (match after with
    | [] => true
    | _ :: ids => identifiers ids)

/-- `parseSemver`: the three numbers, as `Number` has them. -/
def parseSemver (text : String) : Option (Nat × Nat × Nat) := do
  let (major, cs) ← readComponent text.toList
  let cs ← IsoTime.expect '.' cs
  let (minor, cs) ← readComponent cs
  let cs ← IsoTime.expect '.' cs
  let (patch, cs) ← readComponent cs
  if versionTail cs then some (Double.ofNat major, Double.ofNat minor, Double.ofNat patch) else none

/-- `older`: the three numbers decide. -/
def older (src dst : String) : Bool :=
  match parseSemver src, parseSemver dst with
  | some (a, b, c), some (a', b', c') =>
    if a ≠ a' then decide (a < a') else if b ≠ b' then decide (b < b') else decide (c < c')
  | _, _ => false

/-- `validMarker` of the marker the update flow makes: its key set, `schemaVersion`,
`kind` and `phase` are right as it is built. -/
def validMarker (backupId sha256 : String) (size : Int) (fromVersion toVersion createdAt : String) : Bool :=
  node.backup backupId && isSha256 sha256 && safeInteger size && decide (100 ≤ size) && older fromVersion toVersion &&
    validTimestamp createdAt

def updateMarkerName : String := "update-pending.json"

def updateMarkerJson (phase backupId sha256 : String) (size : Int) (fromVersion toVersion createdAt : String) : Json :=
  .obj [("schemaVersion", .int 1), ("kind", .str "update"), ("phase", .str phase), ("createdAt", .str createdAt),
    ("fromVersion", .str fromVersion), ("toVersion", .str toVersion), ("backupId", .str backupId),
    ("sha256", .str sha256), ("size", .int size)]

/-- `durableJson` -/
def durableJson (disk : Disk) (dir : Path) (name : String) (value : Json) : Disk :=
  disk.put dir name (textEntry (Json.stringify stringifyLayout value))

/-- `writeMarker` -/
def writeMarker (disk : Disk) (userData : Path) (phase backupId sha256 : String) (size : Int)
    (fromVersion toVersion createdAt : String) : Except String Disk :=
  if validMarker backupId sha256 size fromVersion toVersion createdAt = false then .error "invalid update marker" else
  .ok (durableJson disk userData updateMarkerName
    (updateMarkerJson phase backupId sha256 size fromVersion toVersion createdAt))

/-- The `update-available` handler, from the backup it made to the marker. -/
def updateAvailable (host : Host) (disk : Disk) (userData : Path) (saved : Evidence) (currentVersion offered : String)
    (now : IsoTime.DateTime) : Except String Disk :=
  if safeInteger saved.size = false ∨ saved.size < 100 ∨ isSha256 saved.sha256 = false then
    .error "Update requires verified managed backup evidence"
  else do
    let _ ← verifyManagedBackup host disk userData saved.backupId (some ⟨saved.size, saved.sha256⟩)
    writeMarker disk userData "download-started" saved.backupId saved.sha256 saved.size currentVersion offered (toISOString now)

def migrationMarkerName : String := "migration-authorization.json"

/-- The fields of a migration marker. -/
structure MigrationMarker where
  backupId : String
  sha256 : String
  size : Int
  projects : Int
  fromVersion : String
  toVersion : String
  createdAt : String

def MigrationMarker.json (m : MigrationMarker) : Json :=
  .obj [("schemaVersion", .int 1), ("kind", .str "pre-migration-backup"), ("backupId", .str m.backupId),
    ("sha256", .str m.sha256), ("size", .int m.size), ("projects", .int m.projects),
    ("fromVersion", .str m.fromVersion), ("toVersion", .str m.toVersion), ("createdAt", .str m.createdAt)]

/-- `canonicalMarker` of a marker built by `writeMigrationMarker`, whose fields stand
in the order of `MIGRATION_KEYS`. -/
def canonicalMarker (m : MigrationMarker) : String := Json.stringify stringifyLayout m.json

/-- `writeMigrationMarker`: the disk with the marker, and its MAC. -/
def writeMigrationMarker (host : Host) (disk : Disk) (userData : Path) (m : MigrationMarker) (sessionKey : String) :
    Except String (Disk × String) :=
  if node.backup m.backupId = false ∨ isSha256 m.sha256 = false ∨ safeInteger m.size = false ∨ m.size < 100 ∨
      safeInteger m.projects = false ∨ m.projects < 0 ∨ validTimestamp m.createdAt = false then
    .error "invalid migration marker"
  else do
    let _ ← verifyManagedBackup host disk userData m.backupId (some ⟨m.size, m.sha256⟩)
    return (durableJson disk userData migrationMarkerName m.json,
      host.hmac sessionKey.toUTF8 (canonicalMarker m).toUTF8)

/-- The marker `prepareAndStart` asks for, from the evidence of a migration backup. -/
def migrationMarker (saved : Evidence) (version : String) (now : IsoTime.DateTime) : MigrationMarker :=
  ⟨saved.backupId, saved.sha256, saved.size, saved.projects, version, version, toISOString now⟩

/-! migration_auth.py -/

/-- The environment the sidecar is started with. -/
structure Environment where
  sessionToken : String
  markerMac : String
  /-- `GROWTHMAP_MIGRATION_MARKER_FILE`, as a directory and a name -/
  markerFile : Path × String
  /-- the directory of `GROWTHMAP_LICENSE_FILE` -/
  userData : Path

/-- `_MARKER_KEYS` -/
def markerKeys : List String :=
  ["schemaVersion", "kind", "backupId", "sha256", "size", "projects", "fromVersion", "toVersion", "createdAt"]

/-- `_stable_bytes` with a limit, read as JSON. -/
def stableJson (disk : Disk) (dir : Path) (name : String) : Option Json := do
  let bytes ← stableRead (disk.get dir name)
  if mebibyte < bytes.size then none
  let text ← String.fromUTF8? bytes
  Json.loads text

/-- The dictionary has these values: `True` equals `1` in Python. -/
def equalsDurability : Json → Bool
  | .obj fields =>
    (hasExactly fields ["fileFsync", "directoryFsync"] &&
      ["fileFsync", "directoryFsync"].all (fun k => match fields.lookup k with
        | some (.bool b) => b
        | some (.int n) => decide (n = 1)
        | _ => false)) ||
    (hasExactly fields ["fileFlush", "directoryFlush"] &&
      (match fields.lookup "fileFlush" with | some j => j.is "FlushFileBuffers" | none => false) &&
      (match fields.lookup "directoryFlush" with | some j => j.is "unsupported-windows-best-effort" | none => false))
  | _ => false

/-- `_canonical_marker` -/
def canonicalDocument (fields : List (String × Json)) : Option String :=
  (markerKeys.mapM (fun key => (fields.lookup key).map (fun j => (key, j)))).map
    (fun picked => Json.stringify Json.compact (.obj picked))

/-- `value != 1` is false, for a value written as an integer or as `true`. -/
def equalsOne : Json → Bool
  | .int n => decide (n = 1)
  | .bool b => b
  | _ => false

def readMarkerFields (fields : List (String × Json)) : Option MigrationMarker :=
  match fields.lookup "schemaVersion", fields.lookup "kind", fields.lookup "backupId", fields.lookup "sha256",
      fields.lookup "size", fields.lookup "projects", fields.lookup "fromVersion", fields.lookup "toVersion",
      fields.lookup "createdAt" with
  | some schemaVersion, some (.str kind), some (.str backupId), some (.str sha256), some (.int size),
      some (.int projects), some (.str fromVersion), some (.str toVersion), some (.str createdAt) =>
    if equalsOne schemaVersion ∧ kind = "pre-migration-backup" then
      some ⟨backupId, sha256, size, projects, fromVersion, toVersion, createdAt⟩
    else none
  | _, _, _, _, _, _, _, _, _ => none

/-- The manifest of the backup says what the marker says; the writer writes its numbers
as integers. -/
def manifestAgrees (host : Host) (m : MigrationMarker) : Json → Bool
  | .obj fields =>
    match fields.lookup "format", fields.lookup "createdAt", fields.lookup "file", fields.lookup "size",
        fields.lookup "projects", fields.lookup "sha256", fields.lookup "durability" with
    | some (.str format), some (.str createdAt), some (.str file), some (.int size), some (.int projects),
        some (.str sha256), some durability =>
      hasExactly fields manifestKeys && decide (format = "growthmap-backup-v1") && decide (file = m.backupId) &&
        (python host.decimal).backup file && timestamp createdAt && equalsDurability durability &&
        decide (size = m.size) && decide (projects = m.projects) && decide (sha256 = m.sha256)
    | _, _, _, _, _, _, _ => false
  | _ => false

/-- `isinstance(doc, dict)` -/
def asObject : Json → Option (List (String × Json))
  | .obj fields => some fields
  | _ => none

/-- The checks of `authorized`. -/
def checks (host : Host) (env : Environment) (disk : Disk) : Option Unit :=
  if env.sessionToken = "" ∨ isSha256 env.markerMac = false then none else
  if env.markerFile ≠ (env.userData, migrationMarkerName) then none else do
  let doc ← stableJson disk env.userData migrationMarkerName
  let fields ← asObject doc
  if fields.map Prod.fst ≠ markerKeys then none else do
  let canonical ← canonicalDocument fields
  if host.hmac env.sessionToken.toUTF8 canonical.toUTF8 ≠ env.markerMac then none else do
  let m ← readMarkerFields fields
  if (python host.decimal).backup m.backupId = false ∨ isSha256 m.sha256 = false ∨ m.size < 100 ∨ m.projects < 0 ∨
      timestamp m.createdAt = false then none else do
  let manifest ← stableJson disk (host.backups env.userData) (m.backupId ++ ".json")
  if manifestAgrees host m manifest = false then none else do
  let backup ← stableRead (disk.get (host.backups env.userData) m.backupId)
  if (backup.size : Int) ≠ m.size ∨ host.sha256 backup ≠ m.sha256 then none else
  some ()

/-- `authorized`: the marker is gone once it was accepted. -/
def authorized (host : Host) (env : Environment) (disk : Disk) : Bool × Disk :=
  match checks host env disk with
  | some () => (true, disk.unlink env.userData migrationMarkerName)
  | none => (false, disk)

/-- The environment `startSidecar` makes for a migration. -/
def migrationEnv (userData : Path) (token mac : String) : Environment :=
  ⟨token, mac, (userData, migrationMarkerName), userData⟩

end GrowthMap.Desktop
