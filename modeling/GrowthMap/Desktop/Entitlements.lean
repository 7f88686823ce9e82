import GrowthMap.Lib.Json
import GrowthMap.Lib.Fallible

/- The desktop entitlement (desktop/entitlements.py, desktop/startup_verdict.py,
   desktop/mutation_gate.py).

   What the backend decides on: the launch environment, three files, the license
   key and the clock. The cryptographic primitives, base64 and the reading of a
   timestamp are parameters. A file is absent, cannot be read, is not strict JSON,
   or is a JSON value. Of exceptions only that they are raised is kept: the code
   catches them all in one place. -/
namespace GrowthMap.Desktop

abbrev Bytes := List UInt8

structure Primitives where
  /-- HMAC-SHA256, in hexadecimal -/
  hmac : (key message : String) → String
  /-- SHA-256, in hexadecimal -/
  sha256 : Bytes → String
  /-- Ed25519: the signature of the message under the key -/
  verify : (key signature : Bytes) → (message : String) → Bool
  /-- `base64.b64decode(…, validate=True)` -/
  b64decode : String → Option Bytes
  /-- the instant of a timestamp with a time zone, in microseconds -/
  fromisoformat : String → Option Int

inductive FileState where
  | absent
  /-- an `OSError` -/
  | unreadable
  /-- not UTF-8, not JSON, or a key twice -/
  | malformed
  | doc (value : Json)

/-- The file of the license public key. -/
inductive KeyFile where
  | unreadable
  | placeholder
  /-- a PEM key of another kind -/
  | foreign
  | ed25519 (key : Bytes)

/-- The environment of a launch; a variable that is not set reads as empty. -/
structure Launch where
  mode : String
  device : String
  nonce : String
  session : String
  proof : String
  mac : String
  token : String
  /-- `GROWTHMAP_FRESH_INSTALL` is `1` -/
  freshInstall : Bool
  /-- `CI` is `true` -/
  ci : Bool

structure Files where
  license : FileState
  freeState : FileState
  revocation : FileState
  licenseKey : KeyFile

inductive EntitlementState where
  | extraction | free | paid | paidObserved | paidLegacy
  deriving DecidableEq, Repr

structure Entitlement where
  state : EntitlementState := .extraction
  edition : String := "unpaid"
  licenseId : Option String := none
  majorVersion : Option Int := none
  deviceAllowance : Option Int := none
  maxActiveProjects : Option Int := some 0
  valid : Bool := false
  mutationsAllowed : Bool := false
  reason : String := "no_free_state"
  freeStartedAt : Option Int := none
  deriving DecidableEq, Repr

/-- `Entitlement(reason=…)` -/
def Entitlement.denied (reason : String) : Entitlement := { reason }

/-! Patterns and timestamps -/

def isAlnum (c : Char) : Bool := c.isAlphanum

/-- Between `lo` and `hi` characters of the class. -/
def matchesRange (cls : Char → Bool) (lo hi : Nat) (s : String) : Bool :=
  decide (lo ≤ s.toList.length ∧ s.toList.length ≤ hi) && s.toList.all cls

def isLowerHex (c : Char) : Bool := ('0' ≤ c && c ≤ '9') || ('a' ≤ c && c ≤ 'f')

/-- `[A-Za-z0-9_-]{32,128}` -/
def isNonce (s : String) : Bool := matchesRange (fun c => isAlnum c || c = '_' || c = '-') 32 128 s

/-- `[0-9a-f]{64}` -/
def isMac (s : String) : Bool := matchesRange isLowerHex 64 64 s

/-- `[A-Za-z0-9-]{8,80}` -/
def isInstallationId (s : String) : Bool := matchesRange (fun c => isAlnum c || c = '-') 8 80 s

/-- `[A-Za-z0-9][A-Za-z0-9._-]{0,79}` -/
def isLicenseId (s : String) : Bool :=
  (s.toList.head?.any isAlnum) && matchesRange (fun c => isAlnum c || c = '.' || c = '_' || c = '-') 1 80 s

/-- The text and then exactly `n` digits `[0-9a-f]`. -/
def isTagged (tag : String) (n : Nat) (s : String) : Bool :=
  match s.toList.dropPrefix? tag.toList with
  | none => false
  | some rest => decide (rest.length = n) && rest.all isLowerHex

/-- `_iso` -/
def iso (P : Primitives) : Json → Except Unit Int
  | .str s => match P.fromisoformat s with
    | some t => .ok t
    | none => .error ()
  | _ => .error ()

/-- `_iso(value) if value is not None else None` -/
def isoOpt (P : Primitives) : Json → Except Unit (Option Int)
  | .null => .ok none
  | j => (iso P j).map some

def minutes (n : Int) : Int := n * 60000000

/-- `ROLLBACK_TOLERANCE`, and `REVOCATION_FUTURE_SKEW` -/
def tolerance : Int := minutes 5

/-! Documents -/

def activationFields : List String :=
  ["schema_version", "certificate_type", "product", "edition", "license_id", "activation_id", "major_version",
    "device_allowance", "device_id", "device_public_key", "issued_at", "expires_at", "revoked_at", "max_active_projects",
    "next_check_in_at", "signature"]

def licenseFields : List String :=
  ["schema_version", "edition", "license_id", "major_version", "device_allowance", "device_binding", "issued_at", "expires_at",
    "revoked_at", "max_active_projects", "next_check_in_at", "signature"]

def licenseRequired : List String :=
  ["schema_version", "edition", "license_id", "major_version", "device_allowance", "issued_at", "max_active_projects",
    "signature"]

def exactKeys (fields : List (String × Json)) (keys : List String) : Bool :=
  fields.all (fun f => decide (f.1 ∈ keys)) && keys.all (fun k => decide (k ∈ fields.map Prod.fst))

/-- `doc.get(key)`; also `doc[key]` of a key that is there. -/
def at_ (fields : List (String × Json)) (key : String) : Json := (fields.lookup key).getD .null

/-- `canonical_payload`: the document without its signature. -/
def canonicalPayload (fields : List (String × Json)) : String :=
  (Json.obj (fields.filter (fun f => decide (f.1 ≠ "signature")))).text

def activationDomain : String := "growthmap-activation-certificate-v2\x00"

/-- `_device_id` -/
def deviceId (P : Primitives) : Json → Except Unit String
  | .str s => match P.b64decode s with
    | some raw => if raw.length ≠ 32 then .error () else .ok ("gmdev_" ++ P.sha256 raw)
    | none => .error ()
  | _ => .error ()

def isTwo : Json → Bool
  | .int n => decide (n = 2)
  | .real t => decide (t = "2.0")
  | _ => false

def isPositive : Json → Bool
  | .int n => decide (1 ≤ n)
  | _ => false

def intOf : Json → Option Int
  | .int n => some n
  | _ => none

def textOf : Json → Option String
  | .str s => some s
  | _ => none

def signed (P : Primitives) (key : KeyFile) (domain : String) (fields : List (String × Json)) : Except Unit (Option Entitlement) :=
  match key with
  | .unreadable => .error ()
  | .placeholder => .ok (some (.denied "placeholder_public_key"))
  | .foreign => .ok (some (.denied "invalid_public_key"))
  | .ed25519 raw =>
    match at_ fields "signature" with
    | .str s => match P.b64decode s with
      | some signature => if P.verify raw signature (domain ++ canonicalPayload fields) then .ok none else .error ()
      | none => .error ()
    | _ => .error ()

def checkDevice (P : Primitives) (device : String) (fields : List (String × Json)) : Except Unit (Option Entitlement) :=
  let named : Entitlement :=
    { licenseId := textOf (at_ fields "license_id"), majorVersion := intOf (at_ fields "major_version") }
  if (at_ fields "certificate_type").is "growthmap_device_activation" = false ∨ (at_ fields "product").is "growthmap" = false then
    .ok (some (.denied "invalid_certificate_type"))
  else if ((textOf (at_ fields "activation_id")).any (isTagged "gma_" 32)) = false then
    .ok (some (.denied "invalid_activation_id"))
  else if ((textOf (at_ fields "device_id")).any (isTagged "gmdev_" 64)) = false then
    .ok (some (.denied "invalid_device_binding"))
  else do
    let id ← deviceId P (at_ fields "device_public_key")
    if (at_ fields "device_id").is id = false then .ok (some (.denied "invalid_device_binding"))
    else if device = "" then .ok (some { named with reason := "device_identity_missing" })
    else if (at_ fields "device_public_key").is device = false then .ok (some { named with reason := "wrong_device" })
    else .ok none

/-- The signed times of the document, and the verdict they lead to. -/
def judge (P : Primitives) (now : Int) (isActivation : Bool) (fields : List (String × Json)) (expiry revoked : Option Int) :
    Except Unit Entitlement :=
  let named : Entitlement :=
    { licenseId := textOf (at_ fields "license_id"), majorVersion := intOf (at_ fields "major_version") }
  let observed : Entitlement :=
    { named with
      state := .paidObserved, edition := (textOf (at_ fields "edition")).getD "",
      deviceAllowance := intOf (at_ fields "device_allowance"), maxActiveProjects := none }
  if (intOf (at_ fields "major_version")) ≠ some 1 then .ok { named with reason := "major_mismatch" }
  else if expiry.any (fun t => decide (t ≤ now)) then .ok { observed with reason := "expired" }
  else if revoked.any (fun t => decide (t ≤ now)) then .ok { observed with reason := "revoked" }
  else if isActivation = false then
    .ok { observed with state := .paidLegacy, valid := true, reason := "legacy_bootstrap_required" }
  else do
    let next ← iso P (at_ fields "next_check_in_at")
    if next < now then .ok { named with reason := "check_in_required" }
    else .ok { observed with state := .paid, valid := true, mutationsAllowed := true, reason := "valid" }

/-- What stands behind the signature, in the order of the source; a returned
entitlement ends the check. -/
def verifySigned (P : Primitives) (now : Int) (device : String) (isActivation : Bool) (fields : List (String × Json)) :
    Except Unit Entitlement :=
  if ((intOf (at_ fields "device_allowance")).any (fun n => decide (2 < n))) = true then .ok (.denied "invalid_device_allowance")
  else match at_ fields "max_active_projects", iso P (at_ fields "issued_at"), isoOpt P (at_ fields "expires_at"),
      isoOpt P (at_ fields "revoked_at") with
    | .null, .ok _, .ok expiry, .ok revoked =>
      if isActivation then do
        match ← checkDevice P device fields with
        | some denied => .ok denied
        | none => judge P now isActivation fields expiry revoked
      else match at_ fields "device_binding" with
        | .null => judge P now isActivation fields expiry revoked
        | _ => .ok (.denied "device_binding_unsupported")
    | .null, .error (), _, _ => .ok (.denied "invalid_issued_at")
    | .null, .ok _, .error (), _ => .ok (.denied "invalid_expiry")
    | .null, .ok _, .ok _, .error () => .ok (.denied "invalid_revocation")
    | _, _, _, _ => .ok (.denied "invalid_limit")

def invalidFields (isActivation : Bool) (fields : List (String × Json)) : Bool :=
  if isActivation then !exactKeys fields activationFields
  else fields.any (fun f => decide (f.1 ∉ licenseFields)) || licenseRequired.any (fun k => decide (k ∉ fields.map Prod.fst))

/-- The checks of shape and type, then the signature, then the rest. -/
def verifyFields (P : Primitives) (key : KeyFile) (now : Int) (device : String) (fields : List (String × Json)) :
    Except Unit Entitlement :=
  let version := at_ fields "schema_version"
  let isActivation := isTwo version
  if invalidFields isActivation fields then .ok (.denied "invalid_document")
  else if intOf version ≠ some 1 ∧ intOf version ≠ some 2 then .ok (.denied "unsupported_schema")
  else match at_ fields "edition" with
    | .arr _ | .obj _ => .error ()
    | edition =>
      if ((textOf edition).any (fun e => decide (e ∈ ["personal", "pro", "studio"]))) = false then .ok (.denied "invalid_edition")
      else if ((textOf (at_ fields "license_id")).any isLicenseId) = false then .ok (.denied "invalid_license_id")
      else if isPositive (at_ fields "major_version") = false then .ok (.denied "invalid_major_version")
      else if isPositive (at_ fields "device_allowance") = false then .ok (.denied "invalid_device_allowance")
      else do
        match ← signed P key (if isActivation then activationDomain else "") fields with
        | some denied => .ok denied
        | none => verifySigned P now device isActivation fields

/-- `verify_document` -/
def verifyDocument (P : Primitives) (key : KeyFile) (now : Int) (device : String) : Json → Entitlement
  | .obj fields => match verifyFields P key now device fields with
    | .ok e => e
    | .error () => .denied "invalid_signature"
  | _ => .denied "invalid_document"

/-! Revocation -/

def revocationFields : List String :=
  ["schema_version", "assertion_type", "product", "major_version", "license_id", "revoked_at", "sequence", "reason_code",
    "signature"]

def revocationReasons : List String := ["refund", "chargeback", "fraud", "terms_violation", "administrative"]

def revocationDomain : String := "growthmap-revocation-v1\x00"

/-- `CANONICAL_UTC` -/
def isCanonicalUtc (s : String) : Bool :=
  let digitsAt := fun (cs : List Char) (n : Nat) => decide ((cs.take n).length = n) && (cs.take n).all Char.isDigit
  let cs := s.toList
  let fraction := (cs.drop 19).dropLast
  digitsAt cs 4 && digitsAt (cs.drop 5) 2 && digitsAt (cs.drop 8) 2 && digitsAt (cs.drop 11) 2 && digitsAt (cs.drop 14) 2 &&
    digitsAt (cs.drop 17) 2 && decide (cs[4]? = some '-' ∧ cs[7]? = some '-' ∧ cs[10]? = some 'T' ∧ cs[13]? = some ':' ∧
      cs[16]? = some ':' ∧ (cs.drop 19).getLast? = some 'Z') &&
    (fraction.isEmpty || decide (fraction.head? = some '.' ∧ 2 ≤ fraction.length ∧ fraction.length ≤ 7) &&
      fraction.tail.all Char.isDigit)

def reasonKnown : Json → Bool
  | .null => true
  | .str s => decide (s ∈ revocationReasons)
  | _ => false

/-- `verify_revocation_assertion` -/
def verifyRevocation (P : Primitives) (key : KeyFile) (now : Int) (licenseId : String) (issuedAt : Json) :
    Json → Except Unit Unit
  | .obj fields =>
    if exactKeys fields revocationFields = false then .error ()
    else if ["schema_version", "major_version", "sequence"].any (fun k => (intOf (at_ fields k)).isNone) then .error ()
    else if ["assertion_type", "product", "license_id", "revoked_at", "signature"].any (fun k => (textOf (at_ fields k)).isNone) then
      .error ()
    else if intOf (at_ fields "schema_version") ≠ some 1 ∨ (at_ fields "assertion_type").is "growthmap_license_revocation" = false ∨
        (at_ fields "product").is "growthmap" = false then .error ()
    else if (at_ fields "license_id").is licenseId = false then .error ()
    else if intOf (at_ fields "major_version") ≠ some 1 then .error ()
    else if (intOf (at_ fields "sequence")).any (fun n => decide (n ≤ 0)) then .error ()
    else if reasonKnown (at_ fields "reason_code") = false then .error ()
    else if (textOf (at_ fields "revoked_at")).any isCanonicalUtc = false then .error ()
    else do
      let revoked ← iso P (at_ fields "revoked_at")
      if now + tolerance < revoked then .error () else
      let issued ← isoOpt P issuedAt
      if issued.any (fun t => decide (revoked < t)) then .error () else
      match ← signed P key revocationDomain fields with
      | some _ => .error ()
      | none => .ok ()
  | _ => .error ()

/-- `apply_revocation` -/
def applyRevocation (P : Primitives) (files : Files) (now : Int) (issuedAt : Json) (value : Entitlement) : Entitlement :=
  let named : Entitlement := { licenseId := value.licenseId, majorVersion := value.majorVersion }
  if (value.state ≠ .paid ∧ value.state ≠ .paidLegacy) ∨ value.valid = false then value
  else match files.revocation with
    | .absent => value
    | .unreadable | .malformed => { named with reason := "revocation_state_invalid" }
    | .doc j => match verifyRevocation P files.licenseKey now (value.licenseId.getD "") issuedAt j with
      | .ok () => { named with reason := "revoked" }
      | .error () => { named with reason := "revocation_state_invalid" }

/-! Free -/

def isOne : Json → Bool
  | .int n => decide (n = 1)
  | .bool b => b
  | .real t => decide (t = "1.0")
  | _ => false

def freeFields : List String := ["schema_version", "installation_id", "started_at", "last_seen_at"]

/-- `free_entitlement` without a checkpoint. -/
def freeEntitlement (P : Primitives) (now : Int) : FileState → Entitlement
  | .absent => .denied "no_free_state"
  | .doc (.obj fields) =>
    if exactKeys fields freeFields = false ∨ isOne (at_ fields "schema_version") = false ∨
        (textOf (at_ fields "installation_id")).any isInstallationId = false then .denied "corrupt_free_state"
    else match iso P (at_ fields "started_at"), iso P (at_ fields "last_seen_at") with
      | .ok started, .ok last =>
        if now + tolerance < started ∨ now + tolerance < last then
          { reason := "clock_rollback", freeStartedAt := some started }
        else
          { state := .free, edition := "free", maxActiveProjects := some 1, valid := true, mutationsAllowed := true,
            reason := "free_active", freeStartedAt := some started }
      | _, _ => .denied "corrupt_free_state"
  | _ => .denied "corrupt_free_state"

/-- `peek_current_entitlement`; a license that is no object raises an `AttributeError`. -/
def peekCurrentEntitlement (P : Primitives) (files : Files) (now : Int) (device : String) : Except Unit Entitlement :=
  match files.license with
  | .absent => .ok (freeEntitlement P now files.freeState)
  | .unreadable | .malformed => .ok (.denied "corrupt_license")
  | .doc (.obj fields) =>
    .ok (applyRevocation P files now (at_ fields "issued_at")
      (verifyDocument P files.licenseKey now device (.obj fields)))
  | .doc _ => .error ()

/-! The launch verdict -/

def modes : List String := ["paid", "free", "trial", "fresh", "extraction"]

def legacyVerdict (l : Launch) : String := "growthmap-startup-v1:" ++ l.mode ++ ":" ++ l.nonce

/-- `canonical_startup_proof` -/
def startupProof (l : Launch) : String :=
  "growthmap-device-startup-v1\x00" ++ (Json.obj [("device_public_key", .str l.device), ("mode", .str l.mode),
    ("nonce", .str l.nonce), ("session", .str l.session)]).text

/-- `canonical_startup_verdict` -/
def startupVerdict (l : Launch) : String :=
  "growthmap-startup-v2:" ++ l.mode ++ ":" ++ l.device ++ ":" ++ l.nonce ++ ":" ++ l.session ++ ":" ++ l.proof

def deviceProves (P : Primitives) (l : Launch) : Bool :=
  match P.b64decode l.device, P.b64decode l.proof with
  | some raw, some signature => decide (raw.length = 32) && P.verify raw signature (startupProof l)
  | _, _ => false

/-- `verdict_validation` -/
def verdictValidation (P : Primitives) (l : Launch) : Except String String :=
  if l.mode ∉ modes then .error "missing_or_bad_mode"
  else if isNonce l.nonce = false then .error "bad_nonce_or_session"
  else if l.token = "" ∨ isMac l.mac = false then .error "missing_or_bad_mac"
  else if l.mode ≠ "paid" ∧ l.session = "" ∧ l.proof = "" ∧ l.device = "" then
    if l.mac = P.hmac l.token (legacyVerdict l) then .ok l.mode else .error "mac_mismatch"
  else if isNonce l.session = false then .error "bad_nonce_or_session"
  else if deviceProves P l = false then .error "device_proof_invalid"
  else if l.mac = P.hmac l.token (startupVerdict l) then .ok l.mode
  else .error "mac_mismatch"

/-- `_fingerprint` -/
def fingerprint (P : Primitives) (value : String) : String :=
  String.ofList ((P.sha256 value.toUTF8.toList).toList.take 12)

/-- `_invalid_reason` -/
def invalidReason (P : Primitives) (l : Launch) (category : String) : String :=
  if l.ci then
    "startup_verdict_invalid:" ++ category ++ ":token_fp=" ++ fingerprint P l.token ++ ":mac_fp=" ++ fingerprint P l.mac
  else "startup_verdict_invalid"

/-- `effective_entitlement` -/
def effectiveEntitlement (P : Primitives) (files : Files) (now : Int) (l : Launch) : Except Unit Entitlement :=
  match verdictValidation P l with
  | .error category => .ok (.denied (invalidReason P l category))
  | .ok launched => do
    let mode := if launched = "trial" then "free" else launched
    let base ← peekCurrentEntitlement P files now l.device
    if mode = "paid" ∧ base.state = .paid ∧ base.valid ∧ base.mutationsAllowed then .ok base
    else if mode = "paid" ∧ base.reason = "check_in_required" then .ok base
    else if base.state = .paidLegacy ∧ base.valid ∧ !base.mutationsAllowed then .ok base
    else if (mode = "free" ∨ mode = "fresh") ∧ base.state = .free ∧ base.valid ∧ base.mutationsAllowed then .ok base
    else if mode = "fresh" ∧ l.freshInstall ∧ base.reason = "no_free_state" then
      .ok { state := .free, edition := "free", maxActiveProjects := some 1, valid := true, mutationsAllowed := true,
            reason := "authenticated_fresh_install" }
    else .ok (.denied (if mode = "extraction" then "electron_forced_extraction" else "startup_policy_mismatch"))

/-! The gate -/

def safeMethods : List String := ["GET", "HEAD", "OPTIONS"]

def extractionMutationAllowlist : List (String × String) :=
  [("POST", "/api/desktop/license/import"), ("POST", "/api/desktop/trial/start")]

/-- `DesktopMutationGateMiddleware.dispatch`: whether the request reaches the
application; otherwise it is answered with the reason. -/
def dispatch (P : Primitives) (files : Files) (now : Int) (l : Launch) (desktopMode recoveryLocked : Bool)
    (method path : String) : Except Unit (Except String Unit) :=
  if desktopMode = false ∨ method ∈ safeMethods ∨ (method, path) ∈ extractionMutationAllowlist then .ok (.ok ())
  else do
    let entitlement ← effectiveEntitlement P files now l
    if recoveryLocked ∨ entitlement.mutationsAllowed = false then
      .ok (.error (if recoveryLocked then "update_recovery" else entitlement.reason))
    else .ok (.ok ())

end GrowthMap.Desktop
