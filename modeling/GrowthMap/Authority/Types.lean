import GrowthMap.Lib.Base64
import GrowthMap.Lib.IsoTime
import GrowthMap.Payments.Schema

/- The license Authority: the rows of `authority.py`'s SQLite tables.

   One structure per table, with the columns under the source's names in camel case; a
   nullable column is an `Option`. `certificate_json` is the certificate it is the text
   of: `json.loads` gives back what `json.dumps` was given. The primary key of
   `activations` is written by an UPDATE, so the table is kept under its other key,
   UNIQUE(license_id,device_id).

   The hash, the two signature checks and `device_identifier` are functions of
   `Crypto`; documents are those of the payment ledger, so that a digest both sides
   compute is one function of one document. -/
namespace GrowthMap.Authority

open Relational
open Payments (Time seconds Identity Value Doc Err AckDomain isLowerHex isHex matchesFixed)

/-! Text -/

/-- `utc(value)` -/
def utc (t : Time) : String :=
  match IsoTime.ofInstant t with
  | some d => d.zulu
  | none => ""

/-- `[A-Za-z0-9]` -/
def isAlnum (c : Char) : Bool := ('0' ≤ c && c ≤ '9') || ('a' ≤ c && c ≤ 'z') || ('A' ≤ c && c ≤ 'Z')

/-- `[a-z0-9]` -/
def isLowerAlnum (c : Char) : Bool := ('0' ≤ c && c ≤ '9') || ('a' ≤ c && c ≤ 'z')

/-- One character of `first`, then at most `n` of the class. -/
def matchesHead (first : Char → Bool) (n : Nat) (cls : Char → Bool) (s : String) : Bool :=
  match s.toList with
  | [] => false
  | c :: cs => first c && decide (cs.length ≤ n) && cs.all cls

/-- Between `lo` and `hi` characters of the class. -/
def matchesBetween (lo hi : Nat) (cls : Char → Bool) (s : String) : Bool :=
  decide (lo ≤ s.toList.length) && decide (s.toList.length ≤ hi) && s.toList.all cls

/-- `LICENSE_ID_RE` -/
def isLicenseId (s : String) : Bool :=
  matchesHead isAlnum 79 (fun c => isAlnum c || c == '.' || c == '_' || c == '-') s

/-- `[a-z][a-z0-9_-]{0,31}` -/
def isSource (s : String) : Bool :=
  matchesHead (fun c => 'a' ≤ c && c ≤ 'z') 31 (fun c => isLowerAlnum c || c == '_' || c == '-') s

/-- `[a-f0-9]{64}` -/
def isDigest (s : String) : Bool := matchesFixed "" 64 isLowerHex s

/-- `[A-Za-z0-9_-]` -/
def isUrlSafe (c : Char) : Bool := isAlnum c || c == '_' || c == '-'

def matchesEach : List (Char → Bool) → List Char → Bool
  | [], [] => true
  | p :: ps, c :: cs => p c && matchesEach ps cs
  | _, _ => false

/-- The classes of a lower-case version 1 to 5 UUID. -/
def uuidPattern : List (Char → Bool) :=
  List.replicate 8 isLowerHex ++ (· == '-') :: (List.replicate 4 isLowerHex ++ (· == '-') ::
    ((fun c => '1' ≤ c && c ≤ '5') :: List.replicate 3 isLowerHex ++ (· == '-') ::
      ((fun c => c == '8' || c == '9' || c == 'a' || c == 'b') :: List.replicate 3 isLowerHex ++ (· == '-') ::
        List.replicate 12 isLowerHex)))

def isUuid (s : String) : Bool := matchesEach uuidPattern s.toList

/-- `str(uuid.UUID(s))`: thirty-two hex digits whatever the hyphens, braces and `urn:uuid:`
around them, lower case in the groups of a UUID. -/
def normalizeUuid (s : String) : Option String :=
  let bare := (s.toList.dropPrefix? "urn:uuid:".toList).getD s.toList
  let hex := (bare.filter (fun c => c ≠ '-' && c ≠ '\x7b' && c ≠ '\x7d')).map Char.toLower
  if hex.length = 32 ∧ hex.all isLowerHex then
    some (String.ofList (hex.take 8 ++ '-' :: (hex.drop 8).take 4 ++ '-' :: (hex.drop 12).take 4 ++
      '-' :: (hex.drop 16).take 4 ++ '-' :: hex.drop 20))
  else none

/-! Canonical documents -/

/-- The order of `sort_keys`, by code point. -/
def keyLe : List Char → List Char → Bool
  | [], _ => true
  | _ :: _, [] => false
  | a :: as, b :: bs => decide (a.toNat < b.toNat) || (decide (a = b) && keyLe as bs)

def insertField (f : String × Value) : List (String × Value) → List (String × Value)
  | [] => [f]
  | g :: gs => if keyLe f.1.toList g.1.toList then f :: g :: gs else g :: insertField f gs

/-- `canonical(value)`: the fields in the order of their keys. -/
def canonical (fields : List (String × Value)) : Doc := .obj "" (fields.foldr insertField [])

/-- What the Authority signs. -/
inductive SignDomain where
  | certificate
  | ack (d : AckDomain)
  deriving DecidableEq, Repr

/-- `base64.b64encode` -/
def base64 (bytes : List UInt8) : String := String.ofList (Base64.encode bytes)

/-! Ceremonies -/

/-- The fields of a ceremony descriptor that `validate` does not fix. -/
structure Ceremony where
  authorityId : String
  keyId : String
  generation : Nat
  activatedAt : String
  predecessorGeneration : Option Nat
  publicKeySha256 : String
  providerAttestationId : String
  deriving DecidableEq, Repr

/-- The descriptor, as `validate` encodes it. -/
def Ceremony.document (c : Ceremony) : Doc :=
  canonical [("schema_version", .int 1), ("purpose", .str "growthmap-license-authority-signing"),
    ("domain", .str "growthmap-activation-certificate-v2"), ("algorithm", .str "Ed25519"),
    ("authority_id", .str c.authorityId), ("key_id", .str c.keyId), ("generation", .int c.generation),
    ("activated_at", .str c.activatedAt),
    ("predecessor_generation", match c.predecessorGeneration with | none => .null | some g => .int g),
    ("public_key_sha256", .str c.publicKeySha256), ("provider_attestation_id", .str c.providerAttestationId)]

/-- `handshake()`, of the ceremony of the instance. -/
def Ceremony.identity (c : Ceremony) : Identity :=
  ⟨c.authorityId, c.keyId, c.generation, c.publicKeySha256, c.providerAttestationId⟩

/-- A claim of the external anchor. -/
structure AnchorClaim where
  generation : Nat
  ceremonySha256 : Option String
  deriving DecidableEq, Repr

/-- A row of `signer_ceremonies`; `descriptor_json` is the ceremony it encodes. -/
structure CeremonyRow where
  generation : Nat
  keyId : String
  descriptor : Ceremony
  publicKeySha256 : String
  providerAttestationId : String
  pinnedAt : Time
  deriving DecidableEq, Repr

/-- The cryptography: SHA-256 of a document, `device_identifier`, the device's proof
under its public key, and an Ed25519 signature under a reviewed public key. -/
structure Crypto where
  sha256 : Doc → String
  deviceIdentifier : String → Except Err String
  verifyProof : String → Doc → String → Bool
  verify : String → SignDomain → Doc → List UInt8 → Bool

/-- `canonical_ceremony_claim(ceremony)` -/
def Ceremony.claim (k : Crypto) (c : Ceremony) : AnchorClaim := ⟨c.generation, some (k.sha256 c.document)⟩

/-! Rows -/

/-- `expires_at`: none, an instant, or a text that is none. -/
inductive Expiry where
  | never
  | at (t : Time)
  | malformed
  deriving DecidableEq, Repr

structure License where
  licenseId : String
  edition : String
  majorVersion : Int
  seatLimit : Nat
  issuedAt : Time
  expiresAt : Expiry
  revokedAt : Option Time
  checkInDays : Int
  deriving DecidableEq, Repr

/-- An activation certificate, schema 2. -/
structure Certificate where
  edition : String
  licenseId : String
  activationId : String
  majorVersion : Int
  deviceAllowance : Nat
  deviceId : String
  devicePublicKey : String
  issuedAt : Time
  expiresAt : Expiry
  nextCheckInAt : Time
  signature : String
  deriving DecidableEq, Repr

/-- The signer columns of the external inboxes, NULL in rows older than them. -/
structure StoredIdentity where
  authorityId : Option String
  keyId : Option String
  generation : Option Nat
  publicKeySha256 : Option String
  attestation : Option String
  deriving DecidableEq, Repr

def storedIdentity (i : Identity) : StoredIdentity :=
  ⟨some i.authorityId, some i.keyId, some i.generation, some i.publicKeySha256, some i.attestation⟩

/-- `None in stored.values()` -/
def StoredIdentity.incomplete (s : StoredIdentity) : Bool :=
  s.authorityId.isNone || s.keyId.isNone || s.generation.isNone || s.publicKeySha256.isNone || s.attestation.isNone

structure ExternalEntitlement where
  source : String
  sourceId : String
  licenseId : String
  createdAt : Time
  payloadDigest : Option String
  signer : StoredIdentity
  ackSignature : Option String
  deriving DecidableEq, Repr

/-- The two instants are texts: they are part of what is digested and signed. -/
structure ExternalRevocation where
  source : String
  sourceId : String
  payloadDigest : String
  licenseId : String
  action : String
  reason : String
  paymentProof : String
  txHash : String
  eventCreatedAt : String
  revokedAt : String
  requestDigest : String
  receipt : String
  signer : StoredIdentity
  ackSignature : Option String
  deriving DecidableEq, Repr

inductive GiftStatus where
  | active | revoked
  deriving DecidableEq, Repr

structure Gift where
  giftId : String
  licenseId : String
  secretDigest : String
  secretGeneration : Nat
  status : GiftStatus
  createdAt : Time
  rotatedAt : Option Time
  revokedAt : Option Time
  edition : String
  majorVersion : Int
  seatLimit : Nat
  checkInDays : Int
  deriving DecidableEq, Repr

inductive GiftEventKind where
  | created | rotated | revoked
  deriving DecidableEq, Repr

structure GiftEvent where
  giftId : String
  at_ : Time
  event : GiftEventKind
  secretGeneration : Nat
  deriving DecidableEq, Repr

inductive FlowKind where
  | gift | payment
  deriving DecidableEq, Repr

structure Challenge where
  challengeId : String
  licenseId : String
  deviceId : String
  devicePublicKey : String
  nonce : String
  issuedAt : Time
  expiresAt : Time
  consumedAt : Option Time
  requestDigest : Option String
  certificate : Option Certificate
  flowKind : Option FlowKind
  entitlementGeneration : Option Nat
  deriving DecidableEq, Repr

structure Activation where
  activationId : String
  licenseId : String
  deviceId : String
  devicePublicKey : String
  activatedAt : Time
  deactivatedAt : Option Time
  certificate : Certificate
  nonceDigest : String
  deriving DecidableEq, Repr

inductive RequestStatus where
  | active | consumed
  deriving DecidableEq, Repr

structure ActivationRequest where
  requestDigest : String
  licenseId : String
  deviceId : String
  nonceDigest : String
  proofDigest : String
  firstSeenAt : Time
  status : RequestStatus
  activationId : Option String
  certificate : Option Certificate
  deriving DecidableEq, Repr

structure AuditRow where
  at_ : Time
  event : String
  licenseId : String
  deviceId : Option String
  deriving DecidableEq, Repr

abbrev Ceremonies := Table Nat CeremonyRow CeremonyRow.generation
abbrev Licenses := Table String License License.licenseId
abbrev ExternalEntitlements := Table (String × String) ExternalEntitlement (fun e => (e.source, e.sourceId))
abbrev ExternalRevocations := Table (String × String) ExternalRevocation (fun r => (r.source, r.sourceId))
abbrev Gifts := Table String Gift Gift.giftId
abbrev Challenges := Table String Challenge Challenge.challengeId
abbrev Activations := Table (String × String) Activation (fun a => (a.licenseId, a.deviceId))
abbrev Requests := Table String ActivationRequest ActivationRequest.requestDigest

/-- The database. -/
structure Store where
  ceremonies : Ceremonies
  licenses : Licenses
  entitlements : ExternalEntitlements
  revocations : ExternalRevocations
  gifts : Gifts
  giftEvents : List GiftEvent
  challenges : Challenges
  activations : Activations
  requests : Requests
  audit : List AuditRow

def Store.empty : Store := ⟨.empty, .empty, .empty, .empty, .empty, [], .empty, .empty, .empty, []⟩

end GrowthMap.Authority
