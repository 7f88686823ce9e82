import GrowthMap.Authority.Types
import GrowthMap.Payments.Outbox

/- The operations of `LicenseAuthority`, one function per method.

   Every writing method runs in one BEGIN IMMEDIATE transaction and either commits all it
   did or raises and leaves the database as it was, so an operation is a function from
   the store to an error, or to the store after it and what it returns.

   `Call` is what the environment decides about one call: the instance that serves it,
   its clock, what the instance sees of the signer state at the handshake before its
   transaction and of the anchor when it signs, and what the signer answers. Random
   values (`uuid4`, `token_urlsafe`) are arguments. -/
namespace GrowthMap.Authority

open Relational
open Payments (Time seconds Identity Value Doc Err AckDomain isLowerHex isHex matchesFixed insertChecked firstBad
  uniqueFailed foreignKeyFailed checkFailed EntitlementAck)

/-- A constructed `LicenseAuthority`. -/
structure Instance where
  ceremony : Ceremony
  publicKey : String
  deriving DecidableEq, Repr

/-- What an instance reads of the anchor and of `signer_ceremonies`; no claim where the
anchor raises. -/
structure SignerView where
  anchor : Option AnchorClaim
  latest : Option CeremonyRow

structure Call where
  self : Instance
  clk : Nat → Time
  handshake : SignerView
  anchor : Option AnchorClaim
  sign : SignDomain → Doc → Option (List UInt8)

variable (k : Crypto) (c : Call)

/-! Signer state -/

/-- `validate_anchor_claim`; the texts of a claim are digests. -/
def validateAnchorClaim (allowZero : Bool) (a : AnchorClaim) : Option AnchorClaim :=
  match a.ceremonySha256 with
  | none => if a.generation = 0 ∧ allowZero then some a else none
  | some d => if 0 < a.generation ∧ isDigest d then some a else none

def newer (best : Option CeremonyRow) (r : CeremonyRow) : Option CeremonyRow :=
  match best with
  | none => some r
  | some b => if b.generation < r.generation then some r else some b

/-- `ORDER BY generation DESC LIMIT 1` -/
def latestCeremony (t : Ceremonies) : Option CeremonyRow := t.rows.foldl newer none

/-- `_assert_signer_state` of the instance whose ceremony it is. -/
def assertSignerState (ceremony : Ceremony) (v : SignerView) : Except Err Unit :=
  match v.anchor.bind (validateAnchorClaim false) with
  | none => .error (.runtime "signer_state_unavailable")
  | some anchored =>
    if anchored ≠ ceremony.claim k then .error (.runtime "signer_state_conflict")
    else match v.latest with
      | none => .error (.runtime "signer_state_conflict")
      | some row =>
        if row.generation ≠ ceremony.generation ∨ row.descriptor ≠ ceremony then
          .error (.runtime "signer_state_conflict")
        else .ok ()

/-- `_sign_verified` -/
def signVerified (s : Store) (domain : SignDomain) (doc : Doc) : Except Err (List UInt8) := do
  assertSignerState k c.self.ceremony ⟨c.anchor, latestCeremony s.ceremonies⟩
  match c.sign domain doc with
  | none => .error (.runtime "license_signing_unavailable")
  | some signature =>
    if signature.length ≠ 64 then .error (.runtime "license_signing_failed")
    else if k.verify c.self.publicKey domain doc signature = false then .error (.runtime "license_signing_failed")
    else .ok signature

/-- `handshake` -/
def handshake : Except Err Identity := do
  assertSignerState k c.self.ceremony c.handshake
  return c.self.ceremony.identity

/-- `_accepted_signer_identity` -/
def acceptedSignerIdentity (identity : Identity) : Except Err Identity := do
  let expected ← handshake k c
  if identity ≠ expected then .error (.value "authority_identity_mismatch") else return expected

/-- `_signed_ack` -/
def signedAck (s : Store) (domain : AckDomain) (payload : List (String × Value)) : Except Err String := do
  let signature ← signVerified k c s (.ack domain) (canonical payload)
  return base64 signature

/-! The database half of a construction -/

/-- `_check_ceremony_transition`: whether the ceremony is to be inserted. -/
def checkCeremonyTransition (ceremony : Ceremony) (latest : Option CeremonyRow) : Except Err Bool :=
  match latest with
  | some row =>
    if ceremony.generation < row.generation ∨ row.generation + 1 < ceremony.generation then
      .error (.runtime "signer_generation_invalid")
    else if ceremony.generation = row.generation then
      if row.descriptor ≠ ceremony then .error (.runtime "signer_ceremony_conflict") else .ok false
    else if ceremony.predecessorGeneration ≠ some row.generation then .error (.runtime "signer_predecessor_invalid")
    else .ok true
  | none => if ceremony.generation ≠ 1 then .error (.runtime "signer_initial_generation_invalid") else .ok true

/-- `_pin_ceremony` -/
def pinCeremony (ceremony : Ceremony) (now : Time) (s : Store) : Except Err (Store × Unit) := do
  if ← checkCeremonyTransition ceremony (latestCeremony s.ceremonies) then
    let t ← insertChecked s.ceremonies ⟨ceremony.generation, ceremony.keyId, ceremony, ceremony.publicKeySha256,
      ceremony.providerAttestationId, now⟩ (firstBad
      [(decide (ceremony.generation = 0), checkFailed),
       (s.ceremonies.taken ceremony.generation (fun r => some r.descriptor) (some ceremony), uniqueFailed)])
    return ({ s with ceremonies := t }, ())
  else return (s, ())

/-! Statements -/

def audit (at_ : Time) (event licenseId : String) (deviceId : Option String) (s : Store) : Store :=
  { s with audit := s.audit ++ [⟨at_, event, licenseId, deviceId⟩] }

def insertLicense (l : License) (s : Store) : Except Err Store := do
  let t ← insertChecked s.licenses l (firstBad
    [(decide (l.seatLimit < 1 ∨ 2 < l.seatLimit), checkFailed),
     (decide (l.checkInDays < 1 ∨ 365 < l.checkInDays), checkFailed)])
  return { s with licenses := t }

def insertGift (g : Gift) (s : Store) : Except Err Store := do
  let t ← insertChecked s.gifts g (firstBad
    [(decide (g.secretGeneration = 0), checkFailed),
     (decide (g.seatLimit < 1 ∨ 2 < g.seatLimit), checkFailed),
     (decide (g.checkInDays < 1 ∨ 365 < g.checkInDays), checkFailed),
     (s.gifts.taken g.giftId (fun r => some r.licenseId) (some g.licenseId), uniqueFailed),
     ((s.licenses.get g.licenseId).isNone, foreignKeyFailed)])
  return { s with gifts := t }

def insertEntitlement (e : ExternalEntitlement) (s : Store) : Except Err Store := do
  let t ← insertChecked s.entitlements e (firstBad
    [(s.entitlements.taken (e.source, e.sourceId) (fun r => some r.licenseId) (some e.licenseId), uniqueFailed),
     ((s.licenses.get e.licenseId).isNone, foreignKeyFailed)])
  return { s with entitlements := t }

def insertRevocation (r : ExternalRevocation) (s : Store) : Except Err Store := do
  let t ← insertChecked s.revocations r (firstBad
    [(s.revocations.taken (r.source, r.sourceId) (fun x => some x.receipt) (some r.receipt), uniqueFailed),
     ((s.licenses.get r.licenseId).isNone, foreignKeyFailed)])
  return { s with revocations := t }

def insertChallenge (x : Challenge) (s : Store) : Except Err Store := do
  let t ← insertChecked s.challenges x (firstBad
    [(s.challenges.taken x.challengeId (fun r => some r.nonce) (some x.nonce), uniqueFailed),
     ((s.licenses.get x.licenseId).isNone, foreignKeyFailed)])
  return { s with challenges := t }

def insertRequest (r : ActivationRequest) (s : Store) : Except Err Store := do
  let t ← insertChecked s.requests r (firstBad [((s.licenses.get r.licenseId).isNone, foreignKeyFailed)])
  return { s with requests := t }

def activationIdTaken (s : Store) (a : Activation) : Bool :=
  s.activations.taken (a.licenseId, a.deviceId) (fun r => some r.activationId) (some a.activationId)

def insertActivation (a : Activation) (s : Store) : Except Err Store := do
  let t ← insertChecked s.activations a (firstBad
    [(activationIdTaken s a, uniqueFailed), ((s.licenses.get a.licenseId).isNone, foreignKeyFailed)])
  return { s with activations := t }

/-- The columns an activation's UPDATE sets, from the new row. -/
def Activation.renew (new old : Activation) : Activation :=
  { old with activationId := new.activationId, devicePublicKey := new.devicePublicKey,
             activatedAt := new.activatedAt, deactivatedAt := none, certificate := new.certificate,
             nonceDigest := new.nonceDigest }

theorem Activation.renew_key {new : Activation} (old : Activation) :
    ((new.renew old).licenseId, (new.renew old).deviceId) = (old.licenseId, old.deviceId) := rfl

def updateActivation (a : Activation) (s : Store) : Except Err Store :=
  if activationIdTaken s a then .error uniqueFailed
  else .ok { s with activations := s.activations.modify (a.licenseId, a.deviceId) a.renew Activation.renew_key }

/-- `consumed_at=COALESCE(consumed_at,?)` -/
def Challenge.consume (now : Time) (x : Challenge) : Challenge := { x with consumedAt := some (x.consumedAt.getD now) }

variable {now : Time}

theorem Challenge.consume_key (x : Challenge) : (x.consume now).challengeId = x.challengeId := rfl

def consumeChallenges (licenseId : String) (now : Time) (s : Store) : Store :=
  { s with challenges := s.challenges.update (fun x => decide (x.licenseId = licenseId)) (Challenge.consume now)
             Challenge.consume_key }

def supersedeChallenges (licenseId deviceId : String) (now : Time) (s : Store) : Store :=
  { s with challenges := s.challenges.update
             (fun x => decide (x.licenseId = licenseId ∧ x.deviceId = deviceId ∧ x.consumedAt = none))
             (Challenge.consume now) Challenge.consume_key }

def License.revoke (now : Time) (l : License) : License := { l with revokedAt := some (l.revokedAt.getD now) }

theorem License.revoke_key (l : License) : (l.revoke now).licenseId = l.licenseId := rfl

def Activation.deactivate (now : Time) (a : Activation) : Activation :=
  { a with deactivatedAt := some (a.deactivatedAt.getD now) }

theorem Activation.deactivate_key (a : Activation) :
    ((a.deactivate now).licenseId, (a.deactivate now).deviceId) = (a.licenseId, a.deviceId) := rfl

def ActivationRequest.consume (r : ActivationRequest) : ActivationRequest := { r with status := .consumed }

theorem ActivationRequest.consume_key (r : ActivationRequest) : r.consume.requestDigest = r.requestDigest := rfl

/-- The four UPDATEs both revocations make. -/
def revokeLicense (licenseId : String) (now : Time) (s : Store) : Store :=
  consumeChallenges licenseId now
    { s with
      licenses := s.licenses.modify licenseId (License.revoke now) License.revoke_key,
      activations := s.activations.update (fun a => decide (a.licenseId = licenseId)) (Activation.deactivate now)
        Activation.deactivate_key,
      requests := s.requests.update (fun r => decide (r.licenseId = licenseId)) ActivationRequest.consume
        ActivationRequest.consume_key }

/-! create_license -/

def isEdition (e : String) : Bool := e == "personal" || e == "pro" || e == "studio"

structure LicenseSummary where
  licenseId : String
  edition : String
  majorVersion : Int
  deviceAllowance : Nat
  deriving DecidableEq, Repr

/-- `create_license`; any refusal of the row is reported as `license_exists`. -/
def createLicense (licenseId edition : String) (majorVersion : Int) (seatLimit : Nat) (expiresAt : Expiry)
    (checkInDays : Int) (s : Store) : Except Err (Store × LicenseSummary) :=
  if !isLicenseId licenseId || !isEdition edition || decide (majorVersion < 1) || decide (seatLimit ≠ 1 ∧ seatLimit ≠ 2)
  then .error (.value "invalid_license")
  else match insertLicense ⟨licenseId, edition, majorVersion, seatLimit, c.clk 0, expiresAt, none, checkInDays⟩ s with
    | .error _ => .error (.value "license_exists")
    | .ok s => .ok (audit (c.clk 1) "license_created" licenseId none s, ⟨licenseId, edition, majorVersion, seatLimit⟩)

/-! Gifts -/

/-- `len(secret)!=32` is a failure of the generator. -/
def checkSecret (secret : String) : Except Err Unit :=
  if secret.toList.length ≠ 32 then .error (.runtime "gift_secret_generation_failed") else .ok ()

def giftUnavailable : Err := .value "gift_unavailable"

/-- `create_gift`: the gift and the secret of its claim key. -/
def createGift (edition : String) (majorVersion : Int) (seatLimit : Nat) (checkInDays : Int)
    (giftId licenseId secret : String) (s : Store) : Except Err (Store × Gift × String) :=
  if !isEdition edition || decide (majorVersion ≠ 1) || decide (seatLimit ≠ 1 ∧ seatLimit ≠ 2) ||
      decide (checkInDays < 1 ∨ 365 < checkInDays)
  then .error (.value "invalid_gift_policy")
  else do
    checkSecret secret
    let digest := k.sha256 (.text secret)
    let created := c.clk 0
    let s ← insertLicense ⟨licenseId, edition, majorVersion, seatLimit, created, .never, none, checkInDays⟩ s
    let gift := ⟨giftId, licenseId, digest, 1, .active, created, none, none, edition, majorVersion, seatLimit, checkInDays⟩
    let s ← insertGift gift s
    return (audit (c.clk 1) "gift_created" licenseId none
      { s with giftEvents := s.giftEvents ++ [⟨giftId, created, .created, 1⟩] }, gift, secret)

def Gift.rotate (digest : String) (generation : Nat) (now : Time) (g : Gift) : Gift :=
  { g with secretDigest := digest, secretGeneration := generation, rotatedAt := some now }

theorem Gift.rotate_key {digest : String} {generation : Nat} (g : Gift) :
    (g.rotate digest generation now).giftId = g.giftId := rfl

/-- `recover_gift`: a new secret under the next generation; every challenge of the
license is consumed. -/
def recoverGift (giftId secret : String) (s : Store) : Except Err (Store × Gift × String) :=
  match normalizeUuid giftId with
  | none => .error giftUnavailable
  | some giftId => do
    checkSecret secret
    let digest := k.sha256 (.text secret)
    let now := c.clk 0
    match s.gifts.get giftId with
    | none => .error giftUnavailable
    | some row =>
      if row.status ≠ .active then .error giftUnavailable
      else
        let generation := row.secretGeneration + 1
        let s := { s with gifts := s.gifts.modify giftId (Gift.rotate digest generation now) Gift.rotate_key }
        let s := consumeChallenges row.licenseId now s
        return (audit (c.clk 1) "gift_claim_rotated" row.licenseId none
          { s with giftEvents := s.giftEvents ++ [⟨giftId, now, .rotated, generation⟩] },
          row.rotate digest generation now, secret)

def Gift.revoke (now : Time) (g : Gift) : Gift := { g with status := .revoked, revokedAt := some now }

theorem Gift.revoke_key (g : Gift) : (g.revoke now).giftId = g.giftId := rfl

/-- `revoke_gift` -/
def revokeGift (giftId : String) (s : Store) : Except Err (Store × Unit) :=
  match normalizeUuid giftId with
  | none => .error giftUnavailable
  | some giftId =>
    let now := c.clk 0
    match s.gifts.get giftId with
    | none => .error giftUnavailable
    | some row =>
      if row.status = .active then
        let s := revokeLicense row.licenseId now { s with gifts := s.gifts.modify giftId (Gift.revoke now) Gift.revoke_key }
        .ok (audit (c.clk 1) "gift_revoked" row.licenseId none
          { s with giftEvents := s.giftEvents ++ [⟨giftId, now, .revoked, row.secretGeneration⟩] }, ())
      else .ok (s, ())

structure ChallengeReply where
  challengeId : String
  nonce : String
  licenseId : String
  devicePublicKey : String
  deriving DecidableEq, Repr

/-- The open challenges of the device are superseded, and the new one inserted. -/
def issueChallenge (x : Challenge) (s : Store) : Except Err (Store × ChallengeReply) := do
  let s ← insertChallenge x (supersedeChallenges x.licenseId x.deviceId x.issuedAt s)
  return (s, ⟨x.challengeId, x.nonce, x.licenseId, x.devicePublicKey⟩)

/-- `max(30,min(int(ttl_seconds),300))` -/
def giftTtl (ttl : Int) : Int := max 30 (min ttl 300)

def Gift.stored (g : Gift) : String :=
  if g.secretDigest.toList.length = 64 then g.secretDigest else String.ofList (List.replicate 64 '0')

/-- `issue_gift_claim_challenge` -/
def issueGiftClaimChallenge (giftId secret devicePublicKey : String) (ttl : Int) (nonce challengeId : String)
    (s : Store) : Except Err (Store × ChallengeReply) :=
  if !isUuid giftId || !matchesFixed "" 32 isUrlSafe secret then .error giftUnavailable
  else do
    let deviceId ← k.deviceIdentifier devicePublicKey
    let now := c.clk 0
    match s.gifts.get giftId with
    | none => .error giftUnavailable
    | some row =>
      let candidate := k.sha256 (.text secret)
      let challenge : Challenge :=
        { challengeId, licenseId := row.licenseId, deviceId, devicePublicKey, nonce, issuedAt := now,
          expiresAt := now + seconds (giftTtl ttl), consumedAt := none, requestDigest := none, certificate := none,
          flowKind := some .gift, entitlementGeneration := some row.secretGeneration }
      if row.status ≠ .active ∨ row.stored ≠ candidate then .error giftUnavailable else issueChallenge challenge s

/-! Payment entitlements -/

structure EntitlementRequest where
  source : String
  sourceId : String
  payloadDigest : String
  authorityId : String
  signerIdentity : Identity
  edition : String
  majorVersion : Int
  seatLimit : Nat
  deriving DecidableEq, Repr

structure EntitlementResponse where
  licenseId : String
  edition : String
  majorVersion : Int
  deviceAllowance : Nat
  deliveryReceipt : String
  authorityId : String
  signerIdentity : Identity
  ackSignature : String
  deriving DecidableEq, Repr

def deliveryReceipt (identity : Identity) (source sourceId payloadDigest licenseId : String) : String :=
  k.sha256 (canonical [("signer_identity", .identity identity), ("source", .str source), ("source_id", .str sourceId),
    ("payload_digest", .str payloadDigest), ("license_id", .str licenseId)])

/-- `external_entitlements JOIN licenses USING(license_id)` -/
def priorEntitlement (s : Store) (source sourceId : String) : Option (ExternalEntitlement × License) :=
  (s.entitlements.get (source, sourceId)).bind fun e => (s.licenses.get e.licenseId).map fun l => (e, l)

/-- `create_external_entitlement` -/
def createExternalEntitlement (a : EntitlementRequest) (licenseId : String) (s : Store) :
    Except Err (Store × EntitlementResponse) :=
  if a.authorityId ≠ c.self.ceremony.authorityId then .error (.value "wrong_authority")
  else do
    let identity ← acceptedSignerIdentity k c a.signerIdentity
    if !isSource a.source || !isDigest a.sourceId || !isDigest a.payloadDigest then
      .error (.value "invalid_external_source")
    else if !isEdition a.edition || decide (a.majorVersion ≠ 1) || decide (a.seatLimit ≠ 1 ∧ a.seatLimit ≠ 2) then
      .error (.value "invalid_license")
    else match priorEntitlement s a.source a.sourceId with
      | some (e, l) =>
        if e.payloadDigest ≠ some a.payloadDigest ∨ e.signer ≠ storedIdentity identity then
          .error (.value "external_entitlement_contradiction")
        else match e.ackSignature with
          | none => .error (.value "legacy_identity_unproven")
          | some signature =>
            .ok (s, ⟨l.licenseId, l.edition, l.majorVersion, l.seatLimit,
              deliveryReceipt k identity a.source a.sourceId a.payloadDigest l.licenseId, a.authorityId, identity, signature⟩)
      | none => do
        let issued := c.clk 0
        let s ← insertLicense ⟨licenseId, a.edition, a.majorVersion, a.seatLimit, issued, .never, none, 30⟩ s
        let receipt := deliveryReceipt k identity a.source a.sourceId a.payloadDigest licenseId
        let signature ← signedAck k c s .entitlement
          [("authority_id", .str a.authorityId), ("delivery_receipt", .str receipt), ("license_id", .str licenseId),
           ("payload_digest", .str a.payloadDigest), ("signer_identity", .identity identity),
           ("source", .str a.source), ("source_id", .str a.sourceId)]
        let s ← insertEntitlement ⟨a.source, a.sourceId, licenseId, issued, some a.payloadDigest,
          { storedIdentity identity with authorityId := some a.authorityId }, some signature⟩ s
        return (audit (c.clk 1) "external_entitlement_created" licenseId none s,
          ⟨licenseId, a.edition, a.majorVersion, a.seatLimit, receipt, a.authorityId, identity, signature⟩)

/-- `read_external_entitlement_acknowledgement` -/
def readExternalEntitlementAcknowledgement (source sourceId : String) (signerIdentity : Identity) (s : Store) :
    Except Err EntitlementAck := do
  let identity ← acceptedSignerIdentity k c signerIdentity
  match s.entitlements.get (source, sourceId) with
  | none => .error (.value "external_entitlement_unavailable")
  | some row =>
    if row.signer.incomplete then .error (.value "legacy_identity_unproven")
    else match row.ackSignature, row.payloadDigest with
      | some signature, some digest =>
        if row.signer ≠ storedIdentity identity then .error (.value "external_entitlement_contradiction")
        else return ⟨row.source, row.sourceId, digest, row.licenseId, identity.authorityId, identity,
          deliveryReceipt k identity row.source row.sourceId digest row.licenseId, signature⟩
      | none, _ => .error (.value "legacy_identity_unproven")
      -- a digest of NULL: what the source returns here no caller accepts
      | some _, none => .error (.typeError "payload_digest")

/-! Activation -/

/-- `issue_activation_challenge` -/
def issueActivationChallenge (licenseId devicePublicKey : String) (ttl : Int) (nonce challengeId : String)
    (s : Store) : Except Err (Store × ChallengeReply) := do
  let deviceId ← k.deviceIdentifier devicePublicKey
  let now := c.clk 0
  match s.licenses.get licenseId with
  | none => .error (.value "license_unavailable")
  | some lic =>
    let challenge : Challenge :=
      { challengeId, licenseId, deviceId, devicePublicKey, nonce, issuedAt := now, expiresAt := now + seconds ttl,
        consumedAt := none, requestDigest := none, certificate := none, flowKind := some .payment,
        entitlementGeneration := none }
    if lic.revokedAt.isSome then .error (.value "license_unavailable") else issueChallenge challenge s

def activationChallenge (licenseId devicePublicKey nonce : String) : Doc :=
  .obj "growthmap-activation-request-v1"
    [("device_public_key", .str devicePublicKey), ("license_id", .str licenseId), ("nonce", .str nonce)]

def requestDigest (licenseId deviceId nonceHash proofHash : String) : String :=
  k.sha256 (.text (licenseId ++ "\x00" ++ deviceId ++ "\x00" ++ nonceHash ++ "\x00" ++ proofHash))

def Expiry.value : Expiry → Value
  | .never => .null
  | .at t => .str (utc t)
  | .malformed => .str ""

def Certificate.document (x : Certificate) : Doc :=
  canonical [("schema_version", .int 2), ("certificate_type", .str "growthmap_device_activation"),
    ("product", .str "growthmap"), ("edition", .str x.edition), ("license_id", .str x.licenseId),
    ("activation_id", .str x.activationId), ("major_version", .int x.majorVersion),
    ("device_allowance", .int x.deviceAllowance), ("device_id", .str x.deviceId),
    ("device_public_key", .str x.devicePublicKey), ("issued_at", .str (utc x.issuedAt)),
    ("expires_at", x.expiresAt.value), ("revoked_at", .null), ("max_active_projects", .null),
    ("next_check_in_at", .str (utc x.nextCheckInAt))]

/-- `expires_at` has passed; a text that is no instant raises. -/
def expired (now : Time) : Expiry → Except Err Bool
  | .never => .ok false
  | .at t => .ok (decide (t ≤ now))
  | .malformed => .error (.value "Invalid isoformat string")

/-- `count(*) … WHERE license_id=? AND deactivated_at IS NULL` -/
def activeSeats (t : Activations) (licenseId : String) : Nat :=
  (t.rows.filter (fun a => decide (a.licenseId = licenseId) && a.deactivatedAt.isNone)).length

def unsignedCertificate (lic : License) (deviceId devicePublicKey activationId : String) (now : Time) : Certificate :=
  ⟨lic.edition, lic.licenseId, activationId, lic.majorVersion, lic.seatLimit, deviceId, devicePublicKey, now,
    lic.expiresAt, now + seconds (lic.checkInDays * 86400), ""⟩

/-- A new request of a device: the certificate is signed, then the request and the
activation are written. -/
def grant (lic : License) (deviceId devicePublicKey activationId digest nonceHash proofHash : String) (now : Time)
    (s : Store) : Except Err (Store × Certificate) := do
  let old := s.activations.get (lic.licenseId, deviceId)
  if old.all (fun a => a.deactivatedAt.isSome) && decide (lic.seatLimit ≤ activeSeats s.activations lic.licenseId) then
    .error (.value "seat_limit_reached")
  else
    let unsigned := unsignedCertificate lic deviceId devicePublicKey activationId now
    let signature ← signVerified k c s .certificate unsigned.document
    let cert := { unsigned with signature := base64 signature }
    let activation : Activation := ⟨activationId, lic.licenseId, deviceId, devicePublicKey, now, none, cert, digest⟩
    match insertRequest ⟨digest, lic.licenseId, deviceId, nonceHash, proofHash, now, .active, some activationId, some cert⟩ s with
    | .error _ => .error (.value "activation_nonce_consumed")
    | .ok s =>
      let s ← if old.isSome then updateActivation activation s else insertActivation activation s
      return (audit (c.clk 1) "device_activated" lic.licenseId (some deviceId) s, cert)

/-- `_activate_in_transaction` -/
def activateInTransaction (licenseId devicePublicKey nonce proof activationId : String) (now : Time) (s : Store) :
    Except Err (Store × Certificate) := do
  let deviceId ← k.deviceIdentifier devicePublicKey
  if !matchesBetween 16 128 isUrlSafe nonce then .error (.value "invalid_nonce")
  else if !k.verifyProof devicePublicKey (activationChallenge licenseId devicePublicKey nonce) proof then
    .error (.value "device_proof_invalid")
  else match s.licenses.get licenseId with
    | none => .error (.value "license_not_found")
    | some lic =>
      if lic.revokedAt.isSome then .error (.value "license_revoked")
      else do
        if ← expired now lic.expiresAt then .error (.value "license_expired")
        else
          let nonceHash := k.sha256 (.text nonce)
          let proofHash := k.sha256 (.text proof)
          let digest := requestDigest k licenseId deviceId nonceHash proofHash
          match s.requests.get digest with
          | none => grant k c lic deviceId devicePublicKey activationId digest nonceHash proofHash now s
          | some request =>
            match request.status, request.certificate with
            | .active, some cert => return (audit (c.clk 1) "activation_retrieved" licenseId (some deviceId) s, cert)
            | _, _ => .error (.value "activation_nonce_consumed")

/-- `activate` -/
def activate (licenseId devicePublicKey nonce proof activationId : String) (s : Store) :
    Except Err (Store × Certificate) :=
  activateInTransaction k c licenseId devicePublicKey nonce proof activationId (c.clk 0) s

/-! activate_challenge -/

def challengeUnavailable : Err := .value "challenge_unavailable"

/-- `SELECT … FROM gift_entitlements WHERE license_id=?` -/
def giftOf (s : Store) (licenseId : String) : Option Gift :=
  s.gifts.rows.find? (fun g => decide (g.licenseId = licenseId))

/-- The challenge belongs to the flow it is completed under and to its generation. -/
def checkFlow (expected : FlowKind) (row : Challenge) (s : Store) : Except Err Unit :=
  if row.flowKind ≠ some expected then .error challengeUnavailable
  else match expected with
    | .gift =>
      match giftOf s row.licenseId with
      | none => .error challengeUnavailable
      | some gift =>
        if gift.status ≠ .active ∨ row.entitlementGeneration ≠ some gift.secretGeneration then .error challengeUnavailable
        else .ok ()
    | .payment => if row.entitlementGeneration.isSome then .error challengeUnavailable else .ok ()

/-- The join of `activation_requests` and `activations` that a replay looks for. -/
def activeRequest (row : Challenge) (nonceDigest proofDigest : String) (s : Store) :
    Option (ActivationRequest × Activation) :=
  s.requests.rows.findSome? fun r =>
    if r.licenseId = row.licenseId ∧ r.deviceId = row.deviceId ∧ r.nonceDigest = nonceDigest ∧
        r.proofDigest = proofDigest ∧ r.status = .active then
      match s.activations.get (r.licenseId, r.deviceId) with
      | none => none
      | some a =>
        if r.activationId = some a.activationId ∧ a.nonceDigest = r.requestDigest ∧ a.deactivatedAt = none then some (r, a)
        else none
    else none

/-- A consumed challenge answers with its certificate while that is the live one. -/
def replayChallenge (row : Challenge) (proof : String) (s : Store) : Except Err Certificate :=
  let proofDigest := k.sha256 (.text proof)
  match activeRequest row (k.sha256 (.text row.nonce)) proofDigest s, row.certificate with
  | some (r, a), some cert =>
    if row.requestDigest.getD "" = proofDigest ∧ r.certificate = some cert ∧ a.certificate = cert ∧
        r.activationId = some cert.activationId ∧ cert.licenseId = row.licenseId ∧ cert.deviceId = row.deviceId ∧
        a.devicePublicKey = row.devicePublicKey ∧ cert.devicePublicKey = row.devicePublicKey
    then .ok cert
    else .error (.value "challenge_consumed")
  | _, _ => .error (.value "challenge_consumed")

def Challenge.complete (now : Time) (proofDigest : String) (cert : Certificate) (x : Challenge) : Challenge :=
  { x with consumedAt := some now, requestDigest := some proofDigest, certificate := some cert }

theorem Challenge.complete_key {proofDigest : String} {cert : Certificate} (x : Challenge) :
    (x.complete now proofDigest cert).challengeId = x.challengeId := rfl

def completeChallenge (challengeId : String) (now : Time) (proofDigest : String) (cert : Certificate) (s : Store) :
    Store :=
  { s with challenges := s.challenges.modify challengeId (Challenge.complete now proofDigest cert)
             Challenge.complete_key }

/-- `activate_challenge` -/
def activateChallenge (challengeId proof : String) (expected : FlowKind) (activationId : String) (s : Store) :
    Except Err (Store × Certificate) :=
  match s.challenges.get challengeId with
  | none => .error challengeUnavailable
  | some row => do
    checkFlow expected row s
    match s.licenses.get row.licenseId with
    | none => .error (.value "license_revoked")
    | some lic =>
      if lic.revokedAt.isSome then .error (.value "license_revoked")
      else if row.consumedAt.isSome then do
        let cert ← replayChallenge k row proof s
        return (s, cert)
      else
        let now := c.clk 0
        if row.expiresAt ≤ now then .error (.value "challenge_expired")
        else do
          let (s, cert) ← activateInTransaction k c row.licenseId row.devicePublicKey row.nonce proof activationId now s
          return (completeChallenge challengeId now (k.sha256 (.text proof)) cert s, cert)

/-! Revocation -/

structure RevocationRequest where
  source : String
  sourceId : String
  payloadDigest : String
  authorityId : String
  signerIdentity : Identity
  licenseId : String
  action : String
  reason : String
  paymentProof : String
  txHash : String
  createdAt : String
  deriving DecidableEq, Repr

structure RevocationResponse where
  licenseId : String
  revokedAt : String
  revocationReceipt : String
  authorityId : String
  signerIdentity : Identity
  ackSignature : String
  deriving DecidableEq, Repr

def isReason (r : String) : Bool :=
  r == "refund" || r == "chargeback" || r == "fraud" || r == "terms_violation" || r == "administrative"

def revocationRequestDigest (identity : Identity) (a : RevocationRequest) : String :=
  k.sha256 (canonical [("signer_identity", .identity identity), ("source", .str a.source), ("source_id", .str a.sourceId),
    ("payload_digest", .str a.payloadDigest), ("license_id", .str a.licenseId), ("action", .str a.action),
    ("reason", .str a.reason), ("payment_proof", .str a.paymentProof), ("tx_hash", .str a.txHash),
    ("created_at", .str a.createdAt)])

def revocationReceipt (authorityId requestDigest licenseId revokedAt : String) : String :=
  k.sha256 (canonical [("authority_id", .str authorityId), ("request_digest", .str requestDigest),
    ("license_id", .str licenseId), ("revoked_at", .str revokedAt)])

def checkRevocation (a : RevocationRequest) : Except Err Unit :=
  if a.action ≠ "refund" ∧ a.action ≠ "revoke" then .error (.value "invalid_revocation_action")
  else if !isReason a.reason then .error (.value "invalid_revocation_reason")
  else if !isSource a.source || !isDigest a.sourceId || !isDigest a.payloadDigest || !isLicenseId a.licenseId ||
      !isDigest a.paymentProof || !matchesFixed "0x" 64 isHex a.txHash then
    .error (.value "invalid_revocation_evidence")
  else .ok ()

/-- The event is at most a day old, and at most five minutes ahead of the clock. -/
def checkFreshness (now : Time) (createdAt : String) : Except Err Unit :=
  match IsoTime.parse createdAt with
  | none => .error (.value "invalid_revocation_created_at")
  | some event =>
    if event.instant < now - seconds 86400 ∨ now + seconds 300 < event.instant then
      .error (.value "invalid_revocation_created_at")
    else .ok ()

def replayRevocation (identity : Identity) (a : RevocationRequest) (digest : String) (prior : ExternalRevocation) :
    Except Err RevocationResponse :=
  if prior.requestDigest ≠ digest then .error (.value "external_revocation_contradiction")
  else if { prior.signer with authorityId := some a.authorityId } ≠ storedIdentity identity then
    .error (.value "external_revocation_contradiction")
  else match prior.ackSignature with
    | none => .error (.value "legacy_identity_unproven")
    | some signature =>
      .ok ⟨prior.licenseId, prior.revokedAt, prior.receipt, a.authorityId, identity, signature⟩

/-- `revoke_external_entitlement` -/
def revokeExternalEntitlement (a : RevocationRequest) (s : Store) : Except Err (Store × RevocationResponse) :=
  if a.authorityId ≠ c.self.ceremony.authorityId then .error (.value "wrong_authority")
  else do
    let identity ← acceptedSignerIdentity k c a.signerIdentity
    checkRevocation a
    let digest := revocationRequestDigest k identity a
    match s.entitlements.get (a.source, a.sourceId) with
    | none => .error (.value "external_entitlement_unavailable")
    | some row =>
      if row.payloadDigest ≠ some a.payloadDigest ∨ row.licenseId ≠ a.licenseId then
        .error (.value "external_entitlement_unavailable")
      else match s.revocations.get (a.source, a.sourceId) with
        -- the replay precedes the freshness of the event
        | some prior => do
          let r ← replayRevocation identity a digest prior
          return (s, r)
        | none => do
          let now := c.clk 0
          checkFreshness now a.createdAt
          let revokedAt := utc now
          let receipt := revocationReceipt k a.authorityId digest row.licenseId revokedAt
          let signature ← signedAck k c s .revocation
            [("authority_id", .str a.authorityId), ("license_id", .str row.licenseId), ("request_digest", .str digest),
             ("revocation_receipt", .str receipt), ("revoked_at", .str revokedAt), ("signer_identity", .identity identity),
             ("source", .str a.source), ("source_id", .str a.sourceId)]
          let s := revokeLicense row.licenseId now s
          let s ← insertRevocation
            { source := a.source, sourceId := a.sourceId, payloadDigest := a.payloadDigest, licenseId := row.licenseId,
              action := a.action, reason := a.reason, paymentProof := a.paymentProof, txHash := a.txHash,
              eventCreatedAt := a.createdAt, revokedAt, requestDigest := digest, receipt,
              signer := { storedIdentity identity with authorityId := some a.authorityId },
              ackSignature := some signature } s
          return (audit (c.clk 1) "external_entitlement_revoked" row.licenseId none s,
            ⟨row.licenseId, revokedAt, receipt, a.authorityId, identity, signature⟩)

/-- What `read_external_revocation_acknowledgement` returns. -/
structure RevocationReply where
  source : String
  sourceId : String
  payloadDigest : String
  licenseId : String
  action : String
  reason : String
  paymentProof : String
  txHash : String
  createdAt : String
  revokedAt : String
  requestDigest : String
  revocationReceipt : String
  authorityId : String
  signerIdentity : Identity
  ackSignature : String
  deriving DecidableEq, Repr

/-- `read_external_revocation_acknowledgement` -/
def readExternalRevocationAcknowledgement (source sourceId : String) (signerIdentity : Identity) (s : Store) :
    Except Err RevocationReply := do
  let identity ← acceptedSignerIdentity k c signerIdentity
  match s.revocations.get (source, sourceId) with
  | none => .error (.value "external_revocation_unavailable")
  | some row =>
    if row.signer.incomplete then .error (.value "legacy_identity_unproven")
    else match row.ackSignature with
      | none => .error (.value "legacy_identity_unproven")
      | some signature =>
        if row.signer ≠ storedIdentity identity then .error (.value "external_revocation_contradiction")
        else return ⟨row.source, row.sourceId, row.payloadDigest, row.licenseId, row.action, row.reason, row.paymentProof,
          row.txHash, row.eventCreatedAt, row.revokedAt, row.requestDigest, row.receipt, identity.authorityId, identity,
          signature⟩

/-! deactivate -/

/-- `deactivate` -/
def deactivate (licenseId deviceId : String) (s : Store) : Except Err (Store × Bool) :=
  match s.activations.get (licenseId, deviceId) with
  | none => .ok (s, false)
  | some row =>
    if row.deactivatedAt.isSome then .ok (s, false)
    else
      .ok (audit (c.clk 1) "device_deactivated" licenseId (some deviceId)
        { s with
          activations := s.activations.modify (licenseId, deviceId) (Activation.deactivate (c.clk 0))
            Activation.deactivate_key,
          requests := s.requests.update
            (fun r => decide (r.licenseId = licenseId ∧ r.deviceId = deviceId ∧ r.status = .active))
            ActivationRequest.consume ActivationRequest.consume_key }, true)

/-- `deactivate_gift_device` -/
def deactivateGiftDevice (giftId deviceId : String) (s : Store) : Except Err (Store × Bool) :=
  match (normalizeUuid giftId).bind s.gifts.get with
  | none => .error giftUnavailable
  | some gift => deactivate c gift.licenseId deviceId s

end GrowthMap.Authority
