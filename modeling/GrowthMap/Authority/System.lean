import GrowthMap.Authority.Operations
import GrowthMap.Lib.Runs
import Mathlib.Logic.Relation

/- The Authority as a system: one event is one call of one method of one instance.

   Calls are serialized by BEGIN IMMEDIATE, so a run is a list of calls, in any order and
   by any instances; what a call saw of the signer state before its transaction, and
   what the anchor and the signer answered, is part of the event. -/
namespace GrowthMap.Authority

open Relational Runs
open Payments (Time seconds Identity Value Doc Err AckDomain EntitlementAck)

/-- The methods that use the database, with their arguments and random values. -/
inductive Op where
  | createLicense (licenseId edition : String) (majorVersion : Int) (seatLimit : Nat) (expiresAt : Expiry) (checkInDays : Int)
  | createGift (edition : String) (majorVersion : Int) (seatLimit : Nat) (checkInDays : Int) (giftId licenseId secret : String)
  | recoverGift (giftId secret : String)
  | revokeGift (giftId : String)
  | issueGiftClaimChallenge (giftId secret devicePublicKey : String) (ttl : Int) (nonce challengeId : String)
  | createExternalEntitlement (a : EntitlementRequest) (licenseId : String)
  | readExternalEntitlementAcknowledgement (source sourceId : String) (signerIdentity : Identity)
  | issueActivationChallenge (licenseId devicePublicKey : String) (ttl : Int) (nonce challengeId : String)
  | activateChallenge (challengeId proof : String) (expected : FlowKind) (activationId : String)
  | activate (licenseId devicePublicKey nonce proof activationId : String)
  | revokeExternalEntitlement (a : RevocationRequest)
  | readExternalRevocationAcknowledgement (source sourceId : String) (signerIdentity : Identity)
  | deactivate (licenseId deviceId : String)
  | deactivateGiftDevice (giftId deviceId : String)
  | pinCeremony

structure Event where
  call : Call
  op : Op

inductive Reply where
  | raised (e : Err)
  | license (r : LicenseSummary)
  | gift (g : Gift) (secret : String)
  | challenge (r : ChallengeReply)
  | entitlement (r : EntitlementResponse)
  | entitlementAck (a : EntitlementAck)
  | certificate (x : Certificate)
  | revocation (r : RevocationResponse)
  | revocationAck (r : RevocationReply)
  | deactivated (b : Bool)
  | done

def answer {α : Type} (reply : α → Reply) (s : Store) : Except Err (Store × α) → Store × Reply
  | .ok (s', a) => (s', reply a)
  | .error e => (s, .raised e)

def exec (k : Crypto) (s : Store) (e : Event) : Store × Reply :=
  let c := e.call
  match e.op with
  | .createLicense licenseId edition majorVersion seatLimit expiresAt checkInDays =>
    answer .license s (createLicense c licenseId edition majorVersion seatLimit expiresAt checkInDays s)
  | .createGift edition majorVersion seatLimit checkInDays giftId licenseId secret =>
    answer (fun r => .gift r.1 r.2) s
      (createGift k c edition majorVersion seatLimit checkInDays giftId licenseId secret s)
  | .recoverGift giftId secret => answer (fun r => .gift r.1 r.2) s (recoverGift k c giftId secret s)
  | .revokeGift giftId => answer (fun _ => .done) s (revokeGift c giftId s)
  | .issueGiftClaimChallenge giftId secret key ttl nonce challengeId =>
    answer .challenge s (issueGiftClaimChallenge k c giftId secret key ttl nonce challengeId s)
  | .createExternalEntitlement a licenseId => answer .entitlement s (createExternalEntitlement k c a licenseId s)
  | .readExternalEntitlementAcknowledgement source sourceId identity =>
    answer .entitlementAck s
      ((readExternalEntitlementAcknowledgement k c source sourceId identity s).map (fun a => (s, a)))
  | .issueActivationChallenge licenseId key ttl nonce challengeId =>
    answer .challenge s (issueActivationChallenge k c licenseId key ttl nonce challengeId s)
  | .activateChallenge challengeId proof expected activationId =>
    answer .certificate s (activateChallenge k c challengeId proof expected activationId s)
  | .activate licenseId key nonce proof activationId =>
    answer .certificate s (activate k c licenseId key nonce proof activationId s)
  | .revokeExternalEntitlement a => answer .revocation s (revokeExternalEntitlement k c a s)
  | .readExternalRevocationAcknowledgement source sourceId identity =>
    answer .revocationAck s
      ((readExternalRevocationAcknowledgement k c source sourceId identity s).map (fun a => (s, a)))
  | .deactivate licenseId deviceId => answer .deactivated s (deactivate c licenseId deviceId s)
  | .deactivateGiftDevice giftId deviceId => answer .deactivated s (deactivateGiftDevice c giftId deviceId s)
  | .pinCeremony => answer (fun _ => .done) s (pinCeremony c.self.ceremony (c.clk 0) s)

def step (k : Crypto) (s : Store) (e : Event) : Store := (exec k s e).1

def reply (k : Crypto) (s : Store) (e : Event) : Reply := (exec k s e).2

/-- The states the Authority can be in. -/
abbrev Reached (k : Crypto) (s : Store) : Prop := Reachable (step k) Store.empty s

/-! What a call can change -/

/-- The tables that decide about licenses and seats. -/
structure Core where
  licenses : Licenses
  entitlements : ExternalEntitlements
  revocations : ExternalRevocations
  gifts : Gifts
  challenges : Challenges
  activations : Activations
  requests : Requests

def Store.core (s : Store) : Core :=
  ⟨s.licenses, s.entitlements, s.revocations, s.gifts, s.challenges, s.activations, s.requests⟩

/-- A new request is granted: a live license with a seat for the device. -/
structure Granted (k : Crypto) (a b : Core) (lic : License) (r : ActivationRequest) (x : Activation) : Prop where
  license : a.licenses.get lic.licenseId = some lic
  live : lic.revokedAt = none
  seat : (∃ old, a.activations.get (lic.licenseId, x.deviceId) = some old ∧ old.deactivatedAt = none) ∨
    activeSeats a.activations lic.licenseId < lic.seatLimit
  row : x.licenseId = lic.licenseId ∧ x.deactivatedAt = none ∧ x.nonceDigest = r.requestDigest
  certificate : x.certificate.licenseId = x.licenseId ∧ x.certificate.deviceId = x.deviceId ∧
    x.certificate.activationId = x.activationId
  request : r.licenseId = x.licenseId ∧ r.deviceId = x.deviceId ∧ r.status = .active ∧
    r.activationId = some x.activationId ∧ r.certificate = some x.certificate ∧
    r.requestDigest = requestDigest k r.licenseId r.deviceId r.nonceDigest r.proofDigest
  ids : a.activations.taken (x.licenseId, x.deviceId) (fun y => some y.activationId) (some x.activationId) = false
  requests : a.requests.insert r = some b.requests
  activations : a.activations.insert x = some b.activations ∨
    (∃ old, a.activations.get (x.licenseId, x.deviceId) = some old) ∧
      b.activations = a.activations.modify (x.licenseId, x.deviceId) x.renew Activation.renew_key
  rest : b = { a with requests := b.requests, activations := b.activations }

/-- What one statement group of a call does. -/
inductive Change (k : Crypto) : Core → Core → Prop where
  | license (a : Core) (l : License) (t : Licenses) (hseats : 1 ≤ l.seatLimit ∧ l.seatLimit ≤ 2) (hlive : l.revokedAt = none)
      (h : a.licenses.insert l = some t) : Change k a { a with licenses := t }
  | gift (a : Core) (g : Gift) (t : Gifts) (hactive : g.status = .active)
      (hone : a.gifts.taken g.giftId (fun r => some r.licenseId) (some g.licenseId) = false)
      (hlicense : (a.licenses.get g.licenseId).isSome)
      (h : a.gifts.insert g = some t) : Change k a { a with gifts := t }
  | rotate (a : Core) (g : Gift) (digest : String) (now : Time) (hg : a.gifts.get g.giftId = some g)
      (hactive : g.status = .active) :
      Change k a { a with
        gifts := a.gifts.modify g.giftId (Gift.rotate digest (g.secretGeneration + 1) now) Gift.rotate_key,
        challenges := a.challenges.update (fun x => decide (x.licenseId = g.licenseId)) (Challenge.consume now)
          Challenge.consume_key }
  | revoke (a : Core) (licenseId : String) (now : Time) :
      Change k a { a with
        licenses := a.licenses.modify licenseId (License.revoke now) License.revoke_key,
        activations := a.activations.update (fun x => decide (x.licenseId = licenseId)) (Activation.deactivate now)
          Activation.deactivate_key,
        requests := a.requests.update (fun r => decide (r.licenseId = licenseId)) ActivationRequest.consume
          ActivationRequest.consume_key,
        challenges := a.challenges.update (fun x => decide (x.licenseId = licenseId)) (Challenge.consume now)
          Challenge.consume_key }
  | closeGift (a : Core) (g : Gift) (now : Time) (hg : a.gifts.get g.giftId = some g)
      (hrevoked : ∀ l, a.licenses.get g.licenseId = some l → l.revokedAt.isSome) :
      Change k a { a with gifts := a.gifts.modify g.giftId (Gift.revoke now) Gift.revoke_key }
  | supersede (a : Core) (licenseId deviceId : String) (now : Time) :
      Change k a { a with
        challenges := a.challenges.update
          (fun x => decide (x.licenseId = licenseId ∧ x.deviceId = deviceId ∧ x.consumedAt = none))
          (Challenge.consume now) Challenge.consume_key }
  | challenge (a : Core) (x : Challenge) (t : Challenges) (hopen : x.consumedAt = none ∧ x.certificate = none)
      (hdevice : k.deviceIdentifier x.devicePublicKey = .ok x.deviceId)
      (hgift : x.flowKind = some .gift → ∃ g, a.gifts.get g.giftId = some g ∧ g.licenseId = x.licenseId ∧
        x.entitlementGeneration = some g.secretGeneration)
      (h : a.challenges.insert x = some t) : Change k a { a with challenges := t }
  | entitlement (a : Core) (e : ExternalEntitlement) (t : ExternalEntitlements)
      (hone : a.entitlements.taken (e.source, e.sourceId) (fun r => some r.licenseId) (some e.licenseId) = false)
      (hlicense : (a.licenses.get e.licenseId).isSome)
      (h : a.entitlements.insert e = some t) : Change k a { a with entitlements := t }
  | revocation (a : Core) (r : ExternalRevocation) (t : ExternalRevocations)
      (hrevoked : ∃ l, a.licenses.get r.licenseId = some l ∧ l.revokedAt.isSome)
      (h : a.revocations.insert r = some t) : Change k a { a with revocations := t }
  | grant (a b : Core) (lic : License) (r : ActivationRequest) (x : Activation) (h : Granted k a b lic r x) : Change k a b
  | complete (a : Core) (x : Challenge) (now : Time) (proofDigest : String) (cert : Certificate)
      (hx : a.challenges.get x.challengeId = some x) (hopen : x.consumedAt = none) :
      Change k a { a with
        challenges := a.challenges.modify x.challengeId (Challenge.complete now proofDigest cert)
          Challenge.complete_key }
  | deactivate (a : Core) (licenseId deviceId : String) (now : Time) :
      Change k a { a with
        activations := a.activations.modify (licenseId, deviceId) (Activation.deactivate now) Activation.deactivate_key,
        requests := a.requests.update
          (fun r => decide (r.licenseId = licenseId ∧ r.deviceId = deviceId ∧ r.status = .active))
          ActivationRequest.consume ActivationRequest.consume_key }

/-- What a call does. -/
abbrev Changes (k : Crypto) : Core → Core → Prop := Relation.ReflTransGen (Change k)

/-! A concrete Authority -/

namespace Demo

def zeros : String := String.ofList (List.replicate 64 '0')

/-- Doubles a text of 32 characters: the digests of secrets have 64 and differ. -/
def hash (s : String) : String := if s.toList.length = 32 then s ++ s else s

def crypto : Crypto :=
  { sha256 := fun d => match d with | .text s => hash s | _ => zeros,
    deviceIdentifier := fun key => .ok key,
    verifyProof := fun _ _ _ => true,
    verify := fun _ _ _ _ => true }

def ceremony : Ceremony := ⟨"g", "k", 1, "t", none, "p", "a"⟩

def claim : AnchorClaim := ceremony.claim crypto

def pinned : CeremonyRow := ⟨1, "k", ceremony, "p", "a", 0⟩

/-- A call of the instance of generation 1 at time `t`. -/
def event (t : Time) (op : Op) : Event :=
  ⟨{ self := ⟨ceremony, "K"⟩, clk := fun _ => t, handshake := ⟨some claim, some pinned⟩, anchor := some claim,
     sign := fun _ _ => some (List.replicate 64 0) }, op⟩

/-- A license `L` of two seats, and the nonce `A` of the device `D`. -/
def opened : List Event :=
  [event 0 .pinCeremony, event 1 (.createLicense "L" "personal" 1 2 .never 30),
   event 2 (.activate "L" "D" "AAAAAAAAAAAAAAAA" "P" "1")]

/-- The device presents the request of `opened` again. -/
def replay : Event := event 4 (.activate "L" "D" "AAAAAAAAAAAAAAAA" "P" "3")

end Demo

end GrowthMap.Authority
