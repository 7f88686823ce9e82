import GrowthMap.Desktop.Freshness

/- The start of the desktop (desktop/main.js, desktop/startup-policy.js,
   desktop/startup-verdict.js).

   Electron asks the backend what the license and the free state are worth, holds
   that against its own evidence, and launches the sidecar under the policy that
   follows. This is a start without a pending update marker. Both processes read
   one clock, in microseconds; the stores of Electron see its milliseconds. -/
namespace GrowthMap.Desktop

inductive Mode where
  | paid | free | fresh | extraction
  deriving DecidableEq, Repr

def Mode.text : Mode → String
  | .paid => "paid"
  | .free => "free"
  | .fresh => "fresh"
  | .extraction => "extraction"

structure Policy where
  mode : Mode
  writable : Bool
  deriving DecidableEq, Repr

/-! The policy -/

def authenticatedFresh (e : Entitlement) : Bool :=
  decide (e.state = .free ∧ e.edition = "free" ∧ e.valid = true ∧ e.mutationsAllowed = true ∧
    e.reason = "authenticated_fresh_install" ∧ e.maxActiveProjects = some 1 ∧ e.licenseId = none)

def Trial.isExisting : Trial → Bool
  | .existing _ => true
  | _ => false

def Trial.isFresh : Trial → Bool
  | .fresh _ => true
  | _ => false

def decideStartup (trial : Trial) (e : Entitlement) : Policy :=
  if e.state = .paid ∧ e.valid = true ∧ e.mutationsAllowed = true then ⟨.paid, true⟩
  else if trial.isExisting = true ∧ e.state = .free ∧ e.mutationsAllowed = true then ⟨.free, true⟩
  else if trial.isFresh = true ∧ authenticatedFresh e = true then ⟨.fresh, true⟩
  else ⟨.extraction, false⟩

/-! The launch -/

/-- What a start of the desktop has at hand: the session token, the device identity
and the bundled license key. -/
structure Desktop where
  token : String
  devicePublicKey : String
  /-- the Ed25519 signature of the device, in base64 -/
  sign : String → String
  licenseKey : KeyFile
  ci : Bool

/-- The random texts of one verdict. -/
structure Draw where
  nonce : String
  session : String

/-- `createStartupVerdict`, in the environment of the launch. -/
def createStartupVerdict (P : Primitives) (d : Desktop) (draw : Draw) (mode : Mode) : Launch :=
  let unsigned : Launch :=
    { mode := mode.text, device := d.devicePublicKey, nonce := draw.nonce, session := draw.session, proof := "", mac := "",
      token := d.token, freshInstall := decide (mode = .fresh), ci := d.ci }
  let proven := { unsigned with proof := d.sign (startupProof unsigned) }
  { proven with mac := P.hmac d.token (startupVerdict proven) }

def Stored.asFile (S : Platform) : Stored → FileState
  | .absent => .absent
  | .unreadable => .unreadable
  | .content b => match S.loads b with
    | some j => .doc j
    | none => .malformed

theorem Stored.asFile_content {S : Platform} {b : Bytes} {j : Json} (h : S.loads b = some j) :
    (Stored.content b).asFile S = .doc j := by
  simp only [Stored.asFile, h]

def UserData.files (S : Platform) (d : Desktop) (u : UserData) : Files :=
  ⟨u.license.asFile S, u.trialState.asFile S, u.revocation.asFile S, d.licenseKey⟩

def probeMode (u : UserData) (trial : Trial) : Mode :=
  if u.license.exists_ then .paid
  else if trial.isExisting then .free
  else if trial.isFresh then .fresh
  else .extraction

/-- `entitlementStatus`: the backend's answer under a probe verdict. -/
def entitlementStatus (P : Primitives) (S : Platform) (d : Desktop) (u : UserData) (clock : Int) (trial : Trial) (draw : Draw) :
    Except Unit Entitlement :=
  effectiveEntitlement P (u.files S d) clock (createStartupVerdict P d draw (probeMode u trial))

/-! The evidence of Electron -/

def Entitlement.extracted (e : Entitlement) (reason : String) : Entitlement :=
  { e with state := .extraction, valid := false, mutationsAllowed := false, reason }

def Entitlement.underRevocation (e : Entitlement) : Revocation → Entitlement
  | .invalid reason => e.extracted reason
  | _ => e

def Entitlement.underFreshness (e : Entitlement) : FreshnessEvidence → Entitlement
  | .invalid => e.extracted "license_freshness_state_invalid"
  | .none => e
  | .seen x =>
    if e.licenseId.any (fun id => decide (id ≠ "") && !x.licenseId.is id) then e.extracted "license_freshness_state_invalid"
    else e

def bootstrapPeriod : Int := 30 * 86400000

/-- The bootstrap period of a legacy license has run out. -/
def bootstrapOver (S : Platform) (now : Int) (observed : Freshness) : Bool :=
  let since := if isTruthy observed.firstSeenAt then observed.firstSeenAt else observed.lastSeenAt
  (S.dateParse (toStringJs since)).any (fun first => decide (first + bootstrapPeriod < now))

/-- The checkpoint of a start, and what the entitlement is after it. An accepted
license has an id. -/
def observe (P : Primitives) (S : Platform) (u : UserData) (now : Int) (e : Entitlement) : List Write × Entitlement :=
  if (e.state = .paid ∨ e.state = .paidLegacy) ∧ e.valid = true then
    let (writes, outcome) := checkpoint P S u now (e.licenseId.getD "")
    match outcome with
    | .error _ => (writes, e.extracted "clock_rollback_or_check_in_required")
    | .ok observed =>
      if e.state = .paidLegacy then
        if bootstrapOver S now observed then (writes, e.extracted "clock_rollback_or_check_in_required")
        else (writes, { e with state := .paid, mutationsAllowed := true, reason := "legacy_bootstrap" })
      else (writes, e)
  else match e.licenseId with
    | none => ([], e)
    | some id =>
      if id = "" then ([], e)
      else
        let (writes, outcome) := checkpoint P S u now id
        match outcome with
        | .error _ => (writes, e.extracted "clock_rollback")
        | .ok _ => (writes, e)

/-! A start -/

/-- The random values of a start. -/
structure Draws where
  installation : String
  probe : Draw
  launch : Draw

structure Started where
  trial : Trial
  entitlement : Entitlement
  policy : Policy
  /-- the environment of the sidecar -/
  verdict : Launch
  /-- what the checkpoint replaces -/
  writes : List Write

def millis (clock : Int) : Int := clock / 1000

/-- `prepareAndStart` up to the launch of the sidecar. -/
def prepareAndStart (P : Primitives) (S : Platform) (d : Desktop) (u : UserData) (clock : Int) (draws : Draws) :
    Except Unit Started := do
  let trial := trialPrepare S u (millis clock) draws.installation
  let revocation := revocationInspect P S u
  let probed ← entitlementStatus P S d u clock trial draws.probe
  let weighed := (probed.underRevocation revocation).underFreshness (freshnessRead P S u)
  let (writes, entitlement) := observe P S u (millis clock) weighed
  let policy := decideStartup trial entitlement
  .ok ⟨trial, entitlement, policy, createStartupVerdict P d draws.launch policy.mode, writes⟩

/-- What the sidecar of this start computes, on the files as the start left them. -/
def sidecarEntitlement (P : Primitives) (S : Platform) (d : Desktop) (u : UserData) (clock : Int) (started : Started) :
    Except Unit Entitlement :=
  effectiveEntitlement P ((u.after started.writes).files S d) clock started.verdict

end GrowthMap.Desktop
