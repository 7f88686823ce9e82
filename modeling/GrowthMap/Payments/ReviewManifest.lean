import GrowthMap.Lib.Base64
import GrowthMap.Lib.Ordered
import GrowthMap.Payments.CanonicalForm

/- The production review manifest (production_composition.py).

   The caller pins a release, its digests and a policy that says who may produce and who
   may review. `load_production_review_manifest` takes a snapshot of that, reads a file
   and goes through its five dependencies: each has the pinned digests and two approvals,
   signed by two reviewers. Whatever goes wrong is the one `RuntimeError`.

   SHA-256, Ed25519 and the fold of keys (`unicodedata.normalize("NFKC", key).casefold()`)
   are `Primitives`. What a caller passes is an `Argument`; a value of another type, or a
   dictionary with a key that is no string, is refused wherever it comes, and is `other`. -/
namespace GrowthMap.ReviewManifest
open JsonGrammar StrictJson PyJson Fallible Ordered

def errorText : String := "production dependency review manifest unavailable"

def refuse {α : Type} : Except String α := .error errorText

def require (c : Prop) [Decidable c] : Except String Unit := if c then .ok () else refuse

def given {α : Type} : Option α → Except String α
  | some a => .ok a
  | none => refuse

def maxBytes : Nat := 32768
def maxDepth : Nat := 8

/-! Texts -/

def schema : Text := units "growthmap-production-dependency-review"
def version : Int := 2
def production : Text := units "production"
def domain : Bytes := (units "growthmap-production-dependency-approval-v2\x00").map Nat.toUInt8

/-- `DEPENDENCIES` -/
def dependencyNames : List Text :=
  [units "facilitator", units "finality", units "authority_transport", units "session_boundary", units "monitoring_backup_gate"]

def producerRole : Text := units "producer"
def securityReviewer : Text := units "security_reviewer"
def releaseReviewer : Text := units "release_reviewer"
def reviewerRoles : List Text := [securityReviewer, releaseReviewer]

/-- `_ROLES` -/
def roleNames : List Text := producerRole :: reviewerRoles

/-- `_PIN_KEYS` -/
def pinKeys : List Text := [units "artifact_sha256", units "config_sha256", units "evidence_sha256"]

def isLowerHex (n : Nat) : Bool := isDigit n || (unit 'a' ≤ n && n ≤ unit 'f')

def isLowerAlnum (n : Nat) : Bool := isDigit n || (unit 'a' ≤ n && n ≤ unit 'z')

/-- `[0-9a-f]{k}` -/
def isHexOf (k : Nat) (s : Text) : Bool := s.all isLowerHex && decide (s.length = k)

/-- `_digest` -/
def isSha256 (s : Text) : Bool := isHexOf 64 s

/-- `_COMMIT` -/
def isCommit (s : Text) : Bool := isHexOf 40 s

/-- `[a-z0-9](?:[a-z0-9…]{0,k}[a-z0-9])?`, with the marks that may stand inside. -/
def isWord (marks : Text) (k : Nat) : Text → Bool
  | [] => false
  | c :: rest => isLowerAlnum c && (rest.isEmpty ||
      (rest.dropLast.all (fun n => isLowerAlnum n || marks.contains n) && decide (rest.dropLast.length ≤ k) &&
        rest.getLast?.any isLowerAlnum))

/-- `_identity` -/
def isIdentity (s : Text) : Bool := isWord (units "._-") 62 s

/-- `_CONTEXT` -/
def isContext (s : Text) : Bool := isWord (units "._:/-") 126 s

/-- `base64.b64encode(…).decode("ascii")` -/
def b64encode (bytes : Bytes) : Text := (Base64.encode bytes).map unit

/-- `base64.b64decode(…, validate=True)`. Python also reads some texts whose padding is not
in place; those are no encoding of what is read, and are refused after it. -/
def b64decode (s : Text) : Option Bytes := Base64.decode (s.map Char.ofNat)

/-! What the code is given -/

inductive Argument where
  | str (s : Text)
  | bytes (b : Bytes)
  | list (items : List Argument)
  | dict (items : List (Text × Argument))
  | other

/-- The arguments of a call, but for the path. -/
structure Inputs where
  expectedReleaseCommit : Argument
  expectedPublicConfigSha256 : Argument
  expectedCeremonyContextId : Argument
  expectedDependencies : Argument
  trustedPolicy : Argument

structure Primitives where
  /-- `unicodedata.normalize("NFKC", key).casefold()` -/
  fold : Text → Text
  floats : Floats
  /-- `hashlib.sha256(…).hexdigest()` -/
  sha256 : Bytes → Text
  sha256_digest : ∀ b, isSha256 (sha256 b) = true
  /-- `Ed25519PublicKey.from_public_bytes` raises nothing. -/
  isPublicKey : Bytes → Bool
  /-- of a key, a signature and a message -/
  verify : Bytes → Bytes → Bytes → Bool

/-! Reading the file -/

structure Stat where
  dev : Nat
  ino : Nat
  mode : Nat
  uid : Nat
  gid : Nat
  nlink : Nat
  size : Nat
  mtimeNs : Nat
  ctimeNs : Nat
  deriving DecidableEq

/-- What the system answers to one call of `_load`, a failure being `none`. -/
structure Reading where
  /-- `os.name`, `os.geteuid` and the two flags are there. -/
  posix : Bool
  euid : Nat
  open_ : Bool
  opened : Option Stat
  linked : Option Stat
  chunks : List (Option Bytes)
  reopened : Option Stat
  relinked : Option Stat
  closed : Bool

def isRegular (s : Stat) : Bool := decide (s.mode / 0o10000 % 16 = 0o10)
def isLink (s : Stat) : Bool := decide (s.mode / 0o10000 % 16 = 0o12)

/-- `_secure` -/
def secure (euid : Nat) (s : Stat) : Bool :=
  isRegular s && decide (s.uid = euid) && decide (s.nlink = 1) && decide (s.mode % 0o100 = 0) &&
    decide (1 ≤ s.size ∧ s.size ≤ maxBytes)

/-- The loop that reads; a read gives no more than it was asked for. -/
def readAll : Bytes → List (Option Bytes) → Option Bytes
  | raw, [] => some raw
  | raw, chunk :: chunks =>
    if maxBytes < raw.length then some raw
    else match chunk with
      | none => none
      | some [] => some raw
      | some (b :: bs) => readAll (raw ++ (b :: bs).take (maxBytes + 1 - raw.length)) chunks

/-- `_load` -/
def load (r : Reading) : Except String Bytes := do
  require (r.posix = true ∧ r.open_ = true)
  let opened ← given r.opened
  let linked ← given r.linked
  require (¬ isLink linked ∧ secure r.euid opened ∧ secure r.euid linked ∧ opened = linked)
  let raw ← given (readAll [] r.chunks)
  let reopened ← given r.reopened
  let relinked ← given r.relinked
  require (raw.length = opened.size ∧ raw.length ≤ maxBytes ∧ ¬ isLink relinked ∧ secure r.euid reopened ∧
    secure r.euid relinked ∧ opened = reopened ∧ opened = relinked)
  require (r.closed = true)
  return raw

/-- `json.loads(raw.decode("utf-8", "strict"), object_pairs_hook=_pairs)`: the hook refuses a
key that stands twice, or whose fold does. -/
def loads (P : Primitives) (raw : Bytes) : Except String PyValue := do
  let text ← given (decode raw)
  given (strictJsonLoads P.fold text).toOption

mutual

/-- `_bounded` -/
def bounded (depth : Nat) : PyValue → Bool
  | .dict items => decide (depth ≤ maxDepth) && boundedMembers (depth + 1) items
  | .list items => decide (depth ≤ maxDepth) && boundedItems (depth + 1) items
  | .str _ => decide (depth ≤ maxDepth)
  | .int _ => decide (depth ≤ maxDepth)
  | _ => false

def boundedItems (depth : Nat) : List PyValue → Bool
  | [] => true
  | v :: items => bounded depth v && boundedItems depth items

def boundedMembers (depth : Nat) : List (Text × PyValue) → Bool
  | [] => true
  | (_, v) :: items => bounded depth v && boundedMembers depth items

end

local instance lawfulName : LawfulBEq Text := inferInstance

/-- `_exact`, of the items of a dictionary. -/
def exact {α : Type} (items : List (Text × α)) (keys : List Text) : Bool :=
  items.all (fun item => decide (item.1 ∈ keys)) && keys.all (fun key => decide (key ∈ items.map Prod.fst))

/-! The snapshot -/

/-- An identity of the policy: `(key, fingerprint, role, organization)`. -/
structure Identity where
  key : Bytes
  fingerprint : Text
  role : Text
  organization : Text
  deriving DecidableEq

structure Snapshot where
  release : Text
  publicDigest : Text
  context : Text
  pins : List (Text × List (Text × Text))
  policyId : Text
  policyDigest : Text
  identities : Dict Text Identity
  deriving DecidableEq

/-- One of `_PIN_KEYS`: what is copied so far, and all digests. -/
def copyPin (item : List (Text × Argument)) (key : Text) (s : List (Text × Text) × List Text) :
    Except String (List (Text × Text) × List Text) :=
  match item.lookup key with
  | some (.str digest) => do
    require (isSha256 digest = true ∧ digest ∉ s.2)
    return (s.1 ++ [(key, digest)], s.2 ++ [digest])
  | _ => refuse

/-- One of `DEPENDENCIES`. -/
def snapshotPins (expected : List (Text × Argument)) (name : Text) (s : List (Text × List (Text × Text)) × List Text) :
    Except String (List (Text × List (Text × Text)) × List Text) :=
  match expected.lookup name with
  | some (.dict item) => do
    require (exact item pinKeys = true)
    let (copied, allDigests) ← each (copyPin item) pinKeys ([], s.2)
    return (s.1 ++ [(name, copied)], allDigests)
  | _ => refuse

def identityKeys : List Text := [units "public_key", units "roles", units "organization"]

def snapshotIdentity (P : Primitives) (row : Text × Argument) (s : Dict Text Identity × List Text) :
    Except String (Dict Text Identity × List Text) :=
  match row.2 with
  | .dict fields => do
    require (isIdentity row.1 = true ∧ exact fields identityKeys = true)
    match fields.lookup (units "public_key"), fields.lookup (units "roles"), fields.lookup (units "organization") with
    | some (.bytes key), some (.list [.str role]), some (.str organization) => do
      require (key.length = 32 ∧ role ∈ roleNames ∧ isIdentity organization = true ∧ P.isPublicKey key = true)
      require (P.sha256 key ∉ s.2)
      return (s.1.setLast row.1 ⟨key, P.sha256 key, role, organization⟩, s.2 ++ [P.sha256 key])
    | _, _, _ => refuse
  | _ => refuse

def identityFields (i : Identity) : List (Text × PyValue) :=
  [(units "public_key", .str (b64encode i.key)), (units "roles", .list [.str i.role]), (units "organization", .str i.organization)]

/-- `sorted(identities.items())` -/
def sortedItems (identities : Dict Text Identity) : List (Text × Identity) :=
  identities.items.insertionSort (fun a b => points a.1 ≤ points b.1)

/-- The document of `_canonical_policy`. -/
def policyFields (policyId : Text) (identities : Dict Text Identity) : List (Text × PyValue) :=
  [(units "policy_id", .str policyId),
   (units "identities", .dict ((sortedItems identities).map (fun e => (e.1, .dict (identityFields e.2)))))]

/-- `_canonical_policy` -/
def canonicalPolicy (floats : Floats) (policyId : Text) (identities : Dict Text Identity) : Option Bytes :=
  canonicalAscii floats (.dict (policyFields policyId identities))

/-- The part of `_snapshot_inputs` that reads the policy. -/
def snapshotPolicy (P : Primitives) : Argument → Except String (Text × Text × Dict Text Identity)
  | .dict policy => do
    require (exact policy [units "policy_id", units "identities"] = true)
    match policy.lookup (units "policy_id"), policy.lookup (units "identities") with
    | some (.str policyId), some (.dict source) => do
      require (isIdentity policyId = true ∧ 3 ≤ source.length)
      let (identities, _) ← each (snapshotIdentity P) source (Dict.empty, [])
      require (∀ role ∈ roleNames, role ∈ identities.items.map (fun e => e.2.role))
      let text ← given (canonicalPolicy P.floats policyId identities)
      return (policyId, P.sha256 text, identities)
    | _, _ => refuse
  | _ => refuse

/-- `_snapshot_inputs` -/
def snapshotInputs (P : Primitives) (i : Inputs) : Except String Snapshot :=
  match i.expectedReleaseCommit, i.expectedPublicConfigSha256, i.expectedCeremonyContextId, i.expectedDependencies with
  | .str release, .str publicDigest, .str context, .dict expected => do
    require (isCommit release = true ∧ isSha256 publicDigest = true ∧ isContext context = true)
    require (exact expected dependencyNames = true)
    let (pins, _) ← each (snapshotPins expected) dependencyNames ([], [])
    let (policyId, policyDigest, identities) ← snapshotPolicy P i.trustedPolicy
    return ⟨release, publicDigest, context, pins, policyId, policyDigest, identities⟩
  | _, _, _, _ => refuse

/-! What reviewers sign -/

structure Statement where
  releaseCommit : Text
  ceremonyContextId : Text
  publicConfigSha256 : Text
  policyId : Text
  policySha256 : Text
  producerId : Text
  producerKeySha256 : Text
  dependencyName : Text
  pins : List (Text × Text)
  reviewerId : Text
  reviewerKeySha256 : Text
  reviewerRole : Text

def Statement.fields (s : Statement) : List (Text × PyValue) :=
  [(units "schema", .str schema), (units "version", .int version), (units "environment", .str production),
   (units "release_commit", .str s.releaseCommit), (units "ceremony_context_id", .str s.ceremonyContextId),
   (units "public_config_sha256", .str s.publicConfigSha256), (units "policy_id", .str s.policyId),
   (units "policy_sha256", .str s.policySha256), (units "producer_id", .str s.producerId),
   (units "producer_key_sha256", .str s.producerKeySha256), (units "dependency_name", .str s.dependencyName)] ++
  s.pins.map (fun pin => (pin.1, .str pin.2)) ++
  [(units "reviewer_id", .str s.reviewerId), (units "reviewer_key_sha256", .str s.reviewerKeySha256),
   (units "reviewer_role", .str s.reviewerRole)]

/-- `_approval_statement` -/
def approvalStatement (floats : Floats) (s : Statement) : Option Bytes :=
  (canonicalAscii floats (.dict s.fields)).map (domain ++ ·)

/-! The verdict -/

structure VerifiedReviewerApproval where
  reviewerId : Text
  reviewerKeySha256 : Text
  reviewerRole : Text
  reviewerOrganization : Text
  signature : Text

structure DependencyEvidence where
  artifactSha256 : Text
  configSha256 : Text
  evidenceSha256 : Text
  approvals : List VerifiedReviewerApproval

structure ValidatedProductionEvidence where
  schema : Text
  version : Int
  environment : Text
  releaseCommit : Text
  ceremonyContextId : Text
  publicConfigSha256 : Text
  policyId : Text
  policySha256 : Text
  producerId : Text
  producerKeySha256 : Text
  producerOrganization : Text
  dependencies : List (Text × DependencyEvidence)
  manifestSha256 : Text

def isStr (v : Option PyValue) (s : Text) : Bool :=
  match v with
  | some (.str t) => decide (t = s)
  | _ => false

def isInt (v : Option PyValue) (n : Int) : Bool :=
  match v with
  | some (.int m) => decide (m = n)
  | _ => false

/-- A release under review: what is pinned, and who produced it. -/
structure Case where
  snapshot : Snapshot
  producerId : Text
  producer : Identity

def Case.statement (c : Case) (name : Text) (pins : List (Text × Text)) (reviewerId fingerprint role : Text) : Statement :=
  { releaseCommit := c.snapshot.release, ceremonyContextId := c.snapshot.context, publicConfigSha256 := c.snapshot.publicDigest,
    policyId := c.snapshot.policyId, policySha256 := c.snapshot.policyDigest, producerId := c.producerId,
    producerKeySha256 := c.producer.fingerprint, dependencyName := name, pins := pins, reviewerId := reviewerId,
    reviewerKeySha256 := fingerprint, reviewerRole := role }

/-- What the loop over the approvals of one dependency collects, and the signatures seen in
any dependency. -/
structure Collected where
  values : List VerifiedReviewerApproval
  reviewerKeys : List Text
  reviewerIds : List Text
  reviewerOrgs : List Text
  selectedRoles : List Text
  seenSignatures : List Bytes

def approvalKeys : List Text := [units "reviewer_id", units "reviewer_key_sha256", units "reviewer_role", units "signature"]

def verifyApproval (P : Primitives) (c : Case) (name : Text) (pins : List (Text × Text)) (approval : PyValue) (s : Collected) :
    Except String Collected :=
  match approval with
  | .dict fields => do
    require (exact fields approvalKeys = true)
    match fields.lookup (units "reviewer_id"), fields.lookup (units "reviewer_key_sha256"),
      fields.lookup (units "reviewer_role"), fields.lookup (units "signature") with
    | some (.str reviewerId), some (.str fingerprint), some (.str role), some (.str encoded) => do
      require (isIdentity reviewerId = true)
      let reviewer ← given (c.snapshot.identities.get reviewerId)
      require (role ∈ reviewerRoles ∧ role = reviewer.role ∧ fingerprint = reviewer.fingerprint ∧
        reviewer.key ≠ c.producer.key ∧ reviewer.organization ≠ c.producer.organization ∧ fingerprint ∉ s.reviewerKeys ∧
        reviewerId ∉ s.reviewerIds ∧ reviewer.organization ∉ s.reviewerOrgs)
      let signature ← given (b64decode encoded)
      require (signature.length = 64 ∧ b64encode signature = encoded ∧ signature ∉ s.seenSignatures)
      let message ← given (approvalStatement P.floats (c.statement name pins reviewerId fingerprint role))
      require (P.verify reviewer.key signature message = true)
      return { values := s.values ++ [⟨reviewerId, fingerprint, role, reviewer.organization, encoded⟩],
               reviewerKeys := s.reviewerKeys ++ [fingerprint], reviewerIds := s.reviewerIds ++ [reviewerId],
               reviewerOrgs := s.reviewerOrgs ++ [reviewer.organization], selectedRoles := s.selectedRoles ++ [role],
               seenSignatures := s.seenSignatures ++ [signature] }
    | _, _, _, _ => refuse
  | _ => refuse

structure Progress where
  validated : List (Text × DependencyEvidence)
  seenSignatures : List Bytes
  seenDigests : List Text

def verifyDigest (pins : List (Text × Text)) (item : List (Text × PyValue)) (key : Text) (seenDigests : List Text) :
    Except String (List Text) :=
  match item.lookup key with
  | some (.str digest) => do
    require (pins.lookup key = some digest ∧ isSha256 digest = true ∧ digest ∉ seenDigests)
    return seenDigests ++ [digest]
  | _ => refuse

def verifyDependency (P : Primitives) (c : Case) (dependencies : List (Text × PyValue)) (name : Text) (s : Progress) :
    Except String Progress :=
  match dependencies.lookup name, c.snapshot.pins.lookup name with
  | some (.dict item), some pins => do
    require (exact item (pinKeys ++ [units "approvals"]) = true)
    let seenDigests ← each (verifyDigest pins item) pinKeys s.seenDigests
    match item.lookup (units "approvals") with
    | some (.list approvals) => do
      require (approvals.length = 2)
      let r ← each (verifyApproval P c name pins) approvals ⟨[], [], [], [], [], s.seenSignatures⟩
      require ((∀ role ∈ r.selectedRoles, role ∈ reviewerRoles) ∧ ∀ role ∈ reviewerRoles, role ∈ r.selectedRoles)
      match item.lookup (units "artifact_sha256"), item.lookup (units "config_sha256"), item.lookup (units "evidence_sha256") with
      | some (.str artifact), some (.str config), some (.str evidence) =>
        return ⟨s.validated ++ [(name, ⟨artifact, config, evidence, r.values⟩)], r.seenSignatures, seenDigests⟩
      | _, _, _ => refuse
    | _ => refuse
  | _, _ => refuse

def manifestKeys : List Text :=
  [units "schema", units "version", units "environment", units "release_commit", units "ceremony_context_id",
   units "public_config_sha256", units "policy_id", units "policy_sha256", units "producer_id", units "producer_key_sha256",
   units "dependencies"]

def verifyManifest (P : Primitives) (snap : Snapshot) (raw : Bytes) : PyValue → Except String ValidatedProductionEvidence
  | .dict data => do
    require (exact data manifestKeys = true)
    require (isStr (data.lookup (units "schema")) schema ∧ isInt (data.lookup (units "version")) version ∧
      isStr (data.lookup (units "environment")) production ∧ isStr (data.lookup (units "release_commit")) snap.release ∧
      isStr (data.lookup (units "ceremony_context_id")) snap.context ∧
      isStr (data.lookup (units "public_config_sha256")) snap.publicDigest ∧
      isStr (data.lookup (units "policy_id")) snap.policyId ∧ isStr (data.lookup (units "policy_sha256")) snap.policyDigest)
    match data.lookup (units "producer_id"), data.lookup (units "dependencies") with
    | some (.str producerId), some (.dict dependencies) => do
      require (isIdentity producerId = true)
      let producer ← given (snap.identities.get producerId)
      require (producer.role = producerRole ∧ isStr (data.lookup (units "producer_key_sha256")) producer.fingerprint)
      require (exact dependencies dependencyNames = true)
      let r ← each (verifyDependency P ⟨snap, producerId, producer⟩ dependencies) dependencyNames ⟨[], [], []⟩
      return ⟨schema, version, production, snap.release, snap.context, snap.publicDigest, snap.policyId, snap.policyDigest,
        producerId, producer.fingerprint, producer.organization, r.validated, P.sha256 raw⟩
    | _, _ => refuse
  | _ => refuse

/-- `load_production_review_manifest` -/
def loadProductionReviewManifest (P : Primitives) (i : Inputs) (file : Reading) : Except String ValidatedProductionEvidence := do
  let snap ← snapshotInputs P i
  let raw ← load file
  let data ← loads P raw
  require (bounded 1 data = true)
  require (canonical P.floats data = some raw)
  verifyManifest P snap raw data

/-! Checks that were passed -/

theorem require_ok {c : Prop} [Decidable c] {u : Unit} : require c = .ok u ↔ c := by
  unfold require
  split
  · next h => exact iff_of_true rfl h
  · next h => exact iff_of_false nofun h

theorem given_ok {α : Type} {o : Option α} {a : α} : given o = .ok a ↔ o = some a := by
  cases o with
  | none => exact iff_of_false nofun nofun
  | some => simp [given]

theorem isStr_iff {v : Option PyValue} {s : Text} : isStr v s = true ↔ v = some (.str s) := by
  unfold isStr
  split
  · simp
  · next h => exact iff_of_false Bool.false_ne_true fun heq => h s heq

theorem refuse_ne {α : Type} {a : α} : (refuse : Except String α) ≠ .ok a := nofun

end GrowthMap.ReviewManifest
