import GrowthMap.Desktop.FailClosed
import GrowthMap.Desktop.HonestStarts

/- The import of a license into the running backend (desktop/routes.py, `import_license`).

   The route decides on the document alone: it is verified, it may only replace a document of
   the same license, and it is written over the installed one. What the backend allows is then
   decided again, from the mode of the launch and the new file.

   In a paid launch the imported certificate goes on allowing what the installed one did. A
   launch in another mode accepts no license, and no launch accepts a legacy one for mutations,
   so any other import that writes ends the mutations of the launch
   (`import_license_keeps_rights`). A refused import leaves the files as they were
   (`refused_unchanged`). -/
namespace GrowthMap.Desktop

/-- How `_atomic_json` goes. -/
inductive AtomicJson where
  | written
  /-- it raises before the new file has replaced the old one -/
  | failsBefore
  /-- the directory cannot be synced once it has -/
  | failsAfter
  deriving DecidableEq, Repr

/-- A request, and what the route finds on the disk. -/
structure ImportRequest where
  /-- `len(raw)` -/
  length : Nat
  /-- the body, if it is strict JSON -/
  body : Option Json
  /-- the installed license is a regular file of one name and of 64 KiB at most, as `stable_json_file` wants it -/
  plain : Bool
  /-- the directory of the license can be made, and made private -/
  safe : Bool
  disk : AtomicJson

inductive ImportAnswer where
  | accepted (value : Entitlement)
  /-- an `HTTPException` -/
  | refused (status : Nat) (detail : String)
  /-- any other exception -/
  | failed
  deriving DecidableEq, Repr

variable (P : Primitives) (same : Json → Json → Bool) (files : Files) (now : Int) (device : String)

/-- What the installed license says to the import: none that stands against it, a refusal, or
that the document is installed already. `same` is Python's `==` of two documents. -/
def installed (plain : Bool) (document : Json) (value : Entitlement) :
    Except ImportAnswer (Option Entitlement) :=
  let recovery := ImportAnswer.refused 409 "Installed license requires authenticated recovery"
  match files.license with
  | .absent => .ok none
  | .doc (.obj existing) =>
    if plain = false then .error recovery
    else match at_ existing "license_id" with
      | .str id =>
        if isLicenseId id = false then .error recovery
        else if value.licenseId ≠ some id then
          .error (.refused 409 "License substitution requires authenticated recovery")
        else
          let current := verifyDocument P files.licenseKey now device (.obj existing)
          .ok (if current.valid ∧ same (.obj existing) document then some current else none)
      | _ => .error recovery
  | .doc _ | .unreadable | .malformed => .error recovery

/-- `import_license` -/
def importLicense (r : ImportRequest) : ImportAnswer × Files :=
  if 65536 < r.length then (.refused 413 "License document too large", files)
  else match r.body with
    | some (.obj [("document", .obj fields)]) =>
      let value := verifyDocument P files.licenseKey now device (.obj fields)
      if value.valid = false then (.refused 400 ("License rejected: " ++ value.reason), files)
      else match installed P same files now device r.plain (.obj fields) value with
        | .error refusal => (refusal, files)
        | .ok (some current) => (.accepted current, files)
        | .ok none =>
          if r.safe = false then (.refused 400 "Unsafe license destination", files)
          else match r.disk with
            | .written => (.accepted value, { files with license := .doc (.obj fields) })
            | .failsBefore => (.failed, files)
            | .failsAfter => (.failed, { files with license := .doc (.obj fields) })
    | _ => (.refused 400 "License JSON must have unique case-distinct keys", files)

def ImportRequest.document (r : ImportRequest) : Json :=
  (r.body.bind (fun body => body.field "document")).getD .null

def AlreadyInstalled (document : Json) : Prop :=
  ∃ existing, files.license = .doc (.obj existing) ∧
    (verifyDocument P files.licenseKey now device (.obj existing)).valid = true ∧
    same (.obj existing) document = true

/-- `effective_entitlement` allows mutations. -/
def Mutable (l : Launch) : Prop := ∃ e, effectiveEntitlement P files now l = .ok e ∧ e.mutationsAllowed = true

variable {P same files now device}

/-! What an import does -/

/-- The ways a request is answered. -/
inductive Imported (P : Primitives) (same : Json → Json → Bool) (files : Files) (now : Int) (device : String)
    (document : Json) : ImportAnswer × Files → Prop where
  | refused (status : Nat) (detail : String) : Imported P same files now device document (.refused status detail, files)
  | already (value : Entitlement) (h : AlreadyInstalled P same files now device document) :
      Imported P same files now device document (.accepted value, files)
  | wrote (fields : List (String × Json)) (hdoc : document = .obj fields)
      (hvalid : (verifyDocument P files.licenseKey now device (.obj fields)).valid = true)
      (hother : ¬ AlreadyInstalled P same files now device document) :
      Imported P same files now device document
        (.accepted (verifyDocument P files.licenseKey now device (.obj fields)),
          { files with license := .doc (.obj fields) })
  | failed (files' : Files) : Imported P same files now device document (.failed, files')

/-- What `installed` finds. -/
theorem installed_cases (plain : Bool) (document : Json) (value : Entitlement) :
    (∃ status detail, installed P same files now device plain document value = .error (.refused status detail)) ∨
      (∃ current, installed P same files now device plain document value = .ok (some current) ∧
        AlreadyInstalled P same files now device document) ∨
      (installed P same files now device plain document value = .ok none ∧
        ¬ AlreadyInstalled P same files now device document) := by
  unfold installed AlreadyInstalled
  dsimp only
  cases hlicense : files.license with
  | absent => exact .inr (.inr ⟨rfl, fun ⟨_, h, _⟩ => by cases h⟩)
  | unreadable | malformed => exact .inl ⟨_, _, rfl⟩
  | doc j =>
    cases j with
    | obj existing =>
      dsimp only
      split
      · exact .inl ⟨_, _, rfl⟩
      · split
        · split
          · exact .inl ⟨_, _, rfl⟩
          · split
            · exact .inl ⟨_, _, rfl⟩
            · split
              · next hsame => exact .inr (.inl ⟨_, rfl, existing, rfl, hsame⟩)
              · next hother =>
                refine .inr (.inr ⟨rfl, ?_⟩)
                rintro ⟨_, heq, hvalid, hsame⟩
                cases heq
                exact hother ⟨hvalid, hsame⟩
        · exact .inl ⟨_, _, rfl⟩
    | _ => exact .inl ⟨_, _, rfl⟩

theorem importLicense_imported (r : ImportRequest) :
    Imported P same files now device r.document (importLicense P same files now device r) := by
  unfold importLicense
  split
  · exact .refused _ _
  · split
    · next fields hbody =>
      have hdoc : r.document = .obj fields := by
        simp [ImportRequest.document, hbody, Json.field, List.lookup_cons]
      dsimp only
      split
      · exact .refused _ _
      · next hvalid =>
        rw [Bool.not_eq_false] at hvalid
        rcases installed_cases r.plain (.obj fields) (verifyDocument P files.licenseKey now device (.obj fields)) with
          ⟨status, detail, h⟩ | ⟨current, h, halready⟩ | ⟨h, hother⟩
        · rw [h]
          exact .refused _ _
        · rw [h]
          exact .already _ (hdoc ▸ halready)
        · rw [h]
          dsimp only
          split
          · exact .refused _ _
          · split
            · exact .wrote fields hdoc hvalid (hdoc ▸ hother)
            · exact .failed _
            · exact .failed _
    · exact .refused _ _

theorem refused_unchanged {r : ImportRequest} {status : Nat} {detail : String} {files' : Files}
    (h : importLicense P same files now device r = (.refused status detail, files')) : files' = files := by
  have himported := @importLicense_imported P same files now device r
  rw [h] at himported
  cases himported
  rfl

/-! What the backend allows then -/

variable {l : Launch}

theorem Mutable.verdict (h : Mutable P files now l) : ∃ mode, verdictValidation P l = .ok mode := by
  obtain ⟨e, he, hallowed⟩ := h
  cases hverdict : verdictValidation P l with
  | ok mode => exact ⟨mode, rfl⟩
  | error =>
    simp only [effectiveEntitlement, hverdict] at he
    cases he
    cases hallowed

/-- Under the new file a launch allows mutations when it is a paid one and the document, beside no
revocation, allows them. -/
theorem mutable_written (fields : List (String × Json)) (hlicense : files.license = .doc (.obj fields)) :
    Mutable P files now l ↔ (∃ mode, verdictValidation P l = .ok mode) ∧ l.mode = "paid" ∧
      files.revocation = .absent ∧
      (verifyDocument P files.licenseKey now l.device (.obj fields)).mutationsAllowed = true := by
  have hpeek : peekCurrentEntitlement P files now l.device =
      .ok (applyRevocation P files now (at_ fields "issued_at")
        (verifyDocument P files.licenseKey now l.device (.obj fields))) := by
    unfold peekCurrentEntitlement
    rw [hlicense]
  have hkept : files.revocation = .absent → ∀ issued value, applyRevocation P files now issued value = value := by
    intro habsent issued value
    unfold applyRevocation
    rw [habsent]
    dsimp only
    split <;> rfl
  constructor
  · intro hmutable
    have hverdict := hmutable.verdict
    obtain ⟨e, he, hallowed⟩ := hmutable
    obtain ⟨-, ⟨-, habsent, -⟩ | ⟨-, -, -, habsent⟩ | ⟨hpaid, -, hsound, hbase⟩⟩ := effective_allowed he hallowed
    · rw [hlicense] at habsent
      cases habsent
    · rw [hlicense] at habsent
      cases habsent
    · rw [hpeek, hkept hsound.notRevoked] at hbase
      cases hbase
      exact ⟨hverdict, hpaid, hsound.notRevoked, hallowed⟩
  · rintro ⟨⟨mode, hverdict⟩, hpaid, habsent, hallowed⟩
    obtain ⟨rfl, -, -⟩ := verdictValidation_ok hverdict
    obtain ⟨hstate, hvalid, -⟩ := (verifyDocument_speaks fields).allowed hallowed
    refine ⟨_, ?_, hallowed⟩
    have htrial : ("paid" : String) ≠ "trial" := by decide
    unfold effectiveEntitlement
    simp only [hverdict, hpeek, hkept habsent]
    show (if _ then _ else _) = _
    rw [if_pos ⟨by rw [hpaid, if_neg htrial], hstate, hvalid, hallowed⟩]

/-- **An import keeps the right to mutate only in a paid launch.** Where mutations are
allowed, an accepted import leaves them allowed exactly when the document is installed already,
or the launch is a paid one and the document is a certificate that allows them. After a refused
one the files are as they were. -/
theorem import_license_keeps_rights (P : Primitives) (same : Json → Json → Bool) (files : Files) (now : Int)
    (l : Launch) (hmutable : Mutable P files now l) (r : ImportRequest) :
    (∀ value files', importLicense P same files now l.device r = (.accepted value, files') →
      (Mutable P files' now l ↔ AlreadyInstalled P same files now l.device r.document ∨
        (l.mode = "paid" ∧
          (verifyDocument P files.licenseKey now l.device r.document).mutationsAllowed = true))) ∧
    ∀ status detail files', importLicense P same files now l.device r = (.refused status detail, files') →
      files' = files := by
  refine ⟨?_, fun status detail files' h => refused_unchanged h⟩
  intro value files' h
  have himported := @importLicense_imported P same files now l.device r
  rw [h] at himported
  cases himported with
  | already value halready => exact iff_of_true hmutable (.inl halready)
  | wrote fields hdoc hvalid hother =>
    rw [mutable_written fields rfl, or_iff_right hother, hdoc]
    have hverdict := hmutable.verdict
    obtain ⟨e, he, hallowed⟩ := hmutable
    constructor
    · rintro ⟨-, hpaid, -, hcertificate⟩
      exact ⟨hpaid, hcertificate⟩
    · rintro ⟨hpaid, hcertificate⟩
      -- the license that allowed them has no revocation beside it
      obtain ⟨-, ⟨hmode, -⟩ | ⟨hmode, -⟩ | ⟨-, -, hsound, -⟩⟩ := effective_allowed he hallowed
      · rw [hpaid] at hmode
        exact absurd hmode (by decide)
      · rw [hpaid] at hmode
        exact absurd hmode (by decide)
      · exact ⟨hverdict, hpaid, hsound.notRevoked, hcertificate⟩

/-! Two launches -/

def certifiedFiles : Files := ⟨.doc (.obj (certificate "license-1")), .absent, .absent, legacyDesktop.licenseKey⟩

def freeFiles : Files := ⟨.absent, .doc Raising.freeState, .absent, legacyDesktop.licenseKey⟩

def launchIn (mode : Mode) : Launch := createStartupVerdict legacyPrimitives legacyDesktop legacyDraw mode

def sameText (x y : Json) : Bool := decide (jsonStringify x = jsonStringify y)

def certificateRequest : ImportRequest := ⟨900, some (.obj [("document", .obj (certificate "license-1"))]), true, true, .written⟩

theorem launchIn_verdict (mode : Mode) : verdictValidation legacyPrimitives (launchIn mode) = .ok mode.text :=
  genuine_verdict legacyDesktop_genuine legacyDraw_drawn mode

theorem certifiedFiles_mutable : Mutable legacyPrimitives certifiedFiles legacyClock (launchIn .paid) :=
  (mutable_written _ rfl).mpr ⟨⟨_, launchIn_verdict .paid⟩, rfl, rfl, certificate_allowed "license-1" (by decide)⟩

/-- The certificate of a paid launch is imported again. -/
theorem import_license_keeps_rights_paid :
    Mutable legacyPrimitives certifiedFiles legacyClock (launchIn .paid) ∧
    (∀ value files', importLicense legacyPrimitives sameText certifiedFiles legacyClock (launchIn .paid).device certificateRequest =
        (.accepted value, files') →
      (Mutable legacyPrimitives files' legacyClock (launchIn .paid) ↔
        AlreadyInstalled legacyPrimitives sameText certifiedFiles legacyClock (launchIn .paid).device certificateRequest.document ∨
        ((launchIn .paid).mode = "paid" ∧ (verifyDocument legacyPrimitives certifiedFiles.licenseKey legacyClock
          (launchIn .paid).device certificateRequest.document).mutationsAllowed = true))) ∧
    ∀ status detail files', importLicense legacyPrimitives sameText certifiedFiles legacyClock (launchIn .paid).device
      certificateRequest = (.refused status detail, files') → files' = certifiedFiles :=
  ⟨certifiedFiles_mutable, import_license_keeps_rights legacyPrimitives sameText certifiedFiles legacyClock (launchIn .paid)
    certifiedFiles_mutable certificateRequest⟩

theorem freeFiles_mutable : Mutable legacyPrimitives freeFiles legacyClock (launchIn .free) := by
  obtain ⟨e, hpeek, hstate, hvalid, hallowed⟩ : ∃ e, peekCurrentEntitlement legacyPrimitives freeFiles legacyClock
      legacyDesktop.devicePublicKey = .ok e ∧ e.state = .free ∧ e.valid = true ∧ e.mutationsAllowed = true := by
    exact ⟨_, rfl, rfl, rfl, rfl⟩
  refine ⟨e, ?_, hallowed⟩
  rw [launchIn, effective_under legacyDesktop_genuine legacyDraw_drawn .free, hpeek, Except.map, answerUnder]
  simp [hstate, hvalid, hallowed]

/-- A free launch accepts a certificate, and has lost the right to mutate. -/
theorem free_import_locks : Mutable legacyPrimitives freeFiles legacyClock (launchIn .free) ∧
    ∃ value files', importLicense legacyPrimitives sameText freeFiles legacyClock (launchIn .free).device certificateRequest =
        (.accepted value, files') ∧ ¬ Mutable legacyPrimitives files' legacyClock (launchIn .free) := by
  have hvalid : (verifyDocument legacyPrimitives legacyDesktop.licenseKey legacyClock legacyDesktop.devicePublicKey
      (.obj (certificate "license-1"))).valid = true :=
    ((verifyDocument_speaks (certificate "license-1")).allowed (certificate_allowed "license-1" (by decide))).2.1
  have hdevice : (launchIn .free).device = legacyDesktop.devicePublicKey := rfl
  have hkey : freeFiles.licenseKey = legacyDesktop.licenseKey := rfl
  refine ⟨freeFiles_mutable, verifyDocument legacyPrimitives legacyDesktop.licenseKey legacyClock legacyDesktop.devicePublicKey
    (.obj (certificate "license-1")), { freeFiles with license := .doc (.obj (certificate "license-1")) }, ?_, ?_⟩
  · simp [importLicense, installed, certificateRequest, freeFiles, hdevice, hvalid]
  · rw [mutable_written _ rfl]
    rintro ⟨-, hpaid, -⟩
    exact absurd hpaid (by decide)

end GrowthMap.Desktop
