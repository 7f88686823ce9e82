import GrowthMap.Desktop.SoundEntitlement

/- The desktop entitlement fails closed (desktop/entitlements.py).

   Each function names the exceptions it catches. Most of what bad documents raise
   is named; not named are the `OverflowError` of a timestamp whose instant in UTC
   is before the year 1 or after the year 9999, and the `AttributeError` of
   `doc.get` on a license that is no object. The functions here are those of
   `Entitlements` with the kind of each exception kept, so that they say which
   documents make `peek_current_entitlement` raise (`peek_returns`). Whenever it
   returns, a file it has consulted that is not a valid document leaves no
   mutations (`peek_fails_closed`).

   JSON nested beyond the recursion limit is not modelled. -/
namespace GrowthMap.Desktop.Raising
open Fallible

inductive Raised where
  /-- an `OSError`, `ValueError`, `TypeError`, `KeyError` or `InvalidSignature` -/
  | named
  | overflowError
  | attributeError
  deriving DecidableEq

def named {α : Type} (x : Except Unit α) : Except Raised α := x.mapError (fun _ => .named)

section Functions

-- the timestamps whose instant is no `datetime` in UTC
variable (P : Primitives) (overflows : String → Bool)

/-- `_iso` -/
def iso : Json → Except Raised Int
  | .str s => match P.fromisoformat s with
    | some t => .ok t
    | none => if overflows s then .error .overflowError else .error .named
  | _ => .error .named

/-- The signed times of the document, and the verdict they lead to. -/
def judge (now : Int) (isActivation : Bool) (fields : List (String × Json)) (expiry revoked : Option Int) : Except Raised Entitlement :=
  let named : Entitlement :=
    { licenseId := textOf (at_ fields "license_id"), majorVersion := intOf (at_ fields "major_version") }
  let observed : Entitlement :=
    { named with
      state := .paidObserved, edition := (textOf (at_ fields "edition")).getD "",
      deviceAllowance := intOf (at_ fields "device_allowance"), maxActiveProjects := none }
  if (intOf (at_ fields "major_version")) ≠ some 1 then .ok { named with reason := "major_mismatch" }
  else if expiry.any (fun t => decide (t ≤ now)) then .ok { observed with reason := "expired" }
  else if revoked.any (fun t => decide (t ≤ now)) then .ok { observed with reason := "revoked" }
  else if isActivation = false then
    .ok { observed with state := .paidLegacy, valid := true, reason := "legacy_bootstrap_required" }
  else do
    let next ← iso P overflows (at_ fields "next_check_in_at")
    if next < now then .ok { named with reason := "check_in_required" }
    else .ok { observed with state := .paid, valid := true, mutationsAllowed := true, reason := "valid" }

/-- What stands behind the signature. The first three times are converted under an
`except Exception` each. -/
def verifySigned (now : Int) (device : String) (isActivation : Bool) (fields : List (String × Json)) : Except Raised Entitlement :=
  if ((intOf (at_ fields "device_allowance")).any (fun n => decide (2 < n))) = true then .ok (.denied "invalid_device_allowance")
  else match at_ fields "max_active_projects", Desktop.iso P (at_ fields "issued_at"), isoOpt P (at_ fields "expires_at"),
      isoOpt P (at_ fields "revoked_at") with
    | .null, .ok _, .ok expiry, .ok revoked =>
      if isActivation then do
        match ← named (checkDevice P device fields) with
        | some denied => .ok denied
        | none => judge P overflows now isActivation fields expiry revoked
      else match at_ fields "device_binding" with
        | .null => judge P overflows now isActivation fields expiry revoked
        | _ => .ok (.denied "device_binding_unsupported")
    | .null, .error (), _, _ => .ok (.denied "invalid_issued_at")
    | .null, .ok _, .error (), _ => .ok (.denied "invalid_expiry")
    | .null, .ok _, .ok _, .error () => .ok (.denied "invalid_revocation")
    | _, _, _, _ => .ok (.denied "invalid_limit")

/-- The checks of shape and type, then the signature, then the rest. -/
def verifyFields (key : KeyFile) (now : Int) (device : String) (fields : List (String × Json)) : Except Raised Entitlement :=
  let version := at_ fields "schema_version"
  let isActivation := isTwo version
  if invalidFields isActivation fields then .ok (.denied "invalid_document")
  else if intOf version ≠ some 1 ∧ intOf version ≠ some 2 then .ok (.denied "unsupported_schema")
  else match at_ fields "edition" with
    | .arr _ | .obj _ => .error .named
    | edition =>
      if ((textOf edition).any (fun e => decide (e ∈ ["personal", "pro", "studio"]))) = false then .ok (.denied "invalid_edition")
      else if ((textOf (at_ fields "license_id")).any isLicenseId) = false then .ok (.denied "invalid_license_id")
      else if isPositive (at_ fields "major_version") = false then .ok (.denied "invalid_major_version")
      else if isPositive (at_ fields "device_allowance") = false then .ok (.denied "invalid_device_allowance")
      else do
        match ← named (signed P key (if isActivation then activationDomain else "") fields) with
        | some denied => .ok denied
        | none => verifySigned P overflows now device isActivation fields

/-- `except (…): return denied`, of the named exceptions -/
def orDenied (reason : String) : Except Raised Entitlement → Except Raised Entitlement
  | .error .named => .ok (.denied reason)
  | x => x

/-- `verify_document` -/
def verifyDocument (key : KeyFile) (now : Int) (device : String) : Json → Except Raised Entitlement
  | .obj fields => orDenied "invalid_signature" (verifyFields P overflows key now device fields)
  | _ => .ok (.denied "invalid_document")

/-- `free_entitlement` without a checkpoint. -/
def freeEntitlement (now : Int) : FileState → Except Raised Entitlement
  | .absent => .ok (.denied "no_free_state")
  | .doc (.obj fields) =>
    if exactKeys fields freeFields = false ∨ isOne (at_ fields "schema_version") = false ∨
        (textOf (at_ fields "installation_id")).any isInstallationId = false then .ok (.denied "corrupt_free_state")
    else orDenied "corrupt_free_state" do
      let started ← iso P overflows (at_ fields "started_at")
      let last ← iso P overflows (at_ fields "last_seen_at")
      if now + tolerance < started ∨ now + tolerance < last then
        .ok { reason := "clock_rollback", freeStartedAt := some started }
      else
        .ok { state := .free, edition := "free", maxActiveProjects := some 1, valid := true, mutationsAllowed := true,
              reason := "free_active", freeStartedAt := some started }
  | _ => .ok (.denied "corrupt_free_state")

/-- `doc.get("issued_at")` -/
def issuedAt : Json → Except Raised Json
  | .obj fields => .ok (at_ fields "issued_at")
  | _ => .error .attributeError

/-- `peek_current_entitlement`; `apply_revocation` catches every exception itself. -/
def peekCurrentEntitlement (files : Files) (now : Int) (device : String) : Except Raised Entitlement :=
  match files.license with
  | .absent => freeEntitlement P overflows now files.freeState
  | .unreadable | .malformed => .ok (.denied "corrupt_license")
  | .doc doc => do
    let value ← verifyDocument P overflows files.licenseKey now device doc
    let issued ← issuedAt doc
    return applyRevocation P files now issued value

end Functions

variable {P : Primitives} {overflows : String → Bool} {files : Files} {now : Int} {device : String}

/-! Without the kinds -/

def forget {α : Type} (x : Except Raised α) : Except Unit α := x.mapError (fun _ => ())

section Forget

variable {α β : Type}

@[simp] theorem forget_ok (a : α) : forget (.ok a) = .ok a := rfl

@[simp] theorem forget_error (e : Raised) : forget (.error e : Except Raised α) = .error () := rfl

@[simp] theorem forget_named (x : Except Unit α) : forget (named x) = x := by
  cases x <;> rfl

theorem forget_bind (x : Except Raised α) (f : α → Except Raised β) : forget (x >>= f) = forget x >>= fun a => forget (f a) := by
  cases x <;> rfl

theorem forget_ite (c : Prop) [Decidable c] (x y : Except Raised α) :
    forget (if c then x else y) = if c then forget x else forget y := apply_ite forget c x y

end Forget

theorem iso_forget (j : Json) : forget (iso P overflows j) = Desktop.iso P j := by
  cases j with
  | str s =>
    simp only [iso, Desktop.iso]
    cases P.fromisoformat s with
    | some => rfl
    | none => simp only [forget_ite, forget_error, ite_self]
  | _ => rfl

theorem judge_forget (isActivation : Bool) (fields : List (String × Json)) (expiry revoked : Option Int) :
    forget (judge P overflows now isActivation fields expiry revoked) = Desktop.judge P now isActivation fields expiry revoked := by
  simp only [judge, Desktop.judge, forget_ite, forget_ok, forget_bind, iso_forget]

theorem verifySigned_forget (isActivation : Bool) (fields : List (String × Json)) :
    forget (verifySigned P overflows now device isActivation fields) = Desktop.verifySigned P now device isActivation fields := by
  simp only [verifySigned, Desktop.verifySigned, forget_ite, forget_ok]
  congr 1
  generalize at_ fields "max_active_projects" = limit, Desktop.iso P (at_ fields "issued_at") = issued,
    isoOpt P (at_ fields "expires_at") = expiry, isoOpt P (at_ fields "revoked_at") = revoked
  cases limit with
  | null =>
    cases issued with
    | error => rfl
    | ok _ =>
      cases expiry with
      | error => rfl
      | ok =>
        cases revoked with
        | error => rfl
        | ok =>
          simp only [forget_ite, forget_bind, forget_named]
          congr 1
          · congr 1
            funext r
            cases r with
            | none => exact judge_forget _ _ _ _
            | some => rfl
          · generalize at_ fields "device_binding" = binding
            cases binding with
            | null => exact judge_forget _ _ _ _
            | _ => rfl
  | _ => rfl

theorem verifyFields_forget (key : KeyFile) (fields : List (String × Json)) :
    forget (verifyFields P overflows key now device fields) = Desktop.verifyFields P key now device fields := by
  have hbind : ∀ (isActivation : Bool) (x : Except Unit (Option Entitlement)),
      forget (named x >>= fun r => match r with
        | some denied => .ok denied
        | none => verifySigned P overflows now device isActivation fields) =
      x >>= fun r => match r with
        | some denied => .ok denied
        | none => Desktop.verifySigned P now device isActivation fields := by
    intro isActivation x
    rw [forget_bind, forget_named]
    congr 1
    funext r
    cases r with
    | none => exact verifySigned_forget _ _
    | some => rfl
  simp only [verifyFields, Desktop.verifyFields, forget_ite, forget_ok]
  congr 2
  generalize at_ fields "edition" = edition
  cases edition with
  | arr => rfl
  | obj => rfl
  | _ =>
    simp only [forget_ite, forget_ok]
    congr 4
    exact hbind _ _

/-! What it returns is what the checks say -/

variable {e : Entitlement} {isActivation : Bool}

theorem verifyDocument_refines {key : KeyFile} {doc : Json}
    (h : verifyDocument P overflows key now device doc = .ok e) : Desktop.verifyDocument P key now device doc = e := by
  cases doc with
  | obj fields =>
    have hforget := @verifyFields_forget P overflows now device key fields
    simp only [verifyDocument] at h
    simp only [Desktop.verifyDocument, ← hforget]
    cases hf : verifyFields P overflows key now device fields with
    | ok =>
      rw [hf] at h
      cases h
      rfl
    | error r =>
      rw [hf] at h
      cases r with
      | named =>
        cases h
        rfl
      | overflowError => cases h
      | attributeError => cases h
  | _ =>
    cases h
    rfl

variable {file : FileState} {fields : List (String × Json)}

theorem freeEntitlement_refines (h : freeEntitlement P overflows now file = .ok e) :
    Desktop.freeEntitlement P now file = e := by
  cases file with
  | doc doc =>
    cases doc with
    | obj fields =>
      have hstarted := @iso_forget P overflows (at_ fields "started_at")
      have hlast := @iso_forget P overflows (at_ fields "last_seen_at")
      simp only [freeEntitlement] at h
      simp only [Desktop.freeEntitlement, ← hstarted, ← hlast]
      split at h
      · rename_i hshape
        cases h
        rw [if_pos hshape]
      · rename_i hshape
        rw [if_neg hshape]
        cases hs : iso P overflows (at_ fields "started_at") with
        | error r =>
          rw [hs] at h
          cases r with
          | named =>
            cases h
            rfl
          | overflowError => cases h
          | attributeError => cases h
        | ok =>
          cases hl : iso P overflows (at_ fields "last_seen_at") with
          | error r =>
            rw [hs, hl] at h
            cases r with
            | named =>
              cases h
              rfl
            | overflowError => cases h
            | attributeError => cases h
          | ok =>
            rw [hs, hl, ok_bind, ok_bind] at h
            simp only [forget_ok]
            split at h
            · rename_i hclock
              cases h
              rw [if_pos hclock]
            · rename_i hclock
              cases h
              rw [if_neg hclock]
    | _ =>
      cases h
      rfl
  | _ =>
    cases h
    rfl

/-- Where it returns, the checks return the same. -/
theorem peek_refines (h : peekCurrentEntitlement P overflows files now device = .ok e) :
    Desktop.peekCurrentEntitlement P files now device = .ok e := by
  unfold peekCurrentEntitlement at h
  unfold Desktop.peekCurrentEntitlement
  cases hfile : files.license with
  | absent =>
    rw [hfile] at h
    exact congrArg Except.ok (freeEntitlement_refines h)
  | unreadable =>
    rw [hfile] at h
    exact congrArg Except.ok (Except.ok.inj h)
  | malformed =>
    rw [hfile] at h
    exact congrArg Except.ok (Except.ok.inj h)
  | doc doc =>
    rw [hfile] at h
    obtain ⟨value, hvalue, h⟩ := bind_ok h
    obtain ⟨issued, hissued, h⟩ := bind_ok h
    cases doc with
    | obj fields =>
      cases hissued
      cases h
      exact congrArg (fun v => Except.ok (applyRevocation P files now (at_ fields "issued_at") v)) (verifyDocument_refines hvalue)
    | _ => cases hissued

/-! When it returns -/

/-- The computation raises named exceptions only. -/
abbrev Quiet {α : Type} (x : Except Raised α) : Prop := Avoids (· ≠ .named) x

theorem quiet_named {α : Type} (x : Except Unit α) : Quiet (named x) := by
  cases x with
  | ok a => exact avoids_ok _ a
  | error => exact avoids_error (fun h => h rfl)

/-- The field holds a timestamp whose instant is no `datetime` in UTC. -/
def tooFar (overflows : String → Bool) : Json → Bool
  | .str s => overflows s
  | _ => false

theorem iso_quiet {j : Json} (h : tooFar overflows j = false) : Quiet (iso P overflows j) := by
  cases j with
  | str =>
    simp only [iso]
    split
    · exact avoids_ok _ _
    · rw [if_neg (by simpa [tooFar] using h)]
      exact avoids_error (fun h => h rfl)
  | _ => exact avoids_error (fun h => h rfl)

theorem judge_quiet {expiry revoked : Option Int}
    (h : tooFar overflows (at_ fields "next_check_in_at") = false) :
    Quiet (judge P overflows now isActivation fields expiry revoked) := by
  unfold judge
  split
  · exact avoids_ok _ _
  · split
    · exact avoids_ok _ _
    · split
      · exact avoids_ok _ _
      · split
        · exact avoids_ok _ _
        · refine (iso_quiet h).bind fun next _ => ?_
          split
          · exact avoids_ok _ _
          · exact avoids_ok _ _

theorem verifySigned_quiet
    (h : tooFar overflows (at_ fields "next_check_in_at") = false) :
    Quiet (verifySigned P overflows now device isActivation fields) := by
  unfold verifySigned
  split
  · exact avoids_ok _ _
  · split
    · split
      · refine (quiet_named _).bind fun r _ => ?_
        cases r with
        | some => exact avoids_ok _ _
        | none => exact judge_quiet h
      · split
        · exact judge_quiet h
        · exact avoids_ok _ _
    all_goals exact avoids_ok _ _

theorem verifyFields_quiet {key : KeyFile} {fields : List (String × Json)}
    (h : tooFar overflows (at_ fields "next_check_in_at") = false) : Quiet (verifyFields P overflows key now device fields) := by
  unfold verifyFields
  dsimp only
  split
  · exact avoids_ok _ _
  · split
    · exact avoids_ok _ _
    · split
      · exact avoids_error (fun h => h rfl)
      · exact avoids_error (fun h => h rfl)
      · split
        · exact avoids_ok _ _
        · split
          · exact avoids_ok _ _
          · split
            · exact avoids_ok _ _
            · split
              · exact avoids_ok _ _
              · refine (quiet_named _).bind fun r _ => ?_
                cases r with
                | some => exact avoids_ok _ _
                | none => exact verifySigned_quiet h

theorem orDenied_returns {reason : String} {x : Except Raised Entitlement} (h : Quiet x) : ∃ e, orDenied reason x = .ok e := by
  cases x with
  | ok e => exact ⟨e, rfl⟩
  | error r =>
    cases r with
    | named => exact ⟨_, rfl⟩
    | overflowError => exact absurd (by decide) (h _ rfl)
    | attributeError => exact absurd (by decide) (h _ rfl)

theorem freeEntitlement_returns (h : ∀ fields, file = .doc (.obj fields) →
    tooFar overflows (at_ fields "started_at") = false ∧ tooFar overflows (at_ fields "last_seen_at") = false) :
    ∃ e, freeEntitlement P overflows now file = .ok e := by
  unfold freeEntitlement
  split
  · exact ⟨_, rfl⟩
  · rename_i fields
    obtain ⟨hstarted, hlast⟩ := h fields rfl
    split
    · exact ⟨_, rfl⟩
    · refine orDenied_returns ((iso_quiet hstarted).bind fun started _ => (iso_quiet hlast).bind fun last _ => ?_)
      split
      · exact avoids_ok _ _
      · exact avoids_ok _ _
  · exact ⟨_, rfl⟩

/-- The files of which all that is raised is named: a license that is JSON is an object, and
the times that are read with no `except` of their own are within the range of `datetime`. -/
structure Handled (overflows : String → Bool) (files : Files) : Prop where
  license : ∀ doc, files.license = .doc doc → ∃ fields, doc = .obj fields ∧ tooFar overflows (at_ fields "next_check_in_at") = false
  freeState : files.license = .absent → ∀ fields, files.freeState = .doc (.obj fields) →
    tooFar overflows (at_ fields "started_at") = false ∧ tooFar overflows (at_ fields "last_seen_at") = false

theorem peek_returns (h : Handled overflows files) : ∃ e, peekCurrentEntitlement P overflows files now device = .ok e := by
  unfold peekCurrentEntitlement
  cases hfile : files.license with
  | absent => exact freeEntitlement_returns (h.freeState hfile)
  | unreadable => exact ⟨_, rfl⟩
  | malformed => exact ⟨_, rfl⟩
  | doc doc =>
    obtain ⟨fields, rfl, hnext⟩ := h.license doc hfile
    obtain ⟨value, hvalue⟩ := @orDenied_returns "invalid_signature" _
      (@verifyFields_quiet P overflows now device files.licenseKey fields hnext)
    exact ⟨_, bind_eq_ok.mpr ⟨value, hvalue, rfl⟩⟩

/-- **The entitlement fails closed.** It is returned for all files whose exceptions are named; and
whenever it is returned and what decides is not valid (the license if there is one, with no
revocation file beside it, and the free state if there is none), it allows no mutations. -/
theorem peek_fails_closed (P : Primitives) (overflows : String → Bool) (files : Files) (now : Int) (device : String) :
    (Handled overflows files → ∃ e, peekCurrentEntitlement P overflows files now device = .ok e) ∧
      ∀ e, peekCurrentEntitlement P overflows files now device = .ok e →
        (files.license = .absent → ¬ FreeSound P now files.freeState → e.mutationsAllowed = false) ∧
        (files.license ≠ .absent → ¬ LicenseSound P files now device → e.mutationsAllowed = false) := by
  refine ⟨peek_returns, fun e he => ?_⟩
  have hcases := peek_cases (peek_refines he)
  refine ⟨fun habsent hfree => ?_, fun hpresent hlicense => ?_⟩
  · by_contra hallowed
    rw [Bool.not_eq_false] at hallowed
    rcases hcases with ⟨-, rfl⟩ | hspeaks
    · exact hfree (free_allowed hallowed)
    · obtain ⟨⟨fields, hdoc, -⟩, -⟩ := (hspeaks.allowed hallowed).2.2
      rw [habsent] at hdoc
      cases hdoc
  · by_contra hallowed
    rw [Bool.not_eq_false] at hallowed
    rcases hcases with ⟨habsent, -⟩ | hspeaks
    · exact hpresent habsent
    · exact hlicense (hspeaks.allowed hallowed).2.2

/-! A file that nothing asks about -/

def freeState : Json :=
  .obj [("schema_version", .int 1), ("installation_id", .str "installation-1"), ("started_at", .str "2026-01-01T00:00:00+00:00"),
    ("last_seen_at", .str "2026-01-01T00:00:00+00:00")]

def strayRevocation : Files := ⟨.absent, .doc freeState, .malformed, .unreadable⟩

/-- The clock of those timestamps, in microseconds; nothing else is asked for. -/
def clockPrimitives : Primitives where
  hmac _ _ := ""
  sha256 _ := ""
  verify _ _ _ := false
  b64decode _ := none
  fromisoformat s := if s = "2026-01-01T00:00:00+00:00" then some 1767225600000000 else none

theorem stray_revocation_allowed : ∃ e, peekCurrentEntitlement clockPrimitives (fun _ => false) strayRevocation 1767225600000000 "" = .ok e ∧
    e.mutationsAllowed = true := by
  exact ⟨_, rfl, rfl⟩

end GrowthMap.Desktop.Raising
