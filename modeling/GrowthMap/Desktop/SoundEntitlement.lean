import GrowthMap.Desktop.Entitlements

/- The desktop backend mutates only with a sound entitlement.

   `Speaks` says of every entitlement that a check returns what the callers go by:
   it never has the state or the reason of the Free path, and if it allows
   mutations then the document has passed every check. The paths meet in
   `effective_entitlement`, one case for each of its returns. -/
namespace GrowthMap.Desktop

open Fallible

variable {P : Primitives} {files : Files} {now : Int} {l : Launch}

/-! What soundness is -/

/-- The launch verdict carries a MAC under the session token; the legacy form, for
launches without a device, cannot say `paid`. -/
def VerdictSound (P : Primitives) (l : Launch) : Prop :=
  l.token ≠ "" ∧ (l.mac = P.hmac l.token (startupVerdict l) ∨
    (l.mode ≠ "paid" ∧ l.session = "" ∧ l.proof = "" ∧ l.device = "" ∧ l.mac = P.hmac l.token (legacyVerdict l)))

/-- The free state is valid and the clock has not gone back. -/
structure FreeSound (P : Primitives) (now : Int) (file : FileState) : Prop where
  valid : ∃ fields started last, file = .doc (.obj fields) ∧ exactKeys fields freeFields = true ∧
    isOne (at_ fields "schema_version") = true ∧ (textOf (at_ fields "installation_id")).any isInstallationId = true ∧
    iso P (at_ fields "started_at") = .ok started ∧ iso P (at_ fields "last_seen_at") = .ok last ∧
    last ≤ now + tolerance ∧ started ≤ now + tolerance

def Ahead (P : Primitives) (now : Int) (j : Json) : Prop := j = .null ∨ ∃ t, iso P j = .ok t ∧ now < t

/-- The certificate is signed, of this product, version and device, and in force. -/
structure CertificateSound (P : Primitives) (key : KeyFile) (now : Int) (device : String) (fields : List (String × Json)) :
    Prop where
  version : at_ fields "schema_version" = .int 2
  shape : exactKeys fields activationFields = true
  signature : ∃ raw text bytes, key = .ed25519 raw ∧ at_ fields "signature" = .str text ∧ P.b64decode text = some bytes ∧
    P.verify raw bytes (activationDomain ++ canonicalPayload fields) = true
  product : at_ fields "product" = .str "growthmap"
  major : at_ fields "major_version" = .int 1
  device : at_ fields "device_public_key" = .str device
  expiry : Ahead P now (at_ fields "expires_at")
  revoked : Ahead P now (at_ fields "revoked_at")
  checkIn : ∃ t, iso P (at_ fields "next_check_in_at") = .ok t ∧ now ≤ t

structure LicenseSound (P : Primitives) (files : Files) (now : Int) (device : String) : Prop where
  certificate : ∃ fields, files.license = .doc (.obj fields) ∧ CertificateSound P files.licenseKey now device fields
  notRevoked : files.revocation = .absent

/-! The license -/

/-- What the callers of the license checks go by. -/
structure Speaks (e : Entitlement) (sound : Prop) : Prop where
  reason : e.reason ≠ "no_free_state"
  state : e.state ≠ .free
  allowed : e.mutationsAllowed = true → e.state = .paid ∧ e.valid = true ∧ sound

theorem speaks_denied {reason : String} {sound : Prop} (h : reason ≠ "no_free_state") : Speaks (.denied reason) sound :=
  ⟨h, by simp [Entitlement.denied], by simp [Entitlement.denied]⟩

variable {j : Json} {isActivation : Bool} {e : Entitlement} {device : String} {r : Option Entitlement}

theorem is_text {s : String} (h : ¬ j.is s = false) : j = .str s := by
  cases j with
  | str t =>
    have heq : t = s := by simpa [Json.is] using h
    rw [heq]
  | _ => simp [Json.is] at h

theorem intOf_eq {n : Int} (h : intOf j = some n) : j = .int n := by
  cases j with
  | int m =>
    have heq : m = n := by simpa [intOf] using h
    rw [heq]
  | _ => simp [intOf] at h

theorem isoOpt_ahead {t : Option Int} (h : isoOpt P j = .ok t) (hnow : ¬ t.any (fun t => decide (t ≤ now)) = true) :
    Ahead P now j := by
  cases j with
  | null => exact .inl rfl
  | str s =>
    right
    simp only [isoOpt] at h
    cases hiso : iso P (.str s) with
    | error =>
      rw [hiso] at h
      cases h
    | ok u =>
      rw [hiso] at h
      cases h
      exact ⟨u, rfl, by simpa using hnow⟩
  | _ => cases h

variable {fields : List (String × Json)} {key : KeyFile} {file : FileState}

theorem judge_speaks {expiry revoked : Option Int}
    (h : judge P now isActivation fields expiry revoked = .ok e) :
    Speaks e (at_ fields "major_version" = .int 1 ∧ ¬ expiry.any (fun t => decide (t ≤ now)) = true ∧
      ¬ revoked.any (fun t => decide (t ≤ now)) = true ∧ isActivation = true ∧
      ∃ t, iso P (at_ fields "next_check_in_at") = .ok t ∧ now ≤ t) := by
  simp only [judge] at h
  split at h
  · cases h
    exact ⟨by simp, by simp, by simp⟩
  · rename_i hmajor
    split at h
    · cases h
      exact ⟨by simp, by simp, by simp⟩
    · rename_i hexpiry
      split at h
      · cases h
        exact ⟨by simp, by simp, by simp⟩
      · rename_i hrevoked
        split at h
        · cases h
          exact ⟨by simp, by simp, by simp⟩
        · rename_i hactivation
          obtain ⟨next, hnext, h⟩ := bind_ok h
          split at h
          · cases h
            exact ⟨by simp, by simp, by simp⟩
          · rename_i hlate
            cases h
            refine ⟨by simp, by simp, fun _ => ⟨rfl, rfl, intOf_eq (not_not.mp hmajor), hexpiry, hrevoked, by simpa using hactivation,
              next, hnext, not_lt.mp hlate⟩⟩

theorem checkDevice_speaks (h : checkDevice P device fields = .ok r) :
    match r with
    | some e => ∀ sound, Speaks e sound
    | none => at_ fields "product" = .str "growthmap" ∧ at_ fields "device_public_key" = .str device := by
  simp only [checkDevice] at h
  split at h
  · cases h
    exact fun _ => speaks_denied (by decide)
  · rename_i htype
    split at h
    · cases h
      exact fun _ => speaks_denied (by decide)
    · split at h
      · cases h
        exact fun _ => speaks_denied (by decide)
      · obtain ⟨id, -, h⟩ := bind_ok h
        split at h
        · cases h
          exact fun _ => speaks_denied (by decide)
        · split at h
          · cases h
            exact fun _ => ⟨by simp, by simp, by simp⟩
          · split at h
            · cases h
              exact fun _ => ⟨by simp, by simp, by simp⟩
            · rename_i hdevice
              cases h
              exact ⟨is_text (fun hno => htype (.inr hno)), is_text hdevice⟩

/-- What the signed part of a certificate has passed. -/
structure Passed (P : Primitives) (now : Int) (device : String) (isActivation : Bool) (fields : List (String × Json)) : Prop where
  activation : isActivation = true
  product : at_ fields "product" = .str "growthmap"
  major : at_ fields "major_version" = .int 1
  device : at_ fields "device_public_key" = .str device
  expiry : Ahead P now (at_ fields "expires_at")
  revoked : Ahead P now (at_ fields "revoked_at")
  checkIn : ∃ t, iso P (at_ fields "next_check_in_at") = .ok t ∧ now ≤ t

theorem verifySigned_speaks
    (h : verifySigned P now device isActivation fields = .ok e) : Speaks e (Passed P now device isActivation fields) := by
  simp only [verifySigned] at h
  split at h
  · cases h
    exact speaks_denied (by decide)
  · split at h
    · rename_i expiry revoked _ _ hexpiry hrevoked
      split at h
      · rename_i hactivation
        obtain ⟨r, hdevice, h⟩ := bind_ok h
        have hr := checkDevice_speaks hdevice
        cases r with
        | some =>
          cases h
          exact hr _
        | none =>
          have hj := judge_speaks h
          refine ⟨hj.reason, hj.state, ?_⟩
          intro hallowed
          obtain ⟨hstate, hvalid, hmajor, hex, hrev, -, hcheck⟩ := hj.allowed hallowed
          exact ⟨hstate, hvalid, hactivation, hr.1, hmajor, hr.2, isoOpt_ahead hexpiry hex, isoOpt_ahead hrevoked hrev, hcheck⟩
      · rename_i hlegacy
        split at h
        · have hj := judge_speaks h
          refine ⟨hj.reason, hj.state, ?_⟩
          intro hallowed
          -- a legacy document does not allow mutations
          obtain ⟨-, -, -, -, -, hactivation, -⟩ := hj.allowed hallowed
          exact absurd hactivation hlegacy
        · cases h
          exact speaks_denied (by decide)
    all_goals
      cases h
      exact speaks_denied (by decide)

theorem signed_ok {domain : String} (h : signed P key domain fields = .ok r) :
    match r with
    | some e => ∀ sound, Speaks e sound
    | none => ∃ raw text bytes, key = .ed25519 raw ∧ at_ fields "signature" = .str text ∧ P.b64decode text = some bytes ∧
        P.verify raw bytes (domain ++ canonicalPayload fields) = true := by
  cases key with
  | unreadable => cases h
  | placeholder =>
    cases h
    exact fun _ => speaks_denied (by decide)
  | foreign =>
    cases h
    exact fun _ => speaks_denied (by decide)
  | ed25519 raw =>
    simp only [signed] at h
    split at h
    · rename_i text htext
      split at h
      · rename_i bytes hbytes
        split at h
        · rename_i hverify
          cases h
          exact ⟨raw, text, bytes, rfl, htext, hbytes, hverify⟩
        · cases h
      · cases h
    · cases h

theorem verifyFields_speaks
    (h : verifyFields P key now device fields = .ok e) : Speaks e (CertificateSound P key now device fields) := by
  simp only [verifyFields] at h
  split at h
  · cases h
    exact speaks_denied (by decide)
  · rename_i hshape
    split at h
    · cases h
      exact speaks_denied (by decide)
    · rename_i hversion
      split at h
      · cases h
      · cases h
      · split at h
        · cases h
          exact speaks_denied (by decide)
        · split at h
          · cases h
            exact speaks_denied (by decide)
          · split at h
            · cases h
              exact speaks_denied (by decide)
            · split at h
              · cases h
                exact speaks_denied (by decide)
              · obtain ⟨r, hsigned, h⟩ := bind_ok h
                have hr := signed_ok hsigned
                cases r with
                | some =>
                  cases h
                  exact hr _
                | none =>
                  have hs := verifySigned_speaks h
                  refine ⟨hs.reason, hs.state, ?_⟩
                  intro hallowed
                  obtain ⟨hstate, hvalid, hpassed⟩ := hs.allowed hallowed
                  simp only [invalidFields, hpassed.activation, if_true, Bool.not_eq_true', Bool.not_eq_false] at hshape hr
                  have htwo : at_ fields "schema_version" = .int 2 := by
                    have hactivation := hpassed.activation
                    cases hv : at_ fields "schema_version" with
                    | int =>
                      rw [hv] at hactivation
                      rw [of_decide_eq_true hactivation]
                    | _ => simp [hv, intOf] at hversion
                  exact ⟨hstate, hvalid, htwo, hshape, hr, hpassed.product, hpassed.major, hpassed.device, hpassed.expiry, hpassed.revoked,
                    hpassed.checkIn⟩

theorem verifyDocument_speaks {key : KeyFile} {device : String} (fields : List (String × Json)) :
    Speaks (verifyDocument P key now device (.obj fields)) (CertificateSound P key now device fields) := by
  simp only [verifyDocument]
  split
  · rename_i e h
    exact verifyFields_speaks h
  · exact speaks_denied (by decide)

theorem applyRevocation_speaks {issuedAt : Json} {e : Entitlement} {sound : Prop} (h : Speaks e sound) :
    Speaks (applyRevocation P files now issuedAt e) (sound ∧ files.revocation = .absent) := by
  simp only [applyRevocation]
  split
  · rename_i hother
    refine ⟨h.reason, h.state, ?_⟩
    intro hallowed
    obtain ⟨hstate, hvalid, -⟩ := h.allowed hallowed
    simp [hstate, hvalid] at hother
  · split
    · rename_i habsent
      exact ⟨h.reason, h.state, fun hallowed => ⟨(h.allowed hallowed).1, (h.allowed hallowed).2.1, (h.allowed hallowed).2.2, habsent⟩⟩
    · exact ⟨by simp, by simp, by simp⟩
    · exact ⟨by simp, by simp, by simp⟩
    · split
      · exact ⟨by simp, by simp, by simp⟩
      · exact ⟨by simp, by simp, by simp⟩

/-! Free -/

theorem free_allowed (h : (freeEntitlement P now file).mutationsAllowed = true) : FreeSound P now file := by
  unfold freeEntitlement at h
  split at h
  · cases h
  · rename_i fields
    split at h
    · cases h
    · rename_i hshape
      split at h
      · rename_i started last hstarted hlast
        split at h
        · cases h
        · rename_i hclock
          simp only [not_or, Bool.not_eq_false] at hshape
          simp only [not_or, not_lt] at hclock
          exact ⟨fields, started, last, rfl, hshape.1, hshape.2.1, hshape.2.2, hstarted, hlast, hclock.2, hclock.1⟩
      · cases h
  · cases h

theorem free_absent (h : (freeEntitlement P now file).reason = "no_free_state") : file = .absent := by
  unfold freeEntitlement at h
  split at h
  · rfl
  · split at h
    · simp [Entitlement.denied] at h
    · split at h
      · split at h
        · simp at h
        · simp at h
      · simp [Entitlement.denied] at h
  · simp [Entitlement.denied] at h

theorem free_not_paid (file : FileState) :
    (freeEntitlement P now file).state ≠ .paid ∧ (freeEntitlement P now file).reason ≠ "check_in_required" := by
  unfold freeEntitlement
  split
  · exact ⟨by simp [Entitlement.denied], by simp [Entitlement.denied]⟩
  · split
    · exact ⟨by simp [Entitlement.denied], by simp [Entitlement.denied]⟩
    · split
      · split
        · exact ⟨by simp, by simp⟩
        · exact ⟨by simp, by simp⟩
      · exact ⟨by simp [Entitlement.denied], by simp [Entitlement.denied]⟩
  · exact ⟨by simp [Entitlement.denied], by simp [Entitlement.denied]⟩

/-! The launch -/

theorem verdictValidation_ok {mode : String} (h : verdictValidation P l = .ok mode) :
    mode = l.mode ∧ VerdictSound P l ∧ (l.mode = "paid" → deviceProves P l = true) := by
  simp only [verdictValidation] at h
  obtain ⟨-, h⟩ := guard_ok h
  obtain ⟨-, h⟩ := guard_ok h
  obtain ⟨htoken, h⟩ := guard_ok h
  have htoken' : l.token ≠ "" := fun heq => htoken (.inl heq)
  split at h
  · rename_i hlegacy
    split at h
    · rename_i hmac
      cases h
      exact ⟨rfl, ⟨htoken', .inr ⟨hlegacy.1, hlegacy.2.1, hlegacy.2.2.1, hlegacy.2.2.2, hmac⟩⟩, fun hpaid => absurd hpaid hlegacy.1⟩
    · cases h
  · obtain ⟨-, h⟩ := guard_ok h
    obtain ⟨hproof, h⟩ := guard_ok h
    split at h
    · rename_i hmac
      cases h
      exact ⟨rfl, ⟨htoken', .inl hmac⟩, fun _ => by simpa using hproof⟩
    · cases h

theorem peek_cases {base : Entitlement} (h : peekCurrentEntitlement P files now device = .ok base) :
    (files.license = .absent ∧ base = freeEntitlement P now files.freeState) ∨ Speaks base (LicenseSound P files now device) := by
  unfold peekCurrentEntitlement at h
  split at h
  · rename_i habsent
    cases h
    exact .inl ⟨habsent, rfl⟩
  · cases h
    exact .inr (speaks_denied (by decide))
  · cases h
    exact .inr (speaks_denied (by decide))
  · rename_i fields hlicense
    cases h
    have hspeaks := @applyRevocation_speaks P files now (at_ fields "issued_at") _ _
      (@verifyDocument_speaks P now files.licenseKey device fields)
    refine .inr ⟨hspeaks.reason, hspeaks.state, ?_⟩
    intro hallowed
    obtain ⟨hstate, hvalid, hsound, habsent⟩ := hspeaks.allowed hallowed
    exact ⟨hstate, hvalid, ⟨fields, hlicense, hsound⟩, habsent⟩
  · cases h

/-- What allows mutations: in a paid launch it is what the license says. -/
theorem effective_allowed (h : effectiveEntitlement P files now l = .ok e)
    (hallowed : e.mutationsAllowed = true) :
    VerdictSound P l ∧
      (((l.mode = "free" ∨ l.mode = "trial" ∨ l.mode = "fresh") ∧ files.license = .absent ∧ FreeSound P now files.freeState) ∨
        (l.mode = "fresh" ∧ l.freshInstall = true ∧ files.freeState = .absent ∧ files.license = .absent) ∨
        (l.mode = "paid" ∧ deviceProves P l = true ∧ LicenseSound P files now l.device ∧
          peekCurrentEntitlement P files now l.device = .ok e)) := by
  unfold effectiveEntitlement at h
  cases hverdict : verdictValidation P l with
  | error =>
    simp only [hverdict] at h
    cases h
    cases hallowed
  | ok =>
    obtain ⟨rfl, hsound, hproof⟩ := verdictValidation_ok hverdict
    refine ⟨hsound, ?_⟩
    simp only [hverdict] at h
    obtain ⟨base, hpeek, h⟩ := bind_ok h
    -- `trial` is launched as `free`
    have hpaid : (if l.mode = "trial" then "free" else l.mode) = "paid" → l.mode = "paid" := by
      intro hm
      split at hm
      · exact absurd hm (by decide)
      · exact hm
    have hfresh : (if l.mode = "trial" then "free" else l.mode) = "fresh" → l.mode = "fresh" := by
      intro hm
      split at hm
      · exact absurd hm (by decide)
      · exact hm
    have hfree : (if l.mode = "trial" then "free" else l.mode) = "free" → l.mode = "free" ∨ l.mode = "trial" := by
      intro hm
      split at hm
      · rename_i htrial
        exact .inr htrial
      · exact .inl hm
    generalize (if l.mode = "trial" then "free" else l.mode) = mode at h hpaid hfresh hfree
    rcases peek_cases hpeek with ⟨hlicense, rfl⟩ | hspeaks
    · have hnot := @free_not_paid P now files.freeState
      split at h
      · rename_i hp
        exact absurd hp.2.1 hnot.1
      · split at h
        · rename_i hp
          exact absurd hp.2 hnot.2
        · split at h
          · rename_i hp
            cases h
            simp [hallowed] at hp
          · split at h
            · rename_i hp
              cases h
              left
              refine ⟨?_, hlicense, free_allowed hallowed⟩
              rcases hp.1 with hm | hm
              · exact (hfree hm).imp_right .inl
              · exact .inr (.inr (hfresh hm))
            · split at h
              · rename_i hp
                exact .inr (.inl ⟨hfresh hp.1, hp.2.1, free_absent hp.2.2, hlicense⟩)
              · cases h
                cases hallowed
    · split at h
      · rename_i hp
        cases h
        obtain ⟨-, -, hlicense⟩ := hspeaks.allowed hallowed
        exact .inr (.inr ⟨hpaid hp.1, hproof (hpaid hp.1), hlicense, hpeek⟩)
      · split at h
        · rename_i hp
          cases h
          obtain ⟨-, -, hlicense⟩ := hspeaks.allowed hallowed
          exact .inr (.inr ⟨hpaid hp.1, hproof (hpaid hp.1), hlicense, hpeek⟩)
        · split at h
          · rename_i hp
            cases h
            simp [hallowed] at hp
          · split at h
            · rename_i hp
              exact absurd hp.2.1 hspeaks.state
            · split at h
              · rename_i hp
                exact absurd hp.2.2 hspeaks.reason
              · cases h
                cases hallowed

/-- Mutations are allowed only under a sound launch verdict, and then only for a
valid free state, for an authenticated fresh install, or for a sound license of
this device. -/
theorem effective_entitlement_sound (P : Primitives) (files : Files) (now : Int) (l : Launch) (e : Entitlement)
    (h : effectiveEntitlement P files now l = .ok e) (hallowed : e.mutationsAllowed = true) :
    VerdictSound P l ∧
      (((l.mode = "free" ∨ l.mode = "trial" ∨ l.mode = "fresh") ∧ files.license = .absent ∧ FreeSound P now files.freeState) ∨
        (l.mode = "fresh" ∧ l.freshInstall = true ∧ files.freeState = .absent ∧ files.license = .absent) ∨
        (l.mode = "paid" ∧ deviceProves P l = true ∧ LicenseSound P files now l.device)) := by
  obtain ⟨hsound, hfree | hfresh | ⟨hpaid, hproof, hlicense, -⟩⟩ := effective_allowed h hallowed
  · exact ⟨hsound, .inl hfree⟩
  · exact ⟨hsound, .inr (.inl hfresh)⟩
  · exact ⟨hsound, .inr (.inr ⟨hpaid, hproof, hlicense⟩)⟩

/-- A first start without a device, in the legacy form. -/
def freshLaunch : Launch :=
  { mode := "fresh", device := "", nonce := String.ofList (List.replicate 32 'A'), session := "", proof := "",
    mac := "66404263daf0e89eb408ad37d6c66aa7432cfec8d277369c1a894de9542f1056", token := "growthmap-session-token", freshInstall := true, ci := false }

def noFiles : Files := ⟨.absent, .absent, .absent, .unreadable⟩

/-- The MAC of that launch; no other message is asked about. -/
def freshPrimitives : Primitives where
  hmac key message :=
    if key = freshLaunch.token ∧ message = legacyVerdict freshLaunch then
      "66404263daf0e89eb408ad37d6c66aa7432cfec8d277369c1a894de9542f1056"
    else ""
  sha256 _ := ""
  verify _ _ _ := false
  b64decode _ := none
  fromisoformat _ := none

theorem effective_entitlement_sound_fresh :
    ∃ e, effectiveEntitlement freshPrimitives noFiles 0 freshLaunch = .ok e ∧ e.mutationsAllowed = true ∧
      VerdictSound freshPrimitives freshLaunch := by
  have hentitled : effectiveEntitlement freshPrimitives noFiles 0 freshLaunch =
      .ok { state := .free, edition := "free", maxActiveProjects := some 1, valid := true, mutationsAllowed := true,
            reason := "authenticated_fresh_install" } := by rfl
  exact ⟨_, hentitled, rfl, (effective_entitlement_sound freshPrimitives noFiles 0 freshLaunch _ hentitled rfl).1⟩

end GrowthMap.Desktop
