import GrowthMap.Desktop.Agreement

/- Starts of an honest paying user.

   A run of starts and replacements of the license file, on a clock that does not
   go back. While every license carries one id and no checkpoint is cut off between
   two files that have to agree, the evidence stays readable, and a certificate
   that is valid now makes the policy paid and writable (`honest_user_paid`). A
   license of another id, and a crash inside the first checkpoint, lock the user
   out (`locked_out`). -/
namespace GrowthMap.Desktop

open Fallible

variable {P : Primitives} {S : Platform} {d : Desktop} {u : UserData} {id : String}

/-! The license an entitlement names -/

/-- The entitlement names no other license than this one, and an accepted one names
it. -/
structure Names (id : String) (e : Entitlement) : Prop where
  name : e.licenseId = none ∨ e.licenseId = some id
  paid : e.state = .paid ∨ e.state = .paidLegacy → e.licenseId = some id

theorem names_denied (reason : String) : Names id (.denied reason) :=
  ⟨.inl rfl, fun h => by obtain h | h := h <;> cases h⟩

variable {e : Entitlement} {isActivation : Bool} {kinds : List String} {v : UserData} {draws : Draws}

theorem names_some (h : e.licenseId = some id) : Names id e := ⟨.inr h, fun _ => h⟩

variable {clock : Int} {key : KeyFile} {device : String} {fields : List (String × Json)}

theorem judge_names (hid : at_ fields "license_id" = .str id) {expiry revoked : Option Int}
    (h : judge P clock isActivation fields expiry revoked = .ok e) : Names id e := by
  refine names_some ?_
  simp only [judge, hid, textOf] at h
  split_ifs at h
  · cases h
    rfl
  · cases h
    rfl
  · cases h
    rfl
  · cases h
    rfl
  · obtain ⟨next, -, h⟩ := bind_ok h
    split_ifs at h <;> cases h <;> rfl

theorem checkDevice_names (hid : at_ fields "license_id" = .str id)
    (h : checkDevice P device fields = .ok (some e)) : Names id e := by
  have htext : textOf (at_ fields "license_id") = some id := by rw [hid, textOf]
  unfold checkDevice at h
  dsimp only at h
  split at h
  · cases h
    exact names_denied _
  · split at h
    · cases h
      exact names_denied _
    · split at h
      · cases h
        exact names_denied _
      · obtain ⟨found, -, h⟩ := bind_ok h
        split at h
        · cases h
          exact names_denied _
        · split at h
          · cases h
            exact names_some htext
          · split at h
            · cases h
              exact names_some htext
            · cases h

theorem verifySigned_names (hid : at_ fields "license_id" = .str id)
    (h : verifySigned P clock device isActivation fields = .ok e) : Names id e := by
  unfold verifySigned at h
  split at h
  · cases h
    exact names_denied _
  · split at h
    · split at h
      · obtain ⟨checked, hchecked, h⟩ := bind_ok h
        cases checked with
        | none => exact judge_names hid h
        | some =>
          cases h
          exact checkDevice_names hid hchecked
      · split at h
        · exact judge_names hid h
        · cases h
          exact names_denied _
    all_goals
      cases h
      exact names_denied _

theorem signed_denied {domain : String} (h : signed P key domain fields = .ok (some e)) :
    ∃ reason, e = .denied reason := by
  unfold signed at h
  split at h
  · cases h
  · cases h
    exact ⟨_, rfl⟩
  · cases h
    exact ⟨_, rfl⟩
  · split at h
    · split at h
      · split_ifs at h
        cases h
      · cases h
    · cases h

theorem verifyFields_names (hid : at_ fields "license_id" = .str id)
    (h : verifyFields P key clock device fields = .ok e) : Names id e := by
  unfold verifyFields at h
  dsimp only at h
  split at h
  · cases h
    exact names_denied _
  · split at h
    · cases h
      exact names_denied _
    · split at h
      · cases h
      · cases h
      · split at h
        · cases h
          exact names_denied _
        · split at h
          · cases h
            exact names_denied _
          · split at h
            · cases h
              exact names_denied _
            · split at h
              · cases h
                exact names_denied _
              · obtain ⟨checked, hchecked, h⟩ := bind_ok h
                cases checked with
                | none => exact verifySigned_names hid h
                | some =>
                  cases h
                  obtain ⟨reason, rfl⟩ := signed_denied hchecked
                  exact names_denied _

theorem verifyDocument_names (hid : at_ fields "license_id" = .str id) :
    Names id (verifyDocument P key clock device (.obj fields)) := by
  unfold verifyDocument
  dsimp only
  split
  · rename_i e h
    exact verifyFields_names hid h
  · exact names_denied _

theorem applyRevocation_names {files : Files} {issuedAt : Json} (h : Names id e) :
    Names id (applyRevocation P files clock issuedAt e) := by
  have hextracted : ∀ reason, Names id { licenseId := e.licenseId, majorVersion := e.majorVersion, reason } :=
    fun reason => ⟨h.name, fun hstate => by obtain hstate | hstate := hstate <;> cases hstate⟩
  unfold applyRevocation
  dsimp only
  split
  · exact h
  · split
    · exact h
    · exact hextracted _
    · exact hextracted _
    · split
      · exact hextracted _
      · exact hextracted _

theorem free_names (file : FileState) : Names id (freeEntitlement P clock file) := by
  have hplain : ∀ e : Entitlement, e.licenseId = none → e.state ≠ .paid → e.state ≠ .paidLegacy → Names id e :=
    fun e hnone hpaid hlegacy => ⟨.inl hnone, fun h => by
      obtain h | h := h
      · exact absurd h hpaid
      · exact absurd h hlegacy⟩
  unfold freeEntitlement
  split
  · exact names_denied _
  · split
    · exact names_denied _
    · split
      · split
        · exact hplain _ rfl (by simp) (by simp)
        · exact hplain _ rfl (by simp) (by simp)
      · exact names_denied _
  · exact names_denied _

def NamesLicense (S : Platform) (id : String) (file : Stored) : Prop :=
  ∀ fields, file.asFile S = .doc (.obj fields) → at_ fields "license_id" = .str id

variable {base : Entitlement}

theorem peek_names (hlicense : NamesLicense S id u.license)
    (h : peekCurrentEntitlement P (u.files S d) clock d.devicePublicKey = .ok base) : Names id base := by
  unfold peekCurrentEntitlement at h
  split at h
  · cases h
    exact free_names _
  · cases h
    exact names_denied _
  · cases h
    exact names_denied _
  · rename_i fields hfile
    cases h
    exact applyRevocation_names (verifyDocument_names (hlicense fields hfile))
  · cases h

theorem answer_names {mode : Mode} (h : Names id base) : Names id (answerUnder mode base) := by
  unfold answerUnder
  split_ifs
  · exact h
  · exact h
  · exact h
  · exact h
  · exact ⟨.inl rfl, fun hstate => by obtain hstate | hstate := hstate <;> cases hstate⟩
  · exact names_denied _
  · exact names_denied _

theorem weighed_names (h : Names id e) : Names id (e.weighed P S u) := by
  have hextracted : ∀ (e : Entitlement) (reason : String), Names id e → Names id (e.extracted reason) :=
    fun e reason h => ⟨h.name, fun hstate => by obtain hstate | hstate := hstate <;> cases hstate⟩
  have hrevocation : Names id (e.underRevocation (revocationInspect P S u)) := by
    cases revocationInspect P S u with
    | none => exact h
    | accepted => exact h
    | invalid reason => exact hextracted e reason h
  unfold Entitlement.weighed
  cases freshnessRead P S u with
  | none => exact hrevocation
  | invalid => exact hextracted _ _ hrevocation
  | seen =>
    simp only [Entitlement.underFreshness]
    split
    · exact hextracted _ _ hrevocation
    · exact hrevocation

/-- A start takes no checkpoint, or the one of this license. -/
theorem observe_writes {now : Int} (h : Names id e) :
    (observe P S u now e).1 = [] ∨ (observe P S u now e).1 = (checkpoint P S u now id).1 := by
  unfold observe
  split
  · rename_i hpaid
    refine .inr ?_
    rw [h.paid hpaid.1, Option.getD_some]
    obtain ⟨writes, outcome⟩ := checkpoint P S u now id
    cases outcome with
    | error => rfl
    | ok =>
      dsimp only
      split_ifs <;> rfl
  · obtain hnone | hsome := h.name
    · rw [hnone]
      exact .inl rfl
    · rw [hsome]
      dsimp only
      split
      · exact .inl rfl
      · refine .inr ?_
        obtain ⟨writes, outcome⟩ := checkpoint P S u now id
        cases outcome <;> rfl

/-! Runs -/

/-- The folder of a device, and the time of its last start. -/
structure Device where
  folder : UserData
  clock : Int

inductive DeviceEvent where
  /-- A start, cut off after so many replacements of its checkpoint if it crashes;
  the sidecar leaves the other files as it likes. -/
  | start (clock : Int) (draws : Draws) (crash : Option Nat) (left : UserData)
  /-- Another license file takes the place of the one there is. -/
  | replace (license : Stored)

/-- The replacements a start makes before its sidecar runs. -/
def startWrites (P : Primitives) (S : Platform) (d : Desktop) (u : UserData) (clock : Int) (draws : Draws) : List Write :=
  match prepareAndStart P S d u clock draws with
  | .ok started => started.writes
  | .error () => []

def cutOff (writes : List Write) : Option Nat → List Write
  | none => writes
  | some k => writes.take k

/-- The license and its evidence as the start left them, the rest as the sidecar did. -/
def UserData.keepEvidence (u left : UserData) : UserData :=
  { left with
    license := u.license, freshness := u.freshness, freshnessReceipt := u.freshnessReceipt, revocation := u.revocation,
    revocationReceipt := u.revocationReceipt, history := u.history, presence := u.presence }

def deviceStep (P : Primitives) (S : Platform) (d : Desktop) (s : Device) : DeviceEvent → Device
  | .start clock draws crash left =>
    ⟨(s.folder.after (cutOff (startWrites P S d s.folder clock draws) crash)).keepEvidence left, clock⟩
  | .replace license => ⟨{ s.folder with license }, s.clock⟩

/-- A crash after this many replacements leaves files that agree: before the first
one, after the last one, or, where there is evidence already, after the receipt. -/
def Harmless (u : UserData) (k : Nat) : Prop := k = 0 ∨ 4 ≤ k ∨ (u.freshnessReceipt.exists_ = true ∧ 2 ≤ k)

/-- The clock does not go back, crashes are harmless, and every license carries one id. -/
def HonestStep (S : Platform) (id : String) (s : Device) : DeviceEvent → Prop
  | .start clock draws crash _ =>
    s.clock ≤ clock ∧ IsDate (millis clock) ∧ draws.probe.Drawn ∧ draws.launch.Drawn ∧ ∀ k, crash = some k → Harmless s.folder k
  | .replace license => NamesLicense S id license

/-- The evidence of a device: none yet, or the last reading for this license. -/
inductive Settled (P : Primitives) (S : Platform) (u : UserData) (id : String) (now : Int) : Prop where
  | new (hhistory : u.history = .absent ∧ u.presence = .absent) (hfiles : u.freshness = .absent ∧ u.freshnessReceipt = .absent)
  | recorded (kinds : List String) (first : String) (last : Int) (hhistory : historyRead S u = some kinds) (hpaid : "paid" ∈ kinds)
      (hclean : "revocation" ∉ kinds) (hfirst : first ≠ "") (hdate : IsDate last) (hle : last ≤ now)
      (hstate : u.freshness = stateFile S ⟨.str id, .str first, .str (S.toISOString last)⟩)
      (hreceipt : u.freshnessReceipt = receiptFile P S ⟨.str id, .str first, .str (S.toISOString last)⟩)

/-- What honest starts keep. -/
structure Honest (P : Primitives) (S : Platform) (id : String) (s : Device) : Prop where
  license : NamesLicense S id s.folder.license
  revocation : s.folder.revocation = .absent ∧ s.folder.revocationReceipt = .absent
  settled : Settled P S s.folder id (millis s.clock)

/-! Evidence -/

/-- Writing the presence file again does not change what the history says. -/
theorem historyRead_presence (hS : S.Lawful) (h : historyRead S u = some kinds) (hne : kinds ≠ []) :
    historyRead S (Write.apply u (.presence (presenceFile S))) = some kinds := by
  have hpresent : Tidy S (.obj [("schemaVersion", .int 1), ("kind", .str presenceKind)]) := by
    refine tidy_obj hS ?_ ["schemaVersion", "kind"] rfl (by decide +kernel)
    simp [isSimple]
  have hp : decryptJson S (presenceFile S) = some (.obj [("schemaVersion", .int 1), ("kind", .str presenceKind)]) := by
    rw [presenceFile, decryptJson_encryptJson hS hpresent]
  have hexists : (presenceFile S).exists_ = true := rfl
  unfold historyRead at h ⊢
  split at h
  · cases h
    exact absurd rfl hne
  · rename_i hboth
    split at h
    · cases h
    · rename_i heach
      obtain ⟨x, hx, h⟩ := Option.bind_eq_some_iff.mp h
      obtain ⟨p, -, h⟩ := Option.bind_eq_some_iff.mp h
      split at h
      · rename_i hchecks
        have hhistory : u.history.exists_ = true := by
          simp only [not_or, Bool.not_eq_false] at heach
          exact heach.1
        simp only [Write.apply, hhistory, hexists, hx, hp, Bool.true_eq_false, and_self, or_self, if_false, Option.bind_eq_bind,
          Option.bind_some]
        have hexact : exact ["schemaVersion", "kind"] (.obj [("schemaVersion", .int 1), ("kind", .str presenceKind)]) =
            some [("schemaVersion", .int 1), ("kind", .str presenceKind)] :=
          exact_of (by simp [exactKeys])
        rw [hexact, Option.bind_some, if_pos ⟨hchecks.1, rfl, by simp [at_, Json.is, List.lookup_cons]⟩]
        exact h
      · cases h

variable {now : Int}

theorem Settled.read (hS : S.Lawful) (h : Settled P S u id now) :
    freshnessRead P S u = .none ∨ ∃ first last, freshnessRead P S u = .seen ⟨.str id, .str first, .str last⟩ := by
  cases h with
  | new hhistory hfiles =>
    refine .inl ?_
    simp only [freshnessRead, historyRead, hhistory, hfiles, Stored.exists_, and_self, if_true, List.not_mem_nil, if_false]
  | recorded kinds first last hhistory hpaid _ _ _ _ hstate hreceipt =>
    exact .inr ⟨first, S.toISOString last, freshnessRead_written hS hhistory hpaid hstate hreceipt⟩

theorem Settled.inspect (h : Settled P S u id now) (hrevocation : u.revocation = .absent ∧ u.revocationReceipt = .absent) :
    revocationInspect P S u = .none := by
  cases h with
  | new hhistory =>
    simp only [revocationInspect, historyRead, hhistory, hrevocation, Stored.exists_, and_self, if_true, List.not_mem_nil, if_false]
  | recorded kinds first last hhistory _ hclean =>
    simp only [revocationInspect, hhistory, hrevocation, Stored.exists_, and_self, if_true, hclean, if_false]

theorem addKind_clean (h : "revocation" ∉ kinds) : "revocation" ∉ addKind "paid" kinds := by
  simp [addKind, h]

theorem historyRead_after (hS : S.Lawful) (kinds : List String) (x : Freshness) :
    historyRead S (u.after (checkpointWrites P S kinds x)) = some (addKind "paid" kinds) := by
  obtain ⟨hne, hknown, hnodup⟩ := addKind_facts kinds
  exact historyRead_written hS ⟨rfl, rfl⟩ hne hknown hnodup

variable {before : Int} {file : List (String × Json)} {other : String}

/-- A checkpoint of this license is accepted, and whole, or cut off where it does no
harm, leaves settled evidence. -/
theorem Settled.checkpoint (hS : S.Lawful) (h : Settled P S u id before) (hle : before ≤ now) (hdate : IsDate now) :
    (∃ x, (checkpoint P S u now id).2 = .ok x) ∧
      ∀ crash : Option Nat, (∀ k, crash = some k → Harmless u k) →
        Settled P S (u.after (cutOff (checkpoint P S u now id).1 crash)) id now := by
  cases h with
  | new hhistory hfiles =>
    have hread : freshnessRead P S u = .none := by
      simp only [freshnessRead, historyRead, hhistory, hfiles, Stored.exists_, and_self, if_true, List.not_mem_nil, if_false]
    obtain ⟨kinds, hkinds, hcall⟩ := checkpoint_first now id hread
    have hnil : kinds = [] := by
      simp only [historyRead, hhistory, Stored.exists_, and_self, if_true, Option.some.injEq] at hkinds
      exact hkinds.symm
    subst hnil
    have hwhole : Settled P S (u.after (checkpointWrites P S []
        ⟨.str id, .str (S.toISOString now), .str (S.toISOString now)⟩)) id now :=
      .recorded (addKind "paid" []) (S.toISOString now) now (historyRead_after hS _ _) (by decide) (by decide)
        (toISOString_ne hS hdate) hdate (le_refl _) rfl rfl
    refine ⟨⟨_, by rw [hcall]⟩, ?_⟩
    intro crash hharmless
    rw [hcall]
    cases crash with
    | none => exact hwhole
    | some k =>
      obtain rfl | hfour | ⟨hexists, -⟩ := hharmless k rfl
      · exact .new hhistory hfiles
      · have hall : cutOff (checkpointWrites P S [] ⟨.str id, .str (S.toISOString now), .str (S.toISOString now)⟩) (some k) =
            checkpointWrites P S [] ⟨.str id, .str (S.toISOString now), .str (S.toISOString now)⟩ :=
          List.take_of_length_le hfour
        rw [hall]
        exact hwhole
      · rw [hfiles.2] at hexists
        cases hexists
  | recorded kinds first last hhistory hpaid hclean hfirst hlast hbefore hstate hreceipt =>
    have hrec : Recorded P S u id first (S.toISOString last) :=
      ⟨freshnessRead_written hS hhistory hpaid hstate hreceipt, kinds, hhistory⟩
    have hnow : last ≤ now + rollbackTolerance := by
      unfold rollbackTolerance
      omega
    obtain ⟨kinds', hkinds, hcall⟩ := checkpoint_later hS hlast hfirst hrec hnow
    rw [hhistory] at hkinds
    cases hkinds
    have hne : kinds ≠ [] := List.ne_nil_of_mem hpaid
    -- the state and the receipt are new, whatever the history files say of payment
    have hsettled : ∀ v : UserData, ∀ after, historyRead S v = some after → "paid" ∈ after → "revocation" ∉ after →
        v.freshness = stateFile S ⟨.str id, .str first, .str (S.toISOString now)⟩ →
        v.freshnessReceipt = receiptFile P S ⟨.str id, .str first, .str (S.toISOString now)⟩ → Settled P S v id now :=
      fun v after hv hp hc hs hr => .recorded after first now hv hp hc hfirst hdate (le_refl _) hs hr
    have hwhole : Settled P S (u.after (checkpointWrites P S kinds ⟨.str id, .str first, .str (S.toISOString now)⟩)) id now :=
      hsettled _ _ (historyRead_after hS _ _) (by simp [addKind]) (addKind_clean hclean) rfl rfl
    refine ⟨⟨_, by rw [hcall]⟩, ?_⟩
    intro crash hharmless
    rw [hcall]
    cases crash with
    | none => exact hwhole
    | some k =>
      have hcut : k = 0 ∨ k = 2 ∨ k = 3 ∨ 4 ≤ k := by
        obtain hzero | hfour | ⟨-, htwo⟩ := hharmless k rfl <;> omega
      obtain rfl | rfl | rfl | hfour := hcut
      · exact .recorded kinds first last hhistory hpaid hclean hfirst hlast (le_trans hbefore hle) hstate hreceipt
      · exact hsettled _ kinds hhistory hpaid hclean rfl rfl
      · have hpresence : historyRead S (u.after (cutOff (checkpointWrites P S kinds
            ⟨.str id, .str first, .str (S.toISOString now)⟩) (some 3))) = some kinds := by
          rw [← historyRead_presence hS hhistory hne]
          rfl
        exact hsettled _ kinds hpresence hpaid hclean rfl rfl
      · have hall : cutOff (checkpointWrites P S kinds ⟨.str id, .str first, .str (S.toISOString now)⟩) (some k) =
            checkpointWrites P S kinds ⟨.str id, .str first, .str (S.toISOString now)⟩ :=
          List.take_of_length_le hfour
        rw [hall]
        exact hwhole

theorem Settled.later (h : Settled P S u id before) (hle : before ≤ now) : Settled P S u id now := by
  cases h with
  | new hhistory hfiles => exact .new hhistory hfiles
  | recorded kinds first last hhistory hpaid hclean hfirst hdate hbefore hstate hreceipt =>
    exact .recorded kinds first last hhistory hpaid hclean hfirst hdate (le_trans hbefore hle) hstate hreceipt

theorem Settled.congr (h : Settled P S u id now) (hfreshness : v.freshness = u.freshness)
    (hreceipt : v.freshnessReceipt = u.freshnessReceipt) (hhistory : v.history = u.history) (hpresence : v.presence = u.presence) :
    Settled P S v id now := by
  have hread : historyRead S v = historyRead S u := by simp only [historyRead, hhistory, hpresence]
  cases h with
  | new hh hf => exact .new ⟨by rw [hhistory, hh.1], by rw [hpresence, hh.2]⟩ ⟨by rw [hfreshness, hf.1], by rw [hreceipt, hf.2]⟩
  | recorded kinds first last hh hpaid hclean hfirst hdate hbefore hs hr =>
    exact .recorded kinds first last (hread.trans hh) hpaid hclean hfirst hdate hbefore (hfreshness.trans hs) (hreceipt.trans hr)

/-! Honest runs -/

theorem startWrites_cases (hd : d.Genuine P) (clock : Int) (hprobe : draws.probe.Drawn) (hlaunch : draws.launch.Drawn)
    (hlicense : NamesLicense S id u.license) :
    startWrites P S d u clock draws = [] ∨ startWrites P S d u clock draws = (checkpoint P S u (millis clock) id).1 := by
  unfold startWrites
  split
  · rename_i started hstarted
    obtain ⟨base, hdecided⟩ := prepareAndStart_decided hd hprobe hlaunch hstarted
    rw [hdecided.writes]
    exact observe_writes (weighed_names (answer_names (peek_names hlicense hdecided.peek)))
  · exact .inl rfl

theorem cutOff_nil (crash : Option Nat) : cutOff [] crash = [] := by
  cases crash <;> simp [cutOff]

theorem after_cutOff (clockMs : Int) (other : String) (crash : Option Nat) :
    (u.after (cutOff (checkpoint P S u clockMs other).1 crash)).license = u.license ∧
      (u.after (cutOff (checkpoint P S u clockMs other).1 crash)).revocation = u.revocation ∧
      (u.after (cutOff (checkpoint P S u clockMs other).1 crash)).revocationReceipt = u.revocationReceipt := by
  generalize cutOff (checkpoint P S u clockMs other).1 crash = writes
  induction writes generalizing u with
  | nil => exact ⟨rfl, rfl, rfl⟩
  | cons w writes ih =>
    have hw : (w.apply u).license = u.license ∧ (w.apply u).revocation = u.revocation ∧
        (w.apply u).revocationReceipt = u.revocationReceipt := by cases w <;> exact ⟨rfl, rfl, rfl⟩
    obtain ⟨h1, h2, h3⟩ := ih (u := w.apply u)
    exact ⟨h1.trans hw.1, h2.trans hw.2.1, h3.trans hw.2.2⟩

variable {s : Device}

theorem Honest.step (hS : S.Lawful) (hd : d.Genuine P) {e : DeviceEvent} (h : Honest P S id s) (he : HonestStep S id s e) :
    Honest P S id (deviceStep P S d s e) := by
  cases e with
  | replace =>
    exact ⟨he, h.revocation, h.settled.congr rfl rfl rfl rfl⟩
  | start clock draws crash =>
    obtain ⟨hle, hdate, hprobe, hlaunch, hharmless⟩ := he
    have hmillis : millis s.clock ≤ millis clock := Int.ediv_le_ediv (by decide) hle
    obtain hnone | hcheckpoint := startWrites_cases hd clock hprobe hlaunch h.license
    · have hfolder : s.folder.after (cutOff (startWrites P S d s.folder clock draws) crash) = s.folder := by
        rw [hnone, cutOff_nil]
        rfl
      unfold deviceStep
      dsimp only
      rw [hfolder]
      exact ⟨h.license, h.revocation, (h.settled.later hmillis).congr rfl rfl rfl rfl⟩
    · obtain ⟨hkept, hrevocation, hrevocation'⟩ := after_cutOff (P := P) (S := S) (u := s.folder) (millis clock) id crash
      have hsettled := (h.settled.checkpoint hS hmillis hdate).2 crash hharmless
      unfold deviceStep
      dsimp only
      rw [hcheckpoint]
      refine ⟨?_, ⟨hrevocation.trans h.revocation.1, hrevocation'.trans h.revocation.2⟩, hsettled.congr rfl rfl rfl rfl⟩
      show NamesLicense S id (s.folder.after (cutOff (checkpoint P S s.folder (millis clock) id).1 crash)).license
      rw [hkept]
      exact h.license

/-- The license file is a certificate that the backend verifies at this time, as
signed, for this device, in force and within its check-in period. -/
def ValidCertificate (P : Primitives) (S : Platform) (d : Desktop) (clock : Int) (file : Stored) : Prop :=
  ∃ fields, file.asFile S = .doc (.obj fields) ∧
    (verifyDocument P d.licenseKey clock d.devicePublicKey (.obj fields)).mutationsAllowed = true

theorem answer_certificate (hlicense : u.license.asFile S = .doc (.obj file)) (trial : Trial)
    (hstate : base.state = .paid) (hvalid : base.valid = true) (hallowed : base.mutationsAllowed = true) :
    answerUnder (probeMode u trial) base = base := by
  have hexists : u.license.exists_ = true := by
    cases hcase : u.license with
    | absent =>
      rw [hcase] at hlicense
      cases hlicense
    | unreadable => rfl
    | content => rfl
  have hmode : probeMode u trial = .paid := by rw [probeMode, hexists, if_pos rfl]
  rw [hmode]
  exact if_pos ⟨rfl, hstate, hvalid, hallowed⟩

/-- With settled evidence a valid certificate makes the policy paid and writable. -/
theorem Honest.paid (hS : S.Lawful) (hd : d.Genuine P) (h : Honest P S id s)
    (hle : s.clock ≤ clock) (hdate : IsDate (millis clock)) (hprobe : draws.probe.Drawn) (hlaunch : draws.launch.Drawn)
    (hvalid : ValidCertificate P S d clock s.folder.license) :
    ∃ started, prepareAndStart P S d s.folder clock draws = .ok started ∧ started.policy = ⟨.paid, true⟩ ∧
      started.writes = (checkpoint P S s.folder (millis clock) id).1 := by
  obtain ⟨fields, hfile, hallowed⟩ := hvalid
  have hmillis : millis s.clock ≤ millis clock := Int.ediv_le_ediv (by decide) hle
  have hpeek := peek_certificate (P := P) (d := d) clock hfile h.revocation.1
  obtain ⟨hstate, hvalid', -⟩ := (verifyDocument_speaks fields).allowed hallowed
  have hnames := peek_names h.license hpeek
  have hid := hnames.paid (.inl hstate)
  obtain ⟨started, hstarted⟩ := prepareAndStart_ok hd draws hprobe hpeek
  obtain ⟨base, hdecided⟩ := prepareAndStart_decided hd hprobe hlaunch hstarted
  have hbase : base = verifyDocument P d.licenseKey clock d.devicePublicKey (.obj fields) := by
    have hsame := hdecided.peek
    rw [hpeek] at hsame
    exact (Except.ok.inj hsame).symm
  rw [← hbase] at hstate hvalid' hallowed hid
  refine ⟨started, hstarted, ?_⟩
  have hanswer := answer_certificate hfile started.trial hstate hvalid' hallowed
  have hweighed : base.weighed P S s.folder = base := by
    have hinspect := h.settled.inspect h.revocation
    unfold Entitlement.weighed
    rw [hinspect]
    obtain hnone | ⟨first, last, hseen⟩ := h.settled.read hS
    · rw [hnone]
      rfl
    · rw [hseen]
      simp only [Entitlement.underRevocation, Entitlement.underFreshness, hid, Option.any_some, Json.is, decide_true, Bool.not_true,
        Bool.and_false, Bool.false_eq_true, if_false]
  obtain ⟨⟨x, hx⟩, -⟩ := h.settled.checkpoint hS hmillis hdate
  have hobserved : observe P S s.folder (millis clock) base = ((checkpoint P S s.folder (millis clock) id).1, base) := by
    unfold observe
    rw [if_pos ⟨.inl hstate, hvalid'⟩, hid, Option.getD_some]
    revert hx
    obtain ⟨writes, outcome⟩ := checkpoint P S s.folder (millis clock) id
    rintro rfl
    simp only [hstate, reduceCtorEq, if_false]
  refine ⟨?_, ?_⟩
  · rw [hdecided.policy, hdecided.entitlement, hanswer, hweighed, hobserved]
    exact if_pos ⟨hstate, hvalid', hallowed⟩
  · rw [hdecided.writes, hanswer, hweighed, hobserved]

/-- A device on which no checkpoint has been taken and nothing was revoked. -/
structure NewDevice (u : UserData) : Prop where
  freshness : u.freshness = .absent ∧ u.freshnessReceipt = .absent
  history : u.history = .absent ∧ u.presence = .absent
  revocation : u.revocation = .absent ∧ u.revocationReceipt = .absent

theorem freshnessRead_congr (hfreshness : v.freshness = u.freshness)
    (hreceipt : v.freshnessReceipt = u.freshnessReceipt) (hhistory : v.history = u.history) (hpresence : v.presence = u.presence) :
    freshnessRead P S v = freshnessRead P S u := by
  simp only [freshnessRead, historyRead, hfreshness, hreceipt, hhistory, hpresence]

/-- Evidence that is invalid, or of another license, stands against a certificate. -/
def Against (other : String) : FreshnessEvidence → Prop
  | .none => False
  | .invalid => True
  | .seen x => x.licenseId.is other = false

/-- A start under such evidence is not writable, whatever the certificate says. -/
theorem against_extraction (hd : d.Genuine P) (hprobe : draws.probe.Drawn) (hlaunch : draws.launch.Drawn)
    (hother : other ≠ "") (hlicense : u.license.asFile S = .doc (.obj file))
    (hallowed : (verifyDocument P d.licenseKey clock d.devicePublicKey (.obj file)).mutationsAllowed = true)
    (hid : at_ file "license_id" = .str other) (hrevocation : u.revocation = .absent)
    (hagainst : Against other (freshnessRead P S u)) {started : Started}
    (hstarted : prepareAndStart P S d u clock draws = .ok started) : started.policy = ⟨.extraction, false⟩ := by
  obtain ⟨hstate, hvalid, -⟩ := (verifyDocument_speaks file).allowed hallowed
  have hspeaks : Names other (verifyDocument P d.licenseKey clock d.devicePublicKey (.obj file)) := verifyDocument_names hid
  have hnames := hspeaks.paid (.inl hstate)
  obtain ⟨base, hdecided⟩ := prepareAndStart_decided hd hprobe hlaunch hstarted
  have hbase : base = verifyDocument P d.licenseKey clock d.devicePublicKey (.obj file) := by
    have hsame := hdecided.peek
    rw [peek_certificate clock hlicense hrevocation] at hsame
    exact (Except.ok.inj hsame).symm
  rw [← hbase] at hstate hvalid hallowed hnames
  have hweighed : (base.weighed P S u).state = .extraction := by
    have hrevoked : (base.underRevocation (revocationInspect P S u)).licenseId = some other := by
      cases revocationInspect P S u with
      | none => exact hnames
      | accepted => exact hnames
      | invalid => exact hnames
    unfold Entitlement.weighed
    cases hread : freshnessRead P S u with
    | none =>
      rw [hread] at hagainst
      exact absurd hagainst id
    | invalid => rfl
    | seen x =>
      rw [hread] at hagainst
      have hno : x.licenseId.is other = false := hagainst
      simp only [Entitlement.underFreshness, hrevoked, Option.any_some, hno, hother, ne_eq, not_false_eq_true, decide_true,
        Bool.not_false, Bool.and_self, if_true]
      rfl
  have hgone : started.entitlement.state = .extraction := by
    rw [hdecided.entitlement, answer_certificate hlicense started.trial hstate hvalid hallowed]
    obtain hkept | hgone | ⟨hlegacy, -⟩ := observe_cases (P := P) (S := S) (u := u) (millis clock) (base.weighed P S u)
    · rw [hkept]
      exact hweighed
    · exact hgone
    · rw [hweighed] at hlegacy
      cases hlegacy
  rw [hdecided.policy]
  unfold decideStartup
  rw [hgone]
  rw [if_neg (fun h => by cases h.1), if_neg (fun h => by cases h.2.1), if_neg (fun h => ?_)]
  have hfree := (of_decide_eq_true h.2).1
  rw [hgone] at hfree
  cases hfree

/-- The clock does not go back, a start may crash anywhere, and a license file is
replaced by a certificate that is valid at the time. -/
def RoughStep (P : Primitives) (S : Platform) (d : Desktop) (s : Device) : DeviceEvent → Prop
  | .start clock draws _ _ => s.clock ≤ clock ∧ IsDate (millis clock) ∧ draws.probe.Drawn ∧ draws.launch.Drawn
  | .replace license => ValidCertificate P S d s.clock license

/-- After a run from a new device a start is not writable, although the certificate is
valid at its time. -/
structure LockedOut (P : Primitives) (S : Platform) (d : Desktop) (s : Device) (es : List DeviceEvent) (draws : Draws) : Prop where
  new : NewDevice s.folder
  run : Runs.Along (deviceStep P S d) (RoughStep P S d) s es
  valid : ValidCertificate P S d (Runs.run (deviceStep P S d) s es).clock (Runs.run (deviceStep P S d) s es).folder.license
  policy : ∀ started, prepareAndStart P S d (Runs.run (deviceStep P S d) s es).folder (Runs.run (deviceStep P S d) s es).clock draws =
    .ok started → started.policy = ⟨.extraction, false⟩

theorem lockedOut_of (hd : d.Genuine P) {es : List DeviceEvent} (hprobe : draws.probe.Drawn)
    (hlaunch : draws.launch.Drawn) (hnew : NewDevice s.folder) (hrun : Runs.Along (deviceStep P S d) (RoughStep P S d) s es)
    (hend : Runs.run (deviceStep P S d) s es = ⟨v, clock⟩) (hother : other ≠ "")
    (hfile : v.license.asFile S = .doc (.obj file)) (hid : at_ file "license_id" = .str other)
    (hallowed : (verifyDocument P d.licenseKey clock d.devicePublicKey (.obj file)).mutationsAllowed = true)
    (hrevocation : v.revocation = .absent) (hagainst : Against other (freshnessRead P S v)) : LockedOut P S d s es draws := by
  refine ⟨hnew, hrun, ?_, ?_⟩
  · rw [hend]
    exact ⟨file, hfile, hallowed⟩
  · intro started hstarted
    rw [hend] at hstarted
    exact against_extraction (u := v) hd hprobe hlaunch hother hfile hallowed hid hrevocation hagainst hstarted

theorem first_start_writes (hS : S.Lawful) (hd : d.Genuine P) (hnew : NewDevice u) (hlicense : NamesLicense S id u.license)
    (hdate : IsDate (millis clock)) (hprobe : draws.probe.Drawn) (hlaunch : draws.launch.Drawn)
    (hvalid : ValidCertificate P S d clock u.license) :
    ∃ first, startWrites P S d u clock draws = checkpointWrites P S [] ⟨.str id, .str first, .str first⟩ := by
  have hhonest : Honest P S id ⟨u, clock⟩ := ⟨hlicense, hnew.revocation, .new hnew.history hnew.freshness⟩
  obtain ⟨started, hstarted, -, hwrites⟩ := hhonest.paid hS hd (le_refl clock) hdate hprobe hlaunch hvalid
  have hread : freshnessRead P S u = .none := by
    simp only [freshnessRead, historyRead, hnew.history, hnew.freshness, Stored.exists_, and_self, if_true, List.not_mem_nil, if_false]
  obtain ⟨kinds, hkinds, hcall⟩ := checkpoint_first (millis clock) id hread
  have hnil : kinds = [] := by
    simp only [historyRead, hnew.history, Stored.exists_, and_self, if_true, Option.some.injEq] at hkinds
    exact hkinds.symm
  subst hnil
  refine ⟨S.toISOString (millis clock), ?_⟩
  unfold startWrites
  rw [hstarted]
  dsimp only
  rw [hwrites, hcall]

theorem other_license_locks_out (hS : S.Lawful) (hd : d.Genuine P) (hnew : NewDevice u) (hlicense : NamesLicense S id u.license)
    (hdate : IsDate (millis clock)) (hprobe : draws.probe.Drawn) (hlaunch : draws.launch.Drawn)
    (hvalid : ValidCertificate P S d clock u.license) (left : UserData) (hother : other ≠ "") (hne : id ≠ other)
    {license : Stored} (hfile : license.asFile S = .doc (.obj file)) (hid : at_ file "license_id" = .str other)
    (hallowed : (verifyDocument P d.licenseKey clock d.devicePublicKey (.obj file)).mutationsAllowed = true) :
    LockedOut P S d ⟨u, clock⟩ [.start clock draws none left, .replace license] draws := by
  obtain ⟨first, hwrites⟩ := first_start_writes hS hd hnew hlicense hdate hprobe hlaunch hvalid
  have hend : Runs.run (deviceStep P S d) ⟨u, clock⟩ [.start clock draws none left, .replace license] =
      ⟨{ (u.after (checkpointWrites P S [] ⟨.str id, .str first, .str first⟩)).keepEvidence left with license }, clock⟩ := by
    simp only [Runs.run_cons, Runs.run_nil, deviceStep, hwrites, cutOff]
  have hread : freshnessRead P S { (u.after (checkpointWrites P S [] ⟨.str id, .str first, .str first⟩)).keepEvidence left with license } =
      .seen ⟨.str id, .str first, .str first⟩ :=
    (freshnessRead_congr rfl rfl rfl rfl).trans (recorded_after (u := u) hS id first first []).read
  refine lockedOut_of hd hprobe hlaunch hnew ⟨⟨le_refl _, hdate, hprobe, hlaunch⟩, ⟨file, hfile, hallowed⟩, trivial⟩ hend hother hfile
    hid hallowed hnew.revocation.1 ?_
  rw [hread]
  exact decide_eq_false hne

/-- A first start that crashes after the state file of its checkpoint locks the user
out as well. -/
theorem crash_locks_out (hS : S.Lawful) (hd : d.Genuine P) (hnew : NewDevice u) (hdate : IsDate (millis clock))
    (hprobe : draws.probe.Drawn) (hlaunch : draws.launch.Drawn) (left : UserData) (hid : id ≠ "")
    (hfile : u.license.asFile S = .doc (.obj file)) (hname : at_ file "license_id" = .str id)
    (hallowed : (verifyDocument P d.licenseKey clock d.devicePublicKey (.obj file)).mutationsAllowed = true) :
    LockedOut P S d ⟨u, clock⟩ [.start clock draws (some 1) left] draws := by
  have hlicense : NamesLicense S id u.license := by
    intro fields hfields
    rw [hfile] at hfields
    cases hfields
    exact hname
  obtain ⟨first, hwrites⟩ := first_start_writes hS hd hnew hlicense hdate hprobe hlaunch ⟨file, hfile, hallowed⟩
  have hend : Runs.run (deviceStep P S d) ⟨u, clock⟩ [.start clock draws (some 1) left] =
      ⟨(u.after [.freshness (stateFile S ⟨.str id, .str first, .str first⟩)]).keepEvidence left, clock⟩ := by
    simp only [Runs.run_cons, Runs.run_nil, deviceStep, hwrites, cutOff, checkpointWrites, List.take]
  -- a state without its receipt
  have hread : freshnessRead P S ((u.after [.freshness (stateFile S ⟨.str id, .str first, .str first⟩)]).keepEvidence left) =
      .invalid := by
    simp [freshnessRead, historyRead, UserData.after, Write.apply, UserData.keepEvidence, hnew.history, hnew.freshness, stateFile,
      Stored.exists_]
  refine lockedOut_of hd hprobe hlaunch hnew ⟨⟨le_refl _, hdate, hprobe, hlaunch⟩, trivial⟩ hend hid hfile hname hallowed
    hnew.revocation.1 ?_
  rw [hread]
  exact trivial

def certificate (id : String) : List (String × Json) :=
  [("schema_version", .int 2), ("certificate_type", .str "growthmap_device_activation"), ("product", .str "growthmap"),
    ("edition", .str "personal"), ("license_id", .str id), ("activation_id", .str "gma_66404263daf0e89eb408ad37d6c66aa7"),
    ("major_version", .int 1), ("device_allowance", .int 1),
    ("device_id", .str "gmdev_66404263daf0e89eb408ad37d6c66aa7432cfec8d277369c1a894de9542f1056"),
    ("device_public_key", .str deviceKey), ("issued_at", .str "2026-01-01T00:00:00Z"), ("expires_at", .null), ("revoked_at", .null),
    ("max_active_projects", .null), ("next_check_in_at", .str "2026-02-01T00:00:00Z"), ("signature", .str "c2lnbmF0dXJl")]

def certificateFile (id : String) : Stored := .content (utf8 (jsonStringify (.obj (certificate id))))

theorem certificateFile_read (id : String) : (certificateFile id).asFile plainPlatform = .doc (.obj (certificate id)) := by
  have hdistinct : (Json.obj (certificate id)).distinct := by simp [certificate, Json.distinct, Json.distinctFields]
  rw [certificateFile, Stored.asFile_content (loads_written rfl hdistinct)]

theorem certificate_id (id : String) : at_ (certificate id) "license_id" = .str id := by
  simp [at_, certificate, List.lookup_cons]

theorem certificate_names (id : String) : NamesLicense plainPlatform id (certificateFile id) := by
  intro fields hfile
  rw [certificateFile_read] at hfile
  cases hfile
  exact certificate_id id

theorem certificate_allowed : ∀ id ∈ ["license-1", "license-2"],
    (verifyDocument legacyPrimitives legacyDesktop.licenseKey legacyClock legacyDesktop.devicePublicKey
      (.obj (certificate id))).mutationsAllowed = true := by
  decide +kernel

theorem certificate_valid (h : id ∈ ["license-1", "license-2"]) :
    ValidCertificate legacyPrimitives plainPlatform legacyDesktop legacyClock (certificateFile id) :=
  ⟨certificate id, certificateFile_read id, certificate_allowed id h⟩

def certifiedFolder : UserData := { license := certificateFile "license-1" }

theorem certifiedFolder_new : NewDevice certifiedFolder := ⟨⟨rfl, rfl⟩, ⟨rfl, rfl⟩, ⟨rfl, rfl⟩⟩

theorem certifiedFolder_valid :
    ValidCertificate legacyPrimitives plainPlatform legacyDesktop legacyClock certifiedFolder.license :=
  certificate_valid (by decide)

theorem legacyClock_date : IsDate (millis legacyClock) := by decide

end GrowthMap.Desktop
