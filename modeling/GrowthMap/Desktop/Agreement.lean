import GrowthMap.Desktop.Startup

/- The startup policy of Electron and the gate of the backend.

   Both start from one answer of the backend about the files. Electron only takes
   away from it, with one exception: it opens a legacy license for a bootstrap
   period, which the backend never does. So the two agree on every start but those
   (`policy_agrees`). -/
namespace GrowthMap.Desktop

/-- The device key and the primitives do what they document. -/
structure Desktop.Genuine (P : Primitives) (d : Desktop) : Prop where
  token : d.token ≠ ""
  key : ∃ raw, P.b64decode d.devicePublicKey = some raw ∧ raw.length = 32 ∧
    ∀ message, ∃ signature, P.b64decode (d.sign message) = some signature ∧ P.verify raw signature message = true
  mac : ∀ key message, isMac (P.hmac key message) = true

/-- 32 random bytes in base64url are a nonce. -/
structure Draw.Drawn (w : Draw) : Prop where
  nonce : isNonce w.nonce = true
  session : isNonce w.session = true

variable {P : Primitives} {S : Platform} {d : Desktop} {u : UserData} {clock : Int} {files : Files} {base : Entitlement}

/-! The verdict -/

theorem nonce_ne {s : String} (h : isNonce s = true) : s ≠ "" := by
  rintro rfl
  cases h

theorem genuine_verdict (hd : d.Genuine P) {w : Draw} (hw : w.Drawn) (mode : Mode) :
    verdictValidation P (createStartupVerdict P d w mode) = .ok mode.text := by
  obtain ⟨raw, hraw, hlength, hsigns⟩ := hd.key
  obtain ⟨signature, hsignature, hverify⟩ := hsigns (startupProof (createStartupVerdict P d w mode))
  have hmode : mode.text ∈ modes := by cases mode <;> decide
  have hproves : deviceProves P (createStartupVerdict P d w mode) = true := by
    have hdevice : P.b64decode (createStartupVerdict P d w mode).device = some raw := hraw
    have hproof : P.b64decode (createStartupVerdict P d w mode).proof = some signature := hsignature
    simp only [deviceProves, hdevice, hproof, hlength, decide_true, Bool.true_and, hverify]
  have hsession : (createStartupVerdict P d w mode).session ≠ "" := nonce_ne hw.2
  have hmac : isMac (createStartupVerdict P d w mode).mac = true := hd.mac _ _
  have hnonce : isNonce (createStartupVerdict P d w mode).nonce = true := hw.1
  have hnonce' : isNonce (createStartupVerdict P d w mode).session = true := hw.2
  have htoken : (createStartupVerdict P d w mode).token ≠ "" := hd.token
  have htext : (createStartupVerdict P d w mode).mode = mode.text := rfl
  have heq : (createStartupVerdict P d w mode).mac =
      P.hmac (createStartupVerdict P d w mode).token (startupVerdict (createStartupVerdict P d w mode)) := rfl
  unfold verdictValidation
  rw [htext, if_neg (not_not_intro hmode), if_neg (by rw [hnonce]; decide), if_neg (by rw [hmac]; simpa using htoken),
    if_neg (fun hlegacy => hsession hlegacy.2.1), if_neg (by rw [hnonce']; decide), if_neg (by rw [hproves]; decide), if_pos heq]

def answerUnder (mode : Mode) (base : Entitlement) : Entitlement :=
  if mode = .paid ∧ base.state = .paid ∧ base.valid = true ∧ base.mutationsAllowed = true then base
  else if mode = .paid ∧ base.reason = "check_in_required" then base
  else if base.state = .paidLegacy ∧ base.valid = true ∧ base.mutationsAllowed = false then base
  else if (mode = .free ∨ mode = .fresh) ∧ base.state = .free ∧ base.valid = true ∧ base.mutationsAllowed = true then base
  else if mode = .fresh ∧ base.reason = "no_free_state" then
    { state := .free, edition := "free", maxActiveProjects := some 1, valid := true, mutationsAllowed := true,
      reason := "authenticated_fresh_install" }
  else .denied (if mode = .extraction then "electron_forced_extraction" else "startup_policy_mismatch")

theorem effective_under (hd : d.Genuine P) {w : Draw} (hw : w.Drawn) (mode : Mode) :
    effectiveEntitlement P files clock (createStartupVerdict P d w mode) =
      (peekCurrentEntitlement P files clock d.devicePublicKey).map (answerUnder mode) := by
  have hdevice : (createStartupVerdict P d w mode).device = d.devicePublicKey := rfl
  have hfresh : (createStartupVerdict P d w mode).freshInstall = decide (mode = .fresh) := rfl
  simp only [effectiveEntitlement, genuine_verdict hd hw mode, hdevice, hfresh]
  cases peekCurrentEntitlement P files clock d.devicePublicKey with
  | error => rfl
  | ok =>
    cases mode <;> simp [Mode.text, answerUnder, Except.map] <;> split_ifs <;> rfl

/-! What the backend answers from -/

theorem free_allowed_state {file : FileState} (h : (freeEntitlement P clock file).mutationsAllowed = true) :
    (freeEntitlement P clock file).state = .free ∧ (freeEntitlement P clock file).valid = true := by
  obtain ⟨fields, started, last, rfl, hshape⟩ := free_allowed h
  revert h
  unfold freeEntitlement
  dsimp only
  split
  · intro h
    cases h
  · split
    · split
      · intro h
        cases h
      · exact fun _ => ⟨rfl, rfl⟩
    · intro h
      cases h

theorem base_allowed (h : peekCurrentEntitlement P files clock d.devicePublicKey = .ok base)
    (hallowed : base.mutationsAllowed = true) : (base.state = .paid ∨ base.state = .free) ∧ base.valid = true := by
  obtain ⟨-, rfl⟩ | hspeaks := peek_cases h
  · obtain ⟨hstate, hvalid⟩ := free_allowed_state hallowed
    exact ⟨.inr hstate, hvalid⟩
  · obtain ⟨hstate, hvalid, -⟩ := hspeaks.allowed hallowed
    exact ⟨.inl hstate, hvalid⟩

theorem base_new (h : peekCurrentEntitlement P files clock d.devicePublicKey = .ok base) (hreason : base.reason = "no_free_state") :
    base = .denied "no_free_state" := by
  obtain ⟨-, rfl⟩ | hspeaks := peek_cases h
  · rw [free_absent hreason]
    rfl
  · exact absurd hreason hspeaks.reason

theorem extraction_denied (base : Entitlement) : (answerUnder .extraction base).mutationsAllowed = false := by
  simp only [answerUnder, reduceCtorEq, false_and, or_self, if_false]
  split
  · rename_i hlegacy
    exact hlegacy.2.2
  · rfl

theorem answer_cases (mode : Mode) (base : Entitlement) :
    answerUnder mode base = base ∨
      (mode = .fresh ∧ base.reason = "no_free_state" ∧ (answerUnder mode base).state = .free) ∨
      ∃ reason, answerUnder mode base = .denied reason := by
  unfold answerUnder
  split_ifs with h1 h2 h3 h4 h5
  · exact .inl rfl
  · exact .inl rfl
  · exact .inl rfl
  · exact .inl rfl
  · exact .inr (.inl ⟨h5.1, h5.2, rfl⟩)
  · exact .inr (.inr ⟨_, rfl⟩)
  · exact .inr (.inr ⟨_, rfl⟩)

theorem answer_paid {mode : Mode} (h : (answerUnder mode base).state = .paid ∨ (answerUnder mode base).state = .paidLegacy) :
    answerUnder mode base = base := by
  obtain hbase | ⟨-, -, hfree⟩ | ⟨reason, hdenied⟩ := answer_cases mode base
  · exact hbase
  · rw [hfree] at h
    obtain h | h := h <;> cases h
  · rw [hdenied] at h
    obtain h | h := h <;> cases h

/-! What Electron takes away -/

def Entitlement.weighed (P : Primitives) (S : Platform) (u : UserData) (e : Entitlement) : Entitlement :=
  (e.underRevocation (revocationInspect P S u)).underFreshness (freshnessRead P S u)

theorem weighed_cases (e : Entitlement) :
    e.weighed P S u = e ∨ ((e.weighed P S u).state = .extraction ∧ (e.weighed P S u).valid = false) := by
  have hrevocation : e.underRevocation (revocationInspect P S u) = e ∨
      ((e.underRevocation (revocationInspect P S u)).state = .extraction ∧
        (e.underRevocation (revocationInspect P S u)).valid = false) := by
    cases revocationInspect P S u with
    | none => exact .inl rfl
    | accepted => exact .inl rfl
    | invalid => exact .inr ⟨rfl, rfl⟩
  unfold Entitlement.weighed
  cases freshnessRead P S u with
  | none => exact hrevocation
  | invalid => exact .inr ⟨rfl, rfl⟩
  | seen =>
    simp only [Entitlement.underFreshness]
    split
    · exact .inr ⟨rfl, rfl⟩
    · exact hrevocation

variable {e : Entitlement}

theorem weighed_revoked {reason : String} (h : revocationInspect P S u = .invalid reason) :
    (e.weighed P S u).state = .extraction := by
  unfold Entitlement.weighed
  rw [h]
  cases freshnessRead P S u with
  | none => rfl
  | invalid => rfl
  | seen =>
    unfold Entitlement.underFreshness
    dsimp only
    split <;> rfl

/-- The checkpoint keeps the entitlement, takes it away, or opens a legacy license. -/
theorem observe_cases (now : Int) (e : Entitlement) :
    (observe P S u now e).2 = e ∨ (observe P S u now e).2.state = .extraction ∨
      (e.state = .paidLegacy ∧ e.valid = true ∧
        ∃ observed, (checkpoint P S u now (e.licenseId.getD "")).2 = .ok observed ∧ bootstrapOver S now observed = false) := by
  unfold observe
  split
  · rename_i hpaid
    obtain ⟨writes, outcome⟩ := checkpoint P S u now (e.licenseId.getD "")
    cases outcome with
    | error => exact .inr (.inl rfl)
    | ok observed =>
      by_cases hlegacy : e.state = .paidLegacy
      · cases hover : bootstrapOver S now observed with
        | true =>
          refine .inr (.inl ?_)
          simp only [hlegacy, hover, if_true]
          rfl
        | false => exact .inr (.inr ⟨hlegacy, hpaid.2, observed, rfl, hover⟩)
      · refine .inl ?_
        simp only [hlegacy, if_false]
  · split
    · exact .inl rfl
    · rename_i id _
      split
      · exact .inl rfl
      · obtain ⟨writes, outcome⟩ := checkpoint P S u now id
        cases outcome with
        | error => exact .inr (.inl rfl)
        | ok => exact .inl rfl

variable {now : Int}

theorem observe_legacy (hstate : e.state = .paidLegacy) (hvalid : e.valid = true) {observed : Freshness}
    (hcall : (checkpoint P S u now (e.licenseId.getD "")).2 = .ok observed) (hover : bootstrapOver S now observed = false) :
    (observe P S u now e).2 = { e with state := .paid, mutationsAllowed := true, reason := "legacy_bootstrap" } := by
  unfold observe
  rw [if_pos ⟨.inr hstate, hvalid⟩]
  revert hcall
  obtain ⟨writes, outcome⟩ := checkpoint P S u now (e.licenseId.getD "")
  rintro rfl
  simp only [hstate, hover, if_true, Bool.false_eq_true, if_false]

/-! Legacy licenses -/

/-- The freshness evidence lets a legacy license be opened: there is none yet, or it
is of this license, not of a later time, and not past the bootstrap period. -/
def OpensLegacy (S : Platform) (now : Int) (id : String) : FreshnessEvidence → Prop
  | .none => True
  | .invalid => False
  | .seen x => x.licenseId.is id = true ∧ rolledBack S now x = false ∧
      (isTruthy x.firstSeenAt = true → bootstrapOver S now x = false)

/-- Electron opens a legacy license: it is valid for the backend, no revocation
evidence is broken, and the freshness evidence lets it. -/
structure LegacyBootstrap (P : Primitives) (S : Platform) (d : Desktop) (u : UserData) (clock : Int) : Prop where
  license : ∃ base, peekCurrentEntitlement P (u.files S d) clock d.devicePublicKey = .ok base ∧ base.state = .paidLegacy ∧
    base.valid = true ∧ OpensLegacy S (millis clock) (base.licenseId.getD "") (freshnessRead P S u)
  revocation : ∀ reason, revocationInspect P S u ≠ .invalid reason

theorem bootstrapOver_now (hS : S.Lawful) (hnow : IsDate now) (id last : Json) :
    bootstrapOver S now ⟨id, .str (S.toISOString now), last⟩ = false := by
  have htruthy : isTruthy (.str (S.toISOString now)) = true := decide_eq_true (toISOString_ne hS hnow)
  simp only [bootstrapOver, htruthy, if_true, toStringJs, hS.dateParse_toISOString now hnow, Option.any_some, bootstrapPeriod]
  exact decide_eq_false (by omega)

/-- The checkpoint of a legacy license is accepted, within the period, exactly when
the evidence lets it. -/
theorem opensLegacy_iff (hS : S.Lawful) (hnow : IsDate now) (id : String) :
    OpensLegacy S now id (freshnessRead P S u) ↔
      ∃ observed, (checkpoint P S u now id).2 = .ok observed ∧ bootstrapOver S now observed = false := by
  cases hread : freshnessRead P S u with
  | invalid =>
    refine ⟨False.elim, ?_⟩
    rintro ⟨observed, hcall, -⟩
    simp only [checkpoint, hread] at hcall
    cases hcall
  | none =>
    obtain ⟨kinds, -, hcall⟩ := checkpoint_first now id hread
    exact ⟨fun _ => ⟨_, by rw [hcall], bootstrapOver_now hS hnow _ _⟩, fun _ => trivial⟩
  | seen x =>
    obtain ⟨kinds, hkinds⟩ := history_of_read (P := P) (S := S) (u := u) (by rw [hread]; intro hc; cases hc)
    cases hid : x.licenseId.is id with
    | false =>
      simp only [OpensLegacy, hid, checkpoint, hread, if_true, Bool.false_eq_true, false_and, reduceCtorEq, exists_false]
    | true =>
      cases hback : rolledBack S now x with
      | true =>
        simp only [OpensLegacy, hid, hback, checkpoint, hread, Bool.true_eq_false, if_false, if_true, false_and, and_false, reduceCtorEq,
          exists_false]
      | false =>
        have hcall : (checkpoint P S u now id).2 = .ok (Freshness.next S (some x) id now) := by
          simp only [checkpoint, hread, hid, hback, Bool.true_eq_false, Bool.false_eq_true, if_false, recordFreshness_eq hkinds]
        simp only [OpensLegacy, hid, hback, true_and, hcall, Except.ok.injEq, exists_eq_left']
        cases htruthy : isTruthy x.firstSeenAt with
        | true =>
          have hsame : bootstrapOver S now (Freshness.next S (some x) id now) = bootstrapOver S now x := by
            simp only [bootstrapOver, Freshness.next, htruthy, if_true]
          rw [hsame]
          exact ⟨fun h => h rfl, fun h _ => h⟩
        | false =>
          have hnext : Freshness.next S (some x) id now = ⟨.str id, .str (S.toISOString now), .str (S.toISOString now)⟩ := by
            simp only [Freshness.next, htruthy, Bool.false_eq_true, if_false]
          rw [hnext]
          exact ⟨fun _ => bootstrapOver_now hS hnow _ _, fun _ h => absurd h (by decide)⟩

/-! The two decisions -/

/-- Whenever a start comes to a decision, the policy is writable if and only if the
sidecar launched with its verdict allows mutations. -/
def Agrees (P : Primitives) (S : Platform) (d : Desktop) (u : UserData) (clock : Int) (draws : Draws) : Prop :=
  ∀ started, prepareAndStart P S d u clock draws = .ok started →
    (started.policy.writable = true ↔
      ∃ e, sidecarEntitlement P S d u clock started = .ok e ∧ e.mutationsAllowed = true)

theorem files_after (writes : List Write) : (u.after writes).files S d = u.files S d := by
  induction writes generalizing u with
  | nil => rfl
  | cons w writes ih =>
    have hstep : (w.apply u).files S d = u.files S d := by cases w <;> rfl
    exact (ih (u := w.apply u)).trans hstep

/-- The steps of a start that came to a decision. -/
structure Decided (P : Primitives) (S : Platform) (d : Desktop) (u : UserData) (clock : Int) (draws : Draws) (started : Started)
    (base : Entitlement) : Prop where
  peek : peekCurrentEntitlement P (u.files S d) clock d.devicePublicKey = .ok base
  trial : started.trial = trialPrepare S u (millis clock) draws.installation
  entitlement : started.entitlement =
    (observe P S u (millis clock) ((answerUnder (probeMode u started.trial) base).weighed P S u)).2
  writes : started.writes = (observe P S u (millis clock) ((answerUnder (probeMode u started.trial) base).weighed P S u)).1
  policy : started.policy = decideStartup started.trial started.entitlement
  sidecar : sidecarEntitlement P S d u clock started = .ok (answerUnder started.policy.mode base)

theorem prepareAndStart_decided (hd : d.Genuine P) {draws : Draws} (hprobe : draws.probe.Drawn) (hlaunch : draws.launch.Drawn)
    {started : Started} (h : prepareAndStart P S d u clock draws = .ok started) :
    ∃ base, Decided P S d u clock draws started base := by
  obtain ⟨probed, hprobed, h⟩ := Fallible.bind_ok h
  simp only [entitlementStatus, effective_under hd hprobe] at hprobed
  cases hpeek : peekCurrentEntitlement P (u.files S d) clock d.devicePublicKey with
  | error =>
    rw [hpeek] at hprobed
    cases hprobed
  | ok base =>
    rw [hpeek] at hprobed
    cases hprobed
    cases h
    refine ⟨base, hpeek, rfl, rfl, rfl, rfl, ?_⟩
    simp only [sidecarEntitlement, files_after, effective_under hd hlaunch, hpeek]
    rfl

theorem prepareAndStart_ok (hd : d.Genuine P) (draws : Draws) (hprobe : draws.probe.Drawn)
    (h : peekCurrentEntitlement P (u.files S d) clock d.devicePublicKey = .ok base) :
    ∃ started, prepareAndStart P S d u clock draws = .ok started := by
  have hstatus : entitlementStatus P S d u clock (trialPrepare S u (millis clock) draws.installation) draws.probe =
      .ok (answerUnder (probeMode u (trialPrepare S u (millis clock) draws.installation)) base) := by
    simp only [entitlementStatus, effective_under hd hprobe, h]
    rfl
  simp only [prepareAndStart, hstatus]
  exact ⟨_, rfl⟩

variable {draws : Draws} {started : Started}

/-- Electron keeps the answer, takes it away, or opens a legacy base. -/
theorem Decided.entitlement_cases (h : Decided P S d u clock draws started base) :
    started.entitlement = answerUnder (probeMode u started.trial) base ∨ started.entitlement.state = .extraction ∨
      (base.state = .paidLegacy ∧ base.valid = true ∧ (∀ reason, revocationInspect P S u ≠ .invalid reason) ∧
        ∃ observed, (checkpoint P S u (millis clock) (base.licenseId.getD "")).2 = .ok observed ∧
          bootstrapOver S (millis clock) observed = false) := by
  rw [h.entitlement]
  have hweighed := weighed_cases (P := P) (S := S) (u := u) (answerUnder (probeMode u started.trial) base)
  obtain hkept | hgone | ⟨hlegacy, hvalid, hopened⟩ :=
    observe_cases (P := P) (S := S) (u := u) (millis clock) ((answerUnder (probeMode u started.trial) base).weighed P S u)
  · rw [hkept]
    obtain hsame | ⟨hstate, -⟩ := hweighed
    · exact .inl hsame
    · exact .inr (.inl hstate)
  · exact .inr (.inl hgone)
  · obtain hsame | ⟨hstate, -⟩ := hweighed
    · rw [hsame] at hlegacy hvalid hopened
      have hbase := answer_paid (.inr hlegacy)
      rw [hbase] at hlegacy hvalid hopened hsame
      refine .inr (.inr ⟨hlegacy, hvalid, ?_, hopened⟩)
      -- broken revocation evidence would have taken the license away
      intro reason hinvalid
      have hgone := weighed_revoked (e := base) hinvalid
      rw [hsame, hlegacy] at hgone
      cases hgone
    · rw [hstate] at hlegacy
      cases hlegacy

/-- An opened legacy license makes the policy writable, and the sidecar denies. -/
theorem Decided.disagrees (hS : S.Lawful) (hclock : IsDate (millis clock)) (h : Decided P S d u clock draws started base)
    (hboot : LegacyBootstrap P S d u clock) :
    started.policy.writable = true ∧ (answerUnder started.policy.mode base).mutationsAllowed = false := by
  obtain ⟨base', hpeek, hlegacy, hvalid, hopens⟩ := hboot.license
  rw [h.peek] at hpeek
  cases hpeek
  have hmutations : base.mutationsAllowed = false := by
    by_contra hallowed
    obtain ⟨hstate, -⟩ := base_allowed h.peek (by simpa using hallowed)
    rw [hlegacy] at hstate
    obtain hstate | hstate := hstate <;> cases hstate
  have hanswer : ∀ mode, answerUnder mode base = base := by
    intro mode
    unfold answerUnder
    split_ifs with h1 h2 h3
    · rfl
    · rfl
    · rfl
    all_goals exact absurd ⟨hlegacy, hvalid, hmutations⟩ h3
  have hweighed : base.weighed P S u = base := by
    have hrevocation : base.underRevocation (revocationInspect P S u) = base := by
      cases hinspect : revocationInspect P S u with
      | none => rfl
      | accepted => rfl
      | invalid reason => exact absurd hinspect (hboot.revocation reason)
    unfold Entitlement.weighed
    rw [hrevocation]
    cases hread : freshnessRead P S u with
    | none => rfl
    | invalid =>
      rw [hread] at hopens
      exact absurd hopens id
    | seen =>
      rw [hread] at hopens
      have hid := hopens.1
      cases hlicense : base.licenseId with
      | none => simp only [Entitlement.underFreshness, hlicense, Option.any_none, Bool.false_eq_true, if_false]
      | some =>
        rw [hlicense, Option.getD_some] at hid
        simp only [Entitlement.underFreshness, hlicense, Option.any_some, hid, Bool.not_true, Bool.and_false, Bool.false_eq_true, if_false]
  obtain ⟨observed, hcall, hover⟩ := (opensLegacy_iff hS hclock _).mp hopens
  have hentitled : started.entitlement = { base with state := .paid, mutationsAllowed := true, reason := "legacy_bootstrap" } := by
    rw [h.entitlement, hanswer, hweighed]
    exact observe_legacy hlegacy hvalid hcall hover
  refine ⟨?_, ?_⟩
  · rw [h.policy, hentitled]
    simp only [decideStartup, hvalid, and_self, if_true]
  · rw [hanswer]
    exact hmutations

/-- A decision that opens no legacy license is the backend's. -/
theorem Decided.agrees (h : Decided P S d u clock draws started base)
    (hkept : started.entitlement = answerUnder (probeMode u started.trial) base ∨ started.entitlement.state = .extraction) :
    started.policy.writable = true ↔ (answerUnder started.policy.mode base).mutationsAllowed = true := by
  -- a base with these values is allowed under every mode that answers from it
  have hfree : ∀ mode, (mode = .free ∨ mode = .fresh) → base.state = .free → base.mutationsAllowed = true →
      (answerUnder mode base).mutationsAllowed = true := by
    intro mode hmode hstate hallowed
    have hvalid := (base_allowed h.peek hallowed).2
    unfold answerUnder
    split_ifs with h1 h2 h3 h4 h5
    · exact hallowed
    · exact hallowed
    · exact hallowed
    · exact hallowed
    all_goals exact absurd ⟨hmode, hstate, hvalid, hallowed⟩ h4
  rw [h.policy]
  unfold decideStartup
  split_ifs with hpaid hexisting hfresh
  · -- a paid entitlement is the base itself
    refine ⟨fun _ => ?_, fun _ => rfl⟩
    obtain hsame | hgone := hkept
    · rw [hsame] at hpaid
      have hbase := answer_paid (.inl hpaid.1)
      rw [hbase] at hpaid
      have hanswer : answerUnder .paid base = base := by
        unfold answerUnder
        rw [if_pos ⟨rfl, hpaid⟩]
      rw [hanswer]
      exact hpaid.2.2
    · rw [hgone] at hpaid
      exact absurd hpaid.1 (by decide)
  · -- an existing trial was probed as free, or under a license
    refine ⟨fun _ => ?_, fun _ => rfl⟩
    obtain ⟨hold, hstate, hallowed⟩ := hexisting
    obtain hsame | hgone := hkept
    · rw [hsame] at hstate hallowed
      obtain hbase | ⟨hmode, -, -⟩ | ⟨reason, hdenied⟩ := answer_cases (probeMode u started.trial) base
      · rw [hbase] at hstate hallowed
        exact hfree .free (.inl rfl) hstate hallowed
      · refine absurd hmode ?_
        unfold probeMode
        rw [hold]
        split_ifs <;> decide
      · rw [hdenied] at hallowed
        cases hallowed
    · rw [hgone] at hstate
      cases hstate
  · refine ⟨fun _ => ?_, fun _ => rfl⟩
    have hauthentic := of_decide_eq_true hfresh.2
    obtain hsame | hgone := hkept
    · rw [hsame] at hauthentic
      obtain hbase | ⟨-, hreason, -⟩ | ⟨reason, hdenied⟩ := answer_cases (probeMode u started.trial) base
      · rw [hbase] at hauthentic
        exact hfree .fresh (.inr rfl) hauthentic.1 hauthentic.2.2.2.1
      · rw [base_new h.peek hreason]
        rfl
      · rw [hdenied] at hauthentic
        cases hauthentic.1
    · rw [hgone] at hauthentic
      cases hauthentic.1
  · refine ⟨fun hwritable => absurd hwritable (by decide), fun hallowed => ?_⟩
    rw [extraction_denied] at hallowed
    cases hallowed

theorem legacy_disagrees (hS : S.Lawful) (hd : d.Genuine P) (hprobe : draws.probe.Drawn) (hlaunch : draws.launch.Drawn)
    (hclock : IsDate (millis clock)) (hboot : LegacyBootstrap P S d u clock) : ¬ Agrees P S d u clock draws := by
  intro hagrees
  obtain ⟨base, hpeek, -⟩ := hboot.license
  obtain ⟨started, hstarted⟩ := prepareAndStart_ok hd draws hprobe hpeek
  obtain ⟨base', hdecided⟩ := prepareAndStart_decided hd hprobe hlaunch hstarted
  obtain ⟨hwritable, hdenied⟩ := hdecided.disagrees hS hclock hboot
  obtain ⟨e, he, hallowed⟩ := (hagrees started hstarted).mp hwritable
  rw [hdecided.sidecar] at he
  cases he
  rw [hdenied] at hallowed
  cases hallowed

theorem peek_certificate (clock : Int) {file : List (String × Json)} (hlicense : u.license.asFile S = .doc (.obj file))
    (hrevocation : u.revocation = .absent) :
    peekCurrentEntitlement P (u.files S d) clock d.devicePublicKey =
      .ok (verifyDocument P d.licenseKey clock d.devicePublicKey (.obj file)) := by
  have hfile : (u.files S d).license = .doc (.obj file) := hlicense
  have habsent : (u.files S d).revocation = .absent := by simp only [UserData.files, hrevocation, Stored.asFile]
  simp only [peekCurrentEntitlement, hfile, applyRevocation, habsent]
  split <;> rfl

/-! A legacy license -/

def deviceKey : String := "AAAAAAAAAAAAAAAAAAAAAAAAAAAAAAAAAAAAAAAAAAA="

/-- Primitives that are asked about genuine signatures only. -/
def legacyPrimitives : Primitives where
  hmac _ _ := "66404263daf0e89eb408ad37d6c66aa7432cfec8d277369c1a894de9542f1056"
  sha256 _ := "66404263daf0e89eb408ad37d6c66aa7432cfec8d277369c1a894de9542f1056"
  verify _ _ _ := true
  b64decode s := some (List.replicate (if s = deviceKey then 32 else 64) 0)
  fromisoformat := readMicros

def legacyDesktop : Desktop := ⟨"growthmap-session-token", deviceKey, fun _ => "c2lnbmF0dXJl", .ed25519 (List.replicate 32 0), false⟩

def legacyLicense : Json :=
  .obj [("schema_version", .int 1), ("edition", .str "personal"), ("license_id", .str "license-1"), ("major_version", .int 1),
    ("device_allowance", .int 1), ("issued_at", .str "2026-01-01T00:00:00Z"), ("max_active_projects", .null),
    ("signature", .str "c2lnbmF0dXJl")]

def legacyFolder : UserData := { license := .content (utf8 (jsonStringify legacyLicense)) }

def legacyClock : Int := 1767312000000000

def legacyDraw : Draw := ⟨String.ofList (List.replicate 43 'A'), String.ofList (List.replicate 43 'B')⟩

def legacyDraws : Draws := ⟨"00000000-0000-4000-8000-000000000000", legacyDraw, legacyDraw⟩

theorem legacyDraw_drawn : legacyDraw.Drawn := by
  refine ⟨?_, ?_⟩ <;> decide +kernel

theorem legacyDesktop_genuine : legacyDesktop.Genuine legacyPrimitives := by
  refine ⟨by decide, ⟨List.replicate 32 0, rfl, rfl, ?_⟩, ?_⟩
  · intro message
    exact ⟨List.replicate 64 0, rfl, rfl⟩
  · have hmac : isMac "66404263daf0e89eb408ad37d6c66aa7432cfec8d277369c1a894de9542f1056" = true := by decide +kernel
    exact fun _ _ => hmac

theorem legacyFolder_license : legacyFolder.license.asFile plainPlatform = .doc legacyLicense := by
  have hdistinct : legacyLicense.distinct := by simp [legacyLicense, Json.distinct, Json.distinctFields]
  have hfile : legacyFolder.license = .content (utf8 (jsonStringify legacyLicense)) := rfl
  rw [hfile, Stored.asFile_content (loads_written rfl hdistinct)]

theorem legacyLicense_verified :
    (verifyDocument legacyPrimitives legacyDesktop.licenseKey legacyClock deviceKey legacyLicense).state = .paidLegacy ∧
      (verifyDocument legacyPrimitives legacyDesktop.licenseKey legacyClock deviceKey legacyLicense).valid = true := by
  have hid : isLicenseId "license-1" = true := by decide +kernel
  obtain ⟨issued, hissued⟩ : ∃ issued, readMicros "2026-01-01T00:00:00Z" = some issued := ⟨_, rfl⟩
  simp [verifyDocument, verifyFields, legacyLicense, invalidFields, licenseFields, licenseRequired, at_, isTwo, intOf, textOf,
    isPositive, signed, verifySigned, iso, isoOpt, judge, legacyDesktop, legacyPrimitives, hid, hissued, List.lookup_cons, bind,
    Except.bind]

theorem legacyFolder_opens : LegacyBootstrap legacyPrimitives plainPlatform legacyDesktop legacyFolder legacyClock := by
  have hpeek : ∃ base, peekCurrentEntitlement legacyPrimitives (legacyFolder.files plainPlatform legacyDesktop) legacyClock
      legacyDesktop.devicePublicKey = .ok base ∧ base.state = .paidLegacy ∧ base.valid = true :=
    ⟨_, peek_certificate legacyClock legacyFolder_license rfl, legacyLicense_verified⟩
  obtain ⟨base, hbase, hstate, hvalid⟩ := hpeek
  refine ⟨⟨base, hbase, hstate, hvalid, ?_⟩, ?_⟩
  · have hnone : freshnessRead legacyPrimitives plainPlatform legacyFolder = .none := rfl
    rw [hnone]
    exact trivial
  · intro reason h
    have hnone : revocationInspect legacyPrimitives plainPlatform legacyFolder = .none := rfl
    rw [hnone] at h
    cases h

end GrowthMap.Desktop
