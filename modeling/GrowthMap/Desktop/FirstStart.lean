import GrowthMap.Desktop.HonestStarts

/- The first start of a new installation (desktop/main.js `startSidecar`, main.py
   `lifespan`, desktop/entitlements.py `initialize_trial`, desktop/trial-store.js
   `commit`).

   Two processes leave five things one after the other: the sidecar opens the
   database file and commits its tables, then writes the free state; Electron
   writes the installation identity and the trial marker. An attempt may end after
   any of them. The next start takes every partial set for the evidence of an
   earlier installation (`first_start_recovers`). -/
namespace GrowthMap.Desktop

/-! The sidecar -/

/-- What the maintenance commands say of a database file: its count of active
projects, if it validates, and whether its schema is current. -/
structure Maintenance where
  validate : Bytes → Option Int
  current : Bytes → Bool

/-- The evidence Electron launches the sidecar with. -/
structure DatabaseEvidence where
  bytes : Bytes
  maxActiveProjects : Option Int
  deriving DecidableEq

/-- The evidence of `startSidecar` (`startupEvidence`), or it throws. -/
def databaseEvidence (M : Maintenance) (u : UserData) (policy : Policy) (e : Entitlement) : Except String (Option DatabaseEvidence) :=
  if policy.writable = false then .ok none
  else match u.database with
    | .absent => if policy.mode ≠ .fresh then .error "Writable desktop startup database is missing" else .ok none
    | .unreadable => .error "database must be a single-link regular file"
    | .content b => match M.validate b with
      | none => .error "database does not validate"
      | some active =>
        if e.maxActiveProjects.any (fun limit => decide (limit < active)) then .error "database exceeds active project limit"
        else .ok (some ⟨b, e.maxActiveProjects⟩)

/-- The environment of the sidecar next to its verdict. -/
structure SidecarEnv where
  freshInstall : Bool
  queryOnly : Bool
  migrationRequired : Bool
  schemaCurrent : Bool
  evidence : Option DatabaseEvidence

/-- `verify_writable_startup` -/
def verifyWritableStartup (M : Maintenance) (u : UserData) (e : Entitlement) (evidence : Option DatabaseEvidence) : Except String Unit :=
  match evidence with
  | none => .error "Desktop writable startup requires database evidence"
  | some expected => match u.database with
    | .content b =>
      if b ≠ expected.bytes then .error "Desktop startup database digest mismatch"
      else if expected.maxActiveProjects ≠ e.maxActiveProjects then .error "Desktop startup database quota evidence mismatch"
      else match M.validate b with
        | none => .error "Desktop startup connection database mismatch"
        | some active =>
          if expected.maxActiveProjects.any (fun limit => decide (limit < active)) then
            .error "Desktop writable startup exceeds active project entitlement"
          else .ok ()
    | _ => .error "Desktop startup database identity mismatch"

/-- `lifespan`: whether it comes up with a proof of a writable database. A migration
marker that Electron has just written is accepted. -/
def lifespan (M : Maintenance) (u : UserData) (e : Entitlement) (env : SidecarEnv) : Except String Bool := do
  let absent := !u.database.exists_
  let freshAbsent := env.freshInstall && e.mutationsAllowed && absent
  let proof ←
    if e.mutationsAllowed && !(freshAbsent || ((env.migrationRequired || env.schemaCurrent) && absent)) then
      (verifyWritableStartup M u e env.evidence).map (fun _ => true)
    else .ok false
  if env.migrationRequired && !e.mutationsAllowed then .error "Desktop migration requires a verified pre-migration backup marker"
  else if e.mutationsAllowed && !env.freshInstall && !absent && !(env.migrationRequired || env.schemaCurrent) then
    .error "Desktop writable startup requires verified schema preflight"
  else if !env.freshInstall && !e.mutationsAllowed then .ok proof
  else if env.schemaCurrent then .ok proof
  else .ok e.mutationsAllowed

/-- The readiness check of `waitReady` (`/api/health/deep`). -/
def ready (env : SidecarEnv) (proof : Bool) : Bool := env.queryOnly || proof

/-- The environment `startSidecar` launches under. -/
def sidecarEnv (M : Maintenance) (u : UserData) (policy : Policy) (evidence : Option DatabaseEvidence) : SidecarEnv :=
  let preflight := policy.writable && decide (policy.mode ≠ .fresh) && u.database.exists_
  let current := match u.database with
    | .content b => M.current b
    | _ => false
  { freshInstall := decide (policy.mode = .fresh), queryOnly := !policy.writable, migrationRequired := preflight && !current,
    schemaCurrent := preflight && current, evidence }

/-- The sidecar of a start comes up, once an attempt is not cut off. -/
def sidecarStarts (P : Primitives) (S : Platform) (M : Maintenance) (d : Desktop) (u : UserData) (clock : Int) (started : Started) :
    Except String Unit := do
  let evidence ← databaseEvidence M u started.policy started.entitlement
  match sidecarEntitlement P S d u clock started with
  | .error () => .error "the entitlement cannot be computed"
  | .ok e =>
    let env := sidecarEnv M u started.policy evidence
    let proof ← lifespan M u e env
    if ready env proof then .ok () else .error "Writable database proof unavailable"

/-! The first start -/

/-- The text `isoformat` of an instant, in the backend. -/
abbrev IsoFormat := Int → String

def freeStateFile (S : Platform) (isoformat : IsoFormat) (marker : Marker) (t : Int) : Stored :=
  .content (S.toBytes (jsonStringify (.obj [("schema_version", .int 1), ("installation_id", .str marker.installationId),
    ("started_at", .str (isoformat t)), ("last_seen_at", .str (isoformat t))])))

/-- `initialize_trial`: the free state, unless there is one; it may raise. -/
def initializeTrial (P : Primitives) (S : Platform) (isoformat : IsoFormat) (marker : Marker) (u : UserData) : Except Unit UserData :=
  match u.trialState with
  | .absent => match P.fromisoformat marker.startedAt with
    | none => .error ()
    | some t =>
      if isInstallationId marker.installationId = false then .error ()
      else .ok { u with trialState := freeStateFile S isoformat marker t }
  | _ => .ok u

/-- What an attempt leaves, one after the other: the sidecar opens the database and
commits its tables; once it is ready, the free state, the identity and the marker. -/
def attemptEffects (P : Primitives) (S : Platform) (isoformat : IsoFormat) (created : Bytes) (marker : Marker) (now : Int) (u : UserData)
    (isReady : Bool) : List UserData :=
  let opened := { u with database := .content [] }
  let tables := { u with database := .content created }
  if isReady = false then [opened, tables]
  else match initializeTrial P S isoformat marker tables with
    | .error () => [opened, tables]
    | .ok started => match trialCommit S started now marker with
      | .error _ => [opened, tables, started]
      | .ok writes => [opened, tables, started] ++ (List.range writes.length).map (fun k => started.after (writes.take (k + 1)))

/-- One attempt of `startSidecar` that ends after so many effects. The evidence was
taken once, before the attempts. -/
def attempt (P : Primitives) (S : Platform) (M : Maintenance) (d : Desktop) (isoformat : IsoFormat) (created : Bytes) (clock : Int)
    (started : Started) (marker : Marker) (u : UserData) (reach : Nat) : UserData :=
  let env : SidecarEnv :=
    { freshInstall := true, queryOnly := false, migrationRequired := false, schemaCurrent := false, evidence := none }
  match effectiveEntitlement P (u.files S d) clock started.verdict with
  | .error () => u
  | .ok e => match lifespan M u e env with
    | .error _ => u
    | .ok proof =>
      ((attemptEffects P S isoformat created marker (millis clock) u (ready env proof)).take reach).getLastD u

/-- A first start whose attempts end after so many effects. -/
def firstStart (P : Primitives) (S : Platform) (M : Maintenance) (d : Desktop) (isoformat : IsoFormat) (created : Bytes) (clock : Int)
    (draws : Draws) (attempts : List Nat) : UserData :=
  match prepareAndStart P S d {} clock draws with
  | .ok started => match started.trial with
    | .fresh marker => attempts.foldl (attempt P S M d isoformat created clock started marker) {}
    | _ => {}
  | .error () => {}

/-- The next start decides a writable policy, fresh or free, and its sidecar starts. -/
def NextStartWorks (P : Primitives) (S : Platform) (M : Maintenance) (d : Desktop) (u : UserData) (clock : Int) (draws : Draws) : Prop :=
  ∃ started, prepareAndStart P S d u clock draws = .ok started ∧ started.policy.writable = true ∧
    (started.policy.mode = .fresh ∨ started.policy.mode = .free) ∧ sidecarStarts P S M d u clock started = .ok ()

/-- The first attempt that gets as far as the database runs to its end. -/
def Unhurt (attempts : List Nat) : Prop := ∀ n, attempts.find? (fun n => decide (0 < n)) = some n → 5 ≤ n

variable {P : Primitives} {S : Platform} {M : Maintenance} {d : Desktop} {u : UserData} {clock : Int} {draws : Draws}
  {isoformat : IsoFormat} {created : Bytes}

/-- The random installation is an id for both sides. -/
structure NewInstallation (installation : String) : Prop where
  uuid : isUuid installation = true
  id : isInstallationId installation = true

/-- Both sides read this instant from the texts of either. -/
structure Readable (P : Primitives) (S : Platform) (isoformat : IsoFormat) (t : Int) : Prop where
  fromISOString : P.fromisoformat (S.toISOString t) = some (t * 1000)
  fromIsoformat : P.fromisoformat (isoformat (t * 1000)) = some (t * 1000)
  dateParse : S.dateParse (isoformat (t * 1000)) = some t

/-- A database the sidecar has just created: valid, with no project, and current. -/
structure NewDatabase (M : Maintenance) (created : Bytes) : Prop where
  valid : validDatabase (.content created) = true
  empty : M.validate created = some 0
  current : M.current created = true

/-! A fresh installation -/

def freshEntitlement : Entitlement :=
  { state := .free, edition := "free", maxActiveProjects := some 1, valid := true, mutationsAllowed := true,
    reason := "authenticated_fresh_install" }

def freshStarted (P : Primitives) (S : Platform) (d : Desktop) (clock : Int) (draws : Draws) : Started :=
  ⟨.fresh ⟨draws.installation, S.toISOString (millis clock)⟩, freshEntitlement, ⟨.fresh, true⟩,
    createStartupVerdict P d draws.launch .fresh, []⟩

theorem fresh_start (S : Platform) (clock : Int) (hd : d.Genuine P) (hprobe : draws.probe.Drawn) :
    prepareAndStart P S d {} clock draws = .ok (freshStarted P S d clock draws) := by
  have hstatus : entitlementStatus P S d {} clock (.fresh ⟨draws.installation, S.toISOString (millis clock)⟩) draws.probe =
      .ok freshEntitlement := by
    simp only [entitlementStatus, effective_under hd hprobe]
    rfl
  have htrial : trialPrepare S {} (millis clock) draws.installation = .fresh ⟨draws.installation, S.toISOString (millis clock)⟩ := rfl
  simp only [prepareAndStart, htrial, hstatus]
  rfl

theorem fresh_works (hd : d.Genuine P) (hprobe : draws.probe.Drawn) (hlaunch : draws.launch.Drawn) :
    NextStartWorks P S M d {} clock draws := by
  refine ⟨freshStarted P S d clock draws, fresh_start S clock hd hprobe, rfl, .inl rfl, ?_⟩
  have hsidecar : sidecarEntitlement P S d {} clock (freshStarted P S d clock draws) = .ok freshEntitlement := by
    simp only [sidecarEntitlement, freshStarted, effective_under hd hlaunch]
    rfl
  simp only [sidecarStarts, hsidecar]
  rfl

/-! What the first start leaves -/

def freshMarker (S : Platform) (clock : Int) (draws : Draws) : Marker := ⟨draws.installation, S.toISOString (millis clock)⟩

def freshState (S : Platform) (isoformat : IsoFormat) (clock : Int) (draws : Draws) : Stored :=
  freeStateFile S isoformat (freshMarker S clock draws) (millis clock * 1000)

def freshFolders (S : Platform) (isoformat : IsoFormat) (created : Bytes) (clock : Int) (draws : Draws) : List UserData :=
  let started : UserData := { database := .content created, trialState := freshState S isoformat clock draws }
  let identified := { started with identity := identityFile S (freshMarker S clock draws) (millis clock) }
  [{ database := .content [] }, { database := .content created }, started, identified,
    { identified with trialMarker := markerFile S (freshMarker S clock draws) }]

theorem fresh_effects (hread : Readable P S isoformat (millis clock)) (hnew : NewInstallation draws.installation) :
    attemptEffects P S isoformat created (freshMarker S clock draws) (millis clock) {} true =
      freshFolders S isoformat created clock draws := by
  have hinit : initializeTrial P S isoformat (freshMarker S clock draws) { database := .content created } =
      .ok { database := .content created, trialState := freshState S isoformat clock draws } := by
    have hid : isInstallationId (freshMarker S clock draws).installationId = true := hnew.id
    have htime : P.fromisoformat (freshMarker S clock draws).startedAt = some (millis clock * 1000) := hread.fromISOString
    simp only [initializeTrial, htime, hid, Bool.true_eq_false, if_false]
    rfl
  simp only [attemptEffects, Bool.true_eq_false, if_false, hinit]
  rfl

theorem exactKeys_free {a b c e : Json} :
    exactKeys [("schema_version", a), ("installation_id", b), ("started_at", c), ("last_seen_at", e)] freeFields = true := by
  simp [exactKeys, freeFields]

theorem tidy_freeState (hS : S.Lawful) (id first last : String) :
    Tidy S (.obj [("schema_version", .int 1), ("installation_id", .str id), ("started_at", .str first), ("last_seen_at", .str last)]) := by
  refine tidy_obj hS ?_ freeFields rfl (by decide +kernel)
  simp [isSimple]

variable {later : Int}

/-- The written free state is active from its start on. -/
theorem free_written (hS : S.Lawful) {marker : Marker} {t : Int} (hid : isInstallationId marker.installationId = true)
    (hread : P.fromisoformat (isoformat t) = some t) (hle : t ≤ later + tolerance) :
    freeEntitlement P later ((freeStateFile S isoformat marker t).asFile S) =
      { state := .free, edition := "free", maxActiveProjects := some 1, valid := true, mutationsAllowed := true,
        reason := "free_active", freeStartedAt := some t } := by
  have htidy := tidy_freeState hS marker.installationId (isoformat t) (isoformat t)
  have hloads : (freeStateFile S isoformat marker t).asFile S = .doc (.obj [("schema_version", .int 1),
      ("installation_id", .str marker.installationId), ("started_at", .str (isoformat t)), ("last_seen_at", .str (isoformat t))]) := by
    rw [freeStateFile, Stored.asFile, hS.loads_written _ htidy.plain htidy.distinct]
  have hshape : ¬ (exactKeys [("schema_version", .int 1), ("installation_id", .str marker.installationId),
      ("started_at", .str (isoformat t)), ("last_seen_at", .str (isoformat t))] freeFields = false ∨
      isOne (at_ [("schema_version", .int 1), ("installation_id", .str marker.installationId), ("started_at", .str (isoformat t)),
        ("last_seen_at", .str (isoformat t))] "schema_version") = false ∨
      (textOf (at_ [("schema_version", .int 1), ("installation_id", .str marker.installationId), ("started_at", .str (isoformat t)),
        ("last_seen_at", .str (isoformat t))] "installation_id")).any isInstallationId = false) := by
    simp [exactKeys_free, at_, List.lookup_cons, isOne, textOf, hid]
  have hstarted : iso P (at_ [("schema_version", .int 1), ("installation_id", .str marker.installationId),
      ("started_at", .str (isoformat t)), ("last_seen_at", .str (isoformat t))] "started_at") = .ok t := by
    simp [at_, List.lookup_cons, iso, hread]
  have hlast : iso P (at_ [("schema_version", .int 1), ("installation_id", .str marker.installationId),
      ("started_at", .str (isoformat t)), ("last_seen_at", .str (isoformat t))] "last_seen_at") = .ok t := by
    simp [at_, List.lookup_cons, iso, hread]
  rw [hloads]
  unfold freeEntitlement
  dsimp only
  rw [if_neg hshape, hstarted, hlast]
  dsimp only
  rw [if_neg (by omega)]

theorem millis_le (clock : Int) : millis clock * 1000 ≤ clock := by
  unfold millis
  omega

/-- The parts of a folder that the backend answers a first start from. -/
structure FreshSoFar (S : Platform) (isoformat : IsoFormat) (clock : Int) (draws : Draws) (u : UserData) : Prop where
  license : u.license = .absent
  state : u.trialState = .absent ∨ u.trialState = freshState S isoformat clock draws

theorem first_allowed (hS : S.Lawful) (hd : d.Genuine P) (hlaunch : draws.launch.Drawn) (hread : Readable P S isoformat (millis clock))
    (hnew : NewInstallation draws.installation) (h : FreshSoFar S isoformat clock draws u) :
    ∃ e, effectiveEntitlement P (u.files S d) clock (createStartupVerdict P d draws.launch .fresh) = .ok e ∧
      e.mutationsAllowed = true := by
  have hlicense : (u.files S d).license = .absent := by simp only [UserData.files, h.license, Stored.asFile]
  rw [effective_under hd hlaunch]
  simp only [peekCurrentEntitlement, hlicense]
  refine ⟨_, rfl, ?_⟩
  obtain hnone | hwritten := h.state
  · have hfree : (u.files S d).freeState = .absent := by simp only [UserData.files, hnone, Stored.asFile]
    rw [hfree]
    rfl
  · have hle : millis clock * 1000 ≤ clock + tolerance := by
      have hmillis := millis_le clock
      unfold tolerance minutes
      omega
    have hfile : (u.files S d).freeState = (freshState S isoformat clock draws).asFile S := by simp only [UserData.files, hwritten]
    have hid : isInstallationId (freshMarker S clock draws).installationId = true := hnew.id
    rw [hfile, freshState, free_written hS hid hread.fromIsoformat hle]
    rfl

theorem attempt_stuck (hS : S.Lawful) (hd : d.Genuine P) (hlaunch : draws.launch.Drawn) (hread : Readable P S isoformat (millis clock))
    (hnew : NewInstallation draws.installation) (h : FreshSoFar S isoformat clock draws u) (hdb : u.database.exists_ = true) (reach : Nat) :
    attempt P S M d isoformat created clock (freshStarted P S d clock draws) (freshMarker S clock draws) u reach = u := by
  obtain ⟨e, he, hallowed⟩ := first_allowed hS hd hlaunch hread hnew h
  have hverdict : effectiveEntitlement P (u.files S d) clock (freshStarted P S d clock draws).verdict = .ok e := he
  have hlife : lifespan M u e
      { freshInstall := true, queryOnly := false, migrationRequired := false, schemaCurrent := false, evidence := none } =
      .error "Desktop writable startup requires database evidence" := by
    simp [lifespan, hallowed, hdb, verifyWritableStartup, Except.map]
  simp only [attempt, hverdict, hlife]

theorem attempt_first (hd : d.Genuine P) (hlaunch : draws.launch.Drawn) (hread : Readable P S isoformat (millis clock))
    (hnew : NewInstallation draws.installation) (reach : Nat) :
    attempt P S M d isoformat created clock (freshStarted P S d clock draws) (freshMarker S clock draws) {} reach =
      ((freshFolders S isoformat created clock draws).take reach).getLastD {} := by
  have hverdict : effectiveEntitlement P (UserData.files S d {}) clock (freshStarted P S d clock draws).verdict = .ok freshEntitlement := by
    simp only [freshStarted, effective_under hd hlaunch]
    rfl
  have hlife : lifespan M {} freshEntitlement
      { freshInstall := true, queryOnly := false, migrationRequired := false, schemaCurrent := false, evidence := none } = .ok true := rfl
  simp only [attempt, hverdict, hlife, ready, Bool.or_true]
  rw [fresh_effects hread hnew]

theorem freshFolders_stuck (h : u ∈ freshFolders S isoformat created clock draws) :
    FreshSoFar S isoformat clock draws u ∧ u.database.exists_ = true := by
  simp only [freshFolders, List.mem_cons, List.not_mem_nil, or_false] at h
  obtain rfl | rfl | rfl | rfl | rfl := h
  · exact ⟨⟨rfl, .inl rfl⟩, rfl⟩
  · exact ⟨⟨rfl, .inl rfl⟩, rfl⟩
  · exact ⟨⟨rfl, .inr rfl⟩, rfl⟩
  · exact ⟨⟨rfl, .inr rfl⟩, rfl⟩
  · exact ⟨⟨rfl, .inr rfl⟩, rfl⟩

def folderAfter (S : Platform) (isoformat : IsoFormat) (created : Bytes) (clock : Int) (draws : Draws) (reach : Nat) : UserData :=
  ((freshFolders S isoformat created clock draws).take reach).getLastD {}

theorem folderAfter_mem (S : Platform) (isoformat : IsoFormat) (created : Bytes) (clock : Int) (draws : Draws) {reach : Nat} (h : 0 < reach) :
    folderAfter S isoformat created clock draws reach ∈ freshFolders S isoformat created clock draws := by
  obtain ⟨n, rfl⟩ : ∃ n, reach = n + 1 := ⟨reach - 1, by omega⟩
  unfold folderAfter
  have hne : (freshFolders S isoformat created clock draws).take (n + 1) ≠ [] := by simp [freshFolders]
  rw [List.getLastD_eq_getLast?, List.getLast?_eq_some_getLast hne, Option.getD_some]
  exact List.mem_of_mem_take (List.getLast_mem hne)

/-- A first start leaves what its first attempt at the database left. -/
theorem firstStart_eq (hS : S.Lawful) (hd : d.Genuine P) (hprobe : draws.probe.Drawn) (hlaunch : draws.launch.Drawn)
    (hread : Readable P S isoformat (millis clock)) (hnew : NewInstallation draws.installation) (attempts : List Nat) :
    firstStart P S M d isoformat created clock draws attempts =
      folderAfter S isoformat created clock draws ((attempts.find? (fun n => decide (0 < n))).getD 0) := by
  have hstarted := fresh_start S clock hd hprobe
  have hrun : firstStart P S M d isoformat created clock draws attempts =
      attempts.foldl (attempt P S M d isoformat created clock (freshStarted P S d clock draws) (freshMarker S clock draws)) {} := by
    unfold firstStart
    rw [hstarted]
    rfl
  rw [hrun]
  induction attempts with
  | nil => rfl
  | cons n attempts ih =>
    rw [List.foldl_cons, attempt_first hd hlaunch hread hnew n]
    by_cases hn : 0 < n
    · -- the attempts after it are stuck
      have hstuck : ∀ rest : List Nat, rest.foldl
          (attempt P S M d isoformat created clock (freshStarted P S d clock draws) (freshMarker S clock draws))
          (folderAfter S isoformat created clock draws n) = folderAfter S isoformat created clock draws n := by
        obtain ⟨hfresh, hdb⟩ := freshFolders_stuck (folderAfter_mem S isoformat created clock draws hn)
        intro rest
        induction rest with
        | nil => rfl
        | cons m rest ihrest => rw [List.foldl_cons, attempt_stuck hS hd hlaunch hread hnew hfresh hdb m, ihrest]
      rw [List.find?_cons_of_pos (by simpa using hn), Option.getD_some]
      exact hstuck attempts
    · obtain rfl : n = 0 := by omega
      rw [List.find?_cons_of_neg (by simp)]
      exact ih (by
        unfold firstStart
        rw [hstarted]
        rfl)

/-! The next start -/

theorem free_unpaid (file : FileState) :
    ¬ ((freeEntitlement P clock file).state = .paid ∨ (freeEntitlement P clock file).state = .paidLegacy) := by
  intro h
  -- it would name every license
  have hempty : Names "" (freeEntitlement P clock file) := free_names file
  have hother : Names "-" (freeEntitlement P clock file) := free_names file
  have hsame := (hempty.paid h).symm.trans (hother.paid h)
  exact absurd hsame (by decide)

/-- Without a license, and with a trial that is neither fresh nor existing, nothing is
writable. -/
theorem extraction_locked (hd : d.Genuine P) (hprobe : draws.probe.Drawn) (hlaunch : draws.launch.Drawn) (reason : String)
    (hlicense : u.license = .absent) (htrial : trialPrepare S u (millis clock) draws.installation = .extraction reason) :
    ¬ NextStartWorks P S M d u clock draws := by
  rintro ⟨started, hstarted, hwritable, -⟩
  obtain ⟨base, hdecided⟩ := prepareAndStart_decided hd hprobe hlaunch hstarted
  have habsent : (u.files S d).license = .absent := by simp only [UserData.files, hlicense, Stored.asFile]
  have hbase : base = freeEntitlement P clock (u.files S d).freeState := by
    have hpeek := hdecided.peek
    simp only [peekCurrentEntitlement, habsent, Except.ok.injEq] at hpeek
    exact hpeek.symm
  have hunpaid : ¬ (base.state = .paid ∨ base.state = .paidLegacy) := by
    rw [hbase]
    exact free_unpaid _
  have hpaid : started.entitlement.state ≠ .paid := by
    intro hpaid
    obtain hsame | hgone | ⟨hlegacy, -⟩ := hdecided.entitlement_cases
    · rw [hsame] at hpaid
      have hanswer := answer_paid (.inl hpaid)
      rw [hanswer] at hpaid
      exact hunpaid (.inl hpaid)
    · rw [hpaid] at hgone
      cases hgone
    · exact hunpaid (.inr hlegacy)
  have htrial' : started.trial = .extraction reason := hdecided.trial.trans htrial
  have hdenied : started.policy.writable = false := by
    rw [hdecided.policy, htrial']
    unfold decideStartup
    rw [if_neg (fun h => hpaid h.1), if_neg (fun h => by cases h.1), if_neg (fun h => by cases h.1)]
  rw [hwritable] at hdenied
  cases hdenied

theorem opened_locked (hM : ∀ b active, M.validate b = some active → validDatabase (.content b) = true) :
    ¬ NextStartWorks P S M d { database := .content [] } clock draws := by
  rintro ⟨started, -, hwritable, -, hstarts⟩
  have hnone : M.validate [] = none := by
    cases hv : M.validate [] with
    | none => rfl
    | some active => exact absurd (hM [] active hv) (by decide)
  have hevidence : databaseEvidence M { database := .content [] } started.policy started.entitlement =
      .error "database does not validate" := by
    simp only [databaseEvidence, hwritable, Bool.true_eq_false, if_false, hnone]
  simp only [sidecarStarts, hevidence] at hstarts
  cases hstarts

theorem tables_locked (hd : d.Genuine P) (hprobe : draws.probe.Drawn) (hlaunch : draws.launch.Drawn) (hdb : NewDatabase M created) :
    ¬ NextStartWorks P S M d { database := .content created } clock draws := by
  refine extraction_locked hd hprobe hlaunch "prior_installation_evidence" rfl ?_
  have hprior : hasPriorUse S { database := .content created } = .ok true := by
    simp only [hasPriorUse, hdb.valid, Bool.true_or]
  have hmarker : secureMarker S { database := .content created } = .missing := rfl
  have hstate : jsonState S { database := .content created } = .missing := rfl
  simp only [trialPrepare, hmarker, hstate, hprior]

/-- A free state without a marker is a mismatch, whatever is in it. -/
theorem unmarked_locked (hd : d.Genuine P) (hprobe : draws.probe.Drawn) (hlaunch : draws.launch.Drawn) (hlicense : u.license = .absent)
    (hmarker : u.trialMarker = .absent) (hstate : u.trialState ≠ .absent) : ¬ NextStartWorks P S M d u clock draws := by
  refine extraction_locked hd hprobe hlaunch "trial_state_mismatch" hlicense ?_
  have hmissing : secureMarker S u = .missing := by simp only [secureMarker, hmarker]
  have hfound : jsonState S u ≠ .missing := by
    unfold jsonState
    split
    · rename_i habsent
      exact absurd habsent hstate
    · intro h
      cases h
    · split
      · intro h
        cases h
      · split
        · intro h
          cases h
        · intro h
          cases h
  unfold trialPrepare
  rw [hmissing]
  cases hcase : jsonState S u with
  | missing => exact absurd hcase hfound
  | corrupt => rfl
  | value => rfl

/-- The folder of a first start that ran to its end. -/
def finishedFolder (S : Platform) (isoformat : IsoFormat) (created : Bytes) (clock : Int) (draws : Draws) : UserData :=
  folderAfter S isoformat created clock draws 5

theorem marker_read (hS : S.Lawful) (hdate : IsDate (millis clock)) (hnew : NewInstallation draws.installation) :
    secureMarker S (finishedFolder S isoformat created clock draws) = .value (freshMarker S clock draws) := by
  have htidy : Tidy S (.obj [("schemaVersion", .int 1), ("installationId", .str draws.installation),
      ("startedAt", .str (S.toISOString (millis clock)))]) := by
    refine tidy_obj hS ?_ ["schemaVersion", "installationId", "startedAt"] rfl (by decide +kernel)
    simp [isSimple]
  have hread : decryptJson S (markerFile S (freshMarker S clock draws)) = some (.obj [("schemaVersion", .int 1),
      ("installationId", .str draws.installation), ("startedAt", .str (S.toISOString (millis clock)))]) :=
    decryptJson_encryptJson hS htidy
  have hexact : exact ["schemaVersion", "installationId", "startedAt"] (.obj [("schemaVersion", .int 1),
      ("installationId", .str draws.installation), ("startedAt", .str (S.toISOString (millis clock)))]) =
      some [("schemaVersion", .int 1), ("installationId", .str draws.installation),
        ("startedAt", .str (S.toISOString (millis clock)))] :=
    exact_of (by simp [exactKeys])
  have hfile : (finishedFolder S isoformat created clock draws).trialMarker = markerFile S (freshMarker S clock draws) := rfl
  have hcontent : ∃ b, markerFile S (freshMarker S clock draws) = .content b := ⟨_, rfl⟩
  obtain ⟨b, hb⟩ := hcontent
  rw [hb] at hread hfile
  simp only [secureMarker, hfile, hread, hexact, Option.bind_some]
  simp [at_, List.lookup_cons, strictEq, textOf, validIso, hnew.uuid, hS.dateParse_toISOString _ hdate, freshMarker]

theorem state_read (hS : S.Lawful) (hread : Readable P S isoformat (millis clock)) (hnew : NewInstallation draws.installation) :
    jsonState S (finishedFolder S isoformat created clock draws) =
      .value ⟨draws.installation, isoformat (millis clock * 1000)⟩ := by
  have htidy := tidy_freeState hS draws.installation (isoformat (millis clock * 1000)) (isoformat (millis clock * 1000))
  have hfile : (finishedFolder S isoformat created clock draws).trialState = freshState S isoformat clock draws := rfl
  have hexact := exact_of (exactKeys_free (a := .int 1) (b := .str draws.installation) (c := .str (isoformat (millis clock * 1000)))
    (e := .str (isoformat (millis clock * 1000))))
  simp only [jsonState, hfile, freshState, freeStateFile, freshMarker, hS.toText_toBytes, jsonParse_tidy htidy, Option.bind_some, hexact]
  simp [at_, List.lookup_cons, strictEq, textOf, validIso, hnew.uuid, hread.dateParse]

/-- A first start that ran to its end is an existing installation of the free edition. -/
theorem finished_works {next : Draws} (hS : S.Lawful) (hd : d.Genuine P) (hprobe : next.probe.Drawn)
    (hlaunch : next.launch.Drawn) (hdate : IsDate (millis clock)) (hread : Readable P S isoformat (millis clock))
    (hnew : NewInstallation draws.installation) (hdb : NewDatabase M created) (hle : clock ≤ later) :
    NextStartWorks P S M d (finishedFolder S isoformat created clock draws) later next := by
  have htrial : trialPrepare S (finishedFolder S isoformat created clock draws) (millis later) next.installation =
      .existing (freshMarker S clock draws) := by
    simp only [trialPrepare, marker_read hS hdate hnew, state_read hS hread hnew]
    rw [if_neg]
    have hsame : S.dateParse (freshMarker S clock draws).startedAt = S.dateParse (isoformat (millis clock * 1000)) := by
      rw [hread.dateParse, freshMarker, hS.dateParse_toISOString _ hdate]
    rw [hsame]
    simp [freshMarker]
  have htime : millis clock * 1000 ≤ later + tolerance := by
    have hmillis := millis_le clock
    unfold tolerance minutes
    omega
  have hid : isInstallationId (freshMarker S clock draws).installationId = true := hnew.id
  obtain ⟨base, hfree, hbase⟩ : ∃ base, freeEntitlement P later ((freshState S isoformat clock draws).asFile S) = base ∧
      base = { state := .free, edition := "free", maxActiveProjects := some 1, valid := true, mutationsAllowed := true,
               reason := "free_active", freeStartedAt := some (millis clock * 1000) } :=
    ⟨_, free_written hS hid hread.fromIsoformat htime, rfl⟩
  have hpeek : peekCurrentEntitlement P ((finishedFolder S isoformat created clock draws).files S d) later d.devicePublicKey =
      .ok base := by
    have hfiles : ((finishedFolder S isoformat created clock draws).files S d).license = .absent ∧
        ((finishedFolder S isoformat created clock draws).files S d).freeState = (freshState S isoformat clock draws).asFile S :=
      ⟨rfl, rfl⟩
    simp only [peekCurrentEntitlement, hfiles, hfree]
  have hanswer : answerUnder .free base = base := by
    rw [hbase]
    rfl
  obtain ⟨started, hstarted⟩ := prepareAndStart_ok hd next hprobe hpeek
  obtain ⟨base', hdecided⟩ := prepareAndStart_decided hd hprobe hlaunch hstarted
  obtain rfl : base = base' := by
    have hsame := hdecided.peek
    rw [hpeek] at hsame
    exact Except.ok.inj hsame
  have hmode : probeMode (finishedFolder S isoformat created clock draws) started.trial = .free := by
    rw [hdecided.trial, htrial]
    rfl
  have hentitled : started.entitlement = base := by
    have hweighed : base.weighed P S (finishedFolder S isoformat created clock draws) = base := rfl
    rw [hdecided.entitlement, hmode, hanswer, hweighed, hbase]
    rfl
  have hpolicy : started.policy = ⟨.free, true⟩ := by
    rw [hdecided.policy, hentitled, hdecided.trial, htrial, hbase]
    rfl
  refine ⟨started, hstarted, by rw [hpolicy], .inr (by rw [hpolicy]), ?_⟩
  have hdatabase : (finishedFolder S isoformat created clock draws).database = .content created := rfl
  have hevidence : databaseEvidence M (finishedFolder S isoformat created clock draws) started.policy started.entitlement =
      .ok (some ⟨created, some 1⟩) := by
    simp only [databaseEvidence, hpolicy, hdatabase, hdb.empty, hentitled, hbase]
    rfl
  have hsidecar : sidecarEntitlement P S d (finishedFolder S isoformat created clock draws) later started = .ok base := by
    rw [hdecided.sidecar, hpolicy, hanswer]
  have hlife : lifespan M (finishedFolder S isoformat created clock draws) base
      (sidecarEnv M (finishedFolder S isoformat created clock draws) started.policy (some ⟨created, some 1⟩)) = .ok true := by
    simp [lifespan, sidecarEnv, hpolicy, hdatabase, Stored.exists_, hdb.current, hdb.empty, hbase, verifyWritableStartup, Except.map]
  simp only [sidecarStarts, hevidence, hsidecar, hlife, Fallible.ok_bind, ready, Bool.or_true, if_true]

theorem readable_plain (t : Int) : Readable legacyPrimitives plainPlatform writeMicros t := by
  have hfrom : legacyPrimitives.fromisoformat = readMicros := rfl
  have hdate : plainPlatform.dateParse = readMillis := rfl
  have hwrite : plainPlatform.toISOString = writeMillis := rfl
  refine ⟨?_, ?_, ?_⟩
  · rw [hfrom, hwrite, writeMillis, readMicros_orNumber]
  · rw [hfrom, writeMicros, readMicros_orNumber]
  · rw [hdate, readMillis, writeMicros, readMicros_orNumber, Option.map_some, Int.mul_ediv_cancel _ (by decide)]

def smallDatabase : Bytes := databaseHeader ++ List.replicate 84 0

/-- Maintenance that takes every file of a database for an empty current one. -/
def plainMaintenance : Maintenance := ⟨fun b => if validDatabase (.content b) then some 0 else none, fun _ => true⟩

theorem smallDatabase_new : NewDatabase plainMaintenance smallDatabase := by
  refine ⟨?_, ?_, ?_⟩ <;> decide

theorem plainMaintenance_valid (b : Bytes) (active : Int) (h : plainMaintenance.validate b = some active) :
    validDatabase (.content b) = true := by
  simp only [plainMaintenance] at h
  split at h
  · assumption
  · cases h

theorem legacyDraws_new : NewInstallation legacyDraws.installation := by
  refine ⟨?_, ?_⟩ <;> decide +kernel

end GrowthMap.Desktop
