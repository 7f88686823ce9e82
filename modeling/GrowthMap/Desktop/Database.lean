import GrowthMap.Lib.Runs
import GrowthMap.Lib.Folder

/- The desktop database manager (desktop/database-manager.js), with the part of
   main.js that calls it and the install step of database_maintenance.py.

   The main process is single threaded: what stands between two awaits happens
   at once, and any call may go on at any await. So a call is a phase (the await
   it stands at), and an event lets one call go on with the outcome of what it
   awaited. `stage` and `fault` hooks are not phases of their own: a hook that
   throws is a failure of the step before or after it.

   A replacement is spread over three pieces of code that the phases keep apart:
   the action of `offline`, the `--install-db` process, and the continuation of
   `replaceFrom`. -/
namespace GrowthMap.Desktop

/-- A database file: the call that captured it (`none`: the database the
application runs on), and whether `--validate-db` accepts it. -/
structure File where
  madeBy : Option Nat
  valid : Bool
  deriving DecidableEq, Repr

/-- The names in the data folder. The number stands for the random id the call
puts into its names, or for the time stamp of a `.failed-` name. -/
inductive Name where
  /-- growthmap.db -/
  | live
  /-- growthmap.db.gm-old-(id) -/
  | old (id : Nat)
  /-- growthmap.db.gm-new-(id) -/
  | staging (id : Nat)
  /-- growthmap.db.gm-new-(id).capture -/
  | capture (id : Nat)
  /-- growthmap.db.gm-new-(id).capture.failed -/
  | captureFailed (id : Nat)
  /-- growthmap.db.failed-(time) -/
  | failed (id : Nat)
  /-- growthmap.db.gm-corrupt-(id) -/
  | corrupt
  /-- (name).quarantine-(time)-(id) -/
  | quarantine (of : Name)
  deriving DecidableEq, Repr

abbrev DataFolder := AList (fun _ : Name => File)

/-- `OWNED_OLD` -/
def Name.ownedOld : Name → Option Nat
  | .old id => some id
  | _ => none

/-- `OWNED_NEW` -/
def Name.ownedNew : Name → Option Nat
  | .staging id => some id
  | _ => none

/-! Start -/

/-- What `recoverStartup` returns or throws. -/
inductive Recovery where
  /-- `{recovered, …}` -/
  | recovered (renamed : Bool)
  /-- `{recovered: false}` alone: nothing is there, as on a fresh install -/
  | nothing
  | recoveryRequired
  deriving DecidableEq, Repr

/-- `maintenance('--validate-db', file)` goes through. -/
def DataFolder.accepts (d : DataFolder) (name : Name) : Bool :=
  match Folder.get d name with
  | some f => f.valid
  | none => false

def setAside (d : DataFolder) (name : Name) : DataFolder := Folder.rename name (.quarantine name) d

def recoverStartup (d : DataFolder) : DataFolder × Recovery :=
  let olds := (Folder.listing Name.ownedOld d).map Name.old
  let news := (Folder.listing Name.ownedNew d).map Name.staging
  let validOld := olds.filter d.accepts
  if (Folder.get d .live).isSome then
    if d.accepts .live then ((olds ++ news).foldl setAside d, .recovered false)
    else match validOld with
      | [old] => (Folder.rename old .live (Folder.rename .live .corrupt d), .recovered true)
      | _ => (d, .recoveryRequired)
  else match validOld with
    | [old] =>
      let d' := Folder.rename old .live d
      (((olds ++ news).filter (fun n => (Folder.get d' n).isSome)).foldl setAside d', .recovered true)
    | _ => if olds ≠ [] ∨ news ≠ [] then (d, .recoveryRequired) else (d, .nothing)

/-! Calls -/

inductive Method where
  | backup | importDatabase | restore | chooseWorkspace
  deriving DecidableEq, Repr

/-- Whether the method goes through `replaceFrom`. -/
def Method.replaces : Method → Bool
  | .importDatabase | .restore => true
  | .backup | .chooseWorkspace => false

/-- How a call ends: its promise is fulfilled, or rejected with an ordinary error
or with a `RecoveryRequiredError`. -/
inductive Result where
  | ok | failed | recoveryRequired
  deriving DecidableEq, Repr

/-- Where the `--install-db` process stands (`install_database`). -/
inductive Install where
  /-- the checks and the snapshot of the staging file into the capture file -/
  | capturing
  /-- `os.replace(target, old)` -/
  | retiring
  /-- `os.replace(captured, target)` -/
  | placing
  /-- validation and flush of the installed file -/
  | verifying
  /-- the process prints its result and exits -/
  | reporting
  /-- the rollback: `os.replace(target, captured + ".failed")` -/
  | unplacing
  /-- the rollback: `os.replace(old, target)` -/
  | unretiring
  /-- the rollback: flush -/
  | flushing
  deriving DecidableEq, Repr

/-- The await a call stands at. -/
inductive Phase where
  /-- the dialog, or `validManaged` of `restore` -/
  | choosing
  /-- `gate`, or the last `--validate-db` of `restore` and `switchWorkspace` -/
  | checking
  /-- `offline`: `await stopSidecar()` -/
  | stopping
  /-- `offline`: the action of `backup` -/
  | backingUp
  /-- `offline`: the action of `replaceFrom`, up to the manifest of the rollback copy -/
  | savingRollback
  /-- the action of `replaceFrom`: the snapshot of the source into the staging file -/
  | stagingSource
  /-- the action of `replaceFrom`: the `--install-db` process -/
  | installing (at_ : Install)
  /-- the action of `replaceFrom`: the staging file is removed -/
  | unlinkingStaging
  /-- `offline`: `await startSidecar()`; what the operation ends with afterwards -/
  | restarting (result : Result)
  /-- the promise of the operation is settled, its `finally` has not run yet -/
  | settled (result : Result)
  /-- the continuation of `replaceFrom`: the final validation -/
  | validating
  | starting
  | unlinkingOld
  | syncing
  | reloading
  /-- the continuation's `catch`: `await stopSidecar().catch(()=>{})` -/
  | undoStopping
  /-- `rename(databasePath, failed)` -/
  | undoMoving
  /-- `rename(result.old, databasePath)` -/
  | undoRestoring
  | undoSyncing
  /-- `chooseWorkspace` has returned; its `setImmediate` has not run yet -/
  | relaunching
  /-- `orderlyShutdown`: `awaitIdle` -/
  | awaitingIdle
  /-- `lifecycle.shutdown` -/
  | shuttingDown
  | done (result : Result)
  deriving DecidableEq, Repr

structure Call where
  method : Method
  phase : Phase
  deriving DecidableEq, Repr

structure World where
  folder : DataFolder
  /-- the file the running sidecar has open -/
  sidecar : Option File
  /-- the call whose promise `operation` holds -/
  operation : Option Nat
  recoveryRequired : Bool
  shuttingDown : Bool
  quit : Bool
  calls : List Call

/-- How what a call awaited turned out. -/
inductive Outcome where
  | ok
  | error
  /-- the maintenance process is killed (it timed out), or the cleanup of a
  failed manifest failed too -/
  | lost
  /-- the user closed the dialog -/
  | cancelled
  deriving DecidableEq, Repr

inductive Event where
  | call (method : Method)
  | go (call : Nat) (outcome : Outcome)
  deriving DecidableEq, Repr

/-- `busy` -/
def World.busy (w : World) : Bool := w.operation.isSome

def World.goto (w : World) (i : Nat) (p : Phase) : World :=
  { w with calls := w.calls.modify i (fun c => { c with phase := p }) }

/-- The entry of `offline`. -/
def World.offline (w : World) (i : Nat) : World :=
  if w.operation.isSome then w.goto i (.done .failed)
  else if w.recoveryRequired then w.goto i (.done .recoveryRequired)
  else { w with operation := some i }.goto i .stopping

/-- The `finally` of `replaceFrom`, once `installed` is set. -/
def World.conclude (w : World) (i : Nat) (r : Result) : World :=
  { w with recoveryRequired := w.recoveryRequired || (Folder.get w.folder (.old i)).isSome }.goto i (.done r)

/-- `recoveryRequired=true` -/
def World.requireRecovery (w : World) : World := { w with recoveryRequired := true }

/-- What a step needs to go through: a snapshot reads a database that validates,
a rename and an unlink a file that is there, a start an application that is not
shutting down. -/
def World.allows (w : World) (i : Nat) : Phase → Bool
  | .backingUp | .savingRollback => w.folder.accepts .live
  | .installing .retiring | .undoMoving => (Folder.get w.folder .live).isSome
  | .installing .placing => (Folder.get w.folder (.capture i)).isSome
  | .installing .unretiring | .unlinkingOld | .undoRestoring => (Folder.get w.folder (.old i)).isSome
  | .validating => decide (Folder.get w.folder .live = some ⟨some i, true⟩)
  | .restarting _ | .starting => !w.shuttingDown
  | _ => true

/-- `orderlyShutdown` -/
def World.orderlyShutdown (w : World) (i : Nat) : World :=
  if w.busy then w.goto i .awaitingIdle else { w with shuttingDown := true }.goto i .shuttingDown

def World.proceed (w : World) (i : Nat) (m : Method) : Phase → World
  | .choosing => w.goto i .checking
  | .checking => if m.replaces then w.offline i else w.goto i .relaunching
  | .stopping => { w with sidecar := none }.goto i (if m.replaces then .savingRollback else .backingUp)
  | .backingUp => w.goto i (.restarting .ok)
  | .savingRollback => w.goto i .stagingSource
  | .stagingSource => { w with folder := Folder.put (.staging i) ⟨some i, true⟩ w.folder }.goto i (.installing .capturing)
  | .installing .capturing =>
    { w with folder := Folder.put (.capture i) ⟨some i, true⟩ w.folder }.goto i (.installing .retiring)
  | .installing .retiring => { w with folder := Folder.rename .live (.old i) w.folder }.goto i (.installing .placing)
  | .installing .placing => { w with folder := Folder.rename (.capture i) .live w.folder }.goto i (.installing .verifying)
  | .installing .verifying => w.goto i (.installing .reporting)
  | .installing .reporting => w.goto i .unlinkingStaging
  | .installing .unplacing =>
    { w with folder := Folder.rename .live (.captureFailed i) w.folder }.goto i (.installing .unretiring)
  | .installing .unretiring => { w with folder := Folder.rename (.old i) .live w.folder }.goto i (.installing .flushing)
  | .installing .flushing => w.goto i (.settled .failed)
  | .unlinkingStaging => { w with folder := Folder.remove (.staging i) w.folder }.goto i (.settled .ok)
  | .restarting r => { w with sidecar := Folder.get w.folder .live }.goto i (.settled r)
  | .settled r => { w with operation := none }.goto i (if m.replaces = true ∧ r = Result.ok then .validating else .done r)
  | .validating => w.goto i .starting
  | .starting => { w with sidecar := Folder.get w.folder .live }.goto i .unlinkingOld
  | .unlinkingOld => { w with folder := Folder.remove (.old i) w.folder }.goto i .syncing
  | .syncing => w.goto i .reloading
  | .reloading => w.conclude i .ok
  | .undoStopping => { w with sidecar := none }.goto i .undoMoving
  | .undoMoving => { w with folder := Folder.rename .live (.failed i) w.folder }.goto i .undoRestoring
  | .undoRestoring => { w with folder := Folder.rename (.old i) .live w.folder }.goto i .undoSyncing
  | .undoSyncing => w.conclude i .failed
  | .relaunching | .awaitingIdle => w.orderlyShutdown i
  | .shuttingDown => { w with sidecar := none, quit := true }.goto i (.done .ok)
  | .done r => w.goto i (.done r)

def World.recoil (w : World) (i : Nat) (lost : Bool) : Phase → World
  | .choosing | .checking => w.goto i (.done .failed)
  | .stopping => w.goto i (.settled .failed)
  | .backingUp =>
    if lost then w.requireRecovery.goto i (.restarting .recoveryRequired) else w.goto i (.restarting .failed)
  | .savingRollback =>
    if lost then w.requireRecovery.goto i (.settled .recoveryRequired) else w.goto i (.settled .failed)
  | .stagingSource => w.goto i (.settled .failed)
  | .installing .placing | .installing .verifying =>
    -- the process undoes the exchange itself, if it still can
    if lost then w.goto i (.settled .failed) else w.goto i (.installing .unplacing)
  | .installing _ => w.goto i (.settled .failed)
  | .unlinkingStaging => w.goto i (.settled .ok)
  | .restarting _ => w.requireRecovery.goto i (.settled .recoveryRequired)
  | .validating | .starting | .unlinkingOld | .syncing | .reloading => w.goto i .undoStopping
  | .undoStopping => w.goto i .undoMoving
  | .undoMoving | .undoRestoring | .undoSyncing => w.requireRecovery.conclude i .recoveryRequired
  | .settled _ | .relaunching | .awaitingIdle | .shuttingDown | .done _ => w

/-- Whether the await can fail. The others are callbacks of the runtime, and a
shutdown that the application goes through with in any case. -/
def Phase.fallible : Phase → Bool
  | .settled _ | .relaunching | .awaitingIdle | .shuttingDown | .done _ => false
  | _ => true

def World.failsAt (w : World) (i : Nat) (p : Phase) (o : Outcome) : Bool :=
  p.fallible && (decide (o ≠ .ok) || !w.allows i p)

def World.advance (w : World) (i : Nat) (c : Call) (o : Outcome) : World :=
  if o = .cancelled then
    if c.phase = .choosing ∧ c.method ≠ .restore then w.goto i (.done .ok) else w
  else if w.failsAt i c.phase o then w.recoil i (o = .lost) c.phase
  else w.proceed i c.method c.phase

/-- A call comes in through the handlers of main.js: `guard` refuses it while the
application shuts down, and a busy manager refuses it. -/
def World.receive (w : World) (m : Method) : World :=
  if w.shuttingDown then w
  else if w.busy then { w with calls := w.calls ++ [⟨m, .done .failed⟩] }
  else
    let w' := { w with calls := w.calls ++ [⟨m, .choosing⟩] }
    match m with
    | .backup => w'.offline w.calls.length
    | _ => w'

def World.step (w : World) (e : Event) : World :=
  if w.quit then w
  else match e with
    | .call m => w.receive m
    | .go i o => match w.calls[i]? with
      | none => w
      | some c => w.advance i c o

def World.start (d : DataFolder) : World := ⟨d, Folder.get d .live, none, false, false, false, []⟩

def soundFolder : DataFolder := Folder.put .live ⟨none, true⟩ ∅

end GrowthMap.Desktop
