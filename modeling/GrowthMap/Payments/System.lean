import GrowthMap.Lib.Runs
import GrowthMap.Payments.Startup

/- The running system: one database and checkpoint file, any number of service
   objects and workers over them.

   An action is one transaction, or one remote call of a delivery: what happens
   between two transactions of one operation is left to the schedule, and a crash
   is an operation that is never resumed. An event adds the service object the
   action runs on, its clock readings and how its publications go. Every multi-step
   operation of the source is a sequence of these: `reconcile_intent` records and
   finalizes or cancels, `recover_durable_settlements` finalizes one intent after
   another, `receive_whop_event` stores and applies, `deliver_entitlement` claims,
   delivers and, when that raises, fails. -/
namespace GrowthMap.Payments

open Relational Transaction Runs

/-- The operations that are one transaction. -/
inductive Tx where
  | createOrder (oid recovery : String) (rail : Rail) (email licenseName : String)
  | prepareX402Intent (iid oid proofId nonce : String) (amount : Int) (payer : Option String)
  | recordSettlementResult (iid : String) (ev : SettlementEvidence) (actor : String)
  | finalizeX402Intent (iid : String)
  | recordSettlementCandidate (iid : String) (c : CandidateReport)
  | markIntentAmbiguous (iid reason : String)
  | cancelUnpaid (iid : String) (ev : ReconcilerEvidence) (actor : String)
  | reconcileExpiredIntents
  | confirmPaymentAndAllocateSale (oid proofId : String) (amount : Int) (currency : String)
      (payerRef txHash : Option String) (actor : String)
  | paypalSubmit (oid transactionId : String)
  | paypalConfirm (oid transactionId : String) (a : PaypalAttestation) (actor : String)
  | adminTransition (oid : String) (action : AdminAction) (reasonCode : Option String)
  | claimOutbox (worker : String) (leaseSeconds : Int) (orderId : Option String)
  | claimRevocation (worker : String) (leaseSeconds : Int) (orderId : Option String)
  | commitRevocation (row : Revocation) (worker : String) (a : RevocationAck)
  | failRevocation (row : Revocation) (worker : String) (error : Err) (maxAttempts : Nat)
  | storeWhopEvent (ev : WhopEvent) (rawDigest : String) (maxAttempts : Int)

def bodyOf (cfg : Config) (clk : Nat → Time) : Tx → Body Unit
  | .createOrder oid recovery rail email name, l => (createOrder cfg clk oid recovery rail email name l).void
  | .prepareX402Intent iid oid proofId nonce amount payer, l =>
    (prepareX402Intent cfg clk iid oid proofId nonce amount payer l).void
  | .recordSettlementResult iid ev actor, l => (recordSettlementResult cfg clk iid ev actor l).void
  | .finalizeX402Intent iid, l => (finalizeX402Intent cfg clk iid l).void
  | .recordSettlementCandidate iid c, l => (recordSettlementCandidate cfg clk iid c l).void
  | .markIntentAmbiguous iid reason, l => markIntentAmbiguous cfg clk iid reason l
  | .cancelUnpaid iid ev actor, l => (cancelUnpaid cfg clk iid ev actor l).void
  | .reconcileExpiredIntents, l => reconcileExpiredIntents cfg clk l
  | .confirmPaymentAndAllocateSale oid proofId amount currency payerRef txHash actor, l =>
    (confirmPaymentAndAllocateSale cfg clk oid proofId amount currency payerRef txHash actor l).void
  | .paypalSubmit oid tx, l => paypalSubmit cfg clk oid tx l
  | .paypalConfirm oid tx a actor, l => (paypalConfirm cfg clk oid tx a actor l).void
  | .adminTransition oid action reason, l => (adminTransition cfg clk oid action reason l).void
  | .claimOutbox worker leaseSeconds orderId, l => (claimOutbox clk worker leaseSeconds orderId l).void
  | .claimRevocation worker leaseSeconds orderId, l => (claimRevocation clk worker leaseSeconds orderId l).void
  | .commitRevocation row worker a, l => (commitRevocation cfg clk row worker a l).void
  | .failRevocation row worker error maxAttempts, l => failRevocation cfg clk row worker error maxAttempts l
  | .storeWhopEvent ev rawDigest maxAttempts, l => storeWhopEvent cfg clk ev rawDigest maxAttempts l

/-- What a service object or a worker does next. -/
inductive Act where
  | tx (t : Tx)
  | failOutbox (row : Entitlement) (worker : String) (error : Err) (maxAttempts : Nat)
  | applyWhopEvent (eventId : String) (maxAttempts : Int)
  /-- start a delivery with a copy of the row as it stands; whatever ran under `tid`
  has crashed -/
  | take (tid : Nat) (worker oid : String)
  /-- the next step of a delivery -/
  | deliver (tid : Nat) (ans : Answer)

structure Event where
  svc : Nat
  clk : Nat → Time
  publications : List Publication
  act : Act

structure Sys where
  ledger : Ledger
  checkpoint : CheckpointFile
  /-- `_checkpoint_failed` of each service object -/
  closed : Nat → Bool
  deliveries : Nat → Option Delivery

def Sys.world (s : Sys) (e : Event) : World :=
  { conn := ⟨s.ledger, none⟩, checkpoint := s.checkpoint, checkpointFailed := s.closed e.svc,
    publications := e.publications, failedFrom := none }

def ran (cfg : Config) (s : Sys) (e : Event) : World :=
  match e.act with
  | .tx t => (transaction cfg (bodyOf cfg e.clk t) (s.world e)).2
  | .failOutbox row worker error maxAttempts =>
    (failOutbox cfg e.clk row worker error maxAttempts (s.world e)).2
  | .applyWhopEvent eventId maxAttempts => (applyWhopEvent cfg e.clk eventId maxAttempts (s.world e)).2
  | .take _ _ _ => s.world e
  | .deliver tid ans =>
    match s.deliveries tid with
    | none => s.world e
    | some d => (deliverStep cfg e.clk ans d (s.world e)).2

/-- The delivery that runs under `tid` after the event. -/
def deliveryAfter (cfg : Config) (s : Sys) (e : Event) (tid : Nat) : Option Delivery :=
  match e.act with
  | .take t worker oid =>
    if tid = t then (s.ledger.entitlements.get oid).map (fun row => ⟨worker, row, .start⟩)
    else s.deliveries tid
  | .deliver t ans =>
    if tid = t then
      match s.deliveries tid with
      | none => none
      | some d => (deliverStep cfg e.clk ans d (s.world e)).1.toOption
    else s.deliveries tid
  | _ => s.deliveries tid

def step (cfg : Config) (s : Sys) (e : Event) : Sys :=
  let w := ran cfg s e
  { ledger := w.conn.committed, checkpoint := w.checkpoint,
    closed := fun n => if n = e.svc then w.checkpointFailed else s.closed n,
    deliveries := deliveryAfter cfg s e }

/-- What the first construction of the service leaves: the fresh ledger, its
checkpoint published once by the start-up sweep. -/
def initial (cfg : Config) : Sys :=
  { ledger := bumpSequence freshLedger,
    checkpoint := .issuance (checkpointDocument cfg (bumpSequence freshLedger)),
    closed := fun _ => false, deliveries := fun _ => none }

/-! What a program of one transaction does to the world -/

/-- The body's end, when it commits: what it leaves and what the caller gets. -/
def ending {α : Type} : Verdict Ledger Err α → Option (Ledger × Except Err α)
  | .commit m a => some (m, .ok a)
  | .commitRaise m e => some (m, .error e)
  | .leave _ | .raise _ => none

variable {α : Type} {v : Verdict Ledger Err α} {m : Ledger} {r : Except Err α}

theorem ending_committed (h : ending v = some (m, r)) : v.committed = some m := by
  cases v <;> simp [ending] at h <;> simp [Verdict.committed, h.1]

theorem committed_ending (h : v.committed = some m) : ∃ r, ending v = some (m, r) := by
  cases v <;> simp [Verdict.committed] at h <;> simp [ending, h]

/-- The checkpoint after a publication of `m` that failed: a commit that fails has
already replaced the file. -/
def lostFile (cfg : Config) (w : World) (m : Ledger) : CheckpointFile :=
  if w.publication = .writeFails then w.checkpoint
  else .issuance (checkpointDocument cfg (bumpSequence m))

/-- The world after `m` has been published. -/
def World.published (w : World) (cfg : Config) (m : Ledger) : World :=
  { w with conn := ⟨bumpSequence m, none⟩, publications := w.publications.tail,
           checkpoint := .issuance (checkpointDocument cfg (bumpSequence m)) }

/-- The world after the publication of `m` over `l` has failed. -/
def World.lost (w : World) (cfg : Config) (l m : Ledger) : World :=
  { w with conn := ⟨l, none⟩, publications := w.publications.tail, checkpoint := lostFile cfg w m,
           checkpointFailed := true, failedFrom := some (w.failedFrom.getD l) }

/-- `_commit_trusted` inside an open transaction. -/
theorem commitTrusted_open (cfg : Config) (w : World) (l m : Ledger) :
    commitTrusted cfg { w with conn := ⟨l, some m⟩ } =
      if w.publication = .ok then (.ok (), w.published cfg m)
      else (.error publicationFailed, w.lost cfg l m) := by
  obtain ⟨conn, file, failed, pubs, from_⟩ := w
  simp only [commitTrusted, Conn.exec_open, World.lost, lostFile]
  cases h : World.publication ⟨conn, file, failed, pubs, from_⟩ <;>
    simp_all [World.publication, World.published, closeService, Conn.commit]

def trust (cfg : Config) (w : World) : Except Err Unit :=
  if w.checkpointFailed then .error failClosed
  else match verifyCheckpoint cfg w.checkpoint w.conn.current with
    | .error e => .error e
    | .ok () => verifyTerminalEvidence cfg w.conn.current

theorem assertTerminalTrust_apply (cfg : Config) (w : World) :
    assertTerminalTrust cfg w = (trust cfg w, w) := by
  unfold assertTerminalTrust trust
  split
  · rfl
  · cases verifyCheckpoint cfg w.checkpoint w.conn.current <;> rfl

theorem guarded_apply (cfg : Config) (p : Py α) (w : World) (hw : w.conn.working = none) :
    withDb (do beginImmediate; assertTerminalTrust cfg; p) w =
      match trust cfg w with
      | .error e => (.error e, w)
      | .ok () => withDb p { w with conn := ⟨w.conn.committed, some w.conn.committed⟩ } := by
  obtain ⟨⟨l, working⟩, file, failed, pubs, from_⟩ := w
  simp only at hw
  subst hw
  have hb : ∀ q : Py α, (beginImmediate >>= fun _ => q) ⟨⟨l, none⟩, file, failed, pubs, from_⟩ =
      q ⟨⟨l, some l⟩, file, failed, pubs, from_⟩ := fun _ => rfl
  have ht : trust cfg ⟨⟨l, some l⟩, file, failed, pubs, from_⟩ =
      trust cfg ⟨⟨l, none⟩, file, failed, pubs, from_⟩ := rfl
  unfold withDb
  rw [hb, Prog.bind_apply, assertTerminalTrust_apply, ht]
  cases trust cfg ⟨⟨l, none⟩, file, failed, pubs, from_⟩ with
  | error => rfl
  | ok => rfl

/-- A body run in the open transaction: what it returns or raises, and the world it
leaves before the `with` block closes. -/
theorem runBody_open (cfg : Config) (body : Body α) (w : World) (l : Ledger) :
    runBody cfg body { w with conn := ⟨l, some l⟩ } =
      match body l with
      | .leave a => (.ok a, { w with conn := ⟨l, some l⟩ })
      | .raise e => (.error e, { w with conn := ⟨l, some l⟩ })
      | .commit m a =>
        if w.publication = .ok then (.ok a, w.published cfg m)
        else (.error publicationFailed, w.lost cfg l m)
      | .commitRaise m e =>
        if w.publication = .ok then (.error e, w.published cfg m)
        else (.error publicationFailed, w.lost cfg l m) := by
  have hcur : ∀ f : Ledger → Py α, (current >>= f) { w with conn := ⟨l, some l⟩ } =
      f l { w with conn := ⟨l, some l⟩ } := fun _ => rfl
  have hset : ∀ (m : Ledger) (q : Py α), (setCurrent m >>= fun _ => q) { w with conn := ⟨l, some l⟩ } =
      q { w with conn := ⟨l, some m⟩ } := fun _ _ => rfl
  unfold runBody
  rw [hcur]
  cases body l with
  | leave => rfl
  | raise => rfl
  | commit =>
    simp only [hset]
    rw [Prog.bind_apply, commitTrusted_open]
    by_cases hp : w.publication = .ok
    · simp only [if_pos hp]
      rfl
    · simp only [if_neg hp]
  | commitRaise =>
    simp only [hset]
    rw [Prog.bind_apply, commitTrusted_open]
    by_cases hp : w.publication = .ok
    · simp only [if_pos hp]
      rfl
    · simp only [if_neg hp]

/-- The ways a transaction ends: refused by the trust check, nothing committed,
published, or lost with its publication. -/
inductive Ended {α : Type} (cfg : Config) (body : Body α) (w : World) : Except Err α → World → Prop where
  | refused (e : Err) (h : trust cfg w = .error e) : Ended cfg body w (.error e) w
  | left (a : α) (ht : trust cfg w = .ok ()) (h : body w.conn.committed = .leave a) :
      Ended cfg body w (.ok a) w
  | raised (e : Err) (ht : trust cfg w = .ok ()) (h : body w.conn.committed = .raise e) :
      Ended cfg body w (.error e) w
  | published (m : Ledger) (r : Except Err α) (ht : trust cfg w = .ok ())
      (h : ending (body w.conn.committed) = some (m, r)) (hp : w.publication = .ok) :
      Ended cfg body w r (w.published cfg m)
  | lost (m : Ledger) (ht : trust cfg w = .ok ()) (h : (body w.conn.committed).committed = some m)
      (hp : w.publication ≠ .ok) :
      Ended cfg body w (.error publicationFailed) (w.lost cfg w.conn.committed m)

theorem transaction_ended (cfg : Config) (body : Body α) (w : World) (hw : w.conn.working = none) :
    Ended cfg body w (transaction cfg body w).1 (transaction cfg body w).2 := by
  unfold transaction
  rw [guarded_apply cfg _ w hw]
  cases ht : trust cfg w with
  | error e => exact .refused e ht
  | ok =>
    have hclosed : { w with conn := ⟨w.conn.committed, none⟩ } = w := by
      obtain ⟨⟨l, working⟩, file, failed, pubs, from_⟩ := w
      simp only at hw
      rw [hw]
    simp only [withDb, runBody_open]
    cases hv : body w.conn.committed with
    | leave a =>
      have h : Ended cfg body w (.ok a) w := .left a ht hv
      simpa [Conn.commit, hclosed] using h
    | raise e =>
      have h : Ended cfg body w (.error e) w := .raised e ht hv
      simpa [hclosed] using h
    | commit m a =>
      by_cases hp : w.publication = .ok
      · simp only [hp, if_true]
        exact .published m (.ok a) ht (by rw [hv]; rfl) hp
      · simp only [hp, if_false]
        exact .lost m ht (by rw [hv]; rfl) hp
    | commitRaise m e =>
      by_cases hp : w.publication = .ok
      · simp only [hp, if_true]
        exact .published m (.error e) ht (by rw [hv]; rfl) hp
      · simp only [hp, if_false]
        exact .lost m ht (by rw [hv]; rfl) hp

/-- `_commit_trusted` on a connection whose transaction is gone: the bumped ledger is
committed whatever becomes of the checkpoint. -/
theorem commitTrusted_closed (cfg : Config) (w : World) (m : Ledger) :
    ∃ file failed from_, (commitTrusted cfg { w with conn := ⟨m, none⟩ }).2 =
      { w with conn := ⟨bumpSequence m, none⟩, publications := w.publications.tail,
               checkpoint := file, checkpointFailed := failed, failedFrom := from_ } ∧
      (w.checkpointFailed = true → failed = true) ∧
      (w.failedFrom.isSome → from_ = w.failedFrom) := by
  obtain ⟨conn, file, failed, pubs, from_⟩ := w
  simp only [commitTrusted, Conn.exec_closed]
  cases World.publication ⟨⟨bumpSequence m, none⟩, file, failed, pubs, from_⟩ with
  | ok => exact ⟨_, _, _, rfl, id, fun _ => rfl⟩
  | writeFails =>
    refine ⟨_, _, _, rfl, fun _ => rfl, ?_⟩
    intro h
    obtain ⟨l, rfl⟩ := Option.isSome_iff_exists.mp h
    rfl
  | commitFails =>
    refine ⟨_, _, _, rfl, fun _ => rfl, ?_⟩
    intro h
    obtain ⟨l, rfl⟩ := Option.isSome_iff_exists.mp h
    rfl

/-- What the application of an event makes of the ledger before its publication: the
ledger to publish, or the exception and what it leaves in the open transaction. -/
def whopAttempt (cfg : Config) (clk : Nat → Time) (ev : InboxEvent) (l : Ledger) :
    Ledger × Except Err Ledger :=
  match applyWhopBusinessLocked cfg clk ev l with
  | (l₁, .error x) => (l₁, .error x)
  | (l₁, .ok ()) => (l₁, whopApplied cfg clk ev l₁)

theorem statement_open (f : Ledger → Except Err Ledger) (q : Py α) (w : World) (l m : Ledger) :
    (statement f >>= fun _ => q) { w with conn := ⟨l, some m⟩ } =
      match f m with
      | .error x => (.error x, { w with conn := ⟨l, some m⟩ })
      | .ok m' => q { w with conn := ⟨l, some m'⟩ } := by
  rw [Prog.bind_apply]
  simp only [statement, Conn.current_open, Conn.exec_open]
  cases f m <;> rfl

theorem whopTry_open (cfg : Config) (clk : Nat → Time) (ev : InboxEvent) (w : World) (l : Ledger) :
    whopTry cfg clk ev { w with conn := ⟨l, some l⟩ } =
      match (whopAttempt cfg clk ev l).2 with
      | .error x => (.error x, { w with conn := ⟨l, some (whopAttempt cfg clk ev l).1⟩ })
      | .ok m =>
        if w.publication = .ok then (.ok .applied, w.published cfg m)
        else (.error publicationFailed, w.lost cfg l m) := by
  have hcur : ∀ f : Ledger → Py InboxState, (current >>= f) { w with conn := ⟨l, some l⟩ } =
      f l { w with conn := ⟨l, some l⟩ } := fun _ => rfl
  have hset : ∀ (m : Ledger) (q : Py InboxState),
      (setCurrent m >>= fun _ => q) { w with conn := ⟨l, some l⟩ } =
      q { w with conn := ⟨l, some m⟩ } := fun _ _ => rfl
  have hok : ∀ (v : World) (q : Py InboxState), (ofExcept (Except.ok ()) >>= fun _ => q) v = q v :=
    fun _ _ => rfl
  unfold whopTry
  simp only
  rw [hcur]
  simp only [hset, whopAttempt]
  cases hb : applyWhopBusinessLocked cfg clk ev l with
  | mk l₁ r =>
    cases r with
    | error => rfl
    | ok =>
      simp only
      rw [hok, statement_open]
      cases whopApplied cfg clk ev l₁ with
      | error => rfl
      | ok =>
        simp only
        rw [Prog.bind_apply, commitTrusted_open]
        by_cases hp : w.publication = .ok
        · simp only [if_pos hp]
          rfl
        · simp only [if_neg hp]

/-- The event is received and its application comes to the publication. -/
def Applies (cfg : Config) (clk : Nat → Time) (eventId : String) (w : World) : Prop :=
  trust cfg w = .ok () ∧ ∃ ev m, w.conn.committed.inbox.get eventId = some ev ∧ ev.state = .received ∧
    (whopAttempt cfg clk ev w.conn.committed).2 = .ok m

theorem whopFailed_succeeds (cfg : Config) (clk : Nat → Time) {ev : InboxEvent} (maxAttempts : Int) (x : Err)
    {l : Ledger} (hget : l.inbox.get ev.eventId = some ev) (hr : ev.state = .received) :
    ∃ m, whopFailed cfg clk ev maxAttempts x l = .ok m := by
  have hpass : inboxStateMonotonic ev (ev.markFailed (failedInboxState ev maxAttempts) (ev.attempts + 1)
      (clk 6) (cfg.sha256 (.text x.text))) = false := by
    have hcount : ¬ ev.attempts + 1 < ev.attempts := by omega
    simp [inboxStateMonotonic, InboxEvent.markFailed, hr, hcount]
  unfold whopFailed updateInbox
  simp only [hget, hpass]
  exact ⟨_, rfl⟩

/-- The ways the application of a Whop event ends. `resumed` is the handler at work on
the committed ledger, after the publication it was called for has failed. -/
inductive WhopEnded (cfg : Config) (clk : Nat → Time) (eventId : String) (maxAttempts : Int)
    (w : World) : World → Prop where
  | idle (h : ¬ Applies cfg clk eventId w) : WhopEnded cfg clk eventId maxAttempts w w
  | applied (ev : InboxEvent) (m : Ledger) (ht : trust cfg w = .ok ())
      (hev : w.conn.committed.inbox.get eventId = some ev)
      (hm : (whopAttempt cfg clk ev w.conn.committed).2 = .ok m) (hp : w.publication = .ok) :
      WhopEnded cfg clk eventId maxAttempts w (w.published cfg m)
  | failed (ev : InboxEvent) (x : Err) (m : Ledger) (ht : trust cfg w = .ok ())
      (hev : w.conn.committed.inbox.get eventId = some ev)
      (hx : (whopAttempt cfg clk ev w.conn.committed).2 = .error x)
      (hm : whopFailed cfg clk ev maxAttempts x (whopAttempt cfg clk ev w.conn.committed).1 = .ok m)
      (hp : w.publication = .ok) : WhopEnded cfg clk eventId maxAttempts w (w.published cfg m)
  | failedLost (m : Ledger) (h : ¬ Applies cfg clk eventId w) (ht : trust cfg w = .ok ())
      (hp : w.publication ≠ .ok) : WhopEnded cfg clk eventId maxAttempts w (w.lost cfg w.conn.committed m)
  | resumed (ev : InboxEvent) (m m' : Ledger) (w' : World) (ht : trust cfg w = .ok ())
      (hev : w.conn.committed.inbox.get eventId = some ev) (hr : ev.state = .received)
      (hm : (whopAttempt cfg clk ev w.conn.committed).2 = .ok m) (hp : w.publication ≠ .ok)
      (hm' : whopFailed cfg clk ev maxAttempts publicationFailed w.conn.committed = .ok m')
      (hc : w'.conn = ⟨bumpSequence m', none⟩) (hf : w'.checkpointFailed = true)
      (hfrom : w'.failedFrom = some (w.failedFrom.getD w.conn.committed)) :
      WhopEnded cfg clk eventId maxAttempts w w'

theorem applyWhopEvent_ended (cfg : Config) (clk : Nat → Time) (eventId : String) (maxAttempts : Int)
    (w : World) (hw : w.conn.working = none) :
    WhopEnded cfg clk eventId maxAttempts w (applyWhopEvent cfg clk eventId maxAttempts w).2 := by
  have hclosed : { w with conn := ⟨w.conn.committed, none⟩ } = w := by
    obtain ⟨⟨l, working⟩, file, failed, pubs, from_⟩ := w
    simp only at hw
    rw [hw]
  unfold applyWhopEvent
  rw [guarded_apply cfg _ w hw]
  cases ht : trust cfg w with
  | error =>
    refine .idle ?_
    rintro ⟨ht', -⟩
    rw [ht] at ht'
    cases ht'
  | ok =>
    have hcur : ∀ f : Ledger → Py InboxState,
        (current >>= f) { w with conn := ⟨w.conn.committed, some w.conn.committed⟩ } =
        f w.conn.committed { w with conn := ⟨w.conn.committed, some w.conn.committed⟩ } := fun _ => rfl
    simp only [withDb, hcur]
    cases hev : w.conn.committed.inbox.get eventId with
    | none =>
      have hidle : WhopEnded cfg clk eventId maxAttempts w w := by
        refine .idle ?_
        rintro ⟨-, ev, m, hev', -⟩
        rw [hev] at hev'
        cases hev'
      simpa [hclosed] using hidle
    | some ev =>
      by_cases hr : ev.state = .received
      · simp only [hr, ne_eq, not_true, if_false, Prog.tryCatch, whopTry_open]
        cases hm : (whopAttempt cfg clk ev w.conn.committed).2 with
        | error x =>
          have hnot : ¬ Applies cfg clk eventId w := by
            rintro ⟨-, ev', m, hev', -, hm'⟩
            rw [hev] at hev'
            cases hev'
            rw [hm] at hm'
            cases hm'
          -- the handler runs inside the transaction the application has left open
          simp only [whopExcept, statement_open]
          cases hf : whopFailed cfg clk ev maxAttempts x (whopAttempt cfg clk ev w.conn.committed).1 with
          | error => simpa [hclosed] using WhopEnded.idle hnot
          | ok m =>
            simp only
            rw [Prog.bind_apply, commitTrusted_open]
            by_cases hp : w.publication = .ok
            · simp only [if_pos hp]
              exact .failed ev x m ht hev hm hf hp
            · simp only [if_neg hp]
              exact .failedLost m hnot ht hp
        | ok m =>
          by_cases hp : w.publication = .ok
          · simp only [if_pos hp]
            exact .applied ev m ht hev hm hp
          · simp only [if_neg hp]
            have hs : whopExcept cfg clk ev maxAttempts publicationFailed (w.lost cfg w.conn.committed m) =
                match whopFailed cfg clk ev maxAttempts publicationFailed w.conn.committed with
                | .error y => (.error y, w.lost cfg w.conn.committed m)
                | .ok m' => (do commitTrusted cfg; return failedInboxState ev maxAttempts : Py InboxState)
                    { w.lost cfg w.conn.committed m with conn := ⟨m', none⟩ } := by
              unfold whopExcept
              rw [Prog.bind_apply]
              simp only [statement, World.lost, Conn.current_closed, Conn.exec_closed]
              cases whopFailed cfg clk ev maxAttempts publicationFailed w.conn.committed <;> rfl
            rw [hs]
            cases hf : whopFailed cfg clk ev maxAttempts publicationFailed w.conn.committed with
            | error =>
              have hkey : ev.eventId = eventId := Table.get_key hev
              obtain ⟨m', hm'⟩ := whopFailed_succeeds cfg clk maxAttempts publicationFailed (hkey ▸ hev) hr
              rw [hf] at hm'
              cases hm'
            | ok m' =>
              simp only
              obtain ⟨file, failed, from_, hc, hfl, hfr⟩ :=
                commitTrusted_closed cfg (w.lost cfg w.conn.committed m) m'
              rw [Prog.bind_apply]
              cases hr' : commitTrusted cfg { w.lost cfg w.conn.committed m with conn := ⟨m', none⟩ } with
              | mk r =>
                rw [hr'] at hc
                simp only at hc
                subst hc
                cases r with
                | ok _ => exact .resumed ev m m' _ ht hev hr hm hp hf rfl (hfl rfl) (hfr rfl)
                | error _ => exact .resumed ev m m' _ ht hev hr hm hp hf rfl (hfl rfl) (hfr rfl)
      · have hnot : ¬ Applies cfg clk eventId w := by
          rintro ⟨-, ev', m, hev', hr', -⟩
          rw [hev] at hev'
          cases hev'
          exact hr hr'
        simp only [ne_eq, hr, not_false_eq_true, if_true]
        simpa [Conn.commit, hclosed] using WhopEnded.idle hnot

/-! The body behind each action -/

/-- The body `fail_outbox` runs for the copy of the row it is given. -/
def failBody (cfg : Config) (clk : Nat → Time) (row : Entitlement) (worker : String) (error : Err)
    (maxAttempts : Nat) : Body Unit :=
  if row.phase = .crossingAuthorized ∨ row.phase = .readbackOnly then
    requeueReconciliationFailure cfg clk row worker error maxAttempts
  else failUncrossed cfg clk row worker error maxAttempts

theorem failOutbox_ended (cfg : Config) (clk : Nat → Time) (row : Entitlement) (worker : String)
    (error : Err) (maxAttempts : Nat) (w : World) (hw : w.conn.working = none) :
    ∃ r, Ended cfg (failBody cfg clk row worker error maxAttempts) w r
      (failOutbox cfg clk row worker error maxAttempts w).2 := by
  by_cases hc : row.phase = .crossingAuthorized ∨ row.phase = .readbackOnly
  · -- a swallowed RuntimeError changes what is returned, not the world
    have hsame : (failOutbox cfg clk row worker error maxAttempts w).2 =
        (transaction cfg (requeueReconciliationFailure cfg clk row worker error maxAttempts) w).2 := by
      unfold failOutbox transaction
      rw [guarded_apply cfg _ w hw, guarded_apply cfg _ w hw]
      cases trust cfg w with
      | error => rfl
      | ok =>
        simp only [if_pos hc, withDb, Prog.tryCatch, runBody_open]
        cases requeueReconciliationFailure cfg clk row worker error maxAttempts w.conn.committed with
        | leave => rfl
        | raise e => by_cases hr : e.cls = .runtime <;> simp [hr, Conn.commit]
        | commit =>
          by_cases hp : w.publication = .ok
          · simp only [if_pos hp]
          · simp only [if_neg hp]
            rfl
        | commitRaise m e =>
          by_cases hp : w.publication = .ok
          · simp only [if_pos hp]
            by_cases hr : e.cls = .runtime <;> simp [hr, Conn.commit, World.published]
          · simp only [if_neg hp]
            rfl
    rw [hsame, failBody, if_pos hc]
    exact ⟨_, transaction_ended cfg _ w hw⟩
  · have hsame : failOutbox cfg clk row worker error maxAttempts =
        transaction cfg (failUncrossed cfg clk row worker error maxAttempts) := by
      unfold failOutbox transaction
      rw [if_neg hc]
    rw [hsame, failBody, if_neg hc]
    exact ⟨_, transaction_ended cfg _ w hw⟩

/-- The transaction of a delivery's next step; the other steps are remote calls. -/
def deliverBody (cfg : Config) (clk : Nat → Time) (d : Delivery) : Option (Body Unit) :=
  match d.pc with
  | .start => some (revalidateLease d.row d.worker)
  | .handshaken => some (prepareCrossing d.row d.worker)
  | .prepared => some (authorizeCrossing d.row d.worker)
  | .unread => some (requeueReconciliationFailure cfg clk d.row d.worker
      (.runtime "authority_operation_unavailable") 8)
  | .verified a => some (fun l => (commitDelivery cfg clk d.row d.worker a l).void)
  | _ => none

theorem Ended.void {cfg : Config} {body : Body α} {w w' : World}
    (h : Ended cfg body w r w') : ∃ r', Ended cfg (fun l => (body l).void) w r' w' := by
  cases h with
  | refused e ht => exact ⟨_, .refused e ht⟩
  | left a ht h => exact ⟨_, .left () ht (by simp only [h]; rfl)⟩
  | raised e ht h => exact ⟨_, .raised e ht (by simp only [h]; rfl)⟩
  | published m r ht h hp =>
    have hc : (body w.conn.committed).void.committed = some m := by
      rw [Verdict.void_committed]
      exact ending_committed h
    obtain ⟨r', hr'⟩ := committed_ending hc
    exact ⟨r', .published m r' ht hr' hp⟩
  | lost m ht h hp => exact ⟨_, .lost m ht (by rw [Verdict.void_committed]; exact h) hp⟩

theorem attempt_world (d : Delivery) (p : Py α) (next : α → Delivery) (w : World) :
    (d.attempt p next w).2 = (p w).2 := by
  unfold Delivery.attempt
  cases h : p w with
  | mk r => cases r <;> rfl

theorem requeueUnread_world (cfg : Config) (clk : Nat → Time) (d : Delivery) (w : World) :
    (requeueUnread cfg clk d w).2 =
      (transaction cfg (requeueReconciliationFailure cfg clk d.row d.worker
        (.runtime "authority_operation_unavailable") 8) w).2 := by
  unfold requeueUnread
  rw [Prog.bind_apply, Prog.tryCatch]
  cases h : transaction cfg (requeueReconciliationFailure cfg clk d.row d.worker
      (.runtime "authority_operation_unavailable") 8) w with
  | mk r w' =>
    cases r with
    | ok => rfl
    | error => rfl

theorem deliverStep_ended (cfg : Config) (clk : Nat → Time) (ans : Answer) (d : Delivery) (w : World)
    (hw : w.conn.working = none) :
    match deliverBody cfg clk d with
    | none => (deliverStep cfg clk ans d w).2 = w
    | some body => ∃ r, Ended cfg body w r (deliverStep cfg clk ans d w).2 := by
  unfold deliverBody deliverStep
  cases d.pc with
  | start =>
    simp only [attempt_world]
    exact ⟨_, transaction_ended cfg _ w hw⟩
  | checked => rfl
  | handshaken =>
    simp only [attempt_world]
    exact ⟨_, transaction_ended cfg _ w hw⟩
  | prepared =>
    simp only [attempt_world]
    exact ⟨_, transaction_ended cfg _ w hw⟩
  | crossing => rfl
  | called => rfl
  | rechecked => cases ans.readback <;> rfl
  | unread =>
    simp only [attempt_world, requeueUnread_world]
    exact ⟨_, transaction_ended cfg _ w hw⟩
  | read a =>
    simp only
    cases verifyAcknowledgement cfg ans d a <;> rfl
  | verified =>
    simp only [attempt_world]
    exact (transaction_ended cfg _ w hw).void
  | done => rfl

def actBody (cfg : Config) (s : Sys) (e : Event) : Option (Body Unit) :=
  match e.act with
  | .tx t => some (bodyOf cfg e.clk t)
  | .failOutbox row worker error maxAttempts => some (failBody cfg e.clk row worker error maxAttempts)
  | .deliver tid _ => (s.deliveries tid).bind (deliverBody cfg e.clk)
  | _ => none

/-- The ledgers an event may commit, its sequence number apart. -/
inductive Commits (cfg : Config) (s : Sys) (e : Event) : Ledger → Prop where
  | body (b : Body Unit) (m : Ledger) (hb : actBody cfg s e = some b)
      (hm : (b s.ledger).committed = some m) : Commits cfg s e m
  | whopApplied (eventId : String) (maxAttempts : Int) (ev : InboxEvent) (m : Ledger)
      (ha : e.act = .applyWhopEvent eventId maxAttempts)
      (hev : s.ledger.inbox.get eventId = some ev)
      (hm : (whopAttempt cfg e.clk ev s.ledger).2 = .ok m) : Commits cfg s e m
  | whopFailed (eventId : String) (maxAttempts : Int) (ev : InboxEvent) (x : Err) (l m : Ledger)
      (ha : e.act = .applyWhopEvent eventId maxAttempts)
      (hl : l = s.ledger ∨ (∃ y, (whopAttempt cfg e.clk ev s.ledger).2 = .error y) ∧
        l = (whopAttempt cfg e.clk ev s.ledger).1)
      (hm : whopFailed cfg e.clk ev maxAttempts x l = .ok m) : Commits cfg s e m

/-- One event changes the ledger only by committing, under the next sequence number. -/
theorem step_ledger (cfg : Config) (s : Sys) (e : Event) :
    (step cfg s e).ledger = s.ledger ∨
      ∃ m, Commits cfg s e m ∧ (step cfg s e).ledger = bumpSequence m := by
  -- a single transaction commits what its body commits
  have hended : ∀ (b : Body Unit) (r : Except Err Unit) (w' : World),
      actBody cfg s e = some b → Ended cfg b (s.world e) r w' →
      w'.conn.committed = s.ledger ∨ ∃ m, Commits cfg s e m ∧ w'.conn.committed = bumpSequence m := by
    intro b r w' hb h
    cases h with
    | refused => exact .inl rfl
    | left => exact .inl rfl
    | raised => exact .inl rfl
    | published m r ht h => exact .inr ⟨m, .body b m hb (ending_committed h), rfl⟩
    | lost => exact .inl rfl
  show (ran cfg s e).conn.committed = s.ledger ∨
    ∃ m, Commits cfg s e m ∧ (ran cfg s e).conn.committed = bumpSequence m
  unfold ran
  cases ha : e.act with
  | tx => exact hended _ _ _ (by simp [actBody, ha]) (transaction_ended cfg _ _ rfl)
  | failOutbox row worker error maxAttempts =>
    obtain ⟨r, hr⟩ := failOutbox_ended cfg e.clk row worker error maxAttempts (s.world e) rfl
    exact hended _ r _ (by simp [actBody, ha]) hr
  | applyWhopEvent eventId maxAttempts =>
    have h := applyWhopEvent_ended cfg e.clk eventId maxAttempts (s.world e) rfl
    simp only
    generalize (applyWhopEvent cfg e.clk eventId maxAttempts (s.world e)).2 = w' at h
    cases h with
    | idle => exact .inl rfl
    | applied ev m ht hev hm => exact .inr ⟨m, .whopApplied eventId maxAttempts ev m ha hev hm, rfl⟩
    | failed ev x m ht hev hx hm =>
      exact .inr ⟨m, .whopFailed eventId maxAttempts ev x _ m ha (.inr ⟨⟨x, hx⟩, rfl⟩) hm, rfl⟩
    | failedLost => exact .inl rfl
    | resumed ev m m' w' ht hev hr hm hp hm' hc =>
      refine .inr ⟨m', .whopFailed eventId maxAttempts ev _ _ m' ha (.inl rfl) hm', ?_⟩
      rw [hc]
  | take => exact .inl rfl
  | deliver tid ans =>
    simp only
    cases hd : s.deliveries tid with
    | none => exact .inl rfl
    | some d =>
      have h := deliverStep_ended cfg e.clk ans d (s.world e) rfl
      cases hb : deliverBody cfg e.clk d with
      | none =>
        rw [hb] at h
        left
        simp only at h ⊢
        rw [h]
        rfl
      | some b =>
        rw [hb] at h
        obtain ⟨r, hr⟩ := h
        exact hended b r _ (by simp [actBody, ha, hd, hb]) hr

end GrowthMap.Payments
