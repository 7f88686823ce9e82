import GrowthMap.Authority.Inbox

/- The request journal in front of the Authority.

   A signed service request is claimed in the journal, its operation runs on the Authority
   database, and its result is committed to the journal: three transactions, and the
   process may die between any two of them. One process at a time owns the journal, and it
   serves one request at a time; the Authority database may be used by others meanwhile. -/
namespace GrowthMap.Authority

open Relational Runs Table
open Payments (Time seconds Identity Err)

/-! Requests -/

/-- The bodies of the journalled routes. The three routes that list gifts and devices only
read and are left out; a claim key stands for the capability it parses to. -/
inductive ServiceOp where
  | entitlement (a : EntitlementRequest)
  | entitlementRead (source sourceId : String) (signerIdentity : Identity)
  | revocation (a : RevocationRequest)
  | revocationRead (source sourceId : String) (signerIdentity : Identity)
  | activationChallenge (licenseId devicePublicKey : String)
  | activationComplete (challengeId proof : String)
  | giftCreate (edition : String) (majorVersion : Int) (seatLimit : Nat) (checkInDays : Int)
  | giftRecover (giftId : String)
  | giftRevoke (giftId : String)
  | giftDeactivate (giftId deviceId : String)
  | giftClaimChallenge (giftId secret devicePublicKey : String)
  | giftClaimComplete (challengeId proof : String)

/-- The random values of one execution. -/
structure Fresh where
  giftId : String
  licenseId : String
  secret : String
  nonce : String
  challengeId : String
  activationId : String

def ServiceOp.method (x : Fresh) : ServiceOp → Op
  | .entitlement a => .createExternalEntitlement a x.licenseId
  | .entitlementRead source sourceId identity => .readExternalEntitlementAcknowledgement source sourceId identity
  | .revocation a => .revokeExternalEntitlement a
  | .revocationRead source sourceId identity => .readExternalRevocationAcknowledgement source sourceId identity
  | .activationChallenge licenseId key => .issueActivationChallenge licenseId key 300 x.nonce x.challengeId
  | .activationComplete challengeId proof => .activateChallenge challengeId proof .payment x.activationId
  | .giftCreate edition majorVersion seatLimit checkInDays =>
    .createGift edition majorVersion seatLimit checkInDays x.giftId x.licenseId x.secret
  | .giftRecover giftId => .recoverGift giftId x.secret
  | .giftRevoke giftId => .revokeGift giftId
  | .giftDeactivate giftId deviceId => .deactivateGiftDevice giftId deviceId
  | .giftClaimChallenge giftId secret key => .issueGiftClaimChallenge giftId secret key 300 x.nonce x.challengeId
  | .giftClaimComplete challengeId proof => .activateChallenge challengeId proof .gift x.activationId

/-- An authenticated request: the fields its binding digests. The method, the path and the
body are what `op` says. -/
structure ServiceRequest where
  subject : String
  peerIdentity : String
  peerSource : String
  nonce : String
  timestamp : Time
  authorityId : String
  audience : String
  op : ServiceOp

/-- The two digests of a request: its key, of subject and nonce, and its binding. -/
structure Digests where
  key : String → String → String
  binding : ServiceRequest → String

/-! The journal -/

inductive JournalState where
  | pending (leaseUntil : Int)
  | committed (committedAt : Int) (response : Reply)

structure JournalRow where
  requestKey : String
  binding : String
  state : JournalState

abbrev RequestJournal := Table String JournalRow JournalRow.requestKey

/-- `replay` of the composition descriptor, with the skew the routes allow. -/
structure JournalConfig where
  maxEntries : Nat
  retention : Int
  lease : Int
  maxClockSkew : Int
  retention_ge : 3600 ≤ retention
  lease_ge : 1 ≤ lease
  skew_le : maxClockSkew ≤ 900

/-- `int(time.time())` -/
def wholeSeconds (t : Time) : Int := t / 1000000

/-- What outlives a purge at `now`. -/
def JournalRow.retained (cfg : JournalConfig) (now : Int) (row : JournalRow) : Bool :=
  match row.state with
  | .pending _ => true
  | .committed committedAt _ => decide (now - cfg.retention ≤ committedAt)

def JournalRow.renew (leaseUntil : Int) (row : JournalRow) : JournalRow := { row with state := .pending leaseUntil }

theorem JournalRow.renew_key {leaseUntil : Int} (row : JournalRow) : (row.renew leaseUntil).requestKey = row.requestKey := rfl

def JournalRow.commit (now : Int) (response : Reply) (row : JournalRow) : JournalRow :=
  { row with state := .committed now response }

variable {now timestamp : Int} {response : Reply}

theorem JournalRow.commit_key (row : JournalRow) :
    (row.commit now response).requestKey = row.requestKey := rfl

/-- How the claim of a request ends. -/
inductive Claim where
  | refused (e : Err)
  | replayed (journal : RequestJournal) (response : Reply)
  | claimed (journal : RequestJournal)

/-- The first transaction of `execute`; a refusal rolls it back. -/
def claim (h : Digests) (cfg : JournalConfig) (journal : RequestJournal) (r : ServiceRequest) (now : Int) : Claim :=
  let journal := journal.keep (JournalRow.retained cfg now)
  let key := h.key r.subject r.nonce
  match journal.get key with
  | some row =>
    if row.binding ≠ h.binding r then .refused (.runtime "replay_binding_conflict")
    else match row.state with
      | .committed _ response => .replayed journal response
      | .pending leaseUntil =>
        if now ≤ leaseUntil then .refused (.runtime "replay_recovery_busy")
        else .claimed (journal.modify key (JournalRow.renew (now + cfg.lease)) JournalRow.renew_key)
  | none =>
    if cfg.maxEntries ≤ journal.rows.length then .refused (.runtime "replay_capacity_exhausted")
    else match journal.insert ⟨key, h.binding r, .pending (now + cfg.lease)⟩ with
      | none => .refused (.runtime "replay_binding_conflict")
      | some journal => .claimed journal

/-- The second transaction: none where the row is not the pending one of the request. -/
def commitResponse (h : Digests) (journal : RequestJournal) (r : ServiceRequest) (response : Reply) (now : Int) :
    Option RequestJournal :=
  let key := h.key r.subject r.nonce
  match journal.get key with
  | none => none
  | some row =>
    match row.state with
    | .committed _ _ => none
    | .pending _ =>
      if row.binding ≠ h.binding r then none
      else some (journal.modify key (JournalRow.commit now response) JournalRow.commit_key)

/-! The service -/

/-- Where the one process is. -/
inductive Stage where
  | idle
  | claimed (r : ServiceRequest)
  /-- the Authority has committed, the journal has not -/
  | executed (r : ServiceRequest) (response : Reply)

/-- An operation that did not raise. -/
structure Execution where
  request : ServiceRequest
  before : Store
  after : Store

structure Service where
  store : Store
  journal : RequestJournal
  stage : Stage
  now : Time
  executions : List Execution
  /-- the successful responses, with their requests -/
  responses : List (ServiceRequest × Reply)

def Service.initial : Service := ⟨.empty, .empty, .idle, 0, [], []⟩

inductive ServiceMove where
  | deliver (r : ServiceRequest) (elapsed : Nat)
  | operate (call : Call) (fresh : Fresh)
  | commit (elapsed : Nat)
  /-- the process dies, or the write of the journal fails -/
  | crash
  /-- another user of the Authority -/
  | other (e : Event)

/-- `abs(now - timestamp) > max_clock_skew_seconds` refuses a request. -/
def fresh (cfg : JournalConfig) (now timestamp : Time) : Bool :=
  decide (now - timestamp ≤ seconds cfg.maxClockSkew ∧ timestamp - now ≤ seconds cfg.maxClockSkew)

def Service.step (k : Crypto) (h : Digests) (cfg : JournalConfig) (w : Service) (m : ServiceMove) : Service :=
  match m, w.stage with
  | .deliver r elapsed, .idle =>
    let now := w.now + elapsed
    if fresh cfg now r.timestamp then
      match claim h cfg w.journal r (wholeSeconds now) with
      | .refused _ => { w with now }
      | .replayed journal response => { w with now, journal, responses := w.responses ++ [(r, response)] }
      | .claimed journal => { w with now, journal, stage := .claimed r }
    else { w with now }
  | .operate call x, .claimed r =>
    match exec k w.store ⟨call, r.op.method x⟩ with
    -- the pending row is retained
    | (_, .raised _) => { w with stage := .idle }
    | (store, response) =>
      { w with store, stage := .executed r response, executions := w.executions ++ [⟨r, w.store, store⟩] }
  | .commit elapsed, .executed r response =>
    let now := w.now + elapsed
    match commitResponse h w.journal r response (wholeSeconds now) with
    | none => { w with now, stage := .idle }
    | some journal => { w with now, journal, stage := .idle, responses := w.responses ++ [(r, response)] }
  | .crash, _ => { w with stage := .idle }
  | .other e, _ => { w with store := Authority.step k w.store e }
  | _, _ => w

variable {k : Crypto} {h : Digests} {cfg : JournalConfig} {rs : Set ServiceRequest}

/-! Operations that may run twice -/

/-- The operations that find what an earlier run of theirs wrote. -/
def ServiceOp.repeatable : ServiceOp → Bool
  | .entitlement _ | .entitlementRead _ _ _ | .revocation _ | .revocationRead _ _ _ => true
  | .activationComplete _ _ | .giftClaimComplete _ _ | .giftRevoke _ => true
  | .activationChallenge _ _ | .giftCreate _ _ _ _ | .giftRecover _ | .giftDeactivate _ _ | .giftClaimChallenge _ _ _ => false

def Consumed (s : Store) (challengeId : String) : Prop :=
  ∃ row, s.challenges.get challengeId = some row ∧ row.consumedAt.isSome

def Written (s : Store) : ServiceOp → Prop
  | .entitlement a => ∃ e l, priorEntitlement s a.source a.sourceId = some (e, l)
  | .revocation a => ∃ r, s.revocations.get (a.source, a.sourceId) = some r
  | .activationComplete challengeId _ | .giftClaimComplete challengeId _ => Consumed s challengeId
  | .giftRevoke giftId => ∃ row, normalizeUuid giftId = some row.giftId ∧ s.gifts.get row.giftId = some row ∧ row.status = .revoked
  | .entitlementRead _ _ _ | .revocationRead _ _ _ => True
  | .activationChallenge _ _ | .giftCreate _ _ _ _ | .giftRecover _ | .giftDeactivate _ _ | .giftClaimChallenge _ _ _ => False

variable {s s' : Store} {challengeId : String} {op : ServiceOp} {skew : Int} {w w' : Service} {r : ServiceRequest}
  {journal journal' : RequestJournal}

theorem Consumed.later (hc : Consumed s challengeId) (hlater : Later s.core s'.core) :
    Consumed s' challengeId := by
  obtain ⟨row, hrow, hconsumed⟩ := hc
  obtain ⟨row', hrow', hl⟩ := hlater.challenges _ row hrow
  exact ⟨row', hrow', (hl.consumed hconsumed).1⟩

theorem Written.later (hw : Written s op) (hlater : Later s.core s'.core) : Written s' op := by
  cases op with
  | entitlement =>
    obtain ⟨e, l, hprior⟩ := hw
    obtain ⟨he, hl⟩ := priorEntitlement_some.mp hprior
    obtain ⟨e', he', rfl⟩ := hlater.entitlements _ e he
    obtain ⟨l', hl', -⟩ := hlater.licenses _ l hl
    exact ⟨e, l', priorEntitlement_some.mpr ⟨he', hl'⟩⟩
  | revocation =>
    obtain ⟨r, hr⟩ := hw
    obtain ⟨r', hr', -⟩ := hlater.revocations _ r hr
    exact ⟨r', hr'⟩
  | activationComplete | giftClaimComplete => exact Consumed.later hw hlater
  | giftRevoke giftId =>
    obtain ⟨row, hid, hrow, hrevoked⟩ := hw
    obtain ⟨row', hrow', hl⟩ := hlater.gifts _ row hrow
    have hkey : row'.giftId = row.giftId := get_key hrow'
    exact ⟨row', by rw [hkey]; exact hid, by rw [hkey]; exact hrow', hl.revoked hrevoked⟩
  | entitlementRead | revocationRead => exact trivial
  | activationChallenge | giftCreate | giftRecover | giftDeactivate | giftClaimChallenge => exact hw

theorem answer_same {α : Type} {f : α → Reply} {x : Except Err (Store × α)} (hx : ∀ s' a, x = .ok (s', a) → s' = s) :
    (answer f s x).1 = s := by
  cases x with
  | error => rfl
  | ok p => exact hx p.1 p.2 rfl

theorem Consumed.unchanged (hc : Consumed s challengeId) (call : Call)
    (proof activationId : String) (expected : FlowKind) :
    (exec k s ⟨call, .activateChallenge challengeId proof expected activationId⟩).1 = s := by
  obtain ⟨row, hrow, hconsumed⟩ := hc
  refine answer_same ?_
  intro s' cert hok
  obtain ⟨row', lic, hrow', -, -, -, ⟨-, hsame, -⟩ | ⟨hopen, -⟩⟩ := activateChallenge_ok hok
  · exact hsame
  · rw [hrow] at hrow'
    cases hrow'
    rw [hopen] at hconsumed
    cases hconsumed

/-- An operation that finds its write changes nothing. -/
theorem Written.unchanged (hw : Written s op) (call : Call) (x : Fresh) :
    (exec k s ⟨call, op.method x⟩).1 = s := by
  cases op with
  | entitlement =>
    obtain ⟨e, l, hprior⟩ := hw
    refine answer_same ?_
    intro s' r hok
    obtain ⟨-, -, ⟨-, -, -, -, -, -, -, hsame, -⟩ | ⟨-, -, -, hnone, -⟩⟩ := createExternalEntitlement_ok hok
    · exact hsame
    · rw [hprior] at hnone
      cases hnone
  | revocation =>
    obtain ⟨prior, hprior⟩ := hw
    refine answer_same ?_
    intro s' r hok
    obtain ⟨-, -, row, -, -, -, ⟨-, -, hsame, -⟩ | ⟨-, -, hnone, -⟩⟩ := revokeExternalEntitlement_ok hok
    · exact hsame
    · rw [hprior] at hnone
      cases hnone
  | activationComplete challengeId proof => exact Consumed.unchanged hw call proof x.activationId .payment
  | giftClaimComplete challengeId proof => exact Consumed.unchanged hw call proof x.activationId .gift
  | giftRevoke =>
    obtain ⟨row, hid, hrow, hrevoked⟩ := hw
    refine answer_same ?_
    intro s' u hok
    obtain ⟨row', hid', hrow', ⟨-, hsame⟩ | ⟨hactive, -⟩⟩ := revokeGift_ok hok
    · exact hsame
    · rw [hid] at hid'
      rw [Option.some.inj hid', hrow'] at hrow
      cases hrow
      rw [hactive] at hrevoked
      cases hrevoked
  | entitlementRead => exact answer_read _
  | revocationRead => exact answer_read _
  | activationChallenge | giftCreate | giftRecover | giftDeactivate | giftClaimChallenge => exact absurd hw id

theorem answer_result {α : Type} {f : α → Reply} {x : Except Err (Store × α)}
    (hx : ∀ e, (answer f s x).2 ≠ .raised e) : ∃ a, x = .ok ((answer f s x).1, a) := by
  cases x with
  | error e => exact absurd rfl (hx e)
  | ok p => exact ⟨p.2, rfl⟩

theorem activateChallenge_consumed {call : Call} {proof activationId : String} {expected : FlowKind}
    {cert : Certificate} (hok : activateChallenge k call challengeId proof expected activationId s = .ok (s', cert)) :
    Consumed s' challengeId := by
  obtain ⟨row, lic, hrow, -, -, -, ⟨hconsumed, rfl, -⟩ | ⟨-, -, s₁, h₁, rfl⟩⟩ := activateChallenge_ok hok
  · exact ⟨row, hrow, hconsumed⟩
  · obtain ⟨deviceId, lic', -, -, -, hobtained⟩ := activateInTransaction_ok h₁
    refine ⟨row.complete (call.clk 0) (k.sha256 (.text proof)) cert, ?_, rfl⟩
    simp only [completeChallenge, hobtained.challenges]
    exact get_modify_self Challenge.complete_key hrow

/-- A run that did not raise has written. -/
theorem exec_written (hop : op.repeatable = true) (call : Call) (x : Fresh)
    (hok : ∀ e, (exec k s ⟨call, op.method x⟩).2 ≠ .raised e) : Written (exec k s ⟨call, op.method x⟩).1 op := by
  cases op with
  | entitlement =>
    obtain ⟨r, hr⟩ := answer_result hok
    obtain ⟨e, l, -, hprior, -⟩ := createExternalEntitlement_acked hr
    exact ⟨e, l, hprior⟩
  | revocation a =>
    obtain ⟨r, hr⟩ := answer_result hok
    obtain ⟨-, -, row, -, -, -, ⟨prior, hprior, hsame, -⟩ | ⟨signature, tv, -, -, -, hi, hcore, -, -⟩⟩ :=
      revokeExternalEntitlement_ok hr
    · exact ⟨prior, by rw [← hsame] at hprior; exact hprior⟩
    · have hrevocations := congrArg Core.revocations hcore
      exact ⟨_, (congrArg (fun t => Table.get t (a.source, a.sourceId)) hrevocations).trans (get_insert_self hi)⟩
  | activationComplete =>
    obtain ⟨r, hr⟩ := answer_result hok
    exact activateChallenge_consumed hr
  | giftClaimComplete =>
    obtain ⟨r, hr⟩ := answer_result hok
    exact activateChallenge_consumed hr
  | giftRevoke giftId =>
    obtain ⟨u, hr⟩ := answer_result hok
    obtain ⟨row, hid, hrow, ⟨hrevoked, hsame⟩ | ⟨hactive, hcore⟩⟩ := revokeGift_ok hr
    · exact ⟨row, hid, by rw [← hsame] at hrow; exact hrow, hrevoked⟩
    · have hgifts := congrArg Core.gifts hcore
      exact ⟨row.revoke (call.clk 0), hid,
        (congrArg (fun t => Table.get t row.giftId) hgifts).trans (get_modify_self Gift.revoke_key hrow), rfl⟩
  | entitlementRead | revocationRead => exact trivial
  | activationChallenge | giftCreate | giftRecover | giftDeactivate | giftClaimChallenge => cases hop

/-! The invariant -/

/-- The request has its response in the journal, or is too old to be accepted again. A row
of a request is committed after the request was first accepted. -/
def Finished (h : Digests) (cfg : JournalConfig) (w : Service) (r : ServiceRequest) (response : Reply) : Prop :=
  (∃ row committedAt, w.journal.get (h.key r.subject r.nonce) = some row ∧ row.binding = h.binding r ∧
    row.state = .committed committedAt response ∧
    r.timestamp - seconds cfg.maxClockSkew < seconds (committedAt + 1)) ∨
  r.timestamp + seconds cfg.maxClockSkew < w.now

/-- The pending row of the request that is served. -/
structure Serving (h : Digests) (cfg : JournalConfig) (rs : Set ServiceRequest) (w : Service) (r : ServiceRequest) : Prop where
  delivered : r ∈ rs
  row : ∃ row leaseUntil, w.journal.get (h.key r.subject r.nonce) = some row ∧ row.binding = h.binding r ∧
    row.state = .pending leaseUntil
  accepted : r.timestamp - seconds cfg.maxClockSkew ≤ w.now
  unanswered : ∀ x ∈ w.responses, x.1 ≠ r

def Stage.Holds (h : Digests) (cfg : JournalConfig) (rs : Set ServiceRequest) (w : Service) : Stage → Prop
  | .idle => True
  | .claimed r => Serving h cfg rs w r ∧ ∀ x ∈ w.executions, x.request = r → x.after ≠ x.before → Written w.store r.op
  | .executed r _ => Serving h cfg rs w r ∧ (r.op.repeatable = true → Written w.store r.op)

/-- An execution that changed the database is not repeated: it finds its write, or its
request is the one being served, or finished. -/
def Safe (h : Digests) (cfg : JournalConfig) (w : Service) (r : ServiceRequest) : Prop :=
  Written w.store r.op ∨ (∃ response, w.stage = .executed r response) ∨ ∃ response, Finished h cfg w r response

/-- The invariant, with the requests that are delivered at all. -/
structure Journalled (h : Digests) (cfg : JournalConfig) (rs : Set ServiceRequest) (w : Service) : Prop where
  /-- a committed row belongs to a request that was accepted before it was committed -/
  rows : ∀ key row committedAt response, w.journal.get key = some row → row.state = .committed committedAt response →
    ∃ r ∈ rs, row.binding = h.binding r ∧ r.timestamp - seconds cfg.maxClockSkew < seconds (committedAt + 1)
  responses : ∀ x ∈ w.responses, Finished h cfg w x.1 x.2
  agree : ∀ x ∈ w.responses, ∀ y ∈ w.responses, x.1 = y.1 → x.2 = y.2
  executions : ∀ x ∈ w.executions, x.after ≠ x.before → Safe h cfg w x.request
  once : w.executions.Pairwise (fun x y => x.request = y.request → x.after ≠ x.before → y.after = y.before)
  stage : w.stage.Holds h cfg rs w

theorem Journalled.initial : Journalled h cfg rs Service.initial where
  rows := by simp [Service.initial]
  responses := by simp [Service.initial]
  agree := by simp [Service.initial]
  executions := by simp [Service.initial]
  once := List.Pairwise.nil
  stage := trivial

theorem purged_too_old {committedAt retention : Int} (hret : 3600 ≤ retention) (hskew : skew ≤ 900)
    (hpurged : committedAt < now / 1000000 - retention)
    (hlate : timestamp - skew * 1000000 < (committedAt + 1) * 1000000) : timestamp + skew * 1000000 < now := by
  omega

theorem not_fresh_of_late (hfresh : now - timestamp ≤ skew) : ¬ timestamp + skew < now := by
  omega

theorem Finished.purged (hf : Finished h cfg w r response) (hnow : w.now ≤ w'.now)
    (hjournal : w'.journal = w.journal.keep (JournalRow.retained cfg (wholeSeconds w'.now))) : Finished h cfg w' r response := by
  rcases hf with ⟨row, committedAt, hrow, hbinding, hstate, hlate⟩ | hold
  · by_cases hkept : row.retained cfg (wholeSeconds w'.now) = true
    · refine .inl ⟨row, committedAt, ?_, hbinding, hstate, hlate⟩
      rw [hjournal]
      exact get_keep.mpr ⟨hrow, hkept⟩
    · right
      simp only [JournalRow.retained, hstate, decide_eq_true_eq] at hkept
      exact purged_too_old cfg.retention_ge cfg.skew_le (not_le.mp hkept) hlate
  · exact .inr (lt_of_lt_of_le hold hnow)

theorem Finished.row (hf : Finished h cfg w r response)
    (hfresh : fresh cfg w.now r.timestamp = true) :
    ∃ row committedAt, w.journal.get (h.key r.subject r.nonce) = some row ∧ row.state = .committed committedAt response := by
  rcases hf with ⟨row, committedAt, hrow, -, hstate, -⟩ | hold
  · exact ⟨row, committedAt, hrow, hstate⟩
  · simp only [fresh, decide_eq_true_eq] at hfresh
    exact absurd hold (not_fresh_of_late hfresh.1)

theorem Finished.frame (hf : Finished h cfg w r response) (hnow : w.now ≤ w'.now)
    (hrows : ∀ row committedAt, w.journal.get (h.key r.subject r.nonce) = some row →
      row.state = .committed committedAt response → w'.journal.get (h.key r.subject r.nonce) = some row) :
    Finished h cfg w' r response := by
  rcases hf with ⟨row, committedAt, hrow, hbinding, hstate, hlate⟩ | hold
  · exact .inl ⟨row, committedAt, hrows row committedAt hrow hstate, hbinding, hstate, hlate⟩
  · exact .inr (lt_of_lt_of_le hold hnow)

/-! What each step keeps -/

/-- A step that adds no execution and no response. -/
theorem Journalled.carry (hw : Journalled h cfg rs w)
    (hfinished : ∀ r response, Finished h cfg w r response → Finished h cfg w' r response)
    (hrows : ∀ key row committedAt response, w'.journal.get key = some row → row.state = .committed committedAt response →
      ∃ r ∈ rs, row.binding = h.binding r ∧ r.timestamp - seconds cfg.maxClockSkew < seconds (committedAt + 1))
    (hstore : Later w.store.core w'.store.core) (hresponses : w'.responses = w.responses)
    (hexecutions : w'.executions = w.executions)
    (hleft : ∀ r response, w.stage = .executed r response → Safe h cfg w' r) (hstage : w'.stage.Holds h cfg rs w') :
    Journalled h cfg rs w' where
  rows := hrows
  responses := by
    rw [hresponses]
    exact fun x hx => hfinished x.1 x.2 (hw.responses x hx)
  agree := by
    rw [hresponses]
    exact hw.agree
  executions := by
    rw [hexecutions]
    intro x hx hchanged
    rcases hw.executions x hx hchanged with hwritten | ⟨response, hx⟩ | ⟨response, hf⟩
    · exact .inl (hwritten.later hstore)
    · exact hleft x.request response hx
    · exact .inr (.inr ⟨response, hfinished x.request response hf⟩)
  once := by
    rw [hexecutions]
    exact hw.once
  stage := hstage

/-- A response that agrees with those given before. -/
theorem Journalled.respond (hw : Journalled h cfg rs w)
    (hidle : w.stage = .idle) (hf : Finished h cfg w r response)
    (hsame : ∀ x ∈ w.responses, x.1 = r → x.2 = response)
    (hw' : w' = { w with responses := w.responses ++ [(r, response)] }) : Journalled h cfg rs w' := by
  subst hw'
  refine ⟨hw.rows, ?_, ?_, hw.executions, hw.once, ?_⟩
  · intro x hx
    rcases List.mem_append.mp hx with hx | hx
    · exact hw.responses x hx
    · rw [List.mem_singleton.mp hx]
      exact hf
  · intro x hx y hy hxy
    rcases List.mem_append.mp hx with hx | hx <;> rcases List.mem_append.mp hy with hy | hy
    · exact hw.agree x hx y hy hxy
    · rw [List.mem_singleton.mp hy] at hxy ⊢
      exact hsame x hx hxy
    · rw [List.mem_singleton.mp hx] at hxy ⊢
      exact (hsame y hy hxy.symm).symm
    · rw [List.mem_singleton.mp hx, List.mem_singleton.mp hy]
  · simp only [hidle]
    exact trivial

theorem Journalled.wait (hw : Journalled h cfg rs w) (hidle : w.stage = .idle) (elapsed : Nat) :
    Journalled h cfg rs { w with now := w.now + elapsed } := by
  have hnow : w.now ≤ w.now + elapsed := Int.le_add_of_nonneg_right (Int.natCast_nonneg _)
  refine hw.carry (fun r response hf => hf.frame hnow (fun _ _ hrow _ => hrow)) hw.rows (Later.refl _) rfl rfl ?_ ?_
  · intro r response hexecuted
    rw [hidle] at hexecuted
    cases hexecuted
  · simp only [hidle]
    exact trivial

theorem Journalled.purge (hw : Journalled h cfg rs w) (hidle : w.stage = .idle) (elapsed : Nat) :
    Journalled h cfg rs { w with
      now := w.now + elapsed, journal := w.journal.keep (JournalRow.retained cfg (wholeSeconds (w.now + elapsed))) } := by
  have hnow : w.now ≤ w.now + elapsed := Int.le_add_of_nonneg_right (Int.natCast_nonneg _)
  refine hw.carry (fun r response hf => hf.purged hnow rfl) ?_ (Later.refl _) rfl rfl ?_ ?_
  · intro key row committedAt response hrow hstate
    exact hw.rows key row committedAt response (get_keep.mp hrow).1 hstate
  · intro r response hexecuted
    rw [hidle] at hexecuted
    cases hexecuted
  · simp only [hidle]
    exact trivial

/-! Claims -/

theorem claim_replayed (hc : claim h cfg journal r now = .replayed journal' response) :
    journal' = journal.keep (JournalRow.retained cfg now) ∧ ∃ row committedAt,
      journal'.get (h.key r.subject r.nonce) = some row ∧ row.binding = h.binding r ∧
      row.state = .committed committedAt response := by
  unfold claim at hc
  dsimp only at hc
  split at hc
  · rename_i row hrow
    split at hc
    · cases hc
    · rename_i hbinding
      split at hc
      · rename_i committedAt response' hstate
        cases hc
        exact ⟨rfl, row, committedAt, hrow, not_not.mp hbinding, hstate⟩
      · split at hc <;> cases hc
  · split at hc
    · cases hc
    · split at hc <;> cases hc

/-- A claim writes the pending row of the request, where no committed one stands. -/
theorem claim_claimed (hc : claim h cfg journal r now = .claimed journal') :
    (∀ row, (journal.keep (JournalRow.retained cfg now)).get (h.key r.subject r.nonce) = some row →
      ∃ leaseUntil, row.state = .pending leaseUntil) ∧
    (∃ row leaseUntil, journal'.get (h.key r.subject r.nonce) = some row ∧ row.binding = h.binding r ∧
      row.state = .pending leaseUntil) ∧
    ∀ key, key ≠ h.key r.subject r.nonce → journal'.get key = (journal.keep (JournalRow.retained cfg now)).get key := by
  unfold claim at hc
  dsimp only at hc
  split at hc
  · rename_i row hrow
    split at hc
    · cases hc
    · rename_i hbinding
      split at hc
      · cases hc
      · rename_i leaseUntil hstate
        split at hc
        · cases hc
        · cases hc
          refine ⟨?_, ⟨_, now + cfg.lease, get_modify_self JournalRow.renew_key hrow, not_not.mp hbinding, rfl⟩, ?_⟩
          · intro row' hrow'
            rw [hrow] at hrow'
            cases hrow'
            exact ⟨leaseUntil, hstate⟩
          · intro key hkey
            exact get_modify_ne JournalRow.renew_key hkey
  · rename_i hnone
    split at hc
    · cases hc
    · split at hc
      · cases hc
      · rename_i t hi
        cases hc
        refine ⟨?_, ⟨_, now + cfg.lease, get_insert_self hi, rfl, rfl⟩, ?_⟩
        · intro row' hrow'
          rw [hnone] at hrow'
          cases hrow'
        · intro key hkey
          rw [get_insert hi, if_neg hkey]

theorem Journalled.deliver (hbinding : Set.InjOn h.binding rs) (hw : Journalled h cfg rs w)
    (hidle : w.stage = .idle) (hr : r ∈ rs) (elapsed : Nat) :
    Journalled h cfg rs (w.step k h cfg (.deliver r elapsed)) := by
  have hwait := hw.wait hidle elapsed
  have hpurged := hw.purge hidle elapsed
  obtain ⟨store, journal, stage, clock, executions, responses⟩ := w
  cases hidle
  simp only [Service.step]
  dsimp only at hwait hpurged
  generalize clock + (elapsed : Int) = now at hwait hpurged ⊢
  split
  · rename_i hfresh
    split
    · exact hwait
    · rename_i journal' response hc
      obtain ⟨rfl, row, committedAt, hrow, hrowbinding, hstate⟩ := claim_replayed hc
      obtain ⟨r₀, hmem, hr₀, hlate⟩ := hpurged.rows _ row committedAt response hrow hstate
      have hsame : r₀ = r := hbinding hmem hr (hr₀.symm.trans hrowbinding)
      subst hsame
      refine hpurged.respond rfl (.inl ⟨row, committedAt, hrow, hrowbinding, hstate, hlate⟩) ?_ rfl
      -- what was answered before is in the same row
      intro x hx hxr
      have hf := hpurged.responses x hx
      rw [hxr] at hf
      obtain ⟨row', committedAt', hrow', hstate'⟩ := hf.row hfresh
      rw [show _ = some row from hrow] at hrow'
      cases hrow'
      rw [hstate] at hstate'
      cases hstate'
      rfl
    · rename_i journal' hc
      obtain ⟨hpending, hclaimed, hothers⟩ := claim_claimed hc
      -- a finished request has a committed row, and the claim found none
      have hunfinished : ∀ response, ¬ Finished h cfg
          ⟨store, journal.keep (JournalRow.retained cfg (wholeSeconds now)), .idle, now, executions, responses⟩ r response := by
        intro response hf
        obtain ⟨row, committedAt, hrow, hstate⟩ := hf.row hfresh
        obtain ⟨leaseUntil, hp⟩ := hpending row hrow
        rw [hstate] at hp
        cases hp
      refine hpurged.carry ?_ ?_ (Later.refl _) rfl rfl ?_ ⟨⟨hr, hclaimed, ?_, ?_⟩, ?_⟩
      · intro r' response hf
        refine hf.frame (le_refl _) ?_
        intro row committedAt hrow hstate
        by_cases hkey : h.key r'.subject r'.nonce = h.key r.subject r.nonce
        · rw [hkey] at hrow
          obtain ⟨leaseUntil, hp⟩ := hpending row hrow
          rw [hstate] at hp
          cases hp
        · exact (hothers _ hkey).trans hrow
      · intro key row committedAt response hrow hstate
        by_cases hkey : key = h.key r.subject r.nonce
        · subst hkey
          obtain ⟨row', leaseUntil, hrow', -, hp⟩ := hclaimed
          rw [show _ = some row from hrow] at hrow'
          cases hrow'
          rw [hstate] at hp
          cases hp
        · exact hpurged.rows key row committedAt response ((hothers key hkey).symm.trans hrow) hstate
      · intro r' response hexecuted
        cases hexecuted
      · simp only [fresh, decide_eq_true_eq] at hfresh
        exact Int.sub_le_of_sub_le hfresh.2
      · intro x hx hxr
        have hf := hpurged.responses x hx
        rw [hxr] at hf
        exact hunfinished _ hf
      · intro x hx hxr hchanged
        rcases hpurged.executions x hx hchanged with hwritten | ⟨response, hexecuted⟩ | ⟨response, hf⟩
        · rw [← hxr]
          exact hwritten
        · cases hexecuted
        · rw [hxr] at hf
          exact absurd hf (hunfinished response)
  · exact hwait

theorem Serving.same (hs : Serving h cfg rs w r) (hjournal : w'.journal = w.journal)
    (hnow : w'.now = w.now) (hresponses : w'.responses = w.responses) : Serving h cfg rs w' r where
  delivered := hs.delivered
  row := by
    rw [hjournal]
    exact hs.row
  accepted := by
    rw [hnow]
    exact hs.accepted
  unanswered := by
    rw [hresponses]
    exact hs.unanswered

theorem Journalled.other (hw : Journalled h cfg rs w) (e : Event) :
    Journalled h cfg rs { w with store := Authority.step k w.store e } := by
  have hlater := step_later k w.store e
  refine hw.carry (fun _ _ hf => hf) hw.rows hlater rfl rfl (fun r response hx => .inr (.inl ⟨response, hx⟩)) ?_
  have hstage := hw.stage
  show w.stage.Holds h cfg rs _
  cases hx : w.stage with
  | idle => exact trivial
  | claimed =>
    rw [hx] at hstage
    exact ⟨hstage.1.same rfl rfl rfl, fun x hx hr hchanged => (hstage.2 x hx hr hchanged).later hlater⟩
  | executed =>
    rw [hx] at hstage
    exact ⟨hstage.1.same rfl rfl rfl, fun hop => (hstage.2 hop).later hlater⟩

theorem Journalled.leave (hw : Journalled h cfg rs w)
    (hrepeatable : ∀ r response, w.stage = .executed r response → r.op.repeatable = true) :
    Journalled h cfg rs { w with stage := .idle } := by
  refine hw.carry (fun _ _ hf => hf) hw.rows (Later.refl _) rfl rfl ?_ trivial
  intro r response hx
  have hstage := hw.stage
  rw [hx] at hstage
  exact .inl (hstage.2 (hrepeatable r response hx))

/-- The operation runs on the database: it changes nothing if an earlier run of it did. -/
theorem Journalled.operate (hw : Journalled h cfg rs w) (hclaimed : w.stage = .claimed r)
    (call : Call) (x : Fresh) : Journalled h cfg rs (w.step k h cfg (.operate call x)) := by
  have hstage := hw.stage
  rw [hclaimed] at hstage
  obtain ⟨hserving, hwritten⟩ := hstage
  have hraised := hw.leave (fun r' response hx => by rw [hclaimed] at hx; cases hx)
  have hlater := step_later k w.store ⟨call, r.op.method x⟩
  obtain ⟨store, journal, stage, clock, executions, responses⟩ := w
  cases hclaimed
  simp only [Service.step]
  split
  · exact hraised
  · rename_i store' response hnot hexec
    have hstore : (exec k store ⟨call, r.op.method x⟩).1 = store' := by rw [hexec]
    have hok : ∀ e, (exec k store ⟨call, r.op.method x⟩).2 ≠ .raised e := by
      intro e he
      rw [hexec] at he
      exact hnot e he
    have hlater' : Later store.core store'.core := hstore ▸ hlater
    refine ⟨hw.rows, hw.responses, hw.agree, ?_, ?_, hserving.same rfl rfl rfl, ?_⟩
    · intro y hy hchanged
      rcases List.mem_append.mp hy with hy | hy
      · rcases hw.executions y hy hchanged with hwr | ⟨response', hx⟩ | hf
        · exact .inl (hwr.later hlater')
        · cases hx
        · exact .inr (.inr hf)
      · rw [List.mem_singleton.mp hy]
        exact .inr (.inl ⟨response, rfl⟩)
    · refine List.pairwise_append.mpr ⟨hw.once, List.pairwise_singleton _ _, ?_⟩
      intro y hy z hz hyz hchanged
      rw [List.mem_singleton.mp hz] at hyz ⊢
      rw [← hstore]
      exact (hwritten y hy hyz hchanged).unchanged call x
    · intro hop
      rw [← hstore]
      exact exec_written hop call x hok

theorem Serving.commit (hs : Serving h cfg rs w r) (response : Reply) (now : Int) :
    ∃ row, w.journal.get (h.key r.subject r.nonce) = some row ∧ row.binding = h.binding r ∧
      (∀ committedAt v, row.state ≠ .committed committedAt v) ∧
      commitResponse h w.journal r response now =
        some (w.journal.modify (h.key r.subject r.nonce) (JournalRow.commit now response) JournalRow.commit_key) := by
  obtain ⟨row, leaseUntil, hrow, hbinding, hstate⟩ := hs.row
  refine ⟨row, hrow, hbinding, by simp [hstate], ?_⟩
  simp [commitResponse, hrow, hstate, hbinding]

theorem accepted_before_commit (elapsed : Nat) (haccepted : timestamp - skew ≤ now) :
    timestamp - skew < ((now + elapsed) / 1000000 + 1) * 1000000 := by
  omega

theorem Journalled.commit (hw : Journalled h cfg rs w)
    (hexecuted : w.stage = .executed r response) (elapsed : Nat) :
    Journalled h cfg rs (w.step k h cfg (.commit elapsed)) := by
  have hserving := hw.stage
  rw [hexecuted] at hserving
  have hserving := hserving.1
  obtain ⟨row, hrow, hbinding, huncommitted, hcommit⟩ := hserving.commit response (wholeSeconds (w.now + elapsed))
  have hunanswered := hserving.unanswered
  have hlate := accepted_before_commit elapsed hserving.accepted
  have hnow : w.now ≤ w.now + elapsed := Int.le_add_of_nonneg_right (Int.natCast_nonneg _)
  obtain ⟨store, journal, stage, clock, executions, responses⟩ := w
  cases hexecuted
  simp only [Service.step, hcommit]
  -- the committed row first, then the response
  obtain ⟨w', hw'⟩ : ∃ w' : Service, w' = ⟨store, journal.modify (h.key r.subject r.nonce)
      (JournalRow.commit (wholeSeconds (clock + elapsed)) response) JournalRow.commit_key, .idle, clock + elapsed, executions,
      responses⟩ := ⟨_, rfl⟩
  have hfinished : Finished h cfg w' r response := by
    subst hw'
    exact .inl ⟨_, _, get_modify_self JournalRow.commit_key hrow, hbinding, rfl, hlate⟩
  suffices hcommitted : Journalled h cfg rs w' by
    subst hw'
    exact hcommitted.respond rfl hfinished (fun x hx hxr => absurd hxr (hunanswered x hx)) rfl
  subst hw'
  refine hw.carry ?_ ?_ (Later.refl _) rfl rfl ?_ trivial
  · intro r' response' hf
    refine hf.frame hnow ?_
    intro row' committedAt hrow' hstate
    by_cases hkey : h.key r'.subject r'.nonce = h.key r.subject r.nonce
    · rw [hkey, show _ = some row from hrow] at hrow'
      cases hrow'
      exact absurd hstate (huncommitted _ _)
    · exact (get_modify_ne JournalRow.commit_key hkey).trans hrow'
  · intro key row' committedAt response' hrow' hstate
    rcases get_modify_cases JournalRow.commit_key hrow' with ⟨-, row₀, hrow₀, rfl⟩ | ⟨-, hold⟩
    · rw [show _ = some row from hrow] at hrow₀
      cases hrow₀
      cases hstate
      exact ⟨r, hserving.delivered, hbinding, hlate⟩
    · exact hw.rows key row' committedAt response' hold hstate
  · intro r' response' hx
    cases hx
    exact .inr (.inr ⟨response, hfinished⟩)

/-- The condition on a step: what dies between the two commits is repeatable. -/
def CrashesRepeatable (w : Service) (m : ServiceMove) : Prop :=
  match m, w.stage with
  | .crash, .executed r _ => r.op.repeatable = true
  | _, _ => True

theorem Journalled.step (hbinding : Set.InjOn h.binding rs) {m : ServiceMove} (hw : Journalled h cfg rs w)
    (hm : CrashesRepeatable w m) (hdelivered : ∀ r elapsed, m = .deliver r elapsed → r ∈ rs) :
    Journalled h cfg rs (w.step k h cfg m) := by
  cases m with
  | deliver r elapsed =>
    cases hx : w.stage with
    | idle => exact hw.deliver hbinding hx (hdelivered r elapsed rfl) elapsed
    | claimed | executed =>
      simp only [Service.step, hx]
      exact hw
  | operate call x =>
    cases hx : w.stage with
    | claimed => exact hw.operate hx call x
    | idle | executed =>
      simp only [Service.step, hx]
      exact hw
  | commit elapsed =>
    cases hx : w.stage with
    | executed => exact hw.commit hx elapsed
    | idle | claimed =>
      simp only [Service.step, hx]
      exact hw
  | crash =>
    refine hw.leave ?_
    intro r response hx
    simp only [CrashesRepeatable, hx] at hm
    exact hm
  | other e => exact hw.other e

theorem Journalled.run (hbinding : Set.InjOn h.binding rs) {ms : List ServiceMove} (hw : Journalled h cfg rs w)
    (hms : Along (Service.step k h cfg) CrashesRepeatable w ms) (hdelivered : ∀ r elapsed, .deliver r elapsed ∈ ms → r ∈ rs) :
    Journalled h cfg rs (Runs.run (Service.step k h cfg) w ms) := by
  induction ms generalizing w with
  | nil => exact hw
  | cons m ms ih =>
    obtain ⟨hm, hms⟩ := hms
    have hstep : Journalled h cfg rs (w.step k h cfg m) :=
      hw.step hbinding hm (fun r elapsed hr => hdelivered r elapsed (hr ▸ List.mem_cons_self))
    exact ih hstep hms (fun r elapsed hr => hdelivered r elapsed (List.mem_cons_of_mem m hr))

/-- In every run in which the process does not die between the two commits of a request
whose operation cannot be repeated, and no two of whose requests share a binding digest:
the executions of one request change the database at most once, and its responses are
equal. -/
theorem one_request_one_effect (k : Crypto) (h : Digests) (cfg : JournalConfig) (ms : List ServiceMove)
    (hbinding : Set.InjOn h.binding {r | ∃ elapsed, .deliver r elapsed ∈ ms})
    (hms : Along (Service.step k h cfg) CrashesRepeatable Service.initial ms) :
    ((run (Service.step k h cfg) Service.initial ms).executions.Pairwise
      (fun x y => x.request = y.request → x.after ≠ x.before → y.after = y.before)) ∧
    ∀ x ∈ (run (Service.step k h cfg) Service.initial ms).responses,
      ∀ y ∈ (run (Service.step k h cfg) Service.initial ms).responses, x.1 = y.1 → x.2 = y.2 := by
  have hw : Journalled h cfg _ (run (Service.step k h cfg) Service.initial ms) :=
    Journalled.initial.run hbinding hms (fun r elapsed hr => ⟨elapsed, hr⟩)
  exact ⟨hw.once, hw.agree⟩

namespace Demo

def digests : Digests := ⟨fun subject nonce => subject ++ nonce, fun r => r.nonce⟩

def journalConfig : JournalConfig := ⟨100, 3600, 60, 300, by decide, by decide, by decide⟩

def signed (op : ServiceOp) : ServiceRequest :=
  ⟨"payments", "payments-edge", "trusted-edge", "abcdefghijklmnop", 0, "g", "growthmap-authority", op⟩

def first : Fresh := ⟨"G1", "gm_1", "AAAAAAAAAAAAAAAAAAAAAAAAAAAAAAAA", "N", "C", "A"⟩

def second : Fresh := ⟨"G2", "gm_2", "BBBBBBBBBBBBBBBBBBBBBBBBBBBBBBBB", "N", "C", "A"⟩

/-- The process dies before the journal is committed; a minute later the request comes
again, is executed and committed, and comes a third time. -/
def diesOnce (op : ServiceOp) : List ServiceMove :=
  [.other (event 0 .pinCeremony), .deliver (signed op) 0, .operate (event 1 .pinCeremony).call first, .crash,
    .deliver (signed op) 61000000, .operate (event 2 .pinCeremony).call second, .commit 0, .deliver (signed op) 1]

end Demo

/-- An entitlement whose creation is executed twice has one effect, and two equal responses. -/
theorem purchase_executed_twice :
    (run (Service.step Demo.crypto Demo.digests Demo.journalConfig) Service.initial
      (Demo.diesOnce (.entitlement (Demo.purchase Demo.zeros)))).executions.length = 2 ∧
    (run (Service.step Demo.crypto Demo.digests Demo.journalConfig) Service.initial
      (Demo.diesOnce (.entitlement (Demo.purchase Demo.zeros)))).responses.length = 2 ∧
    ((run (Service.step Demo.crypto Demo.digests Demo.journalConfig) Service.initial
      (Demo.diesOnce (.entitlement (Demo.purchase Demo.zeros)))).executions.Pairwise
        (fun x y => x.request = y.request → x.after ≠ x.before → y.after = y.before)) := by
  refine ⟨by decide +kernel, by decide +kernel, (one_request_one_effect Demo.crypto Demo.digests Demo.journalConfig _ ?_ ?_).1⟩
  · intro r hr r' hr' _
    obtain ⟨elapsed, hr⟩ := hr
    obtain ⟨elapsed', hr'⟩ := hr'
    simp only [Demo.diesOnce, List.mem_cons, List.not_mem_nil, reduceCtorEq, ServiceMove.deliver.injEq, false_or, or_false] at hr hr'
    have hone : r = Demo.signed (.entitlement (Demo.purchase Demo.zeros)) := by
      rcases hr with hr | hr | hr <;> exact hr.1
    have htwo : r' = Demo.signed (.entitlement (Demo.purchase Demo.zeros)) := by
      rcases hr' with hr' | hr' | hr' <;> exact hr'.1
    rw [hone, htwo]
  · exact ⟨trivial, trivial, trivial, rfl, trivial, trivial, trivial, trivial, trivial⟩

/-- The same run for a gift: two gifts for one request. -/
theorem gift_created_twice :
    ¬ ((run (Service.step Demo.crypto Demo.digests Demo.journalConfig) Service.initial
      (Demo.diesOnce (.giftCreate "personal" 1 2 30))).executions.Pairwise
        (fun x y => x.request = y.request → x.after ≠ x.before → y.after = y.before)) := by
  intro hp
  have hsecond := List.pairwise_iff_getElem.mp hp 0 1 (by decide +kernel) (by decide +kernel) (by decide) rfl
  have hnone := hsecond (fun hsame => absurd (congrArg (fun s : Store => s.gifts.rows.length) hsame) (by decide +kernel))
  exact absurd (congrArg (fun s : Store => s.gifts.rows.length) hnone) (by decide +kernel)

end GrowthMap.Authority
