import GrowthMap.Authority.Journal

/- What the request journal forgets, and what it keeps.

   A committed row is purged when it is older than the retention, which is more than twice
   the skew that is accepted: by then its request is too old to come back. So a request
   whose response was committed is never served again, whatever crashes in between. A
   pending row is kept whatever its age, until its own request is executed and committed: it
   is what a retry of a failed request finds. Nothing else takes it away, so pending rows
   count against the capacity of the journal without end. -/
namespace GrowthMap.Authority

open Relational Runs Table
open Payments (Time seconds)

variable {k : Crypto} {h : Digests} {cfg : JournalConfig}

def Stage.request : Stage → Option ServiceRequest
  | .idle => none
  | .claimed r => some r
  | .executed r _ => some r

def JournalRow.writtenAt (cfg : JournalConfig) (row : JournalRow) : Int :=
  match row.state with
  | .pending leaseUntil => leaseUntil - cfg.lease
  | .committed committedAt _ => committedAt

/-- The purge of a delivery stands: the request is fresh, and its claim is not rolled back. -/
def Purges (h : Digests) (cfg : JournalConfig) (w : Service) (r : ServiceRequest) (elapsed : Nat) : Prop :=
  w.stage = .idle ∧ fresh cfg (w.now + elapsed) r.timestamp = true ∧
    ∀ e, claim h cfg w.journal r (wholeSeconds (w.now + elapsed)) ≠ .refused e

def NothingOlder (cfg : JournalConfig) (w : Service) : Prop :=
  ∀ row ∈ w.journal.rows, wholeSeconds w.now - cfg.retention ≤ row.writtenAt cfg

/-- What the journal forgets and keeps, from a state on. -/
structure Retains (k : Crypto) (h : Digests) (cfg : JournalConfig) (w : Service) : Prop where
  /-- once its response is committed, a request is never served again -/
  once : ∀ r response elapsed journal, w.stage = .executed r response →
    commitResponse h w.journal r response (wholeSeconds (w.now + (elapsed : Nat))) = some journal →
    ∀ ms, (run (Service.step k h cfg) w (.commit elapsed :: ms)).stage.request ≠ some r
  /-- a purge that stands leaves no committed row older than the retention -/
  purged : ∀ r elapsed, Purges h cfg w r elapsed → ∀ row ∈ (w.step k h cfg (.deliver r elapsed)).journal.rows,
    (∃ leaseUntil, row.state = .pending leaseUntil) ∨ wholeSeconds (w.now + elapsed) - cfg.retention ≤ row.writtenAt cfg
  /-- a pending row stays, until its own request is committed -/
  kept : ∀ m key row leaseUntil, w.journal.get key = some row → row.state = .pending leaseUntil →
    ∃ row', (w.step k h cfg m).journal.get key = some row' ∧ row'.binding = row.binding ∧
      ((∃ leaseUntil', row'.state = .pending leaseUntil') ∨
        ∃ r response, w.stage = .executed r response ∧ h.key r.subject r.nonce = key ∧ h.binding r = row.binding)

/-! Committed requests -/

def Done (h : Digests) (cfg : JournalConfig) (w : Service) (r : ServiceRequest) : Prop :=
  (∃ response, Finished h cfg w r response) ∧ w.stage.request ≠ some r

variable {w w' : Service} {r : ServiceRequest} {journal journal' : RequestJournal} {elapsed : Nat} {leaseUntil : Int}
  {response : Reply} {now : Int} {row : JournalRow} {key : String}

theorem Finished.wait (hf : Finished h cfg w r response)
    (hnow : w.now ≤ w'.now) (hjournal : w'.journal = w.journal) : Finished h cfg w' r response :=
  hf.frame hnow (fun row _ hrow _ => by rw [hjournal]; exact hrow)

theorem Finished.claimed {w w' : Service} {r r' : ServiceRequest} {response : Reply} (hf : Finished h cfg w r response)
    (hnow : w.now ≤ w'.now) (hc : claim h cfg w.journal r' (wholeSeconds w'.now) = .claimed w'.journal) :
    Finished h cfg w' r response := by
  obtain ⟨hpending, -, hothers⟩ := claim_claimed hc
  have hpurged : Finished h cfg { w' with journal := w.journal.keep (JournalRow.retained cfg (wholeSeconds w'.now)) } r response :=
    hf.purged hnow rfl
  refine hpurged.frame (le_refl _) ?_
  intro row committedAt hrow hstate
  have hkey : h.key r.subject r.nonce ≠ h.key r'.subject r'.nonce := by
    intro hsame
    rw [hsame] at hrow
    obtain ⟨leaseUntil, hp⟩ := hpending row hrow
    rw [hstate] at hp
    cases hp
  exact (hothers _ hkey).trans hrow

theorem Finished.not_claimed {now : Time}
    (hf : Finished h cfg w r response) (hnow : w.now ≤ now) (hfresh : fresh cfg now r.timestamp = true) :
    claim h cfg w.journal r (wholeSeconds now) ≠ .claimed journal := by
  intro hc
  have hpurged : Finished h cfg { w with now, journal := w.journal.keep (JournalRow.retained cfg (wholeSeconds now)) } r response :=
    hf.purged hnow rfl
  obtain ⟨row, committedAt, hrow, hstate⟩ := hpurged.row hfresh
  obtain ⟨leaseUntil, hp⟩ := (claim_claimed hc).1 row hrow
  rw [hstate] at hp
  cases hp

theorem commitResponse_ok (hc : commitResponse h journal r response now = some journal') :
    ∃ row leaseUntil, journal.get (h.key r.subject r.nonce) = some row ∧ row.state = .pending leaseUntil ∧
      row.binding = h.binding r ∧
      journal' = journal.modify (h.key r.subject r.nonce) (JournalRow.commit now response) JournalRow.commit_key := by
  unfold commitResponse at hc
  dsimp only at hc
  split at hc
  · cases hc
  · rename_i row hrow
    split at hc
    · cases hc
    · rename_i leaseUntil hstate
      split at hc
      · cases hc
      · rename_i hbinding
        cases hc
        exact ⟨row, leaseUntil, hrow, hstate, not_not.mp hbinding, rfl⟩

theorem Finished.committed {r' : ServiceRequest} {response' : Reply}
    (hf : Finished h cfg w r response) (hnow : w.now ≤ w'.now)
    (hc : commitResponse h w.journal r' response' now = some w'.journal) : Finished h cfg w' r response := by
  obtain ⟨row', leaseUntil, hrow', hpending, -, hjournal⟩ := commitResponse_ok hc
  refine hf.frame hnow ?_
  intro row committedAt hrow hstate
  have hkey : h.key r.subject r.nonce ≠ h.key r'.subject r'.nonce := by
    intro hsame
    rw [hsame, hrow'] at hrow
    cases hrow
    rw [hpending] at hstate
    cases hstate
  rw [hjournal]
  exact (get_modify_ne JournalRow.commit_key hkey).trans hrow

theorem le_elapsed (t : Time) (elapsed : Nat) : t ≤ t + elapsed := Int.le_add_of_nonneg_right (Int.natCast_nonneg _)

/-- A request that is done stays done, whatever happens. -/
theorem Done.step (hd : Done h cfg w r) (m : ServiceMove) : Done h cfg (w.step k h cfg m) r := by
  obtain ⟨⟨response, hf⟩, hstage⟩ := hd
  obtain ⟨store, journal, stage, now, executions, responses⟩ := w
  cases m with
  | deliver r' elapsed =>
    cases stage with
    | idle =>
      have hnow := le_elapsed now elapsed
      simp only [Service.step]
      split
      · rename_i hfresh
        split
        · exact ⟨⟨response, hf.wait hnow rfl⟩, hstage⟩
        · rename_i journal' response' hc
          exact ⟨⟨response, hf.purged hnow (claim_replayed hc).1⟩, hstage⟩
        · rename_i journal' hc
          refine ⟨⟨response, hf.claimed hnow hc⟩, ?_⟩
          intro hsame
          cases hsame
          exact hf.not_claimed hnow hfresh hc
      · exact ⟨⟨response, hf.wait hnow rfl⟩, hstage⟩
    | claimed | executed => exact ⟨⟨response, hf⟩, hstage⟩
  | operate =>
    cases stage with
    | claimed =>
      simp only [Service.step]
      split
      · refine ⟨⟨response, hf.wait (le_refl _) rfl⟩, ?_⟩
        intro hsame
        cases hsame
      · exact ⟨⟨response, hf.wait (le_refl _) rfl⟩, hstage⟩
    | idle | executed => exact ⟨⟨response, hf⟩, hstage⟩
  | commit elapsed =>
    cases stage with
    | executed =>
      have hnow := le_elapsed now elapsed
      simp only [Service.step]
      split
      · refine ⟨⟨response, hf.wait hnow rfl⟩, ?_⟩
        intro hsame
        cases hsame
      · rename_i journal' hc
        refine ⟨⟨response, hf.committed hnow hc⟩, ?_⟩
        intro hsame
        cases hsame
    | idle | claimed => exact ⟨⟨response, hf⟩, hstage⟩
  | crash =>
    refine ⟨⟨response, hf.wait (le_refl _) rfl⟩, ?_⟩
    intro hsame
    cases hsame
  | other => exact ⟨⟨response, hf.wait (le_refl _) rfl⟩, hstage⟩

theorem Done.run (hd : Done h cfg w r) (ms : List ServiceMove) :
    Done h cfg (run (Service.step k h cfg) w ms) r := by
  induction ms generalizing w with
  | nil => exact hd
  | cons m ms ih => exact ih (hd.step m)

def ServesFresh (cfg : JournalConfig) (w : Service) : Prop :=
  ∀ r, w.stage.request = some r → r.timestamp - seconds cfg.maxClockSkew ≤ w.now

theorem ServesFresh.step (hw : ServesFresh cfg w) (m : ServiceMove) : ServesFresh cfg (w.step k h cfg m) := by
  have hidle : ∀ w' : Service, w'.stage = .idle → ServesFresh cfg w' := by
    intro w' hidle r hr
    rw [hidle] at hr
    cases hr
  obtain ⟨store, journal, stage, now, executions, responses⟩ := w
  cases m with
  | deliver =>
    cases stage with
    | idle =>
      simp only [Service.step]
      split
      · rename_i hfresh
        split
        · exact hidle _ rfl
        · exact hidle _ rfl
        · intro r hr
          cases hr
          simp only [fresh, decide_eq_true_eq] at hfresh
          exact Int.sub_le_of_sub_le hfresh.2
      · exact hidle _ rfl
    | claimed | executed => exact hw
  | operate =>
    cases stage with
    | claimed =>
      simp only [Service.step]
      split
      · exact hidle _ rfl
      · exact hw
    | idle | executed => exact hw
  | commit =>
    cases stage with
    | executed =>
      simp only [Service.step]
      split
      · exact hidle _ rfl
      · exact hidle _ rfl
    | idle | claimed => exact hw
  | crash => exact hidle _ rfl
  | other => exact hw

theorem servesFresh_run (ms : List ServiceMove) : ServesFresh cfg (run (Service.step k h cfg) Service.initial ms) := by
  refine Reachable.invariant (ServesFresh cfg) ?_ (fun w m hw => hw.step m) ⟨ms, rfl⟩
  intro r hr
  cases hr

theorem ServesFresh.done (hw : ServesFresh cfg w) (hstage : w.stage = .executed r response)
    (hc : commitResponse h w.journal r response (wholeSeconds (w.now + elapsed)) = some journal) :
    Done h cfg (w.step k h cfg (.commit elapsed)) r := by
  have haccepted := hw r (by rw [hstage]; rfl)
  obtain ⟨store, journal₀, stage, now, executions, responses⟩ := w
  cases hstage
  obtain ⟨row, leaseUntil, hrow, -, hbinding, hjournal⟩ := commitResponse_ok hc
  simp only [Service.step, hc]
  refine ⟨⟨response, .inl ⟨row.commit (wholeSeconds (now + elapsed)) response, wholeSeconds (now + elapsed), ?_, hbinding, rfl,
    accepted_before_commit elapsed haccepted⟩⟩, ?_⟩
  · show journal.get (h.key r.subject r.nonce) = _
    rw [hjournal]
    exact get_modify_self JournalRow.commit_key hrow
  · intro hsame
    cases hsame

/-! Purges -/

theorem retained_writtenAt (hr : row.retained cfg now = true) :
    (∃ leaseUntil, row.state = .pending leaseUntil) ∨ now - cfg.retention ≤ row.writtenAt cfg := by
  cases hstate : row.state with
  | pending leaseUntil => exact .inl ⟨leaseUntil, rfl⟩
  | committed =>
    right
    simp only [JournalRow.retained, hstate, decide_eq_true_eq] at hr
    simpa only [JournalRow.writtenAt, hstate] using hr

theorem claim_purges
    (hc : claim h cfg journal r now = .claimed journal' ∨ ∃ response, claim h cfg journal r now = .replayed journal' response) :
    ∀ row ∈ journal'.rows, (∃ leaseUntil, row.state = .pending leaseUntil) ∨ now - cfg.retention ≤ row.writtenAt cfg := by
  intro row hrow
  have hget := get_of_mem hrow
  rcases hc with hc | ⟨response, hc⟩
  · obtain ⟨-, ⟨own, leaseUntil, hown, -, hpending⟩, hothers⟩ := claim_claimed hc
    by_cases hkey : row.requestKey = h.key r.subject r.nonce
    · rw [hkey, hown] at hget
      cases hget
      exact .inl ⟨leaseUntil, hpending⟩
    · rw [hothers _ hkey] at hget
      exact retained_writtenAt (get_keep.mp hget).2
  · rw [(claim_replayed hc).1] at hget
    exact retained_writtenAt (get_keep.mp hget).2

theorem Purges.step (hp : Purges h cfg w r elapsed) :
    ∀ row ∈ (w.step k h cfg (.deliver r elapsed)).journal.rows,
      (∃ leaseUntil, row.state = .pending leaseUntil) ∨ wholeSeconds (w.now + elapsed) - cfg.retention ≤ row.writtenAt cfg := by
  obtain ⟨hidle, hfresh, hstands⟩ := hp
  obtain ⟨store, journal, stage, now, executions, responses⟩ := w
  cases hidle
  simp only [Service.step, hfresh, if_true]
  split
  · rename_i e hc
    exact absurd hc (hstands e)
  · rename_i journal' response hc
    exact claim_purges (.inr ⟨response, hc⟩)
  · rename_i journal' hc
    exact claim_purges (.inl hc)

/-! Pending rows -/

theorem claim_pending (hc : claim h cfg journal r now = .claimed journal')
    (hrow : journal.get key = some row) (hstate : row.state = .pending leaseUntil) :
    ∃ row', journal'.get key = some row' ∧ row'.binding = row.binding ∧ ∃ leaseUntil', row'.state = .pending leaseUntil' := by
  have hkept : (journal.keep (JournalRow.retained cfg now)).get key = some row :=
    get_keep.mpr ⟨hrow, by simp only [JournalRow.retained, hstate]⟩
  obtain ⟨-, ⟨own, leaseUntil', hown, hbinding, hpending⟩, hothers⟩ := claim_claimed hc
  by_cases hkey : key = h.key r.subject r.nonce
  · subst hkey
    refine ⟨own, hown, ?_, leaseUntil', hpending⟩
    -- the claim of a row that is there has its binding
    unfold claim at hc
    dsimp only at hc
    rw [hkept] at hc
    dsimp only at hc
    split at hc
    · cases hc
    · rename_i hsame
      rw [hbinding, not_not.mp hsame]
  · exact ⟨row, (hothers key hkey).trans hkept, rfl, leaseUntil, hstate⟩

theorem pending_kept (m : ServiceMove)
    (hrow : w.journal.get key = some row) (hstate : row.state = .pending leaseUntil) :
    ∃ row', (w.step k h cfg m).journal.get key = some row' ∧ row'.binding = row.binding ∧
      ((∃ leaseUntil', row'.state = .pending leaseUntil') ∨
        ∃ r response, w.stage = .executed r response ∧ h.key r.subject r.nonce = key ∧ h.binding r = row.binding) := by
  obtain ⟨store, journal, stage, now, executions, responses⟩ := w
  have hsame : ∃ row', journal.get key = some row' ∧ row'.binding = row.binding ∧
      ((∃ leaseUntil', row'.state = .pending leaseUntil') ∨
        ∃ r response, stage = .executed r response ∧ h.key r.subject r.nonce = key ∧ h.binding r = row.binding) :=
    ⟨row, hrow, rfl, .inl ⟨leaseUntil, hstate⟩⟩
  cases m with
  | deliver =>
    cases stage with
    | idle =>
      simp only [Service.step]
      split
      · split
        · exact hsame
        · rename_i journal' response hc
          refine ⟨row, ?_, rfl, .inl ⟨leaseUntil, hstate⟩⟩
          show journal'.get key = some row
          rw [(claim_replayed hc).1]
          exact get_keep.mpr ⟨hrow, by simp only [JournalRow.retained, hstate]⟩
        · rename_i journal' hc
          obtain ⟨row', hrow', hbinding, hpending⟩ := claim_pending hc hrow hstate
          exact ⟨row', hrow', hbinding, .inl hpending⟩
      · exact hsame
    | claimed | executed => exact hsame
  | operate =>
    cases stage with
    | claimed =>
      simp only [Service.step]
      split
      · exact hsame
      · exact ⟨row, hrow, rfl, .inl ⟨leaseUntil, hstate⟩⟩
    | idle | executed => exact hsame
  | commit =>
    cases stage with
    | executed r response =>
      simp only [Service.step]
      split
      · exact hsame
      · rename_i journal' hc
        obtain ⟨own, -, hown, -, hbinding, hjournal⟩ := commitResponse_ok hc
        show ∃ row', journal'.get key = some row' ∧ _
        rw [hjournal]
        by_cases hkey : key = h.key r.subject r.nonce
        · subst hkey
          rw [show journal.get _ = some row from hrow] at hown
          cases hown
          exact ⟨_, get_modify_self JournalRow.commit_key hrow, rfl, .inr ⟨r, response, rfl, rfl, hbinding.symm⟩⟩
        · exact ⟨row, (get_modify_ne JournalRow.commit_key hkey).trans hrow, rfl, .inl ⟨leaseUntil, hstate⟩⟩
    | idle | claimed => exact hsame
  | crash => exact ⟨row, hrow, rfl, .inl ⟨leaseUntil, hstate⟩⟩
  | other => exact hsame

/-- In every run: a request whose response was committed is never served again, a purge that stands leaves no committed
row older than the retention, and a pending row stays until its own request is committed. -/
theorem journal_retains (k : Crypto) (h : Digests) (cfg : JournalConfig) (ms : List ServiceMove) :
    Retains k h cfg (run (Service.step k h cfg) Service.initial ms) where
  once := fun _ _ _ _ hstage hc ms' => (((servesFresh_run ms).done hstage hc).run ms').2
  purged := fun _ _ hp => hp.step
  kept := fun m _ _ _ hrow hstate => pending_kept m hrow hstate

namespace Demo

def retry (nonce : String) (timestamp : Time) : ServiceRequest :=
  { signed (.giftCreate "personal" 1 2 30) with nonce, timestamp }

/-- A request whose operation fails, and another one an hour and forty seconds later. -/
def failsOnce : List ServiceMove := [.deliver (retry "abcdefghijklmnop" 0) 0, .crash]

end Demo

/-- The purge of the second request leaves the row of the first. -/
theorem failed_request_kept :
    ¬ ∀ ms r elapsed, Purges Demo.digests Demo.journalConfig
        (run (Service.step Demo.crypto Demo.digests Demo.journalConfig) Service.initial ms) r elapsed →
      NothingOlder Demo.journalConfig ((run (Service.step Demo.crypto Demo.digests Demo.journalConfig) Service.initial ms).step
        Demo.crypto Demo.digests Demo.journalConfig (.deliver r elapsed)) := by
  intro hall
  have hpurges : Purges Demo.digests Demo.journalConfig
      (run (Service.step Demo.crypto Demo.digests Demo.journalConfig) Service.initial Demo.failsOnce)
      (Demo.retry "ponmlkjihgfedcba" 3640000000) 3640000000 := by
    refine ⟨rfl, by decide +kernel, ?_⟩
    intro e he
    have hclaimed : (match claim Demo.digests Demo.journalConfig
        (run (Service.step Demo.crypto Demo.digests Demo.journalConfig) Service.initial Demo.failsOnce).journal
        (Demo.retry "ponmlkjihgfedcba" 3640000000)
        (wholeSeconds ((run (Service.step Demo.crypto Demo.digests Demo.journalConfig) Service.initial Demo.failsOnce).now +
          (3640000000 : Nat))) with
      | .refused _ => true
      | _ => false) = false := by decide +kernel
    rw [he] at hclaimed
    cases hclaimed
  have holder := hall Demo.failsOnce _ _ hpurges
  have hrow : (((run (Service.step Demo.crypto Demo.digests Demo.journalConfig) Service.initial Demo.failsOnce).step Demo.crypto
      Demo.digests Demo.journalConfig (.deliver (Demo.retry "ponmlkjihgfedcba" 3640000000) 3640000000)).journal.rows.any
        (fun row => decide (row.writtenAt Demo.journalConfig = 0))) = true := by decide +kernel
  obtain ⟨row, hmem, hzero⟩ := List.any_eq_true.mp hrow
  have hbound := holder row hmem
  rw [of_decide_eq_true hzero] at hbound
  have hlate : ¬ wholeSeconds ((run (Service.step Demo.crypto Demo.digests Demo.journalConfig) Service.initial Demo.failsOnce).step
      Demo.crypto Demo.digests Demo.journalConfig (.deliver (Demo.retry "ponmlkjihgfedcba" 3640000000) 3640000000)).now -
        Demo.journalConfig.retention ≤ 0 := by decide +kernel
  exact hlate hbound

end GrowthMap.Authority
