import GrowthMap.Lib.IsoOrder
import GrowthMap.Payments.Outbox
import GrowthMap.Payments.Settlement
import GrowthMap.Whop.Fulfilment

/- The timestamps of the services, as the texts their databases hold.

   Elsewhere a timestamp is an instant. The tables have it as the text of `isoformat()`
   and the predicates of the claims compare such texts; here those predicates are written
   over the texts, and each is shown to be its counterpart over instants. A lease that
   was selected as expired is read back by `_lease_timestamp`, which then agrees. -/
namespace GrowthMap.Payments

open IsoTime Lexicographic

/-! The predicates over texts -/

/-- `a<=b` of two TEXT values: SQLite compares their bytes. -/
def textLe (a b : String) : Bool := (binary a b).isLE

/-- `next_attempt_at IS NULL OR next_attempt_at<=?` -/
def dueText (now : String) : Option String → Bool
  | none => true
  | some t => textLe t now

/-- `lease_expires_at<=?`, unknown of NULL and so not selected. -/
def expiredText (now : String) : Option String → Bool
  | none => false
  | some t => textLe t now

/-- The two columns a claim compares with the time. -/
structure Stamps where
  leaseExpiresAt : Option String
  nextAttemptAt : Option String

/-- The eligibility of `claim_outbox`, for a row with these stamps. -/
def claimableText (now : String) (o : OrderState) (e : Entitlement) (s : Stamps) : Bool :=
  let recoverable := decide (o = .paymentConfirmed ∨ o = .refunded) ||
    decide (o = .revoked ∧ e.phase = .readbackOnly)
  (decide (o = .paymentConfirmed ∧ e.state = .pending) && dueText now s.nextAttemptAt) ||
  (decide (e.state = .leased) && expiredText now s.leaseExpiresAt && recoverable) ||
  (decide (e.phase = .crossingAuthorized ∨ e.phase = .readbackOnly) &&
    decide (e.state = .quarantined) && dueText now s.nextAttemptAt && recoverable)

/-- The WHERE clause of `claim_revocation`, for a row with these stamps. -/
def revocationWhereText (now : String) (orderId : Option String) (r : Revocation) (s : Stamps) : Bool :=
  ((decide (r.state = .pending) && dueText now s.nextAttemptAt) ||
    (decide (r.state = .leased) && expiredText now s.leaseExpiresAt)) &&
  (match orderId with
    | some oid => decide (r.payload.orderId = oid)
    | none => true)

/-- `state='prepared' AND lease_expires_at<=?` -/
def leaseExpiredText (now : String) (i : Intent) (leaseExpiresAt : String) : Bool :=
  decide (i.state = .prepared) && textLe leaseExpiresAt now

/-- The rows `run_once` selects, with `next_attempt_at` as the column has it. -/
def dueJobsText (s : Whop.State) (nextAttemptAt : Whop.Attempt → String) (now : String) (limit : Nat) :
    List Whop.Job :=
  ((s.inbox.rows.filter (fun row => decide (row.status = .verifiedPending) &&
    dueText now ((s.attempts.get row.webhookId).map nextAttemptAt))).take limit).map
      (fun row => ⟨row, ((s.attempts.get row.webhookId).map Whop.Attempt.attempts).getD 0, none⟩)

/-- `_lease_timestamp`. A text in a form that `parse` does not read is not what
`isoformat()` writes, and is refused here as there. -/
def leaseTimestamp (value : Option String) (error : String) : Except Err DateTime :=
  match value with
  | none => .error (.runtime error)
  | some text =>
    if text = "" ∨ strip text ≠ text ∨ text.toList.getLast? = some 'Z' then .error (.runtime error)
    else match parse text with
      | none => .error (.runtime error)
      | some parsed => if parsed.isoformat ≠ text then .error (.runtime error) else .ok parsed

/-! Texts and instants -/

theorem textLe_isoformat (a b : DateTime) : textLe a.isoformat b.isoformat = decide (a.instant ≤ b.instant) := by
  unfold textLe
  rw [binary_isoformat, a.instant_eq, b.instant_eq, Bool.eq_iff_iff, decide_eq_true_iff, Int.ofNat_le]
  constructor
  · intro h
    by_contra hlt
    rw [cmpNat_eq_gt.mpr (Nat.lt_of_not_le hlt)] at h
    cases h
  · intro h
    rcases Nat.lt_or_eq_of_le h with hlt | heq
    · rw [cmpNat_eq_lt.mpr hlt]
      rfl
    · rw [cmpNat_eq_eq.mpr heq]
      rfl

theorem dueText_isoformat (now : DateTime) (t : Option DateTime) :
    dueText now.isoformat (t.map DateTime.isoformat) = due now.instant (t.map DateTime.instant) := by
  cases t with
  | none => rfl
  | some d => exact textLe_isoformat d now

theorem expiredText_isoformat (now : DateTime) (t : Option DateTime) :
    expiredText now.isoformat (t.map DateTime.isoformat) = expiredBy now.instant (t.map DateTime.instant) := by
  cases t with
  | none => rfl
  | some d => exact textLe_isoformat d now

def stamps (lease next : Option DateTime) : Stamps := ⟨lease.map DateTime.isoformat, next.map DateTime.isoformat⟩

theorem claimableText_stamps (now : DateTime) (o : OrderState) (e : Entitlement) (lease next : Option DateTime) :
    claimableText now.isoformat o e (stamps lease next) =
      claimable now.instant o { e with leaseExpiresAt := lease.map DateTime.instant, nextAttemptAt := next.map DateTime.instant } := by
  unfold claimableText claimable stamps
  rw [dueText_isoformat, expiredText_isoformat]

theorem revocationWhereText_stamps (now : DateTime) (orderId : Option String) (r : Revocation) (lease next : Option DateTime) :
    revocationWhereText now.isoformat orderId r (stamps lease next) =
      revocationWhere now.instant orderId
        { r with leaseExpiresAt := lease.map DateTime.instant, nextAttemptAt := next.map DateTime.instant } := by
  unfold revocationWhereText revocationWhere stamps
  cases orderId <;> simp only [dueText_isoformat, expiredText_isoformat]

theorem leaseExpiredText_isoformat (now : DateTime) (i : Intent) (lease : DateTime) :
    leaseExpiredText now.isoformat i lease.isoformat =
      leaseExpired now.instant { i with leaseExpiresAt := lease.instant } := by
  unfold leaseExpiredText leaseExpired
  rw [textLe_isoformat]

theorem dueJobsText_stamps (now : DateTime) (s : Whop.State) (next : Whop.Attempt → DateTime)
    (hnext : ∀ a : Whop.Attempt, a ∈ s.attempts.rows → a.nextAttemptAt = (next a).instant) (limit : Nat) :
    dueJobsText s (fun a => (next a).isoformat) now.isoformat limit = Whop.due s now.instant limit := by
  have hrow : ∀ row : Whop.InboxRow,
      dueText now.isoformat ((s.attempts.get row.webhookId).map (fun a => (next a).isoformat)) =
        (s.attempts.get row.webhookId).all (fun a => decide (a.nextAttemptAt ≤ now.instant)) := by
    intro row
    cases hget : s.attempts.get row.webhookId with
    | none => rfl
    | some a =>
      rw [Option.map_some, Option.all_some, hnext a (Relational.Table.get_mem hget)]
      exact textLe_isoformat (next a) now
  unfold dueJobsText Whop.due
  simp only [hrow]

/-! Reading a lease back -/

theorem isSpace_of_digit {c : Char} (h : isDigit c = true) : isSpace c = false := by
  unfold isDigit digitVal at h
  split at h
  · unfold isSpace
    simp
    omega
  · cases h

theorem strip_of_digits {c d : Char} {cs : List Char} (hc : isDigit c = true) (hd : isDigit d = true) :
    strip (String.ofList (c :: (cs ++ [d]))) = String.ofList (c :: (cs ++ [d])) := by
  have hfirst : (c :: (cs ++ [d])).dropWhile isSpace = c :: (cs ++ [d]) :=
    List.dropWhile_cons_of_neg (by rw [isSpace_of_digit hc]; decide)
  have hlast : (c :: (cs ++ [d])).reverse = d :: (cs.reverse ++ [c]) := by simp
  unfold strip
  rw [String.toList_ofList, hfirst, hlast, List.dropWhile_cons_of_neg (by rw [isSpace_of_digit hd]; decide), ← hlast,
    List.reverse_reverse]

theorem isoformat_ends (d : DateTime) :
    ∃ c cs, isDigit c = true ∧ d.isoformat = String.ofList (c :: (cs ++ ['0'])) := by
  cases hyear : digits 4 d.year with
  | nil =>
    have hlength := digits_length 4 d.year
    rw [hyear] at hlength
    cases hlength
  | cons c =>
    have hdigit : isDigit c = true := digits_isDigit 4 d.year c (by rw [hyear]; exact List.mem_cons_self)
    obtain ⟨tail, htail⟩ : ∃ tail, d.stamp = c :: tail := by
      unfold DateTime.stamp
      rw [hyear]
      exact ⟨_, rfl⟩
    refine ⟨c, tail ++ ['+', '0', '0', ':', '0'], hdigit, ?_⟩
    unfold DateTime.isoformat
    rw [htail, List.append_assoc]
    rfl

theorem leaseTimestamp_isoformat (d : DateTime) (error : String) :
    leaseTimestamp (some d.isoformat) error = .ok d := by
  obtain ⟨c, cs, hc, hends⟩ := isoformat_ends d
  have hempty : d.isoformat ≠ "" := by
    intro h
    have hnil := congrArg String.toList (hends.symm.trans h)
    rw [String.toList_ofList] at hnil
    cases hnil
  have hstrip : strip d.isoformat = d.isoformat := by
    rw [hends]
    exact strip_of_digits hc rfl
  have hoffset : d.isoformat.toList.getLast? ≠ some 'Z' := by
    rw [hends, String.toList_ofList, ← List.cons_append, List.getLast?_append]
    change some '0' ≠ some 'Z'
    decide
  unfold leaseTimestamp
  simp only [hempty, hstrip, hoffset, parse_isoformat, ne_eq, not_true_eq_false, or_self, if_false]

/-! Order -/

/-- Texts of `isoformat()` are in the order of their instants, so that every predicate
of a claim selects by time, and a lease selected as expired is not refused by the check
that reads it back. -/
theorem timestamps_compare_as_times (now : DateTime) :
    (∀ a b : DateTime,
      (binary a.isoformat b.isoformat = .lt ↔ a.instant < b.instant) ∧
      (binary a.isoformat b.isoformat = .eq ↔ a.instant = b.instant) ∧
      (binary a.isoformat b.isoformat = .gt ↔ b.instant < a.instant)) ∧
    (∀ (o : OrderState) (e : Entitlement) (lease next : Option DateTime),
      claimableText now.isoformat o e (stamps lease next) =
        claimable now.instant o
          { e with leaseExpiresAt := lease.map DateTime.instant, nextAttemptAt := next.map DateTime.instant }) ∧
    (∀ (orderId : Option String) (r : Revocation) (lease next : Option DateTime),
      revocationWhereText now.isoformat orderId r (stamps lease next) =
        revocationWhere now.instant orderId
          { r with leaseExpiresAt := lease.map DateTime.instant, nextAttemptAt := next.map DateTime.instant }) ∧
    (∀ (i : Intent) (lease : DateTime), leaseExpiredText now.isoformat i lease.isoformat =
      leaseExpired now.instant { i with leaseExpiresAt := lease.instant }) ∧
    (∀ (s : Whop.State) (next : Whop.Attempt → DateTime) (limit : Nat),
      (∀ a : Whop.Attempt, a ∈ s.attempts.rows → a.nextAttemptAt = (next a).instant) →
      dueJobsText s (fun a => (next a).isoformat) now.isoformat limit = Whop.due s now.instant limit) ∧
    (∀ (lease : DateTime) (error : String), leaseTimestamp (some lease.isoformat) error = .ok lease ∧
      (expiredText now.isoformat (some lease.isoformat) = true ↔ ¬ now.instant < lease.instant)) := by
  refine ⟨?_, claimableText_stamps now, revocationWhereText_stamps now, leaseExpiredText_isoformat now, ?_, ?_⟩
  · intro a b
    rw [binary_isoformat, a.instant_eq, b.instant_eq, Int.ofNat_lt, Int.ofNat_inj, Int.ofNat_lt]
    exact ⟨cmpNat_eq_lt, cmpNat_eq_eq, cmpNat_eq_gt⟩
  · intro s next limit hnext
    exact dueJobsText_stamps now s next hnext limit
  · intro lease error
    refine ⟨leaseTimestamp_isoformat lease error, ?_⟩
    rw [show expiredText now.isoformat (some lease.isoformat) = decide (lease.instant ≤ now.instant) from
      textLe_isoformat lease now, decide_eq_true_iff, Int.not_lt]

end GrowthMap.Payments
