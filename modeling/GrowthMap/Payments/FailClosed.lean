import GrowthMap.Payments.Operations

/- Failed publications.

   `_commit_trusted` rolls back and closes the service when the checkpoint or the commit
   fails; its caller must then leave the database alone. After a failed transaction the
   next is refused by the trust check. The exception handler of `_apply_whop_event` is the
   one caller that goes on writing: it runs on a connection whose transaction is gone, and
   every statement commits itself. -/
namespace GrowthMap.Payments

open Relational Transaction

variable {cfg : Config}

/-! A closed service writes nothing -/

def ClosedOver (l : Ledger) (w : World) : Prop := w.conn = ⟨l, none⟩ ∧ w.checkpointFailed = true

variable {w w' : World} {α : Type} {body : Body α} {l : Ledger} {r : Except Err α} {clk : Nat → Time}
  {eventId : String} {maxAttempts : Int}

theorem trust_closed (h : w.checkpointFailed = true) : trust cfg w = .error failClosed := by
  simp [trust, h]

theorem Ended.closed (h : Ended cfg body w r w') (hw : ClosedOver l w) : ClosedOver l w' := by
  have hno : ∀ {p : Prop}, trust cfg w = .ok () → p := by
    intro p ht
    rw [trust_closed hw.2] at ht
    cases ht
  cases h with
  | refused => exact hw
  | left => exact hw
  | raised => exact hw
  | published m r ht => exact hno ht
  | lost m ht => exact hno ht

theorem ClosedOver.working (h : ClosedOver l w) : w.conn.working = none := by
  rw [h.1]

theorem closed_kept (cfg : Config) (l : Ledger) : KeptByTransactions cfg (ClosedOver l) where
  transaction body w hw := (transaction_ended cfg body w hw.working).closed hw
  failOutbox clk row worker error maxAttempts w hw := by
    obtain ⟨r, hr⟩ := failOutbox_ended cfg clk row worker error maxAttempts w hw.working
    exact hr.closed hw

theorem applyWhopEvent_closed (clk : Nat → Time) (eventId : String) (maxAttempts : Int) :
    Prog.Keeps (ClosedOver l) (applyWhopEvent cfg clk eventId maxAttempts) := by
  intro w hw
  have hno : ∀ {p : Prop}, trust cfg w = .ok () → p := by
    intro p ht
    rw [trust_closed hw.2] at ht
    cases ht
  have hended := applyWhopEvent_ended cfg clk eventId maxAttempts w hw.working
  generalize (applyWhopEvent cfg clk eventId maxAttempts w).2 = w' at hended
  cases hended with
  | idle => exact hw
  | applied ev m ht => exact hno ht
  | failed ev x m ht => exact hno ht
  | failedLost m h ht => exact hno ht
  | resumed ev m m' w' ht => exact hno ht

theorem operation_closed (hw : ClosedOver l w) (op : Operation) :
    ClosedOver l (w.after cfg op) := by
  refine (closed_kept cfg l).operation hw op ?_ ?_
  · rintro clk eventId maxAttempts rfl
    exact applyWhopEvent_closed clk eventId maxAttempts w hw
  · rintro clk clk' ev rawDigest maxAttempts rfl
    exact Prog.keeps_bind ((closed_kept cfg l).transaction _)
      (fun _ => applyWhopEvent_closed clk' ev.eventId maxAttempts) w hw

/-! A failed publication leaves the ledger -/

/-- A publication that has failed left the ledger as it was, and the service closed. -/
def FailedSafely (w : World) : Prop :=
  w.conn.working = none ∧ ∀ l, w.failedFrom = some l → ClosedOver l w

theorem FailedSafely.fresh (hw : FailedSafely w) (ht : trust cfg w = .ok ()) :
    w.failedFrom = none := by
  cases hf : w.failedFrom with
  | none => rfl
  | some l =>
    rw [trust_closed (hw.2 l hf).2] at ht
    cases ht

theorem FailedSafely.published (hw : FailedSafely w) (ht : trust cfg w = .ok ()) (m : Ledger) :
    FailedSafely (w.published cfg m) := by
  refine ⟨rfl, ?_⟩
  intro l hl
  have hnone : (w.published cfg m).failedFrom = none := hw.fresh ht
  rw [hnone] at hl
  cases hl

theorem FailedSafely.lost (hw : FailedSafely w) (ht : trust cfg w = .ok ()) (m : Ledger) :
    FailedSafely (w.lost cfg w.conn.committed m) := by
  refine ⟨rfl, ?_⟩
  intro l hl
  have hfrom : (w.lost cfg w.conn.committed m).failedFrom = some w.conn.committed := by
    simp [World.lost, hw.fresh ht]
  rw [hfrom] at hl
  cases hl
  exact ⟨rfl, rfl⟩

theorem Ended.safely (h : Ended cfg body w r w') (hw : FailedSafely w) : FailedSafely w' := by
  cases h with
  | refused => exact hw
  | left => exact hw
  | raised => exact hw
  | published m r ht => exact hw.published ht m
  | lost m ht => exact hw.lost ht m

theorem safely_kept (cfg : Config) : KeptByTransactions cfg FailedSafely where
  transaction body w hw := (transaction_ended cfg body w hw.1).safely hw
  failOutbox clk row worker error maxAttempts w hw := by
    obtain ⟨r, hr⟩ := failOutbox_ended cfg clk row worker error maxAttempts w hw.1
    exact hr.safely hw

/-- The application of a received event whose publication fails: its handler resumes. -/
def ApplicationLost (cfg : Config) (clk : Nat → Time) (eventId : String) (w : World) : Prop :=
  Applies cfg clk eventId w ∧ w.publication ≠ .ok

theorem applyWhopEvent_safely (hw : FailedSafely w) (hnot : ¬ ApplicationLost cfg clk eventId w) :
    FailedSafely (applyWhopEvent cfg clk eventId maxAttempts w).2 := by
  have hended := applyWhopEvent_ended cfg clk eventId maxAttempts w hw.1
  generalize (applyWhopEvent cfg clk eventId maxAttempts w).2 = w' at hended
  cases hended with
  | idle => exact hw
  | applied ev m ht => exact hw.published ht m
  | failed ev x m ht => exact hw.published ht m
  | failedLost m h ht => exact hw.lost ht m
  | resumed ev m m' w' ht hev hr hm hp => exact absurd ⟨⟨ht, ev, m, hev, hr, hm⟩, hp⟩ hnot

theorem whopFailed_sequence {ev : InboxEvent} {x : Err} {m : Ledger}
    (h : whopFailed cfg clk ev maxAttempts x l = .ok m) : m.sequence = l.sequence := by
  unfold whopFailed updateInbox at h
  simp only at h
  split at h
  · cases h
  · rename_i l₁ hu
    cases h
    show l₁.sequence = l.sequence
    split at hu
    · cases hu
      rfl
    · split at hu
      · cases hu
      · cases hu
        rfl

theorem applyWhopEvent_unsafely (maxAttempts : Int)
    (hw : w.conn.working = none) (hfrom : w.failedFrom = none) (h : ApplicationLost cfg clk eventId w) :
    ∃ l, (applyWhopEvent cfg clk eventId maxAttempts w).2.failedFrom = some l ∧
      (applyWhopEvent cfg clk eventId maxAttempts w).2.conn ≠ ⟨l, none⟩ := by
  have hended := applyWhopEvent_ended cfg clk eventId maxAttempts w hw
  obtain ⟨happlies, hlost⟩ := h
  generalize (applyWhopEvent cfg clk eventId maxAttempts w).2 = w' at hended
  cases hended with
  | idle hnot => exact absurd happlies hnot
  | applied ev m ht hev hm hp => exact absurd hp hlost
  | failed ev x m ht hev hx hm hp => exact absurd hp hlost
  | failedLost m hnot => exact absurd happlies hnot
  | resumed ev m m' w' ht hev hr hm hp hm' hc hf hfail =>
    refine ⟨w.conn.committed, by rw [hfail, hfrom]; rfl, ?_⟩
    rw [hc]
    intro heq
    have hseq := congrArg (fun c : Conn Ledger => c.committed.sequence) heq
    have hsame := whopFailed_sequence hm'
    simp only [bumpSequence] at hseq
    omega

/-- The operation runs into a lost application: in `_apply_whop_event` itself, or there
after `receive_whop_event` has stored or found its event. -/
def Operation.LosesApplication (cfg : Config) (w : World) : Operation → Prop
  | .applyWhopEvent clk eventId _ => ApplicationLost cfg clk eventId w
  | .receiveWhopEvent clk clk' ev rawDigest maxAttempts =>
    (transaction cfg (storeWhopEvent cfg clk ev rawDigest maxAttempts) w).1 = .ok () ∧
      ApplicationLost cfg clk' ev.eventId
        (transaction cfg (storeWhopEvent cfg clk ev rawDigest maxAttempts) w).2
  | _ => False

theorem Ended.ok_fresh {a : α}
    (h : Ended cfg body w (.ok a) w') (hw : w.conn.working = none) (hfrom : w.failedFrom = none) :
    w'.conn.working = none ∧ w'.failedFrom = none := by
  generalize hr : (Except.ok a : Except Err α) = r at h
  cases h with
  | refused => cases hr
  | left => exact ⟨hw, hfrom⟩
  | raised => cases hr
  | published => exact ⟨rfl, hfrom⟩
  | lost => cases hr

def World.afterAll (w : World) (cfg : Config) (ops : List Operation) : World :=
  ops.foldl (fun v op => v.after cfg op) w

theorem operations_closed (hw : ClosedOver l w) (ops : List Operation) :
    ClosedOver l (w.afterAll cfg ops) := by
  induction ops generalizing w with
  | nil => exact hw
  | cons op ops ih => exact ih (operation_closed hw op)

/-- What is asked of an operation in whose course a publication failed: the ledger is the
one committed before the transaction that failed, and no later operations of the service
object change it. -/
def FailsClosed (cfg : Config) (w' : World) : Prop :=
  ∀ l, w'.failedFrom = some l → w'.conn = ⟨l, none⟩ ∧ ∀ ops, (w'.afterAll cfg ops).conn = ⟨l, none⟩

theorem FailedSafely.failsClosed (h : FailedSafely w') : FailsClosed cfg w' := by
  intro l hl
  have hover := h.2 l hl
  exact ⟨hover.1, fun ops => (operations_closed hover ops).1⟩

/-- From any state, for every operation: a failed publication leaves the ledger as it was
before the transaction that failed, and closes the service for good, exactly when it is
not the publication of a received Whop event's application. -/
theorem failed_publication_closes_iff (cfg : Config) (op : Operation) {w : World}
    (hw : w.conn.working = none) (hfrom : w.failedFrom = none) :
    FailsClosed cfg (w.after cfg op) ↔ ¬ op.LosesApplication cfg w := by
  have hsafe : FailedSafely w := ⟨hw, fun l hl => by rw [hfrom] at hl; cases hl⟩
  constructor
  · intro hclosed hloses
    cases op with
    | applyWhopEvent clk eventId maxAttempts =>
      obtain ⟨l, hl, hne⟩ := applyWhopEvent_unsafely maxAttempts hw hfrom hloses
      exact hne (hclosed l hl).1
    | receiveWhopEvent clk clk' ev rawDigest maxAttempts =>
      obtain ⟨hstored, hlost⟩ := hloses
      have hended := transaction_ended cfg (storeWhopEvent cfg clk ev rawDigest maxAttempts) w hw
      have hafter : w.after cfg (.receiveWhopEvent clk clk' ev rawDigest maxAttempts) =
          (applyWhopEvent cfg clk' ev.eventId maxAttempts
            (transaction cfg (storeWhopEvent cfg clk ev rawDigest maxAttempts) w).2).2 := by
        show (receiveWhopEvent cfg clk clk' ev rawDigest maxAttempts w).2 = _
        unfold receiveWhopEvent
        rw [Prog.bind_apply]
        split
        · rename_i heq
          rw [heq]
        · rename_i heq
          rw [heq] at hstored
          cases hstored
      rw [hstored] at hended
      obtain ⟨hw₁, hfrom₁⟩ := hended.ok_fresh hw hfrom
      obtain ⟨l, hl, hne⟩ := applyWhopEvent_unsafely maxAttempts hw₁ hfrom₁ hlost
      rw [hafter] at hclosed
      exact hne (hclosed l hl).1
    | _ => exact hloses
  · intro hnot
    refine FailedSafely.failsClosed ?_
    refine (safely_kept cfg).operation hsafe op ?_ ?_
    · rintro clk eventId maxAttempts rfl
      exact applyWhopEvent_safely hsafe hnot
    · rintro clk clk' ev rawDigest maxAttempts rfl
      show FailedSafely (receiveWhopEvent cfg clk clk' ev rawDigest maxAttempts w).2
      have hstore : FailedSafely (transaction cfg (storeWhopEvent cfg clk ev rawDigest maxAttempts) w).2 :=
        (safely_kept cfg).transaction _ w hsafe
      unfold receiveWhopEvent
      rw [Prog.bind_apply]
      split
      · rename_i heq
        rw [heq] at hstore
        refine applyWhopEvent_safely hstore ?_
        intro hlost
        refine hnot ⟨by rw [heq], ?_⟩
        rw [heq]
        exact hlost
      · rename_i heq
        rw [heq] at hstore
        exact hstore

namespace Demo

/-- The sale's ledger under one service object, with publications that go as listed. -/
def selling (publications : List Publication) : World :=
  { conn := ⟨(after sale).ledger, none⟩, checkpoint := (after sale).checkpoint,
    checkpointFailed := false, publications, failedFrom := none }

def whopRefund : Operation :=
  .receiveWhopEvent (fun _ => 5) (fun _ => 6) ⟨"evt", "2026-07-01T00:00:00Z", .refund, "o", "po", "pp"⟩
    (String.ofList (List.replicate 64 '0')) 8

end Demo

/-- A refund by the administrator whose checkpoint cannot be written. -/
theorem unwritten_refund_fails_closed :
    ((Demo.selling [.writeFails]).after Demo.config
      (.tx (fun _ => 5) (.adminTransition "o" .refund none))).failedFrom.isSome = true ∧
    FailsClosed Demo.config ((Demo.selling [.writeFails]).after Demo.config
      (.tx (fun _ => 5) (.adminTransition "o" .refund none))) :=
  ⟨by decide +kernel, (failed_publication_closes_iff _ _ rfl rfl).mpr id⟩

/-- The event is stored; the checkpoint of its application cannot be written; the handler
then commits the event's failure and another sequence number. -/
theorem unwritten_whop_refund_goes_on :
    ¬ FailsClosed Demo.config ((Demo.selling [.ok, .writeFails]).after Demo.config Demo.whopRefund) := by
  intro h
  have hfrom : ((Demo.selling [.ok, .writeFails]).after Demo.config Demo.whopRefund).failedFrom.map
      (fun l => (l.sequence, l.inbox.rows.map (fun v => v.attempts))) = some (6, [0]) := by
    decide +kernel
  have hnow : (fun l : Ledger => (l.sequence, l.inbox.rows.map (fun v => v.attempts)))
      ((Demo.selling [.ok, .writeFails]).after Demo.config Demo.whopRefund).conn.committed = (7, [1]) := by
    decide +kernel
  obtain ⟨l, hl, hl'⟩ := Option.map_eq_some_iff.mp hfrom
  rw [(h l hl).1] at hnow
  have hsame := hl'.symm.trans hnow
  simp at hsame

end GrowthMap.Payments
