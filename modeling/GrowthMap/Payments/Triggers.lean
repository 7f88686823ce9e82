import GrowthMap.Payments.Reachable

/- Where the service and the phase triggers disagree.

   `Permitted` is what the triggers of schema 11 let pass. For each UPDATE the service makes
   of an outbox row this says whether it is permitted, from the row alone; for each
   operation it follows when the triggers abort it. They abort three: the reversal of a
   confirmed order whose crossing has gone to manual review, the requeue that would send a
   crossing there too early or straight from its authorization, and a failure reported
   while a crossing is prepared. -/
namespace GrowthMap.Payments

open Relational Transaction Runs Table

variable {cfg : Config} {clk : Nat → Time} {l : Ledger}

/-! The triggers -/

def Err.ofPhaseTrigger (x : Err) : Bool := decide (x = protocolAbort ∨ x = preparedLeaseAbort)

theorem firstBad_cons (b : Bool) (e : Err) (checks : List (Bool × Err)) :
    firstBad ((b, e) :: checks) = if b then some e else firstBad checks := by
  cases b <;> simp [firstBad]

variable {x : Err} {k worker oid : String} {e : Entitlement} {f : Entitlement → Entitlement}
  {hf : ∀ r, (f r).payload.orderId = r.payload.orderId} {expires retryAt : Time} {fence maxAttempts : Nat}
  {a : EntitlementAck} {α : Type} {m l₁ : Ledger} {p : EntitlementPayload} {o : Order} {reason : Option String}
  {ev : InboxEvent}

theorem firstBad_mem {checks : List (Bool × Err)} (h : firstBad checks = some x) :
    x ∈ checks.map (·.2) := by
  obtain ⟨c, hc, rfl⟩ := Option.map_eq_some_iff.mp h
  exact List.mem_map_of_mem (List.mem_of_find?_eq_some hc)

theorem refuses_ofPhaseTrigger {t : Entitlements} {old new : Entitlement} :
    (∃ x, entitlementRefuses t k old new = some x ∧ x.ofPhaseTrigger = true) ↔ ¬ Permitted old new := by
  unfold entitlementRefuses Permitted
  rw [firstBad_cons, firstBad_cons]
  cases reconciliationProtocol old new with
  | true => simp [Err.ofPhaseTrigger]
  | false =>
    cases preparedLeaseImmutable old new with
    | true => simp [Err.ofPhaseTrigger]
    | false =>
      simp only [Bool.false_eq_true, if_false, and_self, not_true, iff_false, not_exists, not_and]
      intro x hx htrigger
      have hmem := firstBad_mem hx
      simp only [List.map_cons, List.map_nil, List.mem_cons, List.not_mem_nil, or_false] at hmem
      rcases hmem with rfl | rfl | rfl | rfl | rfl | rfl | rfl <;> revert htrigger <;> decide

theorem updateEntitlement_ofPhaseTrigger (he : l.entitlements.get k = some e) :
    (∃ x, updateEntitlement k f hf l = .error x ∧ x.ofPhaseTrigger = true) ↔ ¬ Permitted e (f e) := by
  rw [← refuses_ofPhaseTrigger]
  unfold updateEntitlement
  rw [he]
  simp only
  cases entitlementRefuses l.entitlements k e (f e) with
  | none => simp
  | some => simp

/-! What each UPDATE asks of them -/

theorem permitted_leaseTo
    (hp : e.phase ≠ .crossingPrepared) : Permitted e (e.leaseTo worker expires) := by
  cases h : e.phase <;>
    simp_all [Permitted, reconciliationProtocol, preparedLeaseImmutable, Entitlement.leaseTo]

theorem permitted_resetPrepared {now : Time} (hp : e.phase = .crossingPrepared) :
    Permitted e (e.resetPrepared now) := by
  simp [Permitted, reconciliationProtocol, preparedLeaseImmutable, Entitlement.resetPrepared, hp]

theorem holds_leased (hh : e.holds worker fence = true) :
    e.state = .leased ∧ e.leaseOwner = some worker ∧ e.fencingVersion = fence :=
  of_decide_eq_true hh

theorem permitted_prepare
    (hh : e.holds worker fence = true) (hp : e.phase = .none) (hid : e.identityStatus = .verified) :
    Permitted e (e.withPhase .crossingPrepared) := by
  obtain ⟨hs, ho, -⟩ := holds_leased hh
  simp [Permitted, reconciliationProtocol, preparedLeaseImmutable, Entitlement.withPhase, hp, hs, ho, hid]

theorem permitted_authorize (hh : e.holds worker fence = true) (hp : e.phase = .crossingPrepared) :
    Permitted e (e.withPhase .crossingAuthorized) := by
  obtain ⟨hs, ho, -⟩ := holds_leased hh
  simp [Permitted, reconciliationProtocol, preparedLeaseImmutable, Entitlement.withPhase, hp, hs, ho]

theorem permitted_requeue {hash : String} {now : Time}
    (hp : e.phase = .crossingAuthorized ∨ e.phase = .readbackOnly) :
    Permitted e (e.requeue hash now maxAttempts) ↔
      e.attemptCount < maxAttempts ∨ (e.phase = .readbackOnly ∧ 8 ≤ e.attemptCount) := by
  by_cases hmax : maxAttempts ≤ e.attemptCount
  · rcases hp with hp | hp
    · simp [Permitted, reconciliationProtocol, preparedLeaseImmutable, Entitlement.requeue, hp, hmax]
    · simp [Permitted, reconciliationProtocol, preparedLeaseImmutable, Entitlement.requeue, hp, hmax]
  · rcases hp with hp | hp <;>
      simp [Permitted, reconciliationProtocol, preparedLeaseImmutable, Entitlement.requeue, hp, hmax] <;>
      omega

theorem permitted_fail {hash : String} {now : Time} (hh : e.holds worker fence = true) :
    Permitted e (e.fail hash now maxAttempts) ↔ e.phase ≠ .crossingPrepared := by
  obtain ⟨hs, ho, -⟩ := holds_leased hh
  cases h : e.phase <;>
    simp [Permitted, reconciliationProtocol, preparedLeaseImmutable, Entitlement.fail, h, hs, ho]

theorem permitted_deliver {now : Time}
    (hp : e.phase ≠ .crossingPrepared) : Permitted e (e.deliver a now) := by
  cases h : e.phase <;>
    simp_all [Permitted, reconciliationProtocol, preparedLeaseImmutable, Entitlement.deliver]

theorem permitted_cancel {hash : String} :
    Permitted e (e.cancel hash retryAt) ↔ e.phase ≠ .manualReview := by
  cases h : e.phase <;>
    simp [Permitted, reconciliationProtocol, preparedLeaseImmutable, Entitlement.cancel, h]

/-! The operations -/

/-- The operations that UPDATE `entitlement_outbox`; a delivery counts by its next
transaction. -/
inductive OutboxOp where
  | claim (worker : String) (leaseSeconds : Int) (orderId : Option String)
  | deliver (d : Delivery)
  | requeue (row : Entitlement) (worker : String) (error : Err) (maxAttempts : Nat)
  | fail (row : Entitlement) (worker : String) (error : Err) (maxAttempts : Nat)
  | admin (oid : String) (action : AdminAction) (reasonCode : Option String)
  | whop (ev : InboxEvent)

def errorOf {α : Type} : Except Err α → Option Err
  | .error x => some x
  | .ok _ => none

def OutboxOp.error (cfg : Config) (clk : Nat → Time) (l : Ledger) : OutboxOp → Option Err
  | .claim worker leaseSeconds orderId => (claimOutbox clk worker leaseSeconds orderId l).raised
  | .deliver d => (deliverBody cfg clk d).bind (fun b => (b l).raised)
  | .requeue row worker error maxAttempts =>
    (requeueReconciliationFailure cfg clk row worker error maxAttempts l).raised
  | .fail row worker error maxAttempts => (failBody cfg clk row worker error maxAttempts l).raised
  | .admin oid action reasonCode => (adminTransition cfg clk oid action reasonCode l).raised
  | .whop ev => errorOf (applyWhopBusinessLocked cfg clk ev l).2

/-- One of the phase triggers aborts an UPDATE of the operation. -/
def OutboxOp.Aborts (cfg : Config) (clk : Nat → Time) (l : Ledger) (op : OutboxOp) : Prop :=
  ∃ x, op.error cfg clk l = some x ∧ x.ofPhaseTrigger = true

/-- A requeue by the lease holder stays short of its last attempt, or is one of at least
eight and made from readback. -/
def RequeueFits (l : Ledger) (row : Entitlement) (worker : String) (maxAttempts : Nat) : Prop :=
  ∀ fresh, l.entitlements.get row.payload.orderId = some fresh → fresh.holds worker row.fencingVersion = true →
    row.phase = .crossingAuthorized ∨ row.phase = .readbackOnly →
    fresh.phase = row.phase ∨ fresh.phase = .readbackOnly →
    fresh.attemptCount < maxAttempts ∨ (fresh.phase = .readbackOnly ∧ 8 ≤ fresh.attemptCount)

/-- The confirmed order has no crossing in manual review. -/
def ReversalFits (l : Ledger) (oid : String) : Prop :=
  ∀ o e, l.orders.get oid = some o → o.state = .paymentConfirmed → l.entitlements.get oid = some e →
    e.phase ≠ .manualReview

/-- What each operation needs of the ledger for the triggers to let it through. -/
def OutboxOp.Fits (l : Ledger) : OutboxOp → Prop
  | .claim _ _ _ => True
  | .deliver d =>
    match d.pc with
    | .unread => RequeueFits l d.row d.worker 8
    | _ => True
  | .requeue row worker _ maxAttempts => RequeueFits l row worker maxAttempts
  | .fail row worker _ maxAttempts =>
    if row.phase = .crossingAuthorized ∨ row.phase = .readbackOnly then RequeueFits l row worker maxAttempts
    else ∀ fresh, l.entitlements.get row.payload.orderId = some fresh →
      fresh.holds worker row.fencingVersion = true → fresh.phase ≠ .crossingPrepared
  | .admin oid action reasonCode =>
    action = .refund → reasonCode = none → ReversalFits l oid
  | .whop ev => ev.kind ≠ .paid → ReversalFits l ev.orderId

/-- The verdict does not end with the message of a phase trigger. -/
def Quiet {α : Type} (v : Verdict Ledger Err α) : Prop := ∀ x, v.raised = some x → x.ofPhaseTrigger = false

theorem quiet_raise (h : x.ofPhaseTrigger = false) :
    Quiet (.raise x : Verdict Ledger Err α) := by
  intro y hy
  cases hy
  exact h

theorem quiet_commit {a : α} : Quiet (.commit m a : Verdict Ledger Err α) := by
  intro y hy
  cases hy

theorem quiet_leave {a : α} : Quiet (.leave a : Verdict Ledger Err α) := by
  intro y hy
  cases hy

theorem quiet_orRaise {r : Except Err Ledger} {k : Ledger → Verdict Ledger Err α}
    (hr : ∀ x, r = .error x → x.ofPhaseTrigger = false) (hk : ∀ m, r = .ok m → Quiet (k m)) :
    Quiet (orRaise r k) := by
  cases r with
  | error x => exact quiet_raise (hr x rfl)
  | ok m => exact hk m rfl

theorem permitted_quiet (he : l.entitlements.get k = some e)
    (hp : Permitted e (f e)) (hx : updateEntitlement k f hf l = .error x) :
    x.ofPhaseTrigger = false := by
  by_contra hc
  exact (updateEntitlement_ofPhaseTrigger he).mp ⟨x, hx, by simpa using hc⟩ hp

/-! Operations the triggers never stop -/

theorem updateOrder_quiet {f : Order → Order} {hf : ∀ r, (f r).id = r.id}
    (h : updateOrder k f hf l = .error x) : x.ofPhaseTrigger = false := by
  unfold updateOrder at h
  split at h
  · cases h
  · split at h
    · rename_i y hy
      cases h
      have hmem := firstBad_mem hy
      simp only [List.map_cons, List.map_nil, List.mem_cons, List.not_mem_nil, or_false] at hmem
      rcases hmem with rfl | rfl | rfl | rfl <;> decide
    · cases h

theorem enqueueRevocation_quiet {serviceNow createdAt : Time}
    {license reason : String} {action : ReversalAction}
    (h : enqueueRevocation cfg serviceNow p license action reason createdAt l = .error x) :
    x.ofPhaseTrigger = false := by
  unfold enqueueRevocation at h
  split at h
  · cases h
    decide
  · split at h
    · rename_i y hy
      cases h
      unfold insertRevocationOrIgnore at hy
      split at hy
      · cases hy
        decide
      · split at hy
        · cases hy
        · split at hy
          · cases hy
            decide
          · split at hy <;> cases hy
    · split at h <;> cases h
      decide

theorem compensate_quiet {action : ReversalAction}
    {reason operation : String} {data : List (String × Value)} :
    Quiet (compensate cfg clk p a action reason operation data l) := by
  unfold compensate
  split
  · rename_i x hx
    exact quiet_raise (enqueueRevocation_quiet hx)
  · exact quiet_commit

theorem leaseEntitlement_quiet
    (he : l.entitlements.get oid = some e) (hp : e.phase ≠ .crossingPrepared) :
    Quiet (leaseEntitlement worker expires oid l) := by
  refine quiet_orRaise ?_ (fun _ _ => quiet_commit)
  intro x hx
  exact permitted_quiet he (permitted_leaseTo hp) hx

theorem claimOutbox_quiet {leaseSeconds : Int} {orderId : Option String}
    (hinv : Inv cfg l.core) : Quiet (claimOutbox clk worker leaseSeconds orderId l) := by
  unfold claimOutbox
  simp only
  split
  · exact quiet_leave
  · rename_i row hrow
    have hmem : row ∈ l.entitlements.rows := (List.mem_filter.mp (oldest_mem hrow)).1
    have hget := get_of_mem hmem
    split
    · rename_i hprep
      split
      · exact quiet_raise (by decide)
      · split
        · exact quiet_raise (by decide)
        · refine quiet_orRaise ?_ ?_
          · intro x hx
            exact permitted_quiet hget (permitted_resetPrepared hprep.2) hx
          · intro m hm
            split
            · exact quiet_commit
            · split
              · exact quiet_raise (by decide)
              · obtain ⟨-, rfl⟩ := updateEntitlement_ok hm hget
                refine leaseEntitlement_quiet (get_modify_self Entitlement.resetPrepared_orderId hget) ?_
                simp [Entitlement.resetPrepared]
    · rename_i hprep
      refine leaseEntitlement_quiet hget ?_
      intro hp
      exact hprep ⟨(hinv.outbox _ row hget).1.prepared hp, hp⟩

theorem revalidateLease_quiet {row : Entitlement} : Quiet (revalidateLease row worker l) := by
  unfold revalidateLease
  split
  · split
    · exact quiet_raise (by decide)
    · exact quiet_leave
  · exact quiet_raise (by decide)

theorem prepareCrossing_quiet {row : Entitlement} (hinv : Inv cfg l.core) :
    Quiet (prepareCrossing row worker l) := by
  unfold prepareCrossing
  split
  · exact quiet_raise (by decide)
  · rename_i fresh hget
    split
    · exact quiet_raise (by decide)
    · rename_i hguard
      simp only [Bool.or_eq_true, Bool.not_eq_true', decide_eq_true_eq, not_or, not_not,
        Bool.not_eq_false] at hguard
      refine quiet_orRaise ?_ (fun _ _ => quiet_commit)
      intro x hx
      exact permitted_quiet hget (permitted_prepare hguard.1 hguard.2 (hinv.outbox _ fresh hget).1.identity.2) hx

theorem authorizeCrossing_quiet {row : Entitlement} :
    Quiet (authorizeCrossing row worker l) := by
  unfold authorizeCrossing
  split
  · exact quiet_raise (by decide)
  · rename_i fresh hget
    split
    · exact quiet_raise (by decide)
    · rename_i hguard
      simp only [Bool.or_eq_true, Bool.not_eq_true', decide_eq_true_eq, not_or, not_not,
        Bool.not_eq_false] at hguard
      refine quiet_orRaise ?_ (fun _ _ => quiet_commit)
      intro x hx
      exact permitted_quiet hget (permitted_authorize hguard.1.1 hguard.1.2) hx

/-- A delivery that has been verified has crossed, so its row is not merely prepared. -/
theorem commitDelivery_quiet {row : Entitlement}
    (hcross : ∀ e, l.entitlements.get row.payload.orderId = some e → e.phase ≠ .crossingPrepared) :
    Quiet (commitDelivery cfg clk row worker a l) := by
  unfold commitDelivery
  simp only
  split
  · exact quiet_raise (by decide)
  · rename_i fresh hget
    have hupdate : ∀ x, updateEntitlement row.payload.orderId (Entitlement.deliver a (clk 0))
        Entitlement.deliver_orderId l = .error x → x.ofPhaseTrigger = false := by
      intro x hx
      exact permitted_quiet hget (permitted_deliver (hcross fresh hget)) hx
    split
    · split
      · exact quiet_orRaise hupdate (fun _ _ => compensate_quiet)
      · exact quiet_raise (by decide)
    · refine quiet_orRaise hupdate ?_
      intro m _
      split
      · exact quiet_orRaise (fun x hx => updateOrder_quiet hx) (fun _ _ => quiet_commit)
      · exact compensate_quiet
      · exact compensate_quiet
      · exact quiet_raise (by decide)

/-! Failures -/

theorem aborts_single (he : l.entitlements.get k = some e) :
    (∃ x, (orRaise (updateEntitlement k f hf l) (fun l => .commit l ()) : Verdict Ledger Err Unit).raised = some x ∧
      x.ofPhaseTrigger = true) ↔ ¬ Permitted e (f e) := by
  have h : (∃ x, updateEntitlement k f hf l = .error x ∧ x.ofPhaseTrigger = true) ↔ ¬ Permitted e (f e) :=
    updateEntitlement_ofPhaseTrigger he
  rw [← h]
  cases updateEntitlement k f hf l with
  | error => simp [orRaise, Verdict.raised]
  | ok => simp [orRaise, Verdict.raised]

theorem Quiet.not_aborts {v : Verdict Ledger Err α} (h : Quiet v) :
    ¬ ∃ x, v.raised = some x ∧ x.ofPhaseTrigger = true := by
  rintro ⟨x, hx, ht⟩
  rw [h x hx] at ht
  cases ht

theorem requeue_aborts_iff {row : Entitlement} {error : Err} :
    (∃ x, (requeueReconciliationFailure cfg clk row worker error maxAttempts l).raised = some x ∧
      x.ofPhaseTrigger = true) ↔ ¬ RequeueFits l row worker maxAttempts := by
  -- a requeue that is lost is told from one the triggers stop by its message
  have hlost : ∀ p : Prop, p → ((∃ x, (Verdict.raise (.runtime "authority_reconciliation_state_lost") :
      Verdict Ledger Err Unit).raised = some x ∧ x.ofPhaseTrigger = true) ↔ ¬ p) := by
    intro p hp
    have hquiet : Quiet (.raise (.runtime "authority_reconciliation_state_lost") : Verdict Ledger Err Unit) :=
      quiet_raise (by decide)
    exact ⟨fun h => absurd h hquiet.not_aborts, fun h => absurd hp h⟩
  unfold requeueReconciliationFailure
  simp only
  split
  · rename_i hphase
    exact hlost _ (fun fresh _ _ hrow => absurd hrow hphase)
  · rename_i hphase
    split
    · rename_i hnone
      exact hlost _ (fun fresh hget => by rw [hnone] at hget; cases hget)
    · rename_i fresh hget
      split
      · rename_i hguard
        apply hlost
        intro y hy hholds _ hsame
        rw [hget] at hy
        cases hy
        simp [hholds] at hguard
        exact absurd hsame (by tauto)
      · rename_i hguard
        simp only [Bool.or_eq_true, Bool.not_eq_true', decide_eq_true_eq, not_or,
          Bool.not_eq_false] at hguard
        obtain ⟨hholds, hdiffer⟩ := hguard
        have hsame : fresh.phase = row.phase ∨ fresh.phase = .readbackOnly := by tauto
        have hcross : fresh.phase = .crossingAuthorized ∨ fresh.phase = .readbackOnly := by
          rcases hsame with hs | hs
          · rw [hs]
            exact not_not.mp hphase
          · exact .inr hs
        rw [aborts_single hget, permitted_requeue hcross, not_iff_not]
        constructor
        · intro h y hy _ _ _
          rw [hget] at hy
          cases hy
          exact h
        · intro h
          exact h fresh hget hholds (not_not.mp hphase) hsame

theorem failUncrossed_aborts_iff {row : Entitlement} {error : Err} :
    (∃ x, (failUncrossed cfg clk row worker error maxAttempts l).raised = some x ∧
      x.ofPhaseTrigger = true) ↔
      ¬ ∀ fresh, l.entitlements.get row.payload.orderId = some fresh →
        fresh.holds worker row.fencingVersion = true → fresh.phase ≠ .crossingPrepared := by
  unfold failUncrossed
  split
  · rename_i hnone
    refine ⟨fun h => absurd h quiet_leave.not_aborts, fun h => absurd ?_ h⟩
    intro fresh hget
    rw [hnone] at hget
    cases hget
  · rename_i fresh hget
    split
    · rename_i hguard
      refine ⟨fun h => absurd h quiet_leave.not_aborts, fun h => absurd ?_ h⟩
      intro y hy hholds
      rw [hget] at hy
      cases hy
      rw [hholds] at hguard
      cases hguard
    · rename_i hguard
      have hholds : fresh.holds worker row.fencingVersion = true := by simpa using hguard
      rw [aborts_single hget, permitted_fail hholds, not_iff_not]
      constructor
      · intro h y hy _
        rw [hget] at hy
        cases hy
        exact h
      · intro h
        exact h fresh hget hholds

/-! Reversals -/

theorem confirmed_iff_undelivered (hinv : Inv cfg l.core)
    (ho : l.orders.get oid = some o) (hlive : o.state.terminal = false)
    (he : l.entitlements.get oid = some e) : o.state = .paymentConfirmed ↔ e.deliveredLicense = none := by
  obtain ⟨hwf, ⟨x, hx, hfit⟩, -⟩ := hinv.outbox oid e he
  have hxo : some x = some o := hx.symm.trans ho
  cases hxo
  rcases hfit with ⟨hst, hs⟩ | ⟨hst, hs⟩ | hrev
  · refine ⟨fun _ => ?_, fun _ => hst⟩
    cases hl : e.deliveredLicense with
    | none => rfl
    | some => exact absurd (deliveredLicense_some hl).1 hs
  · refine ⟨fun h => ?_, fun hl => absurd hs (deliveredLicense_none hwf hl)⟩
    rw [hst] at h
    cases h
  · rw [unreversed_of_live hlive] at hrev
    cases hrev

theorem cancel_ok {hash : String} (he : l.entitlements.get oid = some e)
    (hs : e.deliveredLicense = none) (hwf : e.Wf cfg) (hp : e.phase ≠ .manualReview) :
    updateEntitlement oid (Entitlement.cancel hash retryAt) Entitlement.cancel_orderId l =
      .ok { l with
        entitlements := l.entitlements.modify oid (Entitlement.cancel hash retryAt) Entitlement.cancel_orderId } := by
  have hnd : e.state ≠ .delivered := deliveredLicense_none hwf hs
  have hperm : Permitted e (e.cancel hash retryAt) := permitted_cancel.mpr hp
  have hnone : entitlementRefuses l.entitlements oid e (e.cancel hash retryAt) = none := by
    apply firstBad_eq_none
    simp only [List.forall_mem_cons]
    refine ⟨hperm.1, hperm.2, ?_, ?_, ?_, ?_, ?_, clash_same rfl, clash_same rfl, by simp⟩
    · simp [entitlementPayloadImmutable, Entitlement.cancel]
    · simp [entitlementAckOnce, hnd]
    · simp [entitlementIdentityImmutable, Entitlement.cancel]
    · simp [entitlementAuthorityAckOnce, Entitlement.cancel]
    · simp [entitlementDeliveredAckRequired, Entitlement.cancel]
  unfold updateEntitlement
  rw [he]
  simp only
  rw [hnone]

theorem cancel_aborts {hash : String}
    (he : l.entitlements.get oid = some e) (hp : e.phase = .manualReview) :
    updateEntitlement oid (Entitlement.cancel hash retryAt) Entitlement.cancel_orderId l =
      .error protocolAbort := by
  have hbad : reconciliationProtocol e (e.cancel hash retryAt) = true := by
    simp [reconciliationProtocol, Entitlement.cancel, hp]
  unfold updateEntitlement
  rw [he]
  simp only [entitlementRefuses, firstBad_cons, hbad, if_true]

theorem insertAssertion_quiet {a : Assertion} (h : insertAssertion a l = .error x) :
    x.ofPhaseTrigger = false := by
  unfold insertAssertion insertChecked at h
  split at h
  · rename_i y hy
    cases h
    split at hy
    · rename_i z hz
      cases hy
      have hmem := firstBad_mem hz
      simp only [List.map_cons, List.map_nil, List.mem_cons, List.not_mem_nil, or_false] at hmem
      rcases hmem with rfl | rfl <;> decide
    · split at hy <;> cases hy
      decide
  · cases h

theorem insertAssertionOrIgnore_quiet {a : Assertion}
    (h : insertAssertionOrIgnore a l = .error x) : x.ofPhaseTrigger = false := by
  unfold insertAssertionOrIgnore at h
  split at h
  · cases h
  · exact insertAssertion_quiet h

theorem revocationAssertion_quiet {license : String} {at_ : Time} {sequence : Nat}
    (h : revocationAssertion cfg license at_ sequence reason = .error x) :
    x.ofPhaseTrigger = false := by
  unfold revocationAssertion at h
  split at h
  · cases h
    decide
  · split at h <;> cases h
    decide

theorem bind_error {β : Type} {x : Except Err α} {f : α → Except Err β} {e : Err}
    (h : (x >>= f) = .error e) : x = .error e ∨ ∃ a, x = .ok a ∧ f a = .error e := by
  cases x with
  | error => exact .inl (by cases h; rfl)
  | ok a => exact .inr ⟨a, rfl, h⟩

/-- The entitlement part of an admin transition is stopped by the triggers only where it
fences a crossing in manual review. -/
theorem reverseEntitlement_trigger {action : AdminAction}
    (h : reverseEntitlement cfg clk oid action reason l = .error x) (hx : x.ofPhaseTrigger = true) :
    action = .refund ∧ ∃ e, l.entitlements.get oid = some e ∧ e.deliveredLicense = none ∧
      e.phase = .manualReview := by
  have hno : ∀ {p : Prop}, x.ofPhaseTrigger = false → p := by
    intro p hq
    rw [hq] at hx
    cases hx
  unfold reverseEntitlement at h
  simp only at h
  cases he : l.entitlements.get oid with
  | none =>
    rw [he] at h
    cases h
  | some e =>
    rw [he] at h
    simp only at h
    split at h
    · cases h
    · rcases bind_error h with h | ⟨a, -, h⟩
      · exact hno (revocationAssertion_quiet h)
      · rcases bind_error h with h | ⟨l₀, -, h⟩
        · exact hno (insertAssertion_quiet h)
        · rcases bind_error h with h | ⟨r, -, h⟩
          · exact hno (enqueueRevocation_quiet h)
          · cases h
    · rename_i hl
      rcases bind_error h with h | ⟨a, -, h⟩
      · refine ⟨rfl, e, rfl, hl, ?_⟩
        by_contra hp
        exact hno (permitted_quiet he (permitted_cancel.mpr hp) h)
      · cases h
    · cases h

/-- The same of a Whop reversal. -/
theorem reverseByWhop_trigger {kind : WhopKind}
    (h : (reverseByWhop cfg clk oid kind l).2 = .error x) (hx : x.ofPhaseTrigger = true) :
    ∃ e, l.entitlements.get oid = some e ∧ e.deliveredLicense = none ∧ e.phase = .manualReview := by
  have hno : ∀ {p : Prop}, x.ofPhaseTrigger = false → p := by
    intro p hq
    rw [hq] at hx
    cases hx
  unfold reverseByWhop at h
  cases he : l.entitlements.get oid with
  | none =>
    rw [he] at h
    cases h
  | some e =>
    rw [he] at h
    cases hl : e.deliveredLicense with
    | some =>
      simp only [hl] at h
      split at h
      · rename_i y hy
        cases h
        exact hno (revocationAssertion_quiet hy)
      · split at h
        · rename_i y hy
          cases h
          exact hno (insertAssertionOrIgnore_quiet hy)
        · split at h
          · rename_i y hy
            cases h
            exact hno (enqueueRevocation_quiet hy)
          · cases h
    | none =>
      simp only [hl] at h
      split at h
      · rename_i y hy
        cases h
        refine ⟨e, rfl, hl, ?_⟩
        by_contra hp
        exact hno (permitted_quiet he (permitted_cancel.mpr hp) hy)
      · cases h

theorem adminTransition_refund_error (ho : l.orders.get oid = some o)
    (hst : o.state = .paymentConfirmed) (hr : reverseEntitlement cfg clk oid .refund none l = .error x) :
    adminTransition cfg clk oid .refund none l = .raise x := by
  unfold adminTransition
  simp [ho, hst, AdminAction.target, AdminAction.allows, hr]

theorem adminTransition_refund_ok {l₂ : Ledger} {assertion : Option Doc}
    {event : Option Revocation} (ho : l.orders.get oid = some o) (hst : o.state = .paymentConfirmed)
    (hr : reverseEntitlement cfg clk oid .refund none l = .ok (l₁, assertion, event))
    (hset : setOrderState oid .refunded (clk 0) l₁ = .ok l₂) :
    ∃ m r, adminTransition cfg clk oid .refund none l = .commit m r ∧ m.orders = l₂.orders := by
  unfold adminTransition
  simp only [ho, hst, AdminAction.target, AdminAction.allows, hr, orRaise, hset]
  exact ⟨_, _, rfl, rfl⟩

theorem admin_aborts_iff (hinv : Inv cfg l.core) {action : AdminAction} :
    (∃ x, (adminTransition cfg clk oid action reason l).raised = some x ∧ x.ofPhaseTrigger = true) ↔
      ¬ (action = .refund → reason = none → ReversalFits l oid) := by
  constructor
  · rintro ⟨x, hx, htrig⟩ hfits
    have hno : ∀ {p : Prop}, x.ofPhaseTrigger = false → p := by
      intro p hq
      rw [hq] at htrig
      cases htrig
    unfold adminTransition at hx
    simp only at hx
    split at hx
    · cases hx
      exact hno (by decide)
    · rename_i hreason
      split at hx
      · cases hx
        exact hno (by decide)
      · rename_i o ho
        split at hx
        · cases hx
        · split at hx
          · cases hx
            exact hno (by simp [Err.ofPhaseTrigger, Err.value, protocolAbort, preparedLeaseAbort, Err.integrity])
          · rename_i hallowed
            rw [Bool.not_eq_false] at hallowed
            split at hx
            · rename_i y hy
              cases hx
              obtain ⟨rfl, e, he, hl, hp⟩ := reverseEntitlement_trigger hy htrig
              have hnone : reason = none := by
                by_contra hc
                exact hreason ⟨by decide, Option.isSome_iff_ne_none.mpr hc⟩
              have hst := (confirmed_iff_undelivered hinv ho (allows_live hallowed) he).mpr hl
              exact hfits rfl hnone o e ho hst he hp
            · rename_i l₁ assertion event hrev
              have hquiet : ∀ k : Ledger → Verdict Ledger Err AdminResult, (∀ m, Quiet (k m)) →
                  Quiet (orRaise (setOrderState oid action.target (clk 0) l₁) k) :=
                fun k hk => quiet_orRaise (fun _ h => updateOrder_quiet h) (fun m _ => hk m)
              exact hno (hquiet _ (fun _ => quiet_commit) x hx)
  · intro h
    push Not at h
    obtain ⟨rfl, rfl, h⟩ := h
    unfold ReversalFits at h
    push Not at h
    obtain ⟨o, e, ho, hst, he, hp⟩ := h
    have hlive : o.state.terminal = false := by rw [hst]; rfl
    have hl := (confirmed_iff_undelivered hinv ho hlive he).mp hst
    have hrev : reverseEntitlement cfg clk oid .refund none l = .error protocolAbort := by
      unfold reverseEntitlement
      simp only [he, hl]
      rw [cancel_aborts he hp]
      rfl
    rw [adminTransition_refund_error ho hst hrev]
    exact ⟨protocolAbort, rfl, by decide⟩

theorem reverseByWhop_fenced {kind : WhopKind}
    (he : l.entitlements.get oid = some e) (hl : e.deliveredLicense = none) :
    reverseByWhop cfg clk oid kind l =
      match updateEntitlement oid (Entitlement.cancel (cfg.sha256 (.text "cancelled_by_whop_reversal"))
          (clk 1 + seconds 2)) Entitlement.cancel_orderId l with
      | .error x => (l, .error x)
      | .ok l₁ => (l₁, .ok ()) := by
  unfold reverseByWhop
  cases hupdate : updateEntitlement oid (Entitlement.cancel (cfg.sha256 (.text "cancelled_by_whop_reversal"))
      (clk 1 + seconds 2)) Entitlement.cancel_orderId l with
  | error x => simp only [he, hl, hupdate]
  | ok l₁ => simp only [he, hl, hupdate]

theorem applyWhopBusinessLocked_confirmed
    (ho : l.orders.get ev.orderId = some o) (hst : o.state = .paymentConfirmed) (hkind : ev.kind ≠ .paid) :
    applyWhopBusinessLocked cfg clk ev l =
      match reverseByWhop cfg clk ev.orderId ev.kind l with
      | (l₁, .error x) => (l₁, .error x)
      | (l₁, .ok ()) =>
        match setOrderState ev.orderId ev.kind.target (clk 0) l₁ with
        | .error x => (l₁, .error x)
        | .ok l₂ => (audit cfg (clk 3) "whop.webhook" ("order." ++ ev.kind.text) ev.orderId
            [("from", .str o.state.text), ("to", .str ev.kind.target.text)] l₂, .ok ()) := by
  have hid : o.id = ev.orderId := get_key ho
  unfold applyWhopBusinessLocked
  simp only [ho, if_neg hkind, hst, hid]
  rfl

theorem whop_aborts_iff (hinv : Inv cfg l.core) :
    (∃ x, errorOf (applyWhopBusinessLocked cfg clk ev l).2 = some x ∧ x.ofPhaseTrigger = true) ↔
      ¬ (ev.kind ≠ .paid → ReversalFits l ev.orderId) := by
  constructor
  · rintro ⟨x, hx, htrig⟩ hfits
    have hno : ∀ {p : Prop}, x.ofPhaseTrigger = false → p := by
      intro p hq
      rw [hq] at htrig
      cases htrig
    unfold applyWhopBusinessLocked at hx
    split at hx
    · cases hx
      exact hno (by decide)
    · rename_i o ho
      split at hx
      · split at hx
        · cases hx
        · split at hx
          · cases hx
            exact hno (by decide)
          · cases hx
      · rename_i hkind
        split at hx
        · cases hx
        · rename_i hnot
          split at hx
          · cases hx
          · rename_i hnot'
            have hid : o.id = ev.orderId := get_key ho
            have hlive : o.state.terminal = false := by
              cases hs : o.state <;> simp_all [OrderState.terminal]
            split at hx
            · rename_i l₁ y hy
              cases hx
              rw [hid] at hy
              obtain ⟨e, he, hl, hp⟩ := reverseByWhop_trigger (congrArg Prod.snd hy) htrig
              have hst := (confirmed_iff_undelivered hinv ho hlive he).mpr hl
              exact hfits hkind o e ho hst he hp
            · split at hx
              · rename_i y hy
                cases hx
                exact hno (updateOrder_quiet hy)
              · cases hx
  · intro h
    push Not at h
    obtain ⟨hkind, h⟩ := h
    unfold ReversalFits at h
    push Not at h
    obtain ⟨o, e, ho, hst, he, hp⟩ := h
    have hlive : o.state.terminal = false := by rw [hst]; rfl
    have hl := (confirmed_iff_undelivered hinv ho hlive he).mp hst
    rw [applyWhopBusinessLocked_confirmed ho hst hkind, reverseByWhop_fenced he hl, cancel_aborts he hp]
    exact ⟨protocolAbort, rfl, by decide⟩

theorem orderState_set {st : OrderState} {now : Time} (ho : l₁.orders.get oid = some o)
    (hm : m.orders = l₁.orders.modify oid (Order.withState st now) Order.withState_id) :
    orderState m oid = some st := by
  unfold orderState
  rw [hm, get_modify_self Order.withState_id ho]
  rfl

theorem setOrderState_after (hinv : Inv cfg l.core)
    (ho : l.orders.get oid = some o) (hl₁ : l₁.orders = l.orders) (st : OrderState) (now : Time) :
    setOrderState oid st now l₁ =
      .ok { l₁ with orders := l₁.orders.modify oid (Order.withState st now) Order.withState_id } := by
  have h := setOrderState_ok hinv ho st now
  unfold setOrderState updateOrder at h ⊢
  rw [hl₁]
  rw [ho] at h ⊢
  simp only at h ⊢
  split at h
  · cases h
  · rfl

/-- A confirmed order can be refunded, by an admin or by a Whop event, exactly when its
row is not in manual review. -/
theorem refund_succeeds_iff (hinv : Inv cfg l.core)
    (ho : l.orders.get oid = some o) (hst : o.state = .paymentConfirmed) :
    (∃ m r, adminTransition cfg clk oid .refund none l = .commit m r ∧ orderState m oid = some .refunded) ↔
      ReversalFits l oid := by
  have hlive : o.state.terminal = false := by rw [hst]; rfl
  constructor
  · rintro ⟨m, r, hm, -⟩
    by_contra hfits
    obtain ⟨x, hx, -⟩ := (admin_aborts_iff hinv).mpr (fun h => hfits (h rfl rfl))
    rw [hm] at hx
    cases hx
  · intro hfits
    have hrev : ∃ l₁ a ev, reverseEntitlement cfg clk oid .refund none l = .ok (l₁, a, ev) ∧
        l₁.orders = l.orders := by
      unfold reverseEntitlement
      cases he : l.entitlements.get oid with
      | none => exact ⟨l, none, none, rfl, rfl⟩
      | some e =>
        have hl := (confirmed_iff_undelivered hinv ho hlive he).mp hst
        have hp := hfits o e ho hst he
        have hwf := (hinv.outbox oid e he).1
        simp only [hl]
        rw [cancel_ok he hl hwf hp]
        exact ⟨_, none, none, rfl, rfl⟩
    obtain ⟨l₁, a, ev, hok, hl₁⟩ := hrev
    have hset := setOrderState_after hinv ho hl₁ .refunded (clk 0)
    obtain ⟨m, r, hm, hmo⟩ := adminTransition_refund_ok ho hst hok hset
    exact ⟨m, r, hm, orderState_set (by rw [hl₁]; exact ho) hmo⟩

theorem whop_reversal_succeeds_iff (hinv : Inv cfg l.core)
    (ho : l.orders.get ev.orderId = some o) (hst : o.state = .paymentConfirmed) (hkind : ev.kind ≠ .paid) :
    ((applyWhopBusinessLocked cfg clk ev l).2 = .ok () ∧
      orderState (applyWhopBusinessLocked cfg clk ev l).1 ev.orderId = some ev.kind.target) ↔
      ReversalFits l ev.orderId := by
  have hlive : o.state.terminal = false := by rw [hst]; rfl
  constructor
  · rintro ⟨hok, -⟩
    by_contra hfits
    obtain ⟨x, hx, -⟩ := (whop_aborts_iff hinv).mpr (fun h => hfits (h hkind))
    rw [hok] at hx
    cases hx
  · intro hfits
    have hrev : ∃ l₁, reverseByWhop cfg clk ev.orderId ev.kind l = (l₁, .ok ()) ∧ l₁.orders = l.orders := by
      cases he : l.entitlements.get ev.orderId with
      | none =>
        refine ⟨l, ?_, rfl⟩
        unfold reverseByWhop
        rw [he]
      | some e =>
        have hl := (confirmed_iff_undelivered hinv ho hlive he).mp hst
        have hp := hfits o e ho hst he
        have hwf := (hinv.outbox ev.orderId e he).1
        rw [reverseByWhop_fenced he hl, cancel_ok he hl hwf hp]
        exact ⟨_, rfl, rfl⟩
    obtain ⟨l₁, hl₁, horders⟩ := hrev
    rw [applyWhopBusinessLocked_confirmed ho hst hkind, hl₁]
    simp only
    rw [setOrderState_after hinv ho horders]
    refine ⟨rfl, ?_⟩
    have ho₁ : l₁.orders.get ev.orderId = some o := by rw [horders]; exact ho
    exact orderState_set ho₁ rfl

/-! Every operation -/

/-- In every reachable state: the phase triggers let an operation on the outbox through
exactly when it fits (`OutboxOp.Fits`), and a confirmed order can be refunded, by an admin
or by a Whop event, exactly when its crossing is not in manual review. -/
theorem phase_triggers_agree_iff {s : Sys} (hs : Reachable (step cfg) (initial cfg) s) (clk : Nat → Time) :
    (∀ op : OutboxOp, (∀ d, op = .deliver d → ∃ tid, s.deliveries tid = some d) →
      (¬ op.Aborts cfg clk s.ledger ↔ op.Fits s.ledger)) ∧
    ∀ oid o, s.ledger.orders.get oid = some o → o.state = .paymentConfirmed →
      ((∃ m r, adminTransition cfg clk oid .refund none s.ledger = .commit m r ∧
          orderState m oid = some .refunded) ↔ ReversalFits s.ledger oid) ∧
      ∀ ev : InboxEvent, ev.orderId = oid → ev.kind ≠ .paid →
        (((applyWhopBusinessLocked cfg clk ev s.ledger).2 = .ok () ∧
          orderState (applyWhopBusinessLocked cfg clk ev s.ledger).1 oid = some ev.kind.target) ↔
          ReversalFits s.ledger oid) := by
  have hsys := reachable_inv hs
  have hinv := hsys.core
  constructor
  · intro op hop
    have htrue : ∀ {α : Type} {v : Verdict Ledger Err α}, Quiet v →
        ((¬ ∃ x, v.raised = some x ∧ x.ofPhaseTrigger = true) ↔ True) :=
      fun h => ⟨fun _ => trivial, fun _ => h.not_aborts⟩
    cases op with
    | claim worker leaseSeconds orderId => exact htrue (claimOutbox_quiet hinv)
    | requeue row worker error maxAttempts => exact not_iff_comm.mp requeue_aborts_iff.symm
    | admin oid action reason => exact not_iff_comm.mp (admin_aborts_iff hinv).symm
    | whop ev => exact not_iff_comm.mp (whop_aborts_iff hinv).symm
    | fail row worker error maxAttempts =>
      simp only [OutboxOp.Aborts, OutboxOp.error, OutboxOp.Fits, failBody]
      by_cases hc : row.phase = .crossingAuthorized ∨ row.phase = .readbackOnly
      · rw [if_pos hc, if_pos hc]
        exact not_iff_comm.mp requeue_aborts_iff.symm
      · rw [if_neg hc, if_neg hc]
        exact not_iff_comm.mp failUncrossed_aborts_iff.symm
    | deliver d =>
      obtain ⟨tid, htid⟩ := hop d rfl
      have hok := hsys.deliveries tid d htid
      simp only [OutboxOp.Aborts, OutboxOp.error, OutboxOp.Fits, deliverBody]
      cases hpc : d.pc with
      | start => exact htrue revalidateLease_quiet
      | handshaken => exact htrue (prepareCrossing_quiet hinv)
      | prepared => exact htrue authorizeCrossing_quiet
      | unread => exact not_iff_comm.mp requeue_aborts_iff.symm
      | verified a =>
        simp only [Option.bind_some, Verdict.void_raised]
        refine htrue (commitDelivery_quiet ?_)
        intro e he hp
        obtain ⟨x, hx, -, -, hcross⟩ := hok.stored
        rw [he] at hx
        cases hx
        have hc := hcross (hok.past (by rw [hpc]; rfl))
        rw [hp] at hc
        cases hc
      | _ => simp
  · intro oid o ho hst
    refine ⟨refund_succeeds_iff hinv ho hst, ?_⟩
    rintro ev rfl hkind
    exact whop_reversal_succeeds_iff hinv ho hst hkind

theorem sale_is_refundable :
    ∃ m r, adminTransition Demo.config (fun _ => 5) "o" .refund none (Demo.after Demo.sale).ledger = .commit m r ∧
      orderState m "o" = some .refunded := by
  have h : ((Demo.after Demo.sale).ledger.orders.get "o").any
      (fun o => decide (o.state = .paymentConfirmed)) = true ∧
      ((Demo.after Demo.sale).ledger.entitlements.get "o").all (fun e => decide (e.phase ≠ .manualReview)) = true := by
    decide +kernel
  obtain ⟨o, ho, hst⟩ := (Option.any_eq_true _ _).mp h.1
  have hfits : ReversalFits (Demo.after Demo.sale).ledger "o" := by
    intro o' e _ _ he
    have hall := h.2
    rw [he] at hall
    exact of_decide_eq_true hall
  exact ((phase_triggers_agree_iff (Demo.reachable_after Demo.sale) (fun _ => 5)).2 "o" o ho
    (of_decide_eq_true hst)).1.mpr hfits

namespace Demo

/-- The sale crosses once, seven leases run out unused, and the readback of the eighth
fails: the crossing goes to manual review. -/
def reviewed : List Event :=
  sale ++ claim 4 30 ++ deliver 4 .raised 4 ++
    (List.range 7).flatMap (fun k => claim (seconds (40 * (k + 1))) 30) ++ deliver (seconds 281) .raised 6

end Demo

/-- The refund of a confirmed order whose crossing is in manual review is aborted. -/
theorem reviewed_crossing_blocks_refund :
    orderState (Demo.after Demo.reviewed).ledger "o" = some .paymentConfirmed ∧
      ((Demo.after Demo.reviewed).ledger.entitlements.get "o").map (fun e => (e.phase, e.attemptCount)) =
        some (.manualReview, 8) ∧
      (adminTransition Demo.config (fun _ => seconds 300) "o" .refund none
        (Demo.after Demo.reviewed).ledger).raised = some protocolAbort ∧
      orderState (Demo.after (Demo.reviewed ++ Demo.refund (seconds 300))).ledger "o" =
        some .paymentConfirmed := by
  decide +kernel

end GrowthMap.Payments
