import GrowthMap.Payments.Refinement

/- The bodies of the two outboxes and of the reversals refine the abstract machine. The
   invariant is assumed where they trust the ledger: a row's order exists, an issued
   order's row is delivered, a reversed delivery has no revocation yet, a sale has a
   positive number. -/
namespace GrowthMap.Payments

open Relational Transaction Table
open Fallible (bind_ok)

variable {cfg : Config} {clk : Nat → Time} {l l' m : Ledger} {P : String → Prop}

/-! The entitlement outbox -/

variable {oid worker reason : String} {o : Order} {e : Entitlement} {orderId : Option String} {leaseSeconds : Int}
  {maxAttempts : Nat} {r : Revocation} {serviceNow createdAt : Time} {p : EntitlementPayload} {s st : OrderState}
  {l₁ : Ledger} {ev : InboxEvent}

theorem turn_moves {f : Entitlement → Entitlement}
    {hf : ∀ r, (f r).payload.orderId = r.payload.orderId}
    (h : updateEntitlement oid f hf l = .ok l') (ho : l.orders.get oid = some o)
    (he : l.entitlements.get oid = some e) (ht : Turn o.state e (f e)) : Move cfg P l.core l'.core := by
  obtain ⟨hperm, rfl⟩ := updateEntitlement_ok h he
  exact .turn oid o e f hf ho he ht hperm

theorem updateEntitlement_get {f : Entitlement → Entitlement} {hf : ∀ r, (f r).payload.orderId = r.payload.orderId}
    (h : updateEntitlement oid f hf l = .ok l') (he : l.entitlements.get oid = some e) :
    l'.entitlements = l.entitlements.modify oid f hf ∧ l'.entitlements.get oid = some (f e) := by
  obtain ⟨-, rfl⟩ := updateEntitlement_ok h he
  exact ⟨rfl, get_modify_self hf he⟩

theorem order_of_entitlement (hinv : Inv cfg l.core)
    (he : l.entitlements.get oid = some e) : ∃ o, l.orders.get oid = some o ∧ Fits o.state e := by
  obtain ⟨-, hfit, -⟩ := hinv.outbox oid e he
  exact hfit

variable {now : Time} {row : Entitlement} {error : Err} {license : String} {action : ReversalAction}

theorem claimWhere_facts (h : claimWhere now orderId l e = true) : e.state ≠ .delivered := by
  simp only [claimWhere, Bool.and_eq_true] at h
  have h1 := h.1
  split at h1
  · intro hd
    simp [claimable, hd] at h1
  · cases h1

theorem leaseEntitlement_moves {expires : Time}
    (h : (leaseEntitlement worker expires oid l).committed = some m)
    (ho : l.orders.get oid = some o) (he : l.entitlements.get oid = some e)
    (hs : e.state ≠ .delivered) (hp : e.phase ≠ .crossingPrepared) : Move cfg P l.core m.core := by
  obtain ⟨l', hu, h⟩ := committed_orRaise h
  cases h
  exact turn_moves hu ho he (.claim worker expires hs hp)

theorem claimOutbox_moves (hinv : Inv cfg l.core)
    (h : (claimOutbox clk worker leaseSeconds orderId l).committed = some m) :
    Moves cfg P l.core m.core := by
  unfold claimOutbox at h
  simp only at h
  split at h
  · cases h
  · rename_i row hrow
    have hmem := oldest_mem hrow
    rw [List.mem_filter] at hmem
    have he : l.entitlements.get row.payload.orderId = some row := get_of_mem hmem.1
    have hs := claimWhere_facts hmem.2
    obtain ⟨o, ho, -⟩ := order_of_entitlement hinv he
    split at h
    · rename_i hprep
      split at h
      · cases h
      · split at h
        · cases h
        · obtain ⟨l₁, hu, h⟩ := committed_orRaise h
          have hreset : Move cfg P l.core l₁.core := turn_moves hu ho he (.reset (clk 0) hprep.1 hprep.2)
          split at h
          · cases h
            exact .single hreset
          · split at h
            · cases h
            · obtain ⟨-, rfl⟩ := updateEntitlement_ok hu he
              have he₁ := get_modify_self (f := Entitlement.resetPrepared (clk 0))
                Entitlement.resetPrepared_orderId he
              refine .tail (.single hreset) (leaseEntitlement_moves h ho he₁ ?_ ?_)
              · simp [Entitlement.resetPrepared]
              · simp [Entitlement.resetPrepared]
    · rename_i hnot
      have hphase : row.phase ≠ .crossingPrepared := by
        intro hp
        obtain ⟨hwf, -⟩ := hinv.outbox _ row he
        exact hnot ⟨hwf.prepared hp, hp⟩
      exact .single (leaseEntitlement_moves h ho he hs hphase)

theorem revalidateLease_moves :
    (revalidateLease row worker l).committed = none := by
  unfold revalidateLease
  split
  · split <;> rfl
  · rfl

theorem prepareCrossing_ok (h : (prepareCrossing row worker l).committed = some m) :
    ∃ e, l.entitlements.get row.payload.orderId = some e ∧ e.holds worker row.fencingVersion = true ∧ e.phase = .none ∧
      updateEntitlement row.payload.orderId (Entitlement.withPhase .crossingPrepared) Entitlement.withPhase_orderId l = .ok m := by
  unfold prepareCrossing at h
  split at h
  · cases h
  · rename_i e he
    split at h
    · cases h
    · rename_i hguard
      simp only [Bool.or_eq_true, Bool.not_eq_true', decide_eq_true_eq, not_or, not_not, Bool.not_eq_false] at hguard
      obtain ⟨l', hu, h⟩ := committed_orRaise h
      cases h
      exact ⟨e, he, hguard.1, hguard.2, hu⟩

theorem authorizeCrossing_ok (h : (authorizeCrossing row worker l).committed = some m) :
    ∃ e, l.entitlements.get row.payload.orderId = some e ∧ e.holds worker row.fencingVersion = true ∧
      e.phase = .crossingPrepared ∧ orderState l row.payload.orderId = some .paymentConfirmed ∧
      updateEntitlement row.payload.orderId (Entitlement.withPhase .crossingAuthorized) Entitlement.withPhase_orderId l = .ok m := by
  unfold authorizeCrossing at h
  split at h
  · cases h
  · rename_i e he
    split at h
    · cases h
    · rename_i hguard
      simp only [Bool.or_eq_true, Bool.not_eq_true', decide_eq_true_eq, not_or, not_not, Bool.not_eq_false] at hguard
      obtain ⟨l', hu, h⟩ := committed_orRaise h
      cases h
      exact ⟨e, he, hguard.1.1, hguard.1.2, hguard.2, hu⟩

theorem requeueReconciliationFailure_ok
    (h : (requeueReconciliationFailure cfg clk row worker error maxAttempts l).committed = some m) :
    ∃ e, l.entitlements.get row.payload.orderId = some e ∧ e.holds worker row.fencingVersion = true ∧
      (e.phase = .crossingAuthorized ∨ e.phase = .readbackOnly) ∧
      updateEntitlement row.payload.orderId (Entitlement.requeue (cfg.sha256 (.text error.text)) (clk 0) maxAttempts)
        Entitlement.requeue_orderId l = .ok m := by
  unfold requeueReconciliationFailure at h
  simp only at h
  split at h
  · cases h
  · rename_i hrow
    split at h
    · cases h
    · rename_i e he
      split at h
      · cases h
      · rename_i hguard
        simp only [Bool.or_eq_true, Bool.not_eq_true', decide_eq_true_eq, not_or, Bool.not_eq_false] at hguard
        obtain ⟨l', hu, h⟩ := committed_orRaise h
        cases h
        refine ⟨e, he, hguard.1, ?_, hu⟩
        rcases not_not.mp hrow with hr | hr <;> rw [hr] at hguard <;> tauto

theorem failUncrossed_ok (h : (failUncrossed cfg clk row worker error maxAttempts l).committed = some m) :
    ∃ e, l.entitlements.get row.payload.orderId = some e ∧ e.holds worker row.fencingVersion = true ∧
      updateEntitlement row.payload.orderId (Entitlement.fail (cfg.sha256 (.text error.text)) (clk 0) maxAttempts)
        Entitlement.fail_orderId l = .ok m := by
  unfold failUncrossed at h
  split at h
  · cases h
  · rename_i e he
    split at h
    · cases h
    · rename_i hguard
      obtain ⟨l', hu, h⟩ := committed_orRaise h
      cases h
      exact ⟨e, he, by simpa using hguard, hu⟩

theorem prepareCrossing_moves (hinv : Inv cfg l.core)
    (h : (prepareCrossing row worker l).committed = some m) : Moves cfg P l.core m.core := by
  obtain ⟨e, he, hheld, hphase, hu⟩ := prepareCrossing_ok h
  obtain ⟨o, ho, -⟩ := order_of_entitlement hinv he
  exact .single (turn_moves hu ho he (.prepare worker row.fencingVersion hheld hphase))

theorem authorizeCrossing_moves (hinv : Inv cfg l.core)
    (h : (authorizeCrossing row worker l).committed = some m) : Moves cfg P l.core m.core := by
  obtain ⟨e, he, hheld, hphase, hst, hu⟩ := authorizeCrossing_ok h
  obtain ⟨o, ho, -⟩ := order_of_entitlement hinv he
  rw [orderState, ho, Option.map_some, Option.some.injEq] at hst
  exact .single (turn_moves hu ho he (.authorize worker row.fencingVersion hheld hphase hst))

theorem requeueReconciliationFailure_moves (hinv : Inv cfg l.core)
    (h : (requeueReconciliationFailure cfg clk row worker error maxAttempts l).committed = some m) :
    Moves cfg P l.core m.core := by
  obtain ⟨e, he, hheld, hphase, hu⟩ := requeueReconciliationFailure_ok h
  obtain ⟨o, ho, -⟩ := order_of_entitlement hinv he
  exact .single (turn_moves hu ho he (.requeue worker row.fencingVersion _ (clk 0) maxAttempts hheld hphase))

theorem failUncrossed_moves (hinv : Inv cfg l.core)
    (h : (failUncrossed cfg clk row worker error maxAttempts l).committed = some m) :
    Moves cfg P l.core m.core := by
  obtain ⟨e, he, hheld, hu⟩ := failUncrossed_ok h
  obtain ⟨o, ho, -⟩ := order_of_entitlement hinv he
  exact .single (turn_moves hu ho he (.fail worker row.fencingVersion _ (clk 0) maxAttempts hheld))

theorem failBody_moves (hinv : Inv cfg l.core)
    (h : (failBody cfg clk row worker error maxAttempts l).committed = some m) :
    Moves cfg P l.core m.core := by
  unfold failBody at h
  split at h
  · exact requeueReconciliationFailure_moves hinv h
  · exact failUncrossed_moves hinv h

/-! Deliveries and reversals -/

theorem insertRevocationOrIgnore_ok (h : insertRevocationOrIgnore r l = .ok l') :
    l' = l ∨ ∃ t, l.revocations.insert r = some t ∧ l' = { l with revocations := t } ∧
      l.revocations.taken r.payload.eventId (fun x => some x.payload.orderId) (some r.payload.orderId) = false := by
  unfold insertRevocationOrIgnore at h
  split at h
  · cases h
  · split at h
    · cases h
      exact .inl rfl
    · rename_i htaken
      split at h
      · cases h
      · split at h
        · cases h
          exact .inl rfl
        · rename_i t ht
          cases h
          simp only [Bool.or_eq_true, not_or, Bool.not_eq_true] at htaken
          exact .inr ⟨t, ht, rfl, htaken.1.1⟩

/-- Where the order has no revocation yet, a queued one has been inserted: a row that was
ignored is not read back. -/
theorem enqueueRevocation_ok
    (h : enqueueRevocation cfg serviceNow p license action reason createdAt l = .ok (l', r))
    (hnone : ∀ k x, l.revocations.get k = some x → x.payload.orderId ≠ p.orderId) :
    ∃ t, l.revocations.insert (newRevocation cfg p license action reason createdAt) = some t ∧
      l' = { l with revocations := t } ∧
      l.revocations.taken (newRevocation cfg p license action reason createdAt).payload.eventId
        (fun x => some x.payload.orderId) (some p.orderId) = false := by
  unfold enqueueRevocation at h
  split at h
  · cases h
  · split at h
    · cases h
    · rename_i l₁ hi
      split at h
      · cases h
      · rename_i x hx
        cases h
        rcases insertRevocationOrIgnore_ok hi with rfl | hins
        · exfalso
          have hmem := List.mem_of_find?_eq_some hx
          have hoid : r.payload.orderId = p.orderId := by simpa using List.find?_some hx
          exact hnone _ r (get_of_mem hmem) hoid
        · exact hins

theorem enqueueRevocation_tables
    (h : enqueueRevocation cfg serviceNow p license action reason createdAt l = .ok (l', r)) :
    ∃ t, l' = { l with revocations := t } := by
  unfold enqueueRevocation at h
  split at h
  · cases h
  · split at h
    · cases h
    · rename_i l₁ hi
      split at h
      · cases h
      · cases h
        rcases insertRevocationOrIgnore_ok hi with rfl | ⟨t, -, rfl, -⟩
        · exact ⟨l'.revocations, rfl⟩
        · exact ⟨t, rfl⟩

theorem enqueueRevocation_orders
    (h : enqueueRevocation cfg serviceNow p license action reason createdAt l = .ok (l', r)) :
    l'.orders = l.orders := by
  obtain ⟨t, rfl⟩ := enqueueRevocation_tables h
  rfl

theorem commitDelivery_moves {a : EntitlementAck} (hinv : Inv cfg l.core) (hl : a.licenseId ≠ "")
    (hrow : ∀ e, l.entitlements.get row.payload.orderId = some e → e.payload = row.payload)
    (h : (commitDelivery cfg clk row worker a l).committed = some m) : Moves cfg P l.core m.core := by
  -- the compensating end: the row is delivered and its revocation queued
  have hcomp : ∀ (e : Entitlement) (o : Order) (action : ReversalAction) (reason operation : String)
      (data : List (String × Value)) (l₁ : Ledger),
      l.entitlements.get row.payload.orderId = some e → l.orders.get row.payload.orderId = some o →
      e.state ≠ .delivered → o.state.reversed = true → action = o.state.action →
      updateEntitlement row.payload.orderId (Entitlement.deliver a (clk 0)) Entitlement.deliver_orderId l
        = .ok l₁ →
      (compensate cfg clk e.payload a action reason operation data l₁).committed = some m →
      Moves cfg P l.core m.core := by
    intro e o action reason operation data l₁ he ho hs hrev haction hu hc
    obtain ⟨hperm, rfl⟩ := updateEntitlement_ok hu he
    unfold compensate at hc
    split at hc
    · cases hc
    · rename_i l₂ r henq
      cases hc
      have hpay := hrow e he
      have hnone : ∀ k x, l.revocations.get k = some x → x.payload.orderId ≠ e.payload.orderId := by
        rw [hpay]
        apply hinv.revocations.none_of_undelivered
        intro y hy
        have : l.entitlements.get row.payload.orderId = some y := hy
        rw [he] at this
        cases this
        exact hs
      obtain ⟨t, ht, rfl, hfree⟩ := enqueueRevocation_ok henq hnone
      rw [show e.payload.orderId = row.payload.orderId by rw [hpay]] at hfree
      refine .single (.compensate row.payload.orderId o e a (clk 0) _ t ho hrev he hs hl hperm ?_ ht hfree)
      exact ⟨by rw [← hpay]; rfl, rfl, rfl, haction⟩
  unfold commitDelivery at h
  simp only at h
  split at h
  · cases h
  · rename_i e he
    obtain ⟨o, ho, hfit⟩ := order_of_entitlement hinv he
    have hstate : ∀ l₁ : Ledger, l₁.orders = l.orders → orderState l₁ row.payload.orderId = some o.state := by
      intro l₁ hl₁
      rw [orderState, hl₁, ho]
      rfl
    split at h
    · split at h
      · -- a stale worker, after a reversal
        rename_i hstale
        simp only [hstate l rfl, Bool.and_eq_true, decide_eq_true_eq, Option.some.injEq] at hstale h
        obtain ⟨l₁, hu, h⟩ := committed_orRaise h
        refine hcomp e o _ _ _ _ l₁ he ho hstale.2 ?_ ?_ hu h
        · rcases hstale.1 with hs | hs <;> rw [hs] <;> rfl
        · rfl
      · cases h
    · rename_i hheld
      simp only [Bool.not_eq_true', Bool.not_eq_false] at hheld
      have hs : e.state ≠ .delivered := by
        rw [(of_decide_eq_true hheld).1]
        decide
      obtain ⟨l₁, hu, h⟩ := committed_orRaise h
      have hl₁ : l₁.orders = l.orders := by
        obtain ⟨-, rfl⟩ := updateEntitlement_ok hu he
        rfl
      rw [hstate l₁ hl₁] at h
      split at h
      · rename_i hst
        cases hst' : o.state <;> rw [hst'] at hst <;> cases hst
        obtain ⟨hperm, rfl⟩ := updateEntitlement_ok hu he
        obtain ⟨l₂, h₂, h⟩ := committed_orRaise h
        obtain ⟨-, rfl⟩ := updateOrder_ok h₂ ho
        cases h
        exact .single (.issue row.payload.orderId o e a (clk 0) ho hst' he worker row.fencingVersion hheld hl
          hperm)
      · rename_i hst
        cases hst' : o.state <;> rw [hst'] at hst <;> cases hst
        rw [← hrow e he] at h
        exact hcomp e o _ _ _ _ l₁ he ho hs (by rw [hst']; rfl) (by rw [hst']; rfl) hu h
      · rename_i hst
        cases hst' : o.state <;> rw [hst'] at hst <;> cases hst
        rw [← hrow e he] at h
        exact hcomp e o _ _ _ _ l₁ he ho hs (by rw [hst']; rfl) (by rw [hst']; rfl) hu h
      · cases h

/-- A change of state meets no constraint of `orders`. -/
theorem withState_order_passes (hinv : Inv cfg l.core) (ho : l.orders.get oid = some o)
    (st : OrderState) (now : Time) : orderRefuses l.orders oid o (o.withState st now) = none := by
  apply firstBad_eq_none
  simp only [List.forall_mem_cons]
  refine ⟨clash_same rfl, clash_same rfl, clash_same rfl, ?_, by simp⟩
  rw [decide_eq_false_iff_not]
  intro hz
  have hpos := (hinv.ordinals.price oid o 0 ho hz).1
  omega

theorem setOrderState_ok (hinv : Inv cfg l.core) (ho : l.orders.get oid = some o)
    (st : OrderState) (now : Time) :
    setOrderState oid st now l =
      .ok { l with orders := l.orders.modify oid (Order.withState st now) Order.withState_id } :=
  updateOrder_succeeds ho (withState_order_passes hinv ho st now)

theorem unreversed_of_live (h : s.terminal = false) : s.reversed = false := by
  cases s <;> first | rfl | cases h

theorem queue_fresh (hinv : Inv cfg l.core)
    (ho : l.orders.get oid = some o) (hlive : o.state.terminal = false)
    (he : l.entitlements.get oid = some e) :
    ∀ k x, l.revocations.get k = some x → x.payload.orderId ≠ e.payload.orderId := by
  rw [(get_eq_some.mp he).2]
  exact hinv.revocations.none_of_unreversed ho (unreversed_of_live hlive)

theorem deliveredLicense_some (h : e.deliveredLicense = some license) :
    e.state = .delivered ∧ e.licenseId = some license := by
  unfold Entitlement.deliveredLicense at h
  split at h
  · exact ⟨(‹_ ∧ _›).1, h⟩
  · cases h

theorem deliveredLicense_none (hwf : e.Wf cfg) (h : e.deliveredLicense = none) :
    e.state ≠ .delivered := by
  intro hd
  obtain ⟨license, hl, hne⟩ := hwf.delivered hd
  rw [Entitlement.deliveredLicense, if_pos ⟨hd, by simp [truthy, hl, hne]⟩, hl] at h
  cases h

/-- What the entitlement part of an admin transition has done when it returns. -/
theorem reverseEntitlement_ok {action : AdminAction} {reason : Option String}
    {assertion : Option Doc} {event : Option Revocation}
    (h : reverseEntitlement cfg clk oid action reason l = .ok (l', assertion, event)) :
    (l' = l ∧ (action = .reject ∨ l.entitlements.get oid = none ∨
      action = .revoke ∧ ∃ e, l.entitlements.get oid = some e ∧ e.deliveredLicense = none)) ∨
    (action ≠ .reject ∧ ∃ e license l₀ r text, l.entitlements.get oid = some e ∧
      e.deliveredLicense = some license ∧ l₀.core = l.core ∧ enqueueRevocation cfg (clk 1) e.payload license
        (if action = .refund then .refund else .revoke) text (clk 0) l₀ = .ok (l', r)) ∨
    (action = .refund ∧ ∃ e hash retryAt, l.entitlements.get oid = some e ∧ e.deliveredLicense = none ∧
      updateEntitlement oid (Entitlement.cancel hash retryAt) Entitlement.cancel_orderId l = .ok l') := by
  unfold reverseEntitlement at h
  simp only at h
  cases he : l.entitlements.get oid with
  | none =>
    rw [he] at h
    cases h
    exact .inl ⟨rfl, .inr (.inl rfl)⟩
  | some e =>
    rw [he] at h
    simp only at h
    split at h
    · cases h
      exact .inl ⟨rfl, .inl rfl⟩
    · rename_i hl hne
      obtain ⟨a, ha, h⟩ := bind_ok h
      obtain ⟨l₀, h₀, h⟩ := bind_ok h
      obtain ⟨⟨l₁, r⟩, h₁, h⟩ := bind_ok h
      cases h
      exact .inr (.inl ⟨hne, e, _, l₀, r, _, rfl, hl, insertAssertion_core h₀, h₁⟩)
    · rename_i hl
      obtain ⟨l₁, h₁, h⟩ := bind_ok h
      cases h
      exact .inr (.inr ⟨rfl, e, _, _, rfl, hl, h₁⟩)
    · rename_i hl
      cases h
      exact .inl ⟨rfl, .inr (.inr ⟨rfl, e, rfl, hl⟩)⟩

theorem reverseDelivered_moves (hinv : Inv cfg l.core) {text : String}
    {l₀ : Ledger} (ho : l.orders.get oid = some o) (hlive : o.state.terminal = false)
    (hst : st.reversed = true) (he : l.entitlements.get oid = some e)
    (hl : e.deliveredLicense = some license) (hcore : l₀.core = l.core) (haction : action = st.action)
    (henq : enqueueRevocation cfg serviceNow e.payload license action text createdAt l₀ = .ok (l₁, r)) :
    Move cfg P l.core
      { l₁ with orders := l₁.orders.modify oid (Order.withState st now) Order.withState_id }.core := by
  have hrevs : l₀.revocations = l.revocations := congrArg Core.revocations hcore
  obtain ⟨t, ht, rfl, hfree⟩ := enqueueRevocation_ok henq (by
    rw [hrevs]
    exact queue_fresh hinv ho hlive he)
  obtain ⟨hs, hlic⟩ := deliveredLicense_some hl
  have hkey : e.payload.orderId = oid := (get_eq_some.mp he).2
  rw [hkey] at hfree
  rw [hrevs] at ht hfree
  have hmove : Move cfg P l.core { l.core with
      revocations := t, orders := l.core.orders.modify oid (Order.withState st now) Order.withState_id } :=
    .reverseDelivered oid st now o e license _ t ho hlive hst he hs hlic ⟨hkey, rfl, rfl, haction⟩ ht hfree
  rw [← hcore] at hmove ⊢
  exact hmove

theorem reverseFenced_moves (hinv : Inv cfg l.core) {hash : String}
    {retryAt : Time} (ho : l.orders.get oid = some o)
    (hlive : o.state.terminal = false) (hst : st.reversed = true) (he : l.entitlements.get oid = some e)
    (hl : e.deliveredLicense = none)
    (hu : updateEntitlement oid (Entitlement.cancel hash retryAt) Entitlement.cancel_orderId l = .ok l₁) :
    Move cfg P l.core
      { l₁ with orders := l₁.orders.modify oid (Order.withState st now) Order.withState_id }.core := by
  obtain ⟨hperm, rfl⟩ := updateEntitlement_ok hu he
  obtain ⟨hwf, -⟩ := hinv.outbox oid e he
  exact .reverseFenced oid st now retryAt hash o e ho hlive hst he (deliveredLicense_none hwf hl) hperm

theorem allows_live {action : AdminAction} (h : action.allows s = true) :
    s.terminal = false := by
  cases action <;> cases s <;> first | rfl | cases h

theorem adminTransition_moves {action : AdminAction} {reason : Option String}
    (hinv : Inv cfg l.core) (h : (adminTransition cfg clk oid action reason l).committed = some m) :
    Moves cfg P l.core m.core := by
  unfold adminTransition at h
  simp only at h
  split at h
  · cases h
  · split at h
    · cases h
    · rename_i o ho
      split at h
      · cases h
        exact .refl
      · split at h
        · cases h
        · rename_i hallowed
          rw [Bool.not_eq_false] at hallowed
          have hlive := allows_live hallowed
          split at h
          · cases h
          · rename_i l₁ assertion event hrev
            obtain ⟨l₂, hset, h⟩ := committed_orRaise h
            cases h
            show Moves cfg P l.core l₂.core
            rcases reverseEntitlement_ok hrev with ⟨rfl, hwhy⟩ | hdel | ⟨rfl, hfen⟩
            · rw [setOrderState_ok hinv ho] at hset
              cases hset
              rcases hwhy with rfl | hnone | ⟨rfl, e, he, hl⟩
              · simp only [AdminAction.allows, decide_eq_true_eq] at hallowed
                exact .single (.reject oid (clk 0) o ho hallowed)
              · cases action with
                | reject =>
                  simp only [AdminAction.allows, decide_eq_true_eq] at hallowed
                  exact .single (.reject oid (clk 0) o ho hallowed)
                | refund => exact .single (.reverseBare oid .refunded (clk 0) o ho hlive rfl hnone)
                | revoke => exact .single (.reverseBare oid .revoked (clk 0) o ho hlive rfl hnone)
              · -- a license is revoked only when it was issued, so its row is delivered
                exfalso
                simp only [AdminAction.allows, decide_eq_true_eq] at hallowed
                obtain ⟨hwf, ⟨x, hx, hfit⟩, -⟩ := hinv.outbox oid e he
                have hxo : l₁.orders.get oid = some x := hx
                rw [ho] at hxo
                cases hxo
                rcases hfit with ⟨hc, -⟩ | ⟨-, hd⟩ | hc
                · rw [hallowed] at hc
                  cases hc
                · exact deliveredLicense_none hwf hl hd
                · rw [hallowed] at hc
                  cases hc
            · obtain ⟨hne, e, license, l₀, r, text, he, hl, hcore, henq⟩ := hdel
              have ho₁ : l₁.orders.get oid = some o := by
                rw [enqueueRevocation_orders henq, show l₀.orders = l.orders from congrArg Core.orders hcore, ho]
              obtain ⟨-, rfl⟩ := updateOrder_ok hset ho₁
              cases action with
              | reject => exact absurd rfl hne
              | refund => exact .single (reverseDelivered_moves hinv ho hlive rfl he hl hcore rfl henq)
              | revoke => exact .single (reverseDelivered_moves hinv ho hlive rfl he hl hcore rfl henq)
            · obtain ⟨e, hash, retryAt, he, hl, hu⟩ := hfen
              have ho₁ : l₁.orders.get oid = some o := by
                obtain ⟨-, rfl⟩ := updateEntitlement_ok hu he
                exact ho
              obtain ⟨-, rfl⟩ := updateOrder_ok hset ho₁
              exact .single (reverseFenced_moves hinv ho hlive rfl he hl hu)

/-! Whop events -/

theorem whopTarget_reversed (kind : WhopKind) : kind.target.reversed = true := by
  unfold WhopKind.target
  split <;> rfl

/-- A Whop reversal that raises has left the core alone; one that returns has queued or
fenced, and nothing else. -/
theorem reverseByWhop_cases {kind : WhopKind} {r : Ledger × Except Err Unit}
    (h : reverseByWhop cfg clk oid kind l = r) :
    (∃ x, r.2 = .error x ∧ r.1.core = l.core) ∨
    (r = (l, .ok ()) ∧ l.entitlements.get oid = none) ∨
    (∃ e license l₀ q text, l.entitlements.get oid = some e ∧ e.deliveredLicense = some license ∧
      l₀.core = l.core ∧ r.2 = .ok () ∧ enqueueRevocation cfg (clk 2) e.payload license
        (if kind = .refund then .refund else .revoke) text (clk 0) l₀ = .ok (r.1, q)) ∨
    (∃ e hash retryAt, l.entitlements.get oid = some e ∧ e.deliveredLicense = none ∧ r.2 = .ok () ∧
      updateEntitlement oid (Entitlement.cancel hash retryAt) Entitlement.cancel_orderId l = .ok r.1) := by
  subst h
  unfold reverseByWhop
  cases he : l.entitlements.get oid with
  | none => exact .inr (.inl ⟨rfl, rfl⟩)
  | some e =>
    cases hl : e.deliveredLicense with
    | some license =>
      simp only [hl]
      split
      · rename_i x _
        exact .inl ⟨x, rfl, rfl⟩
      · split
        · rename_i x _
          exact .inl ⟨x, rfl, rfl⟩
        · rename_i l₀ h₀
          split
          · rename_i x _
            exact .inl ⟨x, rfl, insertAssertionOrIgnore_core h₀⟩
          · rename_i l₁ q h₁
            exact .inr (.inr (.inl ⟨e, license, l₀, q, _, rfl, hl, insertAssertionOrIgnore_core h₀, rfl, h₁⟩))
    | none =>
      simp only [hl]
      split
      · rename_i x _
        exact .inl ⟨x, rfl, rfl⟩
      · rename_i l₁ h₁
        exact .inr (.inr (.inr ⟨e, _, _, rfl, hl, rfl, h₁⟩))

/-- What the business part leaves in the transaction, raising or not. -/
theorem applyWhopBusinessLocked_moves (hinv : Inv cfg l.core) :
    Moves cfg P l.core (applyWhopBusinessLocked cfg clk ev l).1.core := by
  unfold applyWhopBusinessLocked
  cases ho : l.orders.get ev.orderId with
  | none => exact .refl
  | some o =>
    have hid : o.id = ev.orderId := get_key ho
    simp only
    split
    · split
      · exact .refl
      · split <;> exact .refl
    · split
      · exact .refl
      · rename_i hnot
        split
        · exact .refl
        · rename_i hnot'
          have hlive : o.state.terminal = false := by
            cases hs : o.state <;> simp_all [OrderState.terminal]
          have ho' : l.orders.get o.id = some o := by rw [hid, ho]
          -- a successful part is followed by a state change that succeeds too
          have hset : ∀ l₁ : Ledger, l₁.orders = l.orders →
              setOrderState o.id ev.kind.target (clk 0) l₁ = .ok { l₁ with
                orders := l₁.orders.modify o.id (Order.withState ev.kind.target (clk 0)) Order.withState_id } := by
            intro l₁ hl₁
            have h := setOrderState_ok hinv ho' ev.kind.target (clk 0)
            unfold setOrderState updateOrder at h ⊢
            rw [hl₁]
            rw [ho'] at h ⊢
            simp only at h ⊢
            split at h
            · cases h
            · rfl
          generalize hr : reverseByWhop cfg clk o.id ev.kind l = r
          obtain ⟨l₁, res⟩ := r
          rcases reverseByWhop_cases hr with ⟨x, hx, hcore⟩ | ⟨hok, hnone⟩ | hdel | hfen
          · simp only at hx hcore
            subst hx
            simp only [hcore]
            exact .refl
          · cases hok
            simp only [hset l rfl]
            exact .single (.reverseBare o.id _ (clk 0) o ho' hlive (whopTarget_reversed ev.kind) hnone)
          · obtain ⟨e, license, l₀, q, text, he, hl, hcore, hok, henq⟩ := hdel
            simp only at hok henq
            subst hok
            have hl₁ : l₁.orders = l.orders :=
              (enqueueRevocation_orders henq).trans (congrArg Core.orders hcore)
            simp only [hset l₁ hl₁]
            refine .single (reverseDelivered_moves hinv ho' hlive (whopTarget_reversed ev.kind) he hl hcore
              ?_ henq)
            unfold WhopKind.target
            split <;> rfl
          · obtain ⟨e, hash, retryAt, he, hl, hok, hu⟩ := hfen
            simp only at hok hu
            subst hok
            have hl₁ : l₁.orders = l.orders := by
              obtain ⟨-, rfl⟩ := updateEntitlement_ok hu he
              rfl
            simp only [hset l₁ hl₁]
            exact .single (reverseFenced_moves hinv ho' hlive (whopTarget_reversed ev.kind) he hl hu)

theorem whopApplied_core (h : whopApplied cfg clk ev l = .ok l') : l'.core = l.core := by
  unfold whopApplied at h
  split at h
  · cases h
  · rename_i l₁ h₁
    cases h
    show l₁.core = l.core
    exact updateInbox_core h₁

theorem whopFailed_core {maxAttempts : Int} {x : Err}
    (h : whopFailed cfg clk ev maxAttempts x l = .ok l') : l'.core = l.core := by
  unfold whopFailed at h
  simp only at h
  split at h
  · cases h
  · rename_i l₁ h₁
    cases h
    show l₁.core = l.core
    exact updateInbox_core h₁

theorem whopAttempt_moves (hinv : Inv cfg l.core) :
    Moves cfg P l.core (whopAttempt cfg clk ev l).1.core := by
  have h : Moves cfg P l.core (applyWhopBusinessLocked cfg clk ev l).1.core :=
    applyWhopBusinessLocked_moves hinv
  unfold whopAttempt
  split
  · rename_i heq
    rw [heq] at h
    exact h
  · rename_i heq
    rw [heq] at h
    exact h

theorem whopAttempt_ok (h : (whopAttempt cfg clk ev l).2 = .ok m) :
    m.core = (whopAttempt cfg clk ev l).1.core := by
  unfold whopAttempt at h ⊢
  split at h
  · cases h
  · exact whopApplied_core h

theorem storeWhopEvent_core {ev : WhopEvent} {rawDigest : String} {maxAttempts : Int}
    (h : (storeWhopEvent cfg clk ev rawDigest maxAttempts l).committed = some m) : m.core = l.core := by
  unfold storeWhopEvent at h
  split at h
  · cases h
  · split at h
    · split at h <;> cases h
    · obtain ⟨l₁, h₁, h⟩ := committed_orRaise h
      cases h
      show l₁.core = l.core
      exact insertInbox_core h₁

/-! The revocation outbox -/

theorem revocation_moves {k : String} {f : Revocation → Revocation}
    {hf : ∀ r, (f r).payload.eventId = r.payload.eventId}
    (h : updateRevocation k f hf l = .ok l') (hr : l.revocations.get k = some r) (hlater : r.Later (f r)) :
    Move cfg P l.core l'.core := by
  obtain rfl := updateRevocation_ok h hr
  refine .revocation k f hf ?_
  intro x hx
  have hx' : l.revocations.get k = some x := hx
  rw [hr] at hx'
  cases hx'
  exact hlater

theorem claimRevocation_moves
    (h : (claimRevocation clk worker leaseSeconds orderId l).committed = some m) :
    Moves cfg P l.core m.core := by
  unfold claimRevocation at h
  split at h
  · cases h
  · rename_i row hrow
    have hmem := oldest_mem hrow
    rw [List.mem_filter] at hmem
    have hr : l.revocations.get row.payload.eventId = some row := get_of_mem hmem.1
    obtain ⟨l', hu, h⟩ := committed_orRaise h
    cases h
    refine .single (revocation_moves hu hr ⟨rfl, ?_, ?_⟩)
    · simp [Revocation.leaseTo]
    · simp [Revocation.leaseTo]

theorem commitRevocation_moves {row : Revocation} {a : RevocationAck}
    (h : (commitRevocation cfg clk row worker a l).committed = some m) : Moves cfg P l.core m.core := by
  unfold commitRevocation at h
  split at h
  · cases h
  · rename_i r hr
    split at h
    · cases h
    · obtain ⟨l', hu, h⟩ := committed_orRaise h
      cases h
      have hlater : r.Later (r.deliver a (clk 0)) :=
        { payload := rfl, fence := le_refl _, owner := fun _ => .inr rfl }
      have hmove : Move cfg P l.core l'.core := revocation_moves hu hr hlater
      exact .single hmove

theorem failRevocation_moves {row : Revocation}
    (h : (failRevocation cfg clk row worker error maxAttempts l).committed = some m) :
    Moves cfg P l.core m.core := by
  unfold failRevocation at h
  split at h
  · cases h
  · rename_i r hr
    split at h
    · cases h
    · obtain ⟨l', hu, h⟩ := committed_orRaise h
      cases h
      have hlater : r.Later (r.fail (cfg.sha256 (.text error.msg)) (clk 0) maxAttempts) :=
        { payload := rfl, fence := le_refl _, owner := fun _ => .inr rfl }
      exact .single (revocation_moves hu hr hlater)

/-! Every body -/

/-- The orders whose state a transaction may write from the state of their intent. -/
def settles (clk : Nat → Time) (l : Ledger) : Tx → String → Prop
  | .finalizeX402Intent iid => ActsOn l iid (fun i => i.state = .settled ∧ l.proofs.get i.proofHash = none)
  | .recordSettlementCandidate iid r =>
    fun oid => l.candidates.get iid = none ∧ ActsOn l iid r.Matches oid
  | .markIntentAmbiguous iid _ => ActsOn l iid (fun i => i.state = .prepared)
  | .cancelUnpaid iid ev _ => fun oid => ev.evidenceHash.isSome = true ∧
      ActsOn l iid (fun i => i.state = .prepared ∨ i.state = .ambiguous) oid
  | .reconcileExpiredIntents => fun oid => ∃ iid, ActsOn l iid (fun i => leaseExpired (clk 0) i = true) oid
  | _ => fun _ => False

theorem bodyOf_moves (hinv : Inv cfg l.core) (t : Tx) (h : (bodyOf cfg clk t l).committed = some m) :
    Moves cfg (settles clk l t) l.core m.core := by
  cases t <;> simp only [bodyOf, Verdict.void_committed] at h
  case createOrder => exact createOrder_moves h
  case prepareX402Intent => exact prepareX402Intent_moves h
  case recordSettlementResult => exact recordSettlementResult_moves h
  case finalizeX402Intent => exact finalizeX402Intent_moves hinv h
  case recordSettlementCandidate => exact recordSettlementCandidate_moves hinv h
  case markIntentAmbiguous => exact markIntentAmbiguous_moves hinv h
  case cancelUnpaid => exact cancelUnpaid_moves hinv h
  case reconcileExpiredIntents => exact reconcileExpiredIntents_moves hinv h
  case confirmPaymentAndAllocateSale => exact confirmPaymentLocked_moves h
  case paypalSubmit => exact paypalSubmit_moves h
  case paypalConfirm => exact paypalConfirm_moves h
  case adminTransition => exact adminTransition_moves hinv h
  case claimOutbox => exact claimOutbox_moves hinv h
  case claimRevocation => exact claimRevocation_moves h
  case commitRevocation => exact commitRevocation_moves h
  case failRevocation => exact failRevocation_moves h
  case storeWhopEvent =>
    rw [storeWhopEvent_core h]

end GrowthMap.Payments
