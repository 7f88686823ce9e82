import GrowthMap.Payments.Fencing

/- What a run can do to one outbox row and the state of its order.

   `RowStep` lists what one move makes of a row and its order together, `move_row` says
   that this is all, and a run is a chain of such steps (`run_rows`). The moves do not
   tell which operation made them; that only `fail_outbox` puts a row back to pending is
   read off the bodies (`step_requeues`). -/
namespace GrowthMap.Payments

open Relational Transaction Runs Table
open Fallible (bind_ok)

variable {cfg : Config} {clk : Nat → Time} {l m : Ledger} {P : String → Prop} {c c' : Core}

/-! One move -/

/-- The state of an order and its row, before and after. -/
inductive RowStep : OrderState × Entitlement → OrderState × Entitlement → Prop where
  | keep (st : OrderState) (e : Entitlement) : RowStep (st, e) (st, e)
  | turn (st : OrderState) (e e' : Entitlement) (ht : Turn st e e') : RowStep (st, e) (st, e')
  | issue (e : Entitlement) (a : EntitlementAck) (now : Time) (hs : e.state = .leased) :
      RowStep (.paymentConfirmed, e) (.licenseIssued, e.deliver a now)
  | compensate (st : OrderState) (e : Entitlement) (a : EntitlementAck) (now : Time)
      (hs : e.state ≠ .delivered) : RowStep (st, e) (st, e.deliver a now)
  | fence (st st' : OrderState) (e : Entitlement) (hash : String) (retryAt : Time)
      (hlive : st.terminal = false) (hrev : st'.reversed = true) (hs : e.state ≠ .delivered)
      (hperm : Permitted e (e.cancel hash retryAt)) : RowStep (st, e) (st', e.cancel hash retryAt)
  | reverse (st st' : OrderState) (e : Entitlement) (hlive : st.terminal = false)
      (hrev : st'.reversed = true) (hs : e.state = .delivered) : RowStep (st, e) (st', e)

/-- The row and its order as `oid` names them. -/
def At (c : Core) (oid : String) (p : OrderState × Entitlement) : Prop :=
  (c.orders.get oid).map (fun o => o.state) = some p.1 ∧ c.entitlements.get oid = some p.2

/-- A row as `_issue_reserved` enqueues it. -/
def Enqueued (p : OrderState × Entitlement) : Prop :=
  p.1 = .paymentConfirmed ∧ p.2.state = .pending ∧ p.2.phase = .none

variable {k oid iid proofId actor tx worker : String} {p q : OrderState × Entitlement} {s : Sys} {l' : Ledger}
  {amount leaseSeconds : Int} {orderId : Option String} {maxAttempts : Nat} {t t' : Entitlements}
  {f : Entitlement → Entitlement}

theorem order_state_modify {t : Orders} {f : Order → Order} (hf : ∀ r, (f r).id = r.id)
    (hkeep : oid = k → ∀ o, t.get k = some o → (f o).state = o.state) :
    ((t.modify k f hf).get oid).map (fun o => o.state) = (t.get oid).map (fun o => o.state) := by
  rw [get_modify]
  split
  · rename_i h
    subst h
    cases ho : t.get oid with
    | none => rfl
    | some o => simp [hkeep rfl o ho]
  · rfl

/-- What one move makes of the rows it leaves. -/
theorem move_row (hinv : Inv cfg c) (hm : Move cfg P c c')
    (h : At c' oid p) : (∃ q, At c oid q ∧ RowStep q p) ∨ c.entitlements.get oid = none ∧ Enqueued p := by
  obtain ⟨st, e⟩ := p
  obtain ⟨ho, he⟩ := h
  simp only at ho he
  -- a move that leaves the order's state and the row alone
  have hkept : At c oid (st, e) → (∃ q, At c oid q ∧ RowStep q (st, e)) ∨
      c.entitlements.get oid = none ∧ Enqueued (st, e) :=
    fun hat => .inl ⟨_, hat, .keep st e⟩
  -- an order whose row is there is confirmed, issued or reversed
  have hstates : ∀ o, c.orders.get oid = some o → c.entitlements.get oid = some e →
      o.state ≠ .pendingPayment ∧ o.state ≠ .manualReview := by
    intro o hgo hge
    obtain ⟨-, ⟨o', ho', hfit⟩, -⟩ := hinv.outbox oid e hge
    rw [hgo] at ho'
    cases ho'
    constructor <;> intro hst <;> rw [hst] at hfit <;>
      rcases hfit with ⟨hc, -⟩ | ⟨hc, -⟩ | hc <;> cases hc
  -- the order of an intent that is still open has no row
  have hopen : ∀ iid i, c.intents.get iid = some i → i.state ≠ .finalizedPaid →
      c.entitlements.get oid = some e → oid ≠ i.orderId := by
    rintro iid i hi hst hge rfl
    rw [hinv.outbox.none_of_open hinv.intents hi hst] at hge
    cases hge
  cases hm with
  | create o t hi =>
    obtain ⟨-, ⟨o', ho', -⟩, -⟩ := hinv.outbox oid e he
    rw [get_insert_old hi ho'] at ho
    exact hkept ⟨by rw [ho']; exact ho, he⟩
  | review k now o hgo hst =>
    rw [order_state_modify Order.withState_id] at ho
    · exact hkept ⟨ho, he⟩
    · rintro rfl o' ho'
      rw [hgo] at ho'
      cases ho'
      exact absurd hst (hstates o hgo he).1
  | reject k now o hgo hst =>
    rw [order_state_modify Order.withState_id] at ho
    · exact hkept ⟨ho, he⟩
    · rintro rfl o' ho'
      rw [hgo] at ho'
      cases ho'
      rcases hst with hst | hst
      · exact absurd hst (hstates o hgo he).1
      · exact absurd hst (hstates o hgo he).2
  | payerRef =>
    rw [order_state_modify Order.withPayerRef_id (fun _ _ _ => rfl)] at ho
    exact hkept ⟨ho, he⟩
  | reserve =>
    exact hkept ⟨ho, he⟩
  | settle => exact hkept ⟨ho, he⟩
  | ambiguate iid i now now' hi hst =>
    rw [order_state_modify Order.withState_id] at ho
    · exact hkept ⟨ho, he⟩
    · intro hoid
      exact absurd hoid (hopen iid i hi (by rw [hst]; decide) he)
  | reviewAgain iid i now hi hst =>
    rw [order_state_modify Order.withState_id] at ho
    · exact hkept ⟨ho, he⟩
    · intro hoid
      exact absurd hoid (hopen iid i hi (by rw [hst]; decide) he)
  | cancel iid i ev actor now hi hst =>
    rw [order_state_modify Order.withState_id] at ho
    · exact hkept ⟨ho, he⟩
    · intro hoid
      refine absurd hoid (hopen iid i hi ?_ he)
      rcases hst with hst | hst <;> rw [hst] <;> decide
  | finalize iid i o tx evidenceHash payer now tp te hi hst htx hev hgo hp href hins =>
    rcases get_insert_cases hins he with ⟨rfl, rfl⟩ | hold
    · right
      have hgo' : ((c.orders.modify i.orderId (Order.confirmReserved i.reservedOrdinal tx now)
          Order.confirmReserved_id).get i.orderId).map (fun o => o.state) = some st := ho
      rw [get_modify_self Order.confirmReserved_id hgo] at hgo'
      cases hgo'
      exact ⟨insert_fresh hins, rfl, rfl, rfl⟩
    · rw [order_state_modify Order.confirmReserved_id] at ho
      · exact hkept ⟨ho, hold⟩
      · intro hoid
        exact absurd hoid (hopen iid i hi (by rw [hst]; decide) hold)
  | confirm k o ordinal payerRef txHash now p tp hgo hst =>
    rw [order_state_modify Order.confirmDirect_id] at ho
    · exact hkept ⟨ho, he⟩
    · rintro rfl o' ho'
      exact absurd hst (hstates o hgo he).1
  | turn k o x f hf hgo hgx ht =>
    rcases get_modify_cases hf he with ⟨rfl, y, hy, rfl⟩ | ⟨-, hy⟩
    · rw [hgx] at hy
      cases hy
      rw [hgo] at ho
      cases ho
      exact .inl ⟨(o.state, x), ⟨by rw [hgo]; rfl, hgx⟩, .turn _ _ _ ht⟩
    · exact hkept ⟨ho, hy⟩
  | issue k o x a now hgo hst hgx worker fence hh =>
    rcases get_modify_cases Entitlement.deliver_orderId he with ⟨rfl, y, hy, rfl⟩ | ⟨hne, hy⟩
    · rw [hgx] at hy
      cases hy
      rw [get_modify_self Order.issue_id hgo] at ho
      cases ho
      exact .inl ⟨(.paymentConfirmed, x), ⟨by rw [hgo, Option.map_some, hst], hgx⟩,
        .issue _ _ _ (of_decide_eq_true hh).1⟩
    · rw [get_modify_ne Order.issue_id hne] at ho
      exact hkept ⟨ho, hy⟩
  | compensate k o x a now r t hgo hst hgx hs =>
    rcases get_modify_cases Entitlement.deliver_orderId he with ⟨rfl, y, hy, rfl⟩ | ⟨-, hy⟩
    · rw [hgx] at hy
      cases hy
      exact .inl ⟨(st, x), ⟨ho, hgx⟩, .compensate _ _ _ _ hs⟩
    · exact hkept ⟨ho, hy⟩
  | reverseBare k st' now o hgo hlive hst hnone =>
    rw [order_state_modify Order.withState_id] at ho
    · exact hkept ⟨ho, he⟩
    · rintro rfl
      rw [hnone] at he
      cases he
  | reverseFenced k st' now retryAt hash o x hgo hlive hst hgx hs hperm =>
    rcases get_modify_cases Entitlement.cancel_orderId he with ⟨rfl, y, hy, rfl⟩ | ⟨hne, hy⟩
    · rw [hgx] at hy
      cases hy
      rw [get_modify_self Order.withState_id hgo] at ho
      cases ho
      exact .inl ⟨(o.state, x), ⟨by rw [hgo]; rfl, hgx⟩, .fence _ _ _ _ _ hlive hst hs hperm⟩
    · rw [get_modify_ne Order.withState_id hne] at ho
      exact hkept ⟨ho, hy⟩
  | reverseDelivered k st' now o x license r t hgo hlive hst hgx hs =>
    by_cases hoid : oid = k
    · subst hoid
      rw [hgx] at he
      cases he
      rw [get_modify_self Order.withState_id hgo] at ho
      cases ho
      exact .inl ⟨(o.state, e), ⟨by rw [hgo]; rfl, hgx⟩, .reverse _ _ _ hlive hst hs⟩
    · rw [get_modify_ne Order.withState_id hoid] at ho
      exact hkept ⟨ho, he⟩
  | revocation => exact hkept ⟨ho, he⟩

/-! Runs -/

abbrev RowSteps : OrderState × Entitlement → OrderState × Entitlement → Prop :=
  Relation.ReflTransGen RowStep

theorem at_of_row (hinv : Inv cfg c) {e : Entitlement} (he : c.entitlements.get oid = some e) :
    ∃ st, At c oid (st, e) := by
  obtain ⟨-, ⟨o, ho, -⟩, -⟩ := hinv.outbox oid e he
  exact ⟨o.state, by rw [ho]; rfl, he⟩

theorem moves_rows (hinv : Inv cfg c) (hm : Moves cfg P c c')
    (h : At c oid q) : ∃ p, At c' oid p ∧ RowSteps q p := by
  induction hm with
  | refl => exact ⟨q, h, .refl⟩
  | tail hfirst hlast ih =>
    obtain ⟨r, hr, hqr⟩ := ih
    have hinv' := moves_inv hinv hfirst
    obtain ⟨e', he', -⟩ := (move_later hlast).entitlements oid r.2 hr.2
    obtain ⟨st', hp⟩ := at_of_row (move_inv hinv' hlast) he'
    rcases move_row hinv' hlast hp with ⟨r', hr', hstep⟩ | ⟨hnone, -⟩
    · have hsame : r' = r :=
        Prod.ext (Option.some.inj (hr'.1.symm.trans hr.1)) (Option.some.inj (hr'.2.symm.trans hr.2))
      rw [hsame] at hstep
      exact ⟨_, hp, hqr.tail hstep⟩
    · rw [hr.2] at hnone
      cases hnone

theorem step_rows (h : SysInv cfg s) (e : Event)
    (hq : At s.ledger.core oid q) : ∃ p, At (step cfg s e).ledger.core oid p ∧ RowSteps q p :=
  moves_rows h.core (step_moves h e) hq

theorem run_rows (h : SysInv cfg s) (es : List Event)
    (hq : At s.ledger.core oid q) : ∃ p, At (run (step cfg) s es).ledger.core oid p ∧ RowSteps q p := by
  induction es generalizing s q with
  | nil => exact ⟨q, hq, .refl⟩
  | cons e es ih =>
    obtain ⟨r, hr, hqr⟩ := step_rows h e hq
    obtain ⟨p, hp, hrp⟩ := ih (step_inv h e) hr
    exact ⟨p, hp, hqr.trans hrp⟩

theorem moves_rows_new (hinv : Inv cfg c) (hm : Moves cfg P c c') (h : At c' oid p) :
    (∃ q, At c oid q ∧ RowSteps q p) ∨ c.entitlements.get oid = none ∧ ∃ q, Enqueued q ∧ RowSteps q p := by
  induction hm generalizing p with
  | refl => exact .inl ⟨p, h, .refl⟩
  | tail hfirst hlast ih =>
    have hinv' := moves_inv hinv hfirst
    rcases move_row hinv' hlast h with ⟨r, hr, hstep⟩ | ⟨hnone, hnew⟩
    · rcases ih hr with ⟨q, hq, hqr⟩ | ⟨hnone, q, hq, hqr⟩
      · exact .inl ⟨q, hq, hqr.tail hstep⟩
      · exact .inr ⟨hnone, q, hq, hqr.tail hstep⟩
    · refine .inr ⟨?_, p, hnew, .refl⟩
      cases hgone : c.entitlements.get oid with
      | none => rfl
      | some e =>
        obtain ⟨e', he', -⟩ := (moves_later hfirst).entitlements oid e hgone
        rw [he'] at hnone
        cases hnone

/-! Bodies that leave the outbox alone -/

/-- What is committed keeps the outbox `t`. -/
def Leaves {α : Type} (t : Entitlements) (v : Verdict Ledger Err α) : Prop :=
  ∀ m, v.committed = some m → m.entitlements = t

section

variable {α : Type} {t : Entitlements}

theorem leaves_raise (e : Err) : Leaves t (.raise e : Verdict Ledger Err α) := by
  intro m h
  cases h

theorem leaves_leave (a : α) : Leaves t (.leave a : Verdict Ledger Err α) := by
  intro m h
  cases h

theorem leaves_commit {a : α} (hl : l.entitlements = t) : Leaves t (.commit l a : Verdict Ledger Err α) := by
  intro m h
  cases h
  exact hl

theorem leaves_commitRaise {e : Err} (hl : l.entitlements = t) :
    Leaves t (.commitRaise l e : Verdict Ledger Err α) := by
  intro m h
  cases h
  exact hl

variable {r : Except Err Ledger}

theorem leaves_orRaise {k : Ledger → Verdict Ledger Err α} (hl : l.entitlements = t)
    (hr : ∀ l', r = .ok l' → l'.entitlements = l.entitlements)
    (hk : ∀ l', l'.entitlements = t → Leaves t (k l')) : Leaves t (orRaise r k) := by
  intro m h
  obtain ⟨l', hr', h⟩ := committed_orRaise h
  exact hk l' ((hr l' hr').trans hl) m h

theorem leaves_orRaiseAs {err : Err} {k : Ledger → Verdict Ledger Err α}
    (hl : l.entitlements = t) (hr : ∀ l', r = .ok l' → l'.entitlements = l.entitlements)
    (hk : ∀ l', l'.entitlements = t → Leaves t (k l')) : Leaves t (orRaiseAs err r k) := by
  intro m h
  obtain ⟨l', hr', h⟩ := committed_orRaiseAs h
  exact hk l' ((hr l' hr').trans hl) m h

end

theorem insertOrder_entitlements {o : Order} (h : insertOrder o l = .ok l') :
    l'.entitlements = l.entitlements := by
  obtain ⟨t, -, rfl⟩ := insertOrder_ok h
  rfl

theorem insertProof_entitlements {p : PaymentProof} (h : insertProof p l = .ok l') :
    l'.entitlements = l.entitlements := by
  obtain ⟨t, -, rfl⟩ := insertProof_ok h
  rfl

theorem insertIntent_entitlements {i : Intent} (h : insertIntent i l = .ok l') :
    l'.entitlements = l.entitlements := by
  obtain ⟨t, -, rfl, -⟩ := insertIntent_ok h
  rfl

theorem updateIntent_entitlements {f : Intent → Intent} {hf : ∀ r, (f r).intentId = r.intentId}
    (h : updateIntent k f hf l = .ok l') : l'.entitlements = l.entitlements := by
  unfold updateIntent at h
  split at h
  · cases h
    rfl
  · split at h
    · cases h
    · cases h
      rfl

theorem updateRevocation_entitlements {f : Revocation → Revocation}
    {hf : ∀ r, (f r).payload.eventId = r.payload.eventId}
    (h : updateRevocation k f hf l = .ok l') : l'.entitlements = l.entitlements := by
  unfold updateRevocation at h
  split at h
  · cases h
    rfl
  · split at h
    · cases h
    · cases h
      rfl

theorem createOrder_leaves {recovery email name : String} {rail : Rail} :
    Leaves l.entitlements (createOrder cfg clk oid recovery rail email name l) := by
  unfold createOrder
  split
  · exact leaves_raise _
  · exact leaves_orRaise rfl (fun _ => insertOrder_entitlements) (fun _ h => leaves_commit h)

theorem prepareX402Intent_leaves {nonce : String} {payer : Option String} :
    Leaves l.entitlements (prepareX402Intent cfg clk iid oid proofId nonce amount payer l) := by
  unfold prepareX402Intent
  simp only
  split
  · exact leaves_raise _
  · split
    · exact leaves_raise _
    · split
      · exact leaves_raise _
      · split
        · exact leaves_orRaise rfl (fun _ => updateOrder_entitlements) (fun _ h => leaves_commitRaise h)
        · split
          · exact leaves_raise _
          · exact leaves_orRaiseAs rfl (fun _ => insertIntent_entitlements) (fun _ h => leaves_commit h)

theorem recordSettlementResult_leaves {ev : SettlementEvidence} :
    Leaves l.entitlements (recordSettlementResult cfg clk iid ev actor l) := by
  unfold recordSettlementResult
  split
  · exact leaves_raise _
  · split
    · exact leaves_raise _
    · split
      · exact leaves_raise _
      · simp only
        split
        · split
          · exact leaves_raise _
          · exact leaves_leave _
        · split
          · exact leaves_raise _
          · exact leaves_orRaiseAs rfl (fun _ => updateIntent_entitlements) (fun _ h => leaves_commit h)

theorem recordSettlementCandidate_leaves {r : CandidateReport} :
    Leaves l.entitlements (recordSettlementCandidate cfg clk iid r l) := by
  unfold recordSettlementCandidate
  split
  · exact leaves_raise _
  · split
    · exact leaves_raise _
    · split
      · exact leaves_raise _
      · simp only
        split
        · split
          · exact leaves_raise _
          · exact leaves_leave _
        · refine leaves_orRaiseAs rfl
            (fun _ h => congrArg Core.entitlements (insertCandidate_core h)) (fun l₁ h₁ => ?_)
          refine leaves_orRaise h₁ ?_ (fun l₂ h₂ =>
            leaves_orRaise h₂ (fun _ => updateOrder_entitlements) (fun _ h => leaves_commit h))
          intro l₂ h₂
          split at h₂
          · exact updateIntent_entitlements h₂
          · cases h₂
            rfl

theorem markIntentAmbiguous_leaves {reason : String} :
    Leaves l.entitlements (markIntentAmbiguous cfg clk iid reason l) := by
  unfold markIntentAmbiguous
  split
  · exact leaves_commit rfl
  · split
    · exact leaves_orRaise rfl (fun _ => updateIntent_entitlements) (fun _ h₁ =>
        leaves_orRaise h₁ (fun _ => updateOrder_entitlements) (fun _ h => leaves_commit h))
    · exact leaves_commit rfl

theorem cancelUnpaid_leaves {ev : ReconcilerEvidence} :
    Leaves l.entitlements (cancelUnpaid cfg clk iid ev actor l) := by
  unfold cancelUnpaid
  split
  · exact leaves_raise _
  · split
    · exact leaves_raise _
    · exact leaves_orRaiseAs rfl (fun _ => updateIntent_entitlements) (fun _ h₁ =>
        leaves_orRaise h₁ (fun _ => updateOrder_entitlements) (fun _ h => leaves_commit h))

theorem expireIntents_entitlements {now : Time} (rows : List Intent)
    (h : expireIntents cfg now rows l = .ok l') : l'.entitlements = l.entitlements := by
  induction rows generalizing l with
  | nil =>
    cases h
    rfl
  | cons i rest ih =>
    obtain ⟨l₁, h₁, h⟩ := bind_ok h
    obtain ⟨l₂, h₂, h⟩ := bind_ok h
    exact (ih h).trans ((updateOrder_entitlements h₂).trans (updateIntent_entitlements h₁))

theorem confirmPaymentLocked_leaves {currency : String} {payerRef txHash : Option String} :
    Leaves l.entitlements (confirmPaymentLocked cfg clk oid proofId amount currency payerRef txHash actor l) := by
  unfold confirmPaymentLocked
  split
  · exact leaves_raise _
  · split
    · exact leaves_leave _
    · split
      · exact leaves_raise _
      · split
        · exact leaves_raise _
        · simp only
          split
          · exact leaves_orRaise rfl (fun _ => updateOrder_entitlements) (fun _ h => leaves_commit h)
          · exact leaves_orRaiseAs rfl (fun _ => insertProof_entitlements) (fun _ h₁ =>
              leaves_orRaise h₁ (fun _ => updateOrder_entitlements) (fun _ h => leaves_commit h))

theorem paypalSubmit_leaves : Leaves l.entitlements (paypalSubmit cfg clk oid tx l) := by
  unfold paypalSubmit
  simp only
  split
  · exact leaves_raise _
  · split
    · exact leaves_raise _
    · split
      · exact leaves_raise _
      · exact leaves_orRaiseAs rfl
          (fun _ h => congrArg Core.entitlements (insertExternalEvent_core h)) (fun _ h₁ =>
            leaves_orRaise h₁ (fun _ => updateOrder_entitlements) (fun _ h => leaves_commit h))

theorem paypalConfirm_leaves {a : PaypalAttestation} :
    Leaves l.entitlements (paypalConfirm cfg clk oid tx a actor l) := by
  unfold paypalConfirm
  split
  · exact leaves_raise _
  · split
    · exact leaves_raise _
    · split
      · exact leaves_raise _
      · split
        · exact leaves_raise _
        · exact confirmPaymentLocked_leaves

theorem claimRevocation_leaves :
    Leaves l.entitlements (claimRevocation clk worker leaseSeconds orderId l) := by
  unfold claimRevocation
  split
  · exact leaves_leave _
  · exact leaves_orRaise rfl (fun _ => updateRevocation_entitlements) (fun _ h => leaves_commit h)

variable {row : Revocation} {error : Err}

theorem commitRevocation_leaves {a : RevocationAck} :
    Leaves l.entitlements (commitRevocation cfg clk row worker a l) := by
  unfold commitRevocation
  split
  · exact leaves_raise _
  · split
    · exact leaves_raise _
    · exact leaves_orRaise rfl (fun _ => updateRevocation_entitlements) (fun _ h => leaves_commit h)

theorem failRevocation_leaves :
    Leaves l.entitlements (failRevocation cfg clk row worker error maxAttempts l) := by
  unfold failRevocation
  split
  · exact leaves_leave _
  · split
    · exact leaves_leave _
    · exact leaves_orRaise rfl (fun _ => updateRevocation_entitlements) (fun _ h => leaves_commit h)

/-! Rows put back to pending -/

/-- A row that is not new or as it was is pending only before its crossing. -/
def NonePutBack (t t' : Entitlements) : Prop :=
  ∀ k x', t'.get k = some x' → t.get k = some x' ∨ x'.state ≠ .pending ∨ x'.phase = .none

theorem NonePutBack.of_eq (h : t' = t) : NonePutBack t t' := by
  subst h
  exact fun _ _ hx => .inl hx

theorem NonePutBack.modify (h : NonePutBack t t')
    (hf : ∀ r, (f r).payload.orderId = r.payload.orderId)
    (hs : ∀ x, t'.get k = some x → (f x).state ≠ .pending) : NonePutBack t (t'.modify k f hf) := by
  intro k' x' hx'
  rcases get_modify_cases hf hx' with ⟨rfl, y, hy, rfl⟩ | ⟨-, hy⟩
  · exact .inr (.inl (hs y hy))
  · exact h k' x' hy

theorem Cancels.nonePutBack (h : Cancels t t') : NonePutBack t t' := by
  rcases h with rfl | ⟨oid, hash, retryAt, rfl⟩
  · exact .of_eq rfl
  · exact (NonePutBack.of_eq rfl).modify Entitlement.cancel_orderId (fun _ _ => by simp [Entitlement.cancel])

theorem updateEntitlement_nonePutBack {hf : ∀ r, (f r).payload.orderId = r.payload.orderId}
    (h : updateEntitlement k f hf l = .ok l') (ht : NonePutBack t l.entitlements)
    (hs : ∀ x, l.entitlements.get k = some x → (f x).state ≠ .pending) : NonePutBack t l'.entitlements := by
  cases hx : l.entitlements.get k with
  | none =>
    unfold updateEntitlement at h
    rw [hx] at h
    cases h
    exact ht
  | some =>
    rw [(updateEntitlement_get h hx).1]
    exact ht.modify hf hs

theorem leaseEntitlement_nonePutBack {expires : Time} (ht : NonePutBack t l.entitlements)
    (h : (leaseEntitlement worker expires oid l).committed = some m) : NonePutBack t m.entitlements := by
  obtain ⟨l', hu, h⟩ := committed_orRaise h
  cases h
  exact updateEntitlement_nonePutBack hu ht (fun _ _ => by simp [Entitlement.leaseTo])

theorem claimOutbox_nonePutBack
    (h : (claimOutbox clk worker leaseSeconds orderId l).committed = some m) :
    NonePutBack l.entitlements m.entitlements := by
  unfold claimOutbox at h
  simp only at h
  split at h
  · cases h
  · split at h
    · split at h
      · cases h
      · split at h
        · cases h
        · obtain ⟨l₁, hu, h⟩ := committed_orRaise h
          have hreset : NonePutBack l.entitlements l₁.entitlements :=
            updateEntitlement_nonePutBack hu (.of_eq rfl) (fun _ _ => by simp [Entitlement.resetPrepared])
          split at h
          · cases h
            exact hreset
          · split at h
            · cases h
            · exact leaseEntitlement_nonePutBack hreset h
    · exact leaseEntitlement_nonePutBack (.of_eq rfl) h

theorem finalizeX402Intent_nonePutBack (hinv : Inv cfg l.core)
    (h : (finalizeX402Intent cfg clk iid l).committed = some m) : NonePutBack l.entitlements m.entitlements := by
  obtain ⟨i, o, tx, evidenceHash, payer, tp, te, -, -, -, -, -, -, -, he, hcore⟩ := finalizeX402Intent_ok hinv h
  have htable : m.entitlements = te := congrArg Core.entitlements hcore
  intro k x' hx'
  rw [htable] at hx'
  rcases get_insert_cases he hx' with ⟨-, rfl⟩ | hold
  · exact .inr (.inr rfl)
  · exact .inl hold

theorem requeue_nonePutBack {row : Entitlement}
    (h : (requeueReconciliationFailure cfg clk row worker error maxAttempts l).committed = some m) :
    NonePutBack l.entitlements m.entitlements := by
  obtain ⟨-, -, -, -, hu⟩ := requeueReconciliationFailure_ok h
  exact updateEntitlement_nonePutBack hu (.of_eq rfl) (fun _ _ => by simp [Entitlement.requeue])

theorem commitDelivery_nonePutBack {row : Entitlement} {a : EntitlementAck}
    (h : (commitDelivery cfg clk row worker a l).committed = some m) :
    NonePutBack l.entitlements m.entitlements := by
  -- the row is delivered first; what follows leaves the outbox alone
  have hdelivered : ∀ {oid : String} {l' : Ledger},
      updateEntitlement oid (Entitlement.deliver a (clk 0)) Entitlement.deliver_orderId l = .ok l' →
      m.entitlements = l'.entitlements → NonePutBack l.entitlements m.entitlements := by
    intro oid l' hu hm
    rw [hm]
    exact updateEntitlement_nonePutBack hu (.of_eq rfl) (fun _ _ => by simp [Entitlement.deliver])
  unfold commitDelivery at h
  simp only at h
  split at h
  · cases h
  · split at h
    · split at h
      · obtain ⟨l', hu, h⟩ := committed_orRaise h
        exact hdelivered hu (compensate_entitlements h)
      · cases h
    · obtain ⟨l', hu, h⟩ := committed_orRaise h
      split at h
      · obtain ⟨l'', ho, h⟩ := committed_orRaise h
        cases h
        have hl'' : l''.entitlements = l'.entitlements := updateOrder_entitlements ho
        exact hdelivered hu hl''
      · exact hdelivered hu (compensate_entitlements h)
      · exact hdelivered hu (compensate_entitlements h)
      · cases h

/-- The steps of a delivery put no row back. -/
theorem deliverBody_nonePutBack {d : Delivery} {b : Body Unit} (hb : deliverBody cfg clk d = some b)
    (h : (b l).committed = some m) : NonePutBack l.entitlements m.entitlements := by
  -- the phase of a leased row is written
  have hleased : ∀ {fresh : Entitlement} {phase : Phase}, l.entitlements.get d.row.payload.orderId = some fresh →
      fresh.holds d.worker d.row.fencingVersion = true →
      updateEntitlement d.row.payload.orderId (Entitlement.withPhase phase) Entitlement.withPhase_orderId l = .ok m →
      NonePutBack l.entitlements m.entitlements := by
    intro fresh phase hget hh hu
    refine updateEntitlement_nonePutBack hu (.of_eq rfl) (fun x hx => ?_)
    rw [hget] at hx
    cases hx
    rw [show (fresh.withPhase phase).state = fresh.state from rfl, (of_decide_eq_true hh).1]
    decide
  unfold deliverBody at hb
  split at hb
  · cases hb
    rw [revalidateLease_moves] at h
    cases h
  · cases hb
    obtain ⟨fresh, hget, hh, -, hu⟩ := prepareCrossing_ok h
    exact hleased hget hh hu
  · cases hb
    obtain ⟨fresh, hget, hh, -, -, hu⟩ := authorizeCrossing_ok h
    exact hleased hget hh hu
  · cases hb
    exact requeue_nonePutBack h
  · cases hb
    rw [Verdict.void_committed] at h
    exact commitDelivery_nonePutBack h
  · cases hb

theorem bodyOf_nonePutBack (hinv : Inv cfg l.core) (t : Tx) (h : (bodyOf cfg clk t l).committed = some m) :
    NonePutBack l.entitlements m.entitlements := by
  cases t <;> simp only [bodyOf, Verdict.void_committed] at h
  case createOrder => exact .of_eq (createOrder_leaves m h)
  case prepareX402Intent => exact .of_eq (prepareX402Intent_leaves m h)
  case recordSettlementResult => exact .of_eq (recordSettlementResult_leaves m h)
  case finalizeX402Intent => exact finalizeX402Intent_nonePutBack hinv h
  case recordSettlementCandidate => exact .of_eq (recordSettlementCandidate_leaves m h)
  case markIntentAmbiguous => exact .of_eq (markIntentAmbiguous_leaves m h)
  case cancelUnpaid => exact .of_eq (cancelUnpaid_leaves m h)
  case reconcileExpiredIntents =>
    obtain ⟨l', hloop, h⟩ := committed_orRaise h
    cases h
    exact .of_eq (expireIntents_entitlements _ hloop)
  case confirmPaymentAndAllocateSale => exact .of_eq (confirmPaymentLocked_leaves m h)
  case paypalSubmit => exact .of_eq (paypalSubmit_leaves m h)
  case paypalConfirm => exact .of_eq (paypalConfirm_leaves m h)
  case adminTransition => exact (adminTransition_cancels h).nonePutBack
  case claimOutbox => exact claimOutbox_nonePutBack h
  case claimRevocation => exact .of_eq (claimRevocation_leaves m h)
  case commitRevocation => exact .of_eq (commitRevocation_leaves m h)
  case failRevocation => exact .of_eq (failRevocation_leaves m h)
  case storeWhopEvent => exact .of_eq (congrArg Core.entitlements (storeWhopEvent_core h))

/-- `fail_outbox` puts a row back for the worker that holds it, under a copy of it that had
not crossed. -/
structure PutBack (s : Sys) (e : Event) (oid : String) (x : Entitlement) (copy : Entitlement) : Prop where
  act : ∃ worker error maxAttempts, e.act = .failOutbox copy worker error maxAttempts
  order : copy.payload.orderId = oid
  copied : ¬ (copy.phase = .crossingAuthorized ∨ copy.phase = .readbackOnly)
  stored : s.ledger.entitlements.get oid = some x
  leased : x.state = .leased
  fence : x.fencingVersion = copy.fencingVersion

/-- A row that is pending after its crossing was so before the event, or was put back by
`fail_outbox` with its phase as it stood. -/
theorem step_requeues (hinv : SysInv cfg s) (e : Event) {x' : Entitlement}
    (h : (step cfg s e).ledger.entitlements.get oid = some x') (hst : x'.state = .pending)
    (hphase : x'.phase ≠ .none) :
    s.ledger.entitlements.get oid = some x' ∨
      ∃ x copy, PutBack s e oid x copy ∧ x'.phase = x.phase ∧ x'.fencingVersion = x.fencingVersion := by
  -- an event that puts nothing back
  have hnone : NonePutBack s.ledger.entitlements (step cfg s e).ledger.entitlements →
      s.ledger.entitlements.get oid = some x' ∨
      ∃ x copy, PutBack s e oid x copy ∧ x'.phase = x.phase ∧ x'.fencingVersion = x.fencingVersion := by
    intro hback
    rcases hback oid x' h with hold | hpending | hnone
    · exact .inl hold
    · exact absurd hst hpending
    · exact absurd hnone hphase
  by_cases hrev : e.act.reverses
  · exact hnone (step_cancels hrev).nonePutBack
  · rcases step_ledger cfg s e with heq | ⟨m, hm, heq⟩
    · exact hnone (by rw [heq]; exact .of_eq rfl)
    · have htable : (step cfg s e).ledger.entitlements = m.entitlements := by rw [heq]; rfl
      cases hm with
      | whopApplied eventId maxAttempts ev m ha => exact absurd (by rw [ha]; trivial) hrev
      | whopFailed eventId maxAttempts ev y l' m ha => exact absurd (by rw [ha]; trivial) hrev
      | body b m hb hm =>
        unfold actBody at hb
        split at hb
        · cases hb
          exact hnone (by rw [htable]; exact bodyOf_nonePutBack hinv.core _ hm)
        · rename_i row worker error maxAttempts ha
          cases hb
          unfold failBody at hm
          split at hm
          · exact hnone (by rw [htable]; exact requeue_nonePutBack hm)
          · rename_i hcopy
            obtain ⟨fresh, hget, hh, hu⟩ := failUncrossed_ok hm
            obtain ⟨hleased, -, hfence⟩ := of_decide_eq_true hh
            rw [htable, (updateEntitlement_get hu hget).1] at h
            rcases get_modify_cases Entitlement.fail_orderId h with ⟨rfl, y, hy, rfl⟩ | ⟨-, hy⟩
            · rw [hget] at hy
              cases hy
              exact .inr ⟨fresh, row, ⟨⟨worker, error, maxAttempts, ha⟩, rfl, hcopy, hget, hleased, hfence⟩,
                rfl, rfl⟩
            · exact .inl hy
        · rename_i tid ans ha
          obtain ⟨d, -, hb⟩ := Option.bind_eq_some_iff.mp hb
          exact hnone (by rw [htable]; exact deliverBody_nonePutBack hb hm)
        · cases hb

end GrowthMap.Payments
