import GrowthMap.Payments.Reachable

/- Terminal orders.

   Every operation that looks at the order before it writes leaves a rejected, expired,
   refunded or revoked order alone. The settlement operations look at the intent
   instead, so an order keeps its terminal state as long as none of them acts on an open
   intent it still has (`Respects`): `run_keeps_terminal`. A settlement that arrives after
   a reversal breaks it: `refunded_order_is_confirmed`. -/
namespace GrowthMap.Payments

open Relational Transaction Runs Table

variable {cfg : Config} {P : String → Prop} {c c' : Core}

/-- No settlement operation of the event acts on an open intent of a terminal order. -/
def Respects (s : Sys) (e : Event) : Prop :=
  ∀ oid, settling s e oid → ∀ o, s.ledger.orders.get oid = some o → o.state.terminal = false

/-- An order in state `st`, with no outbox row if `bare`. -/
structure Core.Closed (c : Core) (oid : String) (st : OrderState) (bare : Prop) : Prop where
  order : ∃ o, c.orders.get oid = some o ∧ o.state = st
  outbox : bare → c.entitlements.get oid = none

variable {oid k : String} {st : OrderState} {bare : Prop}

/-- An update of an order other than `oid`, or one that leaves its state. -/
theorem kept_order {orders : Orders} {f : Order → Order}
    (hf : ∀ r, (f r).id = r.id) (h : ∃ o, orders.get oid = some o ∧ o.state = st)
    (hkeep : oid = k → ∀ o, orders.get k = some o → o.state = st → (f o).state = st) :
    ∃ o, (orders.modify k f hf).get oid = some o ∧ o.state = st := by
  obtain ⟨o, ho, hst⟩ := h
  obtain ⟨o', ho', rfl | ⟨hk, rfl⟩⟩ := get_modify_exists k f hf ho
  · exact ⟨o', ho', hst⟩
  · refine ⟨f o, ho', hkeep hk o ?_ hst⟩
    rw [← hk]
    exact ho

theorem kept_bare {t : Entitlements} {f : Entitlement → Entitlement}
    (hf : ∀ r, (f r).payload.orderId = r.payload.orderId) (h : bare → t.get oid = none) :
    bare → (t.modify k f hf).get oid = none := by
  intro hb
  rw [get_modify, h hb]
  split <;> rfl

theorem move_keeps_terminal (hm : Move cfg P c c')
    (hP : ¬ P oid) (ht : st.terminal = true) (h : c.Closed oid st bare) : c'.Closed oid st bare := by
  obtain ⟨horder, hbare⟩ := h
  -- a move that has found the order it writes in a state that is not terminal writes another
  have hlive : ∀ {k : String} {o : Order} {Q : Prop}, c.orders.get k = some o →
      o.state.terminal = false → oid = k → Q := by
    rintro k o Q ho hl rfl
    obtain ⟨x, hx, rfl⟩ := horder
    rw [ho] at hx
    cases hx
    rw [hl] at ht
    cases ht
  have hother : ∀ {k : String} {Q : Prop}, P k → oid = k → Q := by
    rintro k Q hk rfl
    exact absurd hk hP
  cases hm with
  | create o t hi =>
    refine ⟨?_, hbare⟩
    obtain ⟨x, hx, hst⟩ := horder
    exact ⟨x, get_insert_old hi hx, hst⟩
  | review k now o ho hst =>
    exact ⟨kept_order Order.withState_id horder (hlive ho (by rw [hst]; rfl)), hbare⟩
  | reject k now o ho hst =>
    refine ⟨kept_order Order.withState_id horder (hlive ho ?_), hbare⟩
    rcases hst with hst | hst <;> rw [hst] <;> rfl
  | payerRef => exact ⟨kept_order Order.withPayerRef_id horder (fun _ _ _ hst => hst), hbare⟩
  | reserve => exact ⟨horder, hbare⟩
  | settle => exact ⟨horder, hbare⟩
  | ambiguate iid i now now' hi hst hk => exact ⟨kept_order Order.withState_id horder (hother hk), hbare⟩
  | reviewAgain iid i now hi hst hk => exact ⟨kept_order Order.withState_id horder (hother hk), hbare⟩
  | cancel iid i ev actor now hi hst href hk =>
    exact ⟨kept_order Order.withState_id horder (hother hk), hbare⟩
  | finalize iid i o tx evidenceHash payer now tp te hi hst htx hev ho hp href he hk =>
    refine ⟨kept_order Order.confirmReserved_id horder (hother hk), ?_⟩
    intro hb
    show te.get oid = none
    rw [get_insert he, if_neg]
    · exact hbare hb
    · intro heq
      exact hother hk heq
  | confirm k o ordinal payerRef txHash now p tp ho hst =>
    exact ⟨kept_order Order.confirmDirect_id horder (hlive ho (by rw [hst]; rfl)), hbare⟩
  | turn k o e f hf => exact ⟨horder, kept_bare hf hbare⟩
  | issue k o e a now ho hst =>
    exact ⟨kept_order Order.issue_id horder (hlive ho (by rw [hst]; rfl)),
      kept_bare Entitlement.deliver_orderId hbare⟩
  | compensate =>
    exact ⟨horder, kept_bare Entitlement.deliver_orderId hbare⟩
  | reverseBare k target now o ho hl =>
    exact ⟨kept_order Order.withState_id horder (hlive ho hl), hbare⟩
  | reverseFenced k target now retryAt errorHash o e ho hl =>
    exact ⟨kept_order Order.withState_id horder (hlive ho hl), kept_bare Entitlement.cancel_orderId hbare⟩
  | reverseDelivered k target now o e license r t ho hl =>
    exact ⟨kept_order Order.withState_id horder (hlive ho hl), hbare⟩
  | revocation => exact ⟨horder, hbare⟩

theorem moves_keep_terminal (hm : Moves cfg P c c')
    (hP : ¬ P oid) (ht : st.terminal = true) (h : c.Closed oid st bare) : c'.Closed oid st bare := by
  induction hm with
  | refl => exact h
  | tail _ hlast ih => exact move_keeps_terminal hlast hP ht ih

theorem step_keeps_terminal {s : Sys} {e : Event}
    (hs : SysInv cfg s) (hres : Respects s e) (ht : st.terminal = true)
    (h : s.ledger.core.Closed oid st bare) : (step cfg s e).ledger.core.Closed oid st bare := by
  refine moves_keep_terminal (step_moves hs e) ?_ ht h
  intro hset
  obtain ⟨o, ho, rfl⟩ := h.order
  rw [hres oid hset o ho] at ht
  cases ht

/-- From any reachable state: an order that is rejected, expired, refunded or revoked
keeps that state, and gets no first outbox row, along every run in which no settlement
operation acts on an open intent of a terminal order. -/
theorem run_keeps_terminal {s : Sys} (hs : Reachable (step cfg) (initial cfg) s) (es : List Event)
    (hres : Along (step cfg) Respects s es) {oid : String} {o : Order}
    (ho : s.ledger.orders.get oid = some o) (ht : o.state.terminal = true) :
    (∃ o', (run (step cfg) s es).ledger.orders.get oid = some o' ∧ o'.state = o.state) ∧
      (s.ledger.entitlements.get oid = none →
        (run (step cfg) s es).ledger.entitlements.get oid = none) := by
  let I : Sys → Prop := fun s' => SysInv cfg s' ∧
    s'.ledger.core.Closed oid o.state (s.ledger.entitlements.get oid = none)
  have hstep : ∀ s' e, I s' → Respects s' e → I (step cfg s' e) :=
    fun s' e hI hr => ⟨step_inv hI.1 e, step_keeps_terminal hI.1 hr ht hI.2⟩
  have h0 : I s := ⟨reachable_inv hs, ⟨o, ho, rfl⟩, id⟩
  have hend := Along.invariant I hstep hres h0
  exact ⟨hend.2.order, hend.2.outbox⟩

namespace Demo

def rejected : List Event :=
  [event 0 (.tx (.createOrder "o" "c" .x402 "a@b.co" "A")), event 1 (.tx (.adminTransition "o" .reject none))]

def afterRejection : List Event :=
  [event 2 (.tx (.prepareX402Intent "i" "o" "p" "n" 10000000 none)),
   event 3 (.tx (.confirmPaymentAndAllocateSale "o" "p" 10000000 "USDC" none none "a")),
   event 4 (.tx (.adminTransition "o" .reject none))]

end Demo

theorem rejected_order_stays_rejected :
    ∃ o, (Demo.after Demo.rejected).ledger.orders.get "o" = some o ∧ o.state = .rejected ∧
      ∃ o', (run (step Demo.config) (Demo.after Demo.rejected) Demo.afterRejection).ledger.orders.get "o" =
        some o' ∧ o'.state = o.state := by
  have h : ((Demo.after Demo.rejected).ledger.orders.get "o").map (fun o => o.state) = some .rejected := by
    decide +kernel
  obtain ⟨o, ho, hst⟩ := Option.map_eq_some_iff.mp h
  have hres : Along (step Demo.config) Respects (Demo.after Demo.rejected) Demo.afterRejection :=
    ⟨fun _ h => h.elim, fun _ h => h.elim, fun _ h => h.elim, trivial⟩
  refine ⟨o, ho, hst, ?_⟩
  exact (run_keeps_terminal (Demo.reachable_after _) Demo.afterRejection hres ho (by rw [hst]; rfl)).1

namespace Demo

/-- An order whose intent is open is refunded by a Whop event. -/
def refundedEarly : List Event :=
  sale.take 2 ++
    [event 2 (.tx (.storeWhopEvent ⟨"v", "2026", .refund, "o", "x", "y"⟩
      (String.ofList (List.replicate 64 'a')) 3)),
     event 2 (.applyWhopEvent "v" 3)]

end Demo

/-- The settlement of the open intent confirms the refunded order and opens its outbox row. -/
theorem refunded_order_is_confirmed :
    orderState (Demo.after Demo.refundedEarly).ledger "o" = some .refunded ∧
      (Demo.after Demo.refundedEarly).ledger.entitlements.get "o" = none ∧
      orderState (run (step Demo.config) (Demo.after Demo.refundedEarly) (Demo.sale.drop 2)).ledger "o" =
        some .paymentConfirmed ∧
      ((run (step Demo.config) (Demo.after Demo.refundedEarly)
        (Demo.sale.drop 2)).ledger.entitlements.get "o").isSome = true := by
  decide +kernel

end GrowthMap.Payments
