import GrowthMap.Payments.Invariant

/- Every move keeps the invariant of the sales ledger (`move_inv`), so a transaction
   does, and so does every run of them. One lemma per move that writes more than one
   table; `Inv.setState` and `Inv.modifyIntent` carry the moves that write one. -/
namespace GrowthMap.Payments

open Relational Table

structure Inv (cfg : Config) (c : Core) : Prop where
  intents : IntentsInv cfg c.orders c.intents
  ordinals : OrdinalsInv c.orders c.intents
  paid : PaidInv c.orders c.proofs
  outbox : OutboxInv cfg c.orders c.proofs c.intents c.entitlements
  revocations : RevocationInv cfg c.orders c.entitlements c.revocations

variable {cfg : Config} {c c' : Core} {k iid actor oid errorHash : String} {st : OrderState} {i : Intent} {o : Order}
  {tp : Proofs} {e : Entitlement} {a : EntitlementAck} {retryAt : Time} {t : Revocations} {r : Revocation}
  {P : String → Prop} {now : Time}

theorem Inv.setState (h : Inv cfg c) (he : c.entitlements.get k = none) :
    Inv cfg { c with orders := c.orders.modify k (Order.withState st now) Order.withState_id } where
  intents := h.intents.modifyOrder Order.withState_id (fun _ => ⟨rfl, rfl⟩)
  ordinals := h.ordinals.modifyOrder Order.withState_id (fun _ => ⟨rfl, rfl, rfl⟩)
  paid := h.paid.modifyOrder Order.withState_id (fun _ _ _ htx => .inl htx)
  outbox := h.outbox.modifyOrder Order.withState_id (fun o e _ hx => by rw [he] at hx; cases hx)
  revocations := by
    apply h.revocations.change (k := k)
    · intro k' hk'
      exact get_modify_ne Order.withState_id hk'
    · intro k' _
      rfl
    · apply h.revocations.none_of_undelivered
      intro e hx
      rw [he] at hx
      cases hx
    · intro e o hx
      rw [he] at hx
      cases hx

theorem Inv.modifyIntent (h : Inv cfg c) {f : Intent → Intent}
    (hf : ∀ r, (f r).intentId = r.intentId) (hi : c.intents.get k = some i)
    (hst : i.state = .prepared ∨ i.state = .ambiguous)
    (hkeep : (f i).orderId = i.orderId ∧ (f i).proofHash = i.proofHash ∧ (f i).nonceHash = i.nonceHash ∧
      (f i).amountMinor = i.amountMinor ∧ (f i).reservedOrdinal = i.reservedOrdinal)
    (hev : (f i).Evidence cfg) (htx : c.intents.clash k (fun r => r.txHash) i (f i) = false)
    (heh : c.intents.clash k (fun r => r.evidenceHash) i (f i) = false)
    (hord : c.intents.clash k Intent.activeOrdinal i (f i) = false) :
    Inv cfg { c with intents := c.intents.modify k f hf } where
  intents := h.intents.modifyIntent hf hi hkeep hev htx heh hord
  ordinals := h.ordinals.modifyIntent hf hi hkeep.2.2.2.2
    (fun _ => by rcases hst with hst | hst <;> rw [hst] <;> rfl)
  paid := h.paid
  outbox := h.outbox.modifyIntent hf hi (by rcases hst with hst | hst <;> rw [hst] <;> decide)
  revocations := h.revocations

theorem intentRefuses_none {t : Intents} {old new : Intent} (h : intentRefuses t k old new = none) :
    t.clash k (fun r => r.txHash) old new = false ∧
      t.clash k (fun r => r.evidenceHash) old new = false ∧
      t.clash k Intent.activeOrdinal old new = false := by
  have hall := firstBad_none h
  simp only [List.forall_mem_cons] at hall
  exact ⟨hall.2.2.1, hall.2.2.2.1, hall.2.2.2.2.2.1⟩

theorem settle_inv (h : Inv cfg c) {ev : SettlementEvidence}
    (hi : c.intents.get iid = some i) (hst : i.state = .prepared ∨ i.state = .ambiguous)
    (hev : ev.Accepted i)
    (href : intentRefuses c.intents iid i (i.settle ev actor (paidBinding cfg ev actor i) now) = none) :
    Inv cfg { c with
      intents := c.intents.modify iid (Intent.settle ev actor (paidBinding cfg ev actor i) now)
        Intent.settle_intentId } := by
  obtain ⟨htx, heh, hord⟩ := intentRefuses_none href
  apply h.modifyIntent Intent.settle_intentId hi hst ⟨rfl, rfl, rfl, rfl, rfl⟩ _ htx heh hord
  refine { unsettled := ?_, paid := ?_, bound := ?_ }
  · simp [Intent.settle]
  · intro _
    exact ⟨hev.tx, hev.evidence, hev.verified, hev.payer⟩
  · intro _
    -- the stored columns are the ones the binding was computed from
    rfl

theorem cancel_inv (h : Inv cfg c) {ev : ReconcilerEvidence}
    (hi : c.intents.get iid = some i) (hst : i.state = .prepared ∨ i.state = .ambiguous)
    (href : intentRefuses c.intents iid i (i.cancel ev actor (unpaidBinding cfg ev actor i) now) = none) :
    Inv cfg { c with
      intents := c.intents.modify iid (Intent.cancel ev actor (unpaidBinding cfg ev actor i) now)
        Intent.cancel_intentId,
      orders := c.orders.modify i.orderId (Order.withState .expired now) Order.withState_id } := by
  obtain ⟨htx, heh, hord⟩ := intentRefuses_none href
  have hnone : c.entitlements.get i.orderId = none := by
    apply h.outbox.none_of_open h.intents hi
    rcases hst with hst | hst <;> rw [hst] <;> decide
  have hintents : Inv cfg { c with
      intents := c.intents.modify iid (Intent.cancel ev actor (unpaidBinding cfg ev actor i) now)
        Intent.cancel_intentId } := by
    apply h.modifyIntent Intent.cancel_intentId hi hst ⟨rfl, rfl, rfl, rfl, rfl⟩ _ htx heh hord
    refine { unsettled := ?_, paid := ?_, bound := ?_ }
    · simp [Intent.cancel]
    · simp [Intent.cancel]
    · intro _
      -- an open intent has no transaction, so the stored row binds none
      have hno := (h.intents.evidence iid i hi).unsettled hst
      simp only [Intent.cancel, unpaidBinding, storedBinding, hno]
      rfl
  exact hintents.setState hnone

theorem ambiguate_inv (h : Inv cfg c) {now' : Time}
    (hi : c.intents.get iid = some i) (hst : i.state = .prepared) :
    Inv cfg { c with
      intents := c.intents.modify iid (Intent.withState .ambiguous now) Intent.withState_intentId,
      orders := c.orders.modify i.orderId (Order.withState .manualReview now') Order.withState_id } := by
  have hnone : c.entitlements.get i.orderId = none := by
    apply h.outbox.none_of_open h.intents hi
    rw [hst]
    decide
  have hintents : Inv cfg { c with
      intents := c.intents.modify iid (Intent.withState .ambiguous now) Intent.withState_intentId } := by
    refine h.modifyIntent Intent.withState_intentId hi (.inl hst) ⟨rfl, rfl, rfl, rfl, rfl⟩ ?_ ?_ ?_ ?_
    · refine { unsettled := ?_, paid := ?_, bound := ?_ }
      · intro _
        exact (h.intents.evidence iid i hi).unsettled (.inl hst)
      · simp [Intent.withState]
      · simp [Intent.withState, IntentState.terminal]
    · exact clash_same rfl
    · exact clash_same rfl
    · exact clash_same (by simp [Intent.activeOrdinal, Intent.withState, hst])
  exact hintents.setState hnone

theorem orderRefuses_none {t : Orders} {old new : Order}
    (h : orderRefuses t k old new = none) : t.clash k (fun r => r.saleOrdinal) old new = false := by
  have hall := firstBad_none h
  simp only [List.forall_mem_cons] at hall
  exact hall.2.1

/-- The row `_issue_reserved` enqueues is well formed. -/
theorem newEntitlement_wf (i : Intent) (tx evidenceHash payer : String) (now : Time) :
    (newEntitlement cfg i tx evidenceHash payer now).Wf cfg where
  prepared := by simp [newEntitlement]
  leased := by simp [newEntitlement]
  delivered := by simp [newEntitlement]
  identity := ⟨rfl, rfl⟩
  source := ⟨rfl, rfl⟩

theorem finalize_inv (h : Inv cfg c) {tx evidenceHash payer : String} {te : Entitlements}
    (hi : c.intents.get iid = some i) (hst : i.state = .settled) (htx : i.txHash = some tx)
    (hev : i.evidenceHash = some evidenceHash) (ho : c.orders.get i.orderId = some o)
    (hp : c.proofs.insert ⟨i.proofHash, .x402, i.orderId, some tx, now⟩ = some tp)
    (href : orderRefuses c.orders i.orderId o (o.confirmReserved i.reservedOrdinal tx now) = none)
    (he : c.entitlements.insert (newEntitlement cfg i tx evidenceHash payer now) = some te) :
    Inv cfg { c with
      proofs := tp, entitlements := te,
      orders := c.orders.modify i.orderId (Order.confirmReserved i.reservedOrdinal tx now)
        Order.confirmReserved_id,
      intents := c.intents.modify iid (Intent.withState .finalizedPaid now)
        Intent.withState_intentId } := by
  have hnone : c.entitlements.get i.orderId = none := insert_fresh he
  have hevid := h.intents.evidence iid i hi
  obtain ⟨x, hx, hrail, hquoted⟩ := h.intents.order iid i hi
  rw [ho] at hx
  cases hx
  obtain ⟨hprice, hpos⟩ := h.intents.price iid i hi
  -- the intent alone, with its evidence as it stood
  have hI : IntentsInv cfg c.orders (c.intents.modify iid (Intent.withState .finalizedPaid now)
      Intent.withState_intentId) := by
    refine h.intents.modifyIntent Intent.withState_intentId hi ⟨rfl, rfl, rfl, rfl, rfl⟩ ?_ ?_ ?_ ?_
    · refine { unsettled := ?_, paid := ?_, bound := ?_ }
      · simp [Intent.withState]
      · intro _
        exact hevid.paid (.inl hst)
      · intro _
        have hb := hevid.bound (by rw [hst]; rfl)
        simp only [Intent.withState, storedBinding, hst] at hb ⊢
        exact hb
    · exact clash_same rfl
    · exact clash_same rfl
    · exact clash_same (by simp [Intent.activeOrdinal, Intent.withState, hst])
  have hord : OrdinalsInv c.orders (c.intents.modify iid (Intent.withState .finalizedPaid now)
      Intent.withState_intentId) := by
    refine h.ordinals.modifyIntent Intent.withState_intentId hi rfl ?_
    intro hh
    cases hh
  have hout : OutboxInv cfg c.orders tp (c.intents.modify iid (Intent.withState .finalizedPaid now)
      Intent.withState_intentId) c.entitlements := by
    refine (h.outbox.insertProof hp).modifyIntent Intent.withState_intentId hi ?_
    rw [hst]
    decide
  have hpaid : PaidInv (c.orders.modify i.orderId (Order.confirmReserved i.reservedOrdinal tx now)
      Order.confirmReserved_id) tp := by
    refine (h.paid.insertProof hp).modifyOrder Order.confirmReserved_id ?_
    intro x t _ ht
    cases ht
    exact .inr ⟨_, _, get_insert_self hp, rfl⟩
  constructor
  · exact hI.modifyOrder Order.confirmReserved_id (fun _ => ⟨rfl, rfl⟩)
  · refine hord.allot Order.confirmReserved_id ho rfl ⟨rfl, rfl⟩ hpos ?_ (orderRefuses_none href) ?_
    · rw [hquoted, hprice, hrail]
    · -- another open intent holds another ordinal
      intro k x hx hh heq
      rcases get_modify_cases Intent.withState_intentId hx with ⟨-, r, hr, rfl⟩ | ⟨hne, hx⟩
      · cases hh
      · apply hne
        refine h.intents.ordinals k iid x i i.reservedOrdinal hx hi ?_ ?_
        · rw [Intent.activeOrdinal, if_neg, heq]
          intro hc
          rw [hc] at hh
          cases hh
        · rw [Intent.activeOrdinal, if_neg]
          rw [hst]
          decide
  · exact hpaid
  · apply hout.change (k := i.orderId)
    · intro k' hk'
      exact get_modify_ne Order.confirmReserved_id hk'
    · intro k' hk'
      rw [get_insert he, if_neg]
      exact hk'
    · intro e hge
      rcases get_insert_cases he hge with ⟨-, rfl⟩ | hold
      · have ho' := get_modify_self (f := Order.confirmReserved i.reservedOrdinal tx now)
          Order.confirmReserved_id ho
        refine ⟨newEntitlement_wf i tx evidenceHash payer now, ⟨_, ho', .inl ⟨rfl, by simp [newEntitlement]⟩⟩, ?_⟩
        refine ⟨_, iid, i.withState .finalizedPaid now, _, ho',
          get_modify_self Intent.withState_intentId hi, rfl, rfl, rfl, htx, hev, rfl, htx.symm,
          get_insert_self hp, rfl, htx.symm⟩
      · rw [hnone] at hold
        cases hold
  · apply h.revocations.change (k := i.orderId)
    · intro k' hk'
      exact get_modify_ne Order.confirmReserved_id hk'
    · intro k' hk'
      rw [get_insert he, if_neg]
      exact hk'
    · apply h.revocations.none_of_undelivered
      intro e hx
      rw [hnone] at hx
      cases hx
    · intro e x hge hx _
      rcases get_modify_cases Order.confirmReserved_id hx with ⟨-, r, hr, rfl⟩ | ⟨hne, -⟩
      · rfl
      · exact absurd rfl hne

theorem confirm_inv (h : Inv cfg c) {ordinal : Nat}
    {payerRef txHash : Option String} {p : PaymentProof}
    (ho : c.orders.get oid = some o) (hst : o.state = .pendingPayment) (hpos : 0 < ordinal)
    (hfree : Free c.orders c.intents ordinal) (hquoted : o.quotedAmountMinor = amountFor o.rail ordinal)
    (hp : c.proofs.insert p = some tp) (htx : p.txHash = txHash)
    (href : orderRefuses c.orders oid o (o.confirmDirect ordinal payerRef txHash now) = none) :
    Inv cfg { c with
      proofs := tp,
      orders := c.orders.modify oid (Order.confirmDirect ordinal payerRef txHash now)
        Order.confirmDirect_id } := by
  have hnone : c.entitlements.get oid = none := by
    apply h.outbox.none_of_state ho <;> rw [hst] <;> decide
  constructor
  · exact h.intents.modifyOrder Order.confirmDirect_id (fun _ => ⟨rfl, rfl⟩)
  · exact h.ordinals.allot Order.confirmDirect_id ho rfl ⟨rfl, rfl⟩ hpos hquoted
      (orderRefuses_none href) hfree.2
  · refine (h.paid.insertProof hp).modifyOrder Order.confirmDirect_id ?_
    intro x tx _ hx
    exact .inr ⟨_, p, get_insert_self hp, htx.trans hx⟩
  · refine (h.outbox.insertProof hp).modifyOrder Order.confirmDirect_id ?_
    intro x e _ he
    rw [hnone] at he
    cases he
  · apply h.revocations.change (k := oid)
    · intro k' hk'
      exact get_modify_ne Order.confirmDirect_id hk'
    · intro k' _
      rfl
    · apply h.revocations.none_of_undelivered
      intro e he
      rw [hnone] at he
      cases he
    · intro e x he
      rw [hnone] at he
      cases he

/-- What a turn leaves of a well-formed row: the same payload, well formed, and as
undelivered as before. -/
theorem Turn.keeps {e' : Entitlement} (ht : Turn st e e') (hwf : e.Wf cfg)
    (hperm : Permitted e e') :
    e'.payload = e.payload ∧ e'.Wf cfg ∧ e.state ≠ .delivered ∧ e'.state ≠ .delivered := by
  have hid := hwf.identity
  have hsrc := hwf.source
  cases ht with
  | claim worker expires hs =>
    refine ⟨rfl, ?_, hs, by simp [Entitlement.leaseTo]⟩
    constructor
    · intro _
      rfl
    · intro _
      rfl
    · simp [Entitlement.leaseTo]
    · exact hid
    · exact hsrc
  | reset now hs =>
    refine ⟨rfl, ?_, by simp [hs], by simp [Entitlement.resetPrepared]⟩
    constructor
    · simp [Entitlement.resetPrepared]
    · simp [Entitlement.resetPrepared]
    · simp [Entitlement.resetPrepared]
    · exact hid
    · exact hsrc
  | prepare worker fence hh =>
    have hs : e.state = .leased := (of_decide_eq_true hh).1
    refine ⟨rfl, ?_, by simp [hs], by simp [Entitlement.withPhase, hs]⟩
    constructor
    · intro _
      exact hs
    · exact hwf.leased
    · exact hwf.delivered
    · exact hid
    · exact hsrc
  | authorize worker fence hh =>
    have hs : e.state = .leased := (of_decide_eq_true hh).1
    refine ⟨rfl, ?_, by simp [hs], by simp [Entitlement.withPhase, hs]⟩
    constructor
    · intro _
      exact hs
    · exact hwf.leased
    · exact hwf.delivered
    · exact hid
    · exact hsrc
  | requeue worker fence errorHash now maxAttempts hh =>
    have hs : e.state = .leased := (of_decide_eq_true hh).1
    refine ⟨rfl, ?_, by simp [hs], by simp [Entitlement.requeue]⟩
    constructor
    · intro hc
      simp only [Entitlement.requeue] at hc
      split at hc <;> cases hc
    · simp [Entitlement.requeue]
    · simp [Entitlement.requeue]
    · exact hid
    · exact hsrc
  | fail worker fence errorHash now maxAttempts hh =>
    have hs : e.state = .leased := (of_decide_eq_true hh).1
    have hnew : (e.fail errorHash now maxAttempts).state ≠ .leased ∧
        (e.fail errorHash now maxAttempts).state ≠ .delivered := by
      simp only [Entitlement.fail]
      split <;> simp
    refine ⟨rfl, ?_, by simp [hs], hnew.2⟩
    constructor
    · -- a failure would move a prepared lease: the trigger refuses it
      intro hp
      exfalso
      have hp' : e.phase = .crossingPrepared := hp
      have hbad := hperm.2
      simp only [preparedLeaseImmutable, hp', hp, Bool.and_eq_false_iff, decide_eq_false_iff_not] at hbad
      rcases hbad with hbad | hbad
      · exact hbad ⟨trivial, trivial⟩
      · apply hbad
        left
        rw [hs]
        exact hnew.1
    · intro hl
      exact absurd hl hnew.1
    · intro hd
      exact absurd hd hnew.2
    · exact hid
    · exact hsrc

theorem turn_inv (h : Inv cfg c)
    {f : Entitlement → Entitlement} (hf : ∀ r, (f r).payload.orderId = r.payload.orderId)
    (ho : c.orders.get oid = some o) (he : c.entitlements.get oid = some e)
    (ht : Turn o.state e (f e)) (hperm : Permitted e (f e)) :
    Inv cfg { c with entitlements := c.entitlements.modify oid f hf } := by
  obtain ⟨hwf, ⟨x, hx, hfit⟩, -⟩ := h.outbox oid e he
  rw [ho] at hx
  cases hx
  obtain ⟨hpay, hwf', hs, hs'⟩ := ht.keeps hwf hperm
  refine { h with outbox := ?_, revocations := ?_ }
  · refine h.outbox.modifyEntitlement hf ?_
    intro y x hy hx
    rw [he] at hy
    rw [ho] at hx
    cases hy
    cases hx
    refine ⟨hpay, hwf', ?_⟩
    rcases hfit with ⟨hc, -⟩ | ⟨-, hd⟩ | hr
    · exact .inl ⟨hc, hs'⟩
    · exact absurd hd hs
    · exact .inr (.inr hr)
  · apply h.revocations.change (k := oid)
    · intro k' _
      rfl
    · intro k' hk'
      exact get_modify_ne hf hk'
    · apply h.revocations.none_of_undelivered
      intro y hy
      rw [he] at hy
      cases hy
      exact hs
    · intro y x hy _ hd
      rcases get_modify_cases hf hy with ⟨-, r, hr, rfl⟩ | ⟨hne, -⟩
      · rw [he] at hr
        cases hr
        exact absurd hd hs'
      · exact absurd rfl hne

theorem deliver_wf (hwf : e.Wf cfg)
    (hl : a.licenseId ≠ "") (hs : e.state ≠ .delivered) (hperm : Permitted e (e.deliver a now)) :
    (e.deliver a now).Wf cfg := by
  refine { prepared := ?_, leased := ?_, delivered := ?_, identity := hwf.identity,
           source := hwf.source }
  · intro hp
    exfalso
    have hp' : e.phase = .crossingPrepared := hp
    have hbad := hperm.2
    simp only [preparedLeaseImmutable, hp', hp, Bool.and_eq_false_iff, decide_eq_false_iff_not] at hbad
    rcases hbad with hbad | hbad
    · exact hbad ⟨trivial, trivial⟩
    · apply hbad
      left
      exact Ne.symm hs
  · simp [Entitlement.deliver]
  · intro _
    exact ⟨a.licenseId, rfl, hl⟩

theorem cancel_wf (hwf : e.Wf cfg) :
    (e.cancel errorHash retryAt).Wf cfg := by
  refine { prepared := ?_, leased := ?_, delivered := ?_, identity := hwf.identity,
           source := hwf.source }
  · intro hp
    simp only [Entitlement.cancel] at hp
    split at hp <;> cases hp
  · simp [Entitlement.cancel]
  · simp [Entitlement.cancel]

theorem issue_inv (h : Inv cfg c)
    (ho : c.orders.get oid = some o) (hst : o.state = .paymentConfirmed)
    (he : c.entitlements.get oid = some e) (hs : e.state ≠ .delivered) (hl : a.licenseId ≠ "")
    (hperm : Permitted e (e.deliver a now)) :
    Inv cfg { c with
      entitlements := c.entitlements.modify oid (Entitlement.deliver a now) Entitlement.deliver_orderId,
      orders := c.orders.modify oid (Order.issue a.licenseId now) Order.issue_id } := by
  obtain ⟨hwf, -, hb⟩ := h.outbox oid e he
  have ho' := get_modify_self (f := Order.issue a.licenseId now) Order.issue_id ho
  constructor
  · exact h.intents.modifyOrder Order.issue_id (fun _ => ⟨rfl, rfl⟩)
  · exact h.ordinals.modifyOrder Order.issue_id (fun _ => ⟨rfl, rfl, rfl⟩)
  · exact h.paid.modifyOrder Order.issue_id (fun _ _ _ htx => .inl htx)
  · apply h.outbox.change (k := oid)
    · intro k' hk'
      exact get_modify_ne Order.issue_id hk'
    · intro k' hk'
      exact get_modify_ne Entitlement.deliver_orderId hk'
    · intro y hy
      rcases get_modify_cases Entitlement.deliver_orderId hy with ⟨-, r, hr, rfl⟩ | ⟨hne, -⟩
      · rw [he] at hr
        cases hr
        exact ⟨deliver_wf hwf hl hs hperm, ⟨_, ho', .inr (.inl ⟨rfl, rfl⟩)⟩, hb.sameOrder ho ho' rfl rfl⟩
      · exact absurd rfl hne
  · apply h.revocations.change (k := oid)
    · intro k' hk'
      exact get_modify_ne Order.issue_id hk'
    · intro k' hk'
      exact get_modify_ne Entitlement.deliver_orderId hk'
    · apply h.revocations.none_of_unreversed ho
      rw [hst]
      rfl
    · intro y x _ hx _
      rcases get_modify_cases Order.issue_id hx with ⟨-, r, hr, rfl⟩ | ⟨hne, -⟩
      · rfl
      · exact absurd rfl hne

theorem compensate_inv (h : Inv cfg c) (ho : c.orders.get oid = some o)
    (hst : o.state.reversed = true) (he : c.entitlements.get oid = some e) (hs : e.state ≠ .delivered)
    (hl : a.licenseId ≠ "") (hperm : Permitted e (e.deliver a now))
    (hr : Answers cfg oid a.licenseId e o.state r) (hi : c.revocations.insert r = some t)
    (hfree : c.revocations.taken r.payload.eventId (fun x => some x.payload.orderId) (some oid) = false) :
    Inv cfg { c with
      entitlements := c.entitlements.modify oid (Entitlement.deliver a now) Entitlement.deliver_orderId,
      revocations := t } := by
  obtain ⟨hwf, -, -⟩ := h.outbox oid e he
  refine { h with outbox := ?_, revocations := ?_ }
  · refine h.outbox.modifyEntitlement Entitlement.deliver_orderId ?_
    intro y x hy hx
    rw [he] at hy
    rw [ho] at hx
    cases hy
    cases hx
    exact ⟨rfl, deliver_wf hwf hl hs hperm, .inr (.inr hst)⟩
  · refine h.revocations.queue (k := oid) (o := o) (r := r) (e := e.deliver a now) ?_ ?_ ?_
      (get_modify_self Entitlement.deliver_orderId he) rfl rfl ho hst hr hi hfree
    · intro k' _
      rfl
    · intro k' hk'
      exact get_modify_ne Entitlement.deliver_orderId hk'
    · apply h.revocations.none_of_undelivered
      intro y hy
      rw [he] at hy
      cases hy
      exact hs

theorem reverseFenced_inv (h : Inv cfg c) (ho : c.orders.get oid = some o)
    (hlive : o.state.terminal = false) (hst : st.reversed = true)
    (he : c.entitlements.get oid = some e) :
    Inv cfg { c with
      entitlements := c.entitlements.modify oid (Entitlement.cancel errorHash retryAt)
        Entitlement.cancel_orderId,
      orders := c.orders.modify oid (Order.withState st now) Order.withState_id } := by
  obtain ⟨hwf, -, hb⟩ := h.outbox oid e he
  have ho' := get_modify_self (f := Order.withState st now) Order.withState_id ho
  constructor
  · exact h.intents.modifyOrder Order.withState_id (fun _ => ⟨rfl, rfl⟩)
  · exact h.ordinals.modifyOrder Order.withState_id (fun _ => ⟨rfl, rfl, rfl⟩)
  · exact h.paid.modifyOrder Order.withState_id (fun _ _ _ htx => .inl htx)
  · apply h.outbox.change (k := oid)
    · intro k' hk'
      exact get_modify_ne Order.withState_id hk'
    · intro k' hk'
      exact get_modify_ne Entitlement.cancel_orderId hk'
    · intro y hy
      rcases get_modify_cases Entitlement.cancel_orderId hy with ⟨-, r, hr, rfl⟩ | ⟨hne, -⟩
      · rw [he] at hr
        cases hr
        exact ⟨cancel_wf hwf, ⟨_, ho', .inr (.inr hst)⟩, hb.sameOrder ho ho' rfl rfl⟩
      · exact absurd rfl hne
  · apply h.revocations.change (k := oid)
    · intro k' hk'
      exact get_modify_ne Order.withState_id hk'
    · intro k' hk'
      exact get_modify_ne Entitlement.cancel_orderId hk'
    · apply h.revocations.none_of_unreversed ho
      cases hs : o.state <;> simp_all [OrderState.terminal, OrderState.reversed]
    · intro y x hy _ hd
      rcases get_modify_cases Entitlement.cancel_orderId hy with ⟨-, r, hr, rfl⟩ | ⟨hne, -⟩
      · cases hd
      · exact absurd rfl hne

theorem reverseDelivered_inv (h : Inv cfg c) {license : String}
    (ho : c.orders.get oid = some o) (hlive : o.state.terminal = false) (hst : st.reversed = true)
    (he : c.entitlements.get oid = some e) (hs : e.state = .delivered) (hl : e.licenseId = some license)
    (hr : Answers cfg oid license e st r) (hi : c.revocations.insert r = some t)
    (hfree : c.revocations.taken r.payload.eventId (fun x => some x.payload.orderId) (some oid) = false) :
    Inv cfg { c with
      revocations := t,
      orders := c.orders.modify oid (Order.withState st now) Order.withState_id } := by
  constructor
  · exact h.intents.modifyOrder Order.withState_id (fun _ => ⟨rfl, rfl⟩)
  · exact h.ordinals.modifyOrder Order.withState_id (fun _ => ⟨rfl, rfl, rfl⟩)
  · exact h.paid.modifyOrder Order.withState_id (fun _ _ _ htx => .inl htx)
  · refine h.outbox.modifyOrder Order.withState_id ?_
    intro x y _ _
    exact ⟨rfl, rfl, .inr (.inr hst)⟩
  · refine h.revocations.queue (k := oid) (o := o.withState st now) (r := r) (e := e) ?_ ?_ ?_ he hs hl
      (get_modify_self Order.withState_id ho) hst hr hi hfree
    · intro k' hk'
      exact get_modify_ne Order.withState_id hk'
    · intro k' _
      rfl
    · apply h.revocations.none_of_unreversed ho
      cases hs : o.state <;> simp_all [OrderState.terminal, OrderState.reversed]

theorem OutboxInv.none_of_fresh {orders : Orders} {proofs : Proofs} {intents : Intents}
    {entitlements : Entitlements} (h : OutboxInv cfg orders proofs intents entitlements)
    (hk : orders.get k = none) : entitlements.get k = none := by
  cases he : entitlements.get k with
  | none => rfl
  | some e =>
    obtain ⟨-, ⟨o, ho, -⟩, -⟩ := h k e he
    rw [hk] at ho
    cases ho

/-- Every move keeps the invariant. -/
theorem move_inv (h : Inv cfg c) (hm : Move cfg P c c') : Inv cfg c' := by
  cases hm with
  | create o t hi hsale htx =>
    exact { intents := h.intents.insertOrder hi, ordinals := h.ordinals.insertOrder hi hsale,
            paid := h.paid.insertOrder hi htx, outbox := h.outbox.insertOrder hi,
            revocations := h.revocations.insertOrder hi
              (h.outbox.none_of_fresh (insert_fresh hi)) }
  | review oid now o ho hst =>
    apply h.setState
    apply h.outbox.none_of_state ho <;> rw [hst] <;> decide
  | reject oid now o ho hst =>
    apply h.setState
    apply h.outbox.none_of_state ho <;> rcases hst with hst | hst <;> rw [hst] <;> decide
  | payerRef oid =>
    refine { intents := h.intents.modifyOrder Order.withPayerRef_id (fun _ => ⟨rfl, rfl⟩),
             ordinals := h.ordinals.modifyOrder Order.withPayerRef_id (fun _ => ⟨rfl, rfl, rfl⟩),
             paid := h.paid.modifyOrder Order.withPayerRef_id (fun _ _ _ htx => .inl htx),
             outbox := ?_,
             revocations := h.revocations.modifyOrder Order.withPayerRef_id (fun _ => rfl) }
    refine h.outbox.modifyOrder Order.withPayerRef_id ?_
    intro o e ho he
    obtain ⟨-, ⟨x, hx, hfit⟩, -⟩ := h.outbox oid e he
    rw [ho] at hx
    cases hx
    exact ⟨rfl, rfl, hfit⟩
  | reserve i t o hi ho hrail hquoted hamount hpos hfree hst htx hev horder hproof hnonce hord =>
    exact { h with
      intents := h.intents.insertIntent hi ho hrail hquoted hamount hpos hst htx hev horder hproof
        hnonce hord,
      ordinals := h.ordinals.insertIntent hi hfree, outbox := h.outbox.insertIntent hi }
  | settle iid i ev actor now hi hst hev href => exact settle_inv h hi hst hev href
  | ambiguate iid i now now' hi hst => exact ambiguate_inv h hi hst
  | reviewAgain iid i now hi hst =>
    apply h.setState
    apply h.outbox.none_of_open h.intents hi
    rw [hst]
    decide
  | cancel iid i ev actor now hi hst href => exact cancel_inv h hi hst href
  | finalize iid i o tx evidenceHash payer now tp te hi hst htx hev ho hp href he =>
    exact finalize_inv h hi hst htx hev ho hp href he
  | confirm oid o ordinal payerRef txHash now p tp ho hst hpos hfree hquoted hp htx href =>
    exact confirm_inv h ho hst hpos hfree hquoted hp htx href
  | turn oid o e f hf ho he ht hperm => exact turn_inv h hf ho he ht hperm
  | issue oid o e a now ho hst he worker fence hh hl hperm =>
    have hs : e.state = .leased := (of_decide_eq_true hh).1
    exact issue_inv h ho hst he (by rw [hs]; decide) hl hperm
  | compensate oid o e a now r t ho hst he hs hl hperm hr hi hfree =>
    exact compensate_inv h ho hst he hs hl hperm hr hi hfree
  | reverseBare oid st now o ho hlive hst he => exact h.setState he
  | reverseFenced oid st now retryAt errorHash o e ho hlive hst he =>
    exact reverseFenced_inv h ho hlive hst he
  | reverseDelivered oid st now o e license r t ho hlive hst he hs hl hr hi hfree =>
    exact reverseDelivered_inv h ho hlive hst he hs hl hr hi hfree
  | revocation k f hf hlater =>
    exact { h with revocations := h.revocations.modifyRevocation hf (fun r hr => (hlater r hr).payload) }

theorem moves_inv (h : Inv cfg c) (hm : Moves cfg P c c') : Inv cfg c' := by
  induction hm with
  | refl => exact h
  | tail _ hlast ih => exact move_inv ih hlast

theorem fresh_inv (cfg : Config) : Inv cfg freshLedger.core := by
  refine { intents := ?_, ordinals := ?_, paid := ?_, outbox := ?_, revocations := ?_ }
  · refine { order := ?_, price := ?_, evidence := ?_, orderIds := unique_empty _,
             proofs := unique_empty _, nonces := unique_empty _, txs := unique_empty _,
             evidences := unique_empty _, ordinals := unique_empty _ } <;>
      intro k i hi <;> cases hi
  · refine { price := ?_, sales := unique_empty _, apart := ?_ }
    · intro k o n ho
      cases ho
    · intro k o n k' i ho
      cases ho
  · intro k o tx ho
    cases ho
  · intro oid e he
    cases he
  · refine { owed := ?_, grounds := ?_, orderIds := unique_empty _ }
    · intro oid e license o he
      cases he
    · intro k r hr
      cases hr

end GrowthMap.Payments
