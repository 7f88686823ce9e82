import GrowthMap.Payments.Reachable

/- When a settled intent can be finalized.

   `_issue_reserved` inserts a payment proof, confirms the order under the reserved
   ordinal and enqueues the entitlement. Of the UNIQUE columns it meets, the invariant of
   the ledger keeps all free but those of `payment_proofs`, which the direct and PayPal
   confirmations fill too. -/
namespace GrowthMap.Payments

open Relational Transaction Table

variable {cfg : Config} {l : Ledger}

/-- `payment_proofs` holds neither the proof nor the transaction of the intent. -/
def Unproven (l : Ledger) (i : Intent) : Prop :=
  l.proofs.get i.proofHash = none ∧ ∀ h p, l.proofs.get h = some p → p.txHash ≠ i.txHash

/-- No settled intent's proof or transaction is in `payment_proofs`. -/
def NoReuse (l : Ledger) : Prop :=
  ∀ iid i, l.intents.get iid = some i → i.state = .settled → Unproven l i

/-- SHA-256 tells the source contexts of the ledger's orders apart. -/
def SourceIdsDiffer (cfg : Config) (l : Ledger) : Prop :=
  ∀ a b, (l.orders.get a).isSome = true → (l.orders.get b).isSome = true →
    sourceId cfg a = sourceId cfg b → a = b

/-! The statements go through -/

theorem insertChecked_succeeds {K R : Type} [DecidableEq K] {key : R → K} {t : Table K R key} {r : R}
    {bad : Option Err} (hbad : bad = none) (hfree : t.get (key r) = none) :
    ∃ t', insertChecked t r bad = .ok t' := by
  obtain ⟨t', ht'⟩ := insert_isSome hfree
  refine ⟨t', ?_⟩
  simp only [insertChecked, hbad, ht']

variable {p : PaymentProof} {i : Intent} {iid tx : String}

theorem insertProof_succeeds (hkey : l.proofs.get p.proofHash = none)
    (htx : l.proofs.taken p.proofHash (fun r => r.txHash) p.txHash = false)
    (ho : (l.orders.get p.orderId).isSome = true) :
    ∃ t, insertProof p l = .ok { l with proofs := t } := by
  have hbad : firstBad [(l.proofs.taken p.proofHash (fun r => r.txHash) p.txHash, uniqueFailed),
      ((l.orders.get p.orderId).isNone, foreignKeyFailed)] = none := by
    apply firstBad_eq_none
    simp [htx, ho]
  obtain ⟨t, ht⟩ := insertChecked_succeeds hbad hkey
  refine ⟨t, ?_⟩
  unfold insertProof
  rw [ht]

theorem insertProof_fails (h : l.proofs.get p.proofHash ≠ none ∨
      ∃ k q tx, l.proofs.get k = some q ∧ q.txHash = some tx ∧ p.txHash = some tx) :
    ∃ e, insertProof p l = .error e := by
  cases hi : insertProof p l with
  | error e => exact ⟨e, rfl⟩
  | ok =>
    exfalso
    unfold insertProof at hi
    split at hi
    · cases hi
    · rename_i t ht
      obtain ⟨hbad, hins⟩ := insertChecked_ok ht
      have hfresh := insert_fresh hins
      rcases h with hkey | ⟨k, q, tx, hq, hqtx, hptx⟩
      · exact hkey hfresh
      · have hfree := firstBad_none hbad _ List.mem_cons_self
        have hk : k = p.proofHash := taken_eq_false.mp hfree k q tx hq hptx hqtx
        rw [hk, hfresh] at hq
        cases hq

/-- A state that does not come to be terminal, or goes from settled to finalized. -/
theorem withState_passes {t : Intents} {k : String} {st : IntentState} {now : Time}
    (hev : st.terminal = true → i.evidenceHash.isSome = true ∧ i.evidenceBinding.isSome = true)
    (hfrom : i.state.terminal = false ∨ i.state = .settled ∧ st = .finalizedPaid)
    (hholds : i.state ≠ .cancelledUnpaid ∧ st ≠ .cancelledUnpaid) :
    intentRefuses t k i (i.withState st now) = none := by
  have himm : settlementTerminalImmutable i (i.withState st now) = false := by
    rcases hfrom with hopen | ⟨hs, rfl⟩
    · simp [settlementTerminalImmutable, hopen]
    · have hsame : ({ i.withState .finalizedPaid now with state := i.state, updatedAt := i.updatedAt } : Intent) = i :=
        rfl
      have hmoved : i.state = .settled ∧ (i.withState .finalizedPaid now).state = .finalizedPaid := ⟨hs, rfl⟩
      rw [settlementTerminalImmutable, decide_eq_true hsame, decide_eq_true hmoved]
      simp
  have hreq : settlementEvidenceRequired (i.withState st now) = false := by
    cases ht : st.terminal with
    | false => simp [settlementEvidenceRequired, Intent.withState, ht]
    | true =>
      obtain ⟨h1, h2⟩ := hev ht
      simp [settlementEvidenceRequired, Intent.withState, ht, h1, h2]
  have hord : t.clash k Intent.activeOrdinal i (i.withState st now) = false := by
    apply clash_same
    simp [Intent.activeOrdinal, Intent.withState, hholds.1, hholds.2]
  apply firstBad_eq_none
  simp only [List.forall_mem_cons, himm, hreq, hord, true_and, List.not_mem_nil, false_implies, implies_true, and_true]
  exact ⟨clash_same rfl, clash_same rfl, clash_same rfl⟩

theorem isSome_of_truthy {x : Option String} (h : truthy x = true) : ∃ v, x = some v := by
  cases x with
  | none => cases h
  | some v => exact ⟨v, rfl⟩

/-- The order of a settled intent takes the reserved ordinal and the transaction. -/
theorem confirmReserved_passes (hinv : Inv cfg l.core) (o : Order)
    (now : Time) (hi : l.intents.get iid = some i) (hst : i.state = .settled) (htx : i.txHash = some tx)
    (hun : Unproven l i) :
    orderRefuses l.orders i.orderId o (o.confirmReserved i.reservedOrdinal tx now) = none := by
  have hpos := (hinv.intents.price iid i hi).2
  have hclashTx : l.orders.clash i.orderId (fun r => r.txHash) o (o.confirmReserved i.reservedOrdinal tx now) = false := by
    rw [Table.clash, Bool.and_eq_false_iff]
    right
    rw [taken_eq_false]
    intro k r x hr hx hrx
    -- an order with this transaction would have its proof
    obtain ⟨h, p, hp, hptx⟩ := hinv.paid k r x hr hrx
    cases hx
    exact absurd (hptx.trans htx.symm) (hun.2 h p hp)
  have hclashSale : l.orders.clash i.orderId (fun r => r.saleOrdinal) o
      (o.confirmReserved i.reservedOrdinal tx now) = false := by
    rw [Table.clash, Bool.and_eq_false_iff]
    right
    rw [taken_eq_false]
    intro k r x hr hx hrx
    cases hx
    have hholds : i.state.holds = true := by rw [hst]; rfl
    exact absurd rfl (hinv.ordinals.apart k r i.reservedOrdinal iid i hr hrx hi hholds)
  have hzero : i.reservedOrdinal ≠ 0 := by omega
  apply firstBad_eq_none
  simp only [List.forall_mem_cons, hclashTx, hclashSale, true_and, List.not_mem_nil, false_implies,
    implies_true, and_true]
  exact ⟨clash_same rfl, by simp [Order.confirmReserved, hzero]⟩

/-- The finalized intent behind an outbox row is not this settled one. -/
theorem row_of_another (hinv : Inv cfg l.core) (hi : l.intents.get iid = some i)
    (hst : i.state = .settled) {oid : String} {e : Entitlement} (he : l.entitlements.get oid = some e) :
    oid ≠ i.orderId ∧ e.payload.proofHash ≠ i.proofHash ∧ some e.payload.txHash ≠ i.txHash ∧
      some e.payload.evidenceHash ≠ i.evidenceHash := by
  obtain ⟨-, -, o, iid', j, q, -, hj, hjo, hjst, hproof, htx, hev, -⟩ := hinv.outbox oid e he
  have hne : iid' ≠ iid := by
    rintro rfl
    have hsame : some i = some j := hi.symm.trans hj
    cases hsame
    rw [hst] at hjst
    cases hjst
  obtain ⟨tx, hitx⟩ := isSome_of_truthy ((hinv.intents.evidence iid i hi).paid (.inl hst)).1
  obtain ⟨ev, hiev⟩ := isSome_of_truthy ((hinv.intents.evidence iid i hi).paid (.inl hst)).2.1
  refine ⟨?_, ?_, ?_, ?_⟩
  · intro h
    exact hne (hinv.intents.orderIds iid' iid j i _ hj hi rfl (congrArg some (h.symm.trans hjo.symm)))
  · intro h
    exact hne (hinv.intents.proofs iid' iid j i _ hj hi rfl (congrArg some (h.symm.trans hproof.symm)))
  · intro h
    exact hne (hinv.intents.txs iid' iid j i tx hj hi (htx.trans (h.trans hitx)) hitx)
  · intro h
    exact hne (hinv.intents.evidences iid' iid j i ev hj hi (hev.trans (h.trans hiev)) hiev)

theorem insertEntitlement_succeeds (hinv : Inv cfg l.core) (hsrc : SourceIdsDiffer cfg l)
    {evidenceHash : String} (payer : String) (now : Time) {m : Ledger}
    (hi : l.intents.get iid = some i) (hst : i.state = .settled) (htx : i.txHash = some tx)
    (hev : i.evidenceHash = some evidenceHash) (hrows : m.entitlements = l.entitlements)
    (ho : (m.orders.get i.orderId).isSome = true) :
    ∃ t, insertEntitlement (newEntitlement cfg i tx evidenceHash payer now) m =
      .ok { m with entitlements := t } := by
  have hother := fun oid e (he : l.entitlements.get oid = some e) => row_of_another hinv hi hst he
  have hkey : m.entitlements.get i.orderId = none := by
    rw [hrows]
    cases hc : l.entitlements.get i.orderId with
    | none => rfl
    | some e => exact absurd rfl (hother i.orderId e hc).1
  have hproof : m.entitlements.taken i.orderId (fun r => some r.payload.proofHash) (some i.proofHash) = false := by
    rw [hrows, taken_eq_false]
    intro k e x he hx hex
    cases hx
    exact absurd (Option.some.inj hex) (hother k e he).2.1
  have htaken : m.entitlements.taken i.orderId (fun r => some r.payload.txHash) (some tx) = false := by
    rw [hrows, taken_eq_false]
    intro k e x he hx hex
    cases hx
    exact absurd (hex.trans htx.symm) (hother k e he).2.2.1
  have hevidence : m.entitlements.taken i.orderId (fun r => some r.payload.evidenceHash) (some evidenceHash) = false := by
    rw [hrows, taken_eq_false]
    intro k e x he hx hex
    cases hx
    exact absurd (hex.trans hev.symm) (hother k e he).2.2.2
  have hsource : m.entitlements.taken i.orderId (fun r => some (r.payload.source, r.payload.sourceId))
      (some ("x402", sourceId cfg i.orderId)) = false := by
    rw [hrows, taken_eq_false]
    intro k e x he hx hex
    cases hx
    obtain ⟨hwf, ⟨o, ho', -⟩, -⟩ := hinv.outbox k e he
    obtain ⟨o'', ho'', -⟩ := hinv.intents.order iid i hi
    have hk : e.payload.orderId = k := (Table.get_eq_some.mp he).2
    have hsid : sourceId cfg k = sourceId cfg i.orderId := by
      have h := congrArg Prod.snd (Option.some.inj hex)
      rw [← hk, ← hwf.source.2]
      exact h
    refine hsrc k i.orderId ?_ ?_ hsid
    · show (l.core.orders.get k).isSome = true
      rw [ho']
      rfl
    · show (l.core.orders.get i.orderId).isSome = true
      rw [ho'']
      rfl
  have hamount : ¬ i.amountMinor ≤ 0 := by
    rw [(hinv.intents.price iid i hi).1]
    exact not_le.mpr (amountFor_pos _ _)
  have hbad : newEntitlementRefuses (newEntitlement cfg i tx evidenceHash payer now) m = none := by
    apply firstBad_eq_none
    simp [newEntitlement, hproof, htaken, hevidence, hsource, hamount, ho]
  obtain ⟨t, ht⟩ := insertChecked_succeeds (r := newEntitlement cfg i tx evidenceHash payer now) hbad hkey
  refine ⟨t, ?_⟩
  unfold insertEntitlement
  rw [ht]

theorem bind_succeeds {α β : Type} {x : Except Err α} {f : α → Except Err β} {a : α}
    (hx : x = .ok a) (hf : ∃ b, f a = .ok b) : ∃ b, (x >>= f) = .ok b := by
  rw [hx]
  exact hf

theorem issueReserved_succeeds (hinv : Inv cfg l.core) (hsrc : SourceIdsDiffer cfg l)
    (clk : Nat → Time) (now : Time) (actor : String) (hi : l.intents.get iid = some i)
    (hst : i.state = .settled) (htx : i.txHash = some tx) (hun : Unproven l i) :
    ∃ m, issueReserved cfg clk i tx now actor l = .ok m := by
  obtain ⟨o, ho, -⟩ := hinv.intents.order iid i hi
  replace ho : l.orders.get i.orderId = some o := ho
  obtain ⟨-, hpev, hpver, hpayer⟩ := (hinv.intents.evidence iid i hi).paid (.inl hst)
  obtain ⟨evidenceHash, hev⟩ := isSome_of_truthy hpev
  obtain ⟨payer, hver⟩ := isSome_of_truthy hpver
  have hbound := (hinv.intents.evidence iid i hi).bound (by rw [hst]; rfl)
  have hkey : i.intentId = iid := get_key hi
  -- payment_proofs
  have hfree : l.proofs.taken i.proofHash (fun r => r.txHash) (some tx) = false := by
    rw [taken_eq_false]
    intro k p x hp hx hpx
    cases hx
    exact absurd (hpx.trans htx.symm) (hun.2 k p hp)
  obtain ⟨tp, hp⟩ := insertProof_succeeds (p := ⟨i.proofHash, .x402, i.orderId, some tx, now⟩) hun.1 hfree
    (by rw [ho]; rfl)
  -- orders
  have hconfirm := confirmReserved_passes hinv o now hi hst htx hun
  have hthere : ((l.orders.modify i.orderId (Order.confirmReserved i.reservedOrdinal tx now)
      Order.confirmReserved_id).get i.orderId).isSome = true := by
    rw [get_modify_self Order.confirmReserved_id ho]
    rfl
  -- settlement_intents
  have hstate : intentRefuses l.intents i.intentId i (i.withState .finalizedPaid now) = none := by
    apply withState_passes
    · intro _
      rw [hev, hbound]
      exact ⟨rfl, rfl⟩
    · exact .inr ⟨hst, rfl⟩
    · rw [hst]
      exact ⟨by decide, by decide⟩
  -- entitlement_outbox, over the ledger the first two statements leave
  have henqueue := fun m (hrows : m.entitlements = l.entitlements) ho' =>
    insertEntitlement_succeeds hinv hsrc payer now (m := m) hi hst htx hev hrows ho'
  obtain ⟨te, he⟩ := henqueue (audit cfg (clk 1) actor "payment.confirmed" i.orderId
    [("ordinal", .int i.reservedOrdinal)] { l with
      proofs := tp, orders := l.orders.modify i.orderId (Order.confirmReserved i.reservedOrdinal tx now)
        Order.confirmReserved_id }) rfl hthere
  refine bind_succeeds hp (bind_succeeds (updateOrder_succeeds ho hconfirm) ?_)
  rw [hev, hpayer, hver]
  exact bind_succeeds he (bind_succeeds (updateIntent_succeeds (hkey ▸ hi) hstate) ⟨_, rfl⟩)

/-- In a ledger that keeps its invariant, a settled intent can be finalized when its proof
and its transaction are not in `payment_proofs`. -/
theorem finalizeX402Intent_succeeds (clk : Nat → Time) (hinv : Inv cfg l.core) (hsrc : SourceIdsDiffer cfg l)
    (hi : l.intents.get iid = some i) (hst : i.state = .settled) (hun : Unproven l i) :
    ∃ m a, finalizeX402Intent cfg clk iid l = .commit m a := by
  obtain ⟨htruthy, hevidence, -⟩ := (hinv.intents.evidence iid i hi).paid (.inl hst)
  obtain ⟨tx, htx⟩ := isSome_of_truthy htruthy
  have hbound := (hinv.intents.evidence iid i hi).bound (by rw [hst]; rfl)
  obtain ⟨m, hm⟩ := issueReserved_succeeds hinv hsrc clk (clk 0) "x402.finalize" hi hst htx hun
  refine ⟨m, m.orders.get i.orderId, ?_⟩
  unfold finalizeX402Intent
  simp only [hi]
  rw [if_neg, if_neg, if_neg, htx, Option.getD_some, hm]
  · rfl
  · rw [hst]
    decide
  · rw [hbound, Option.getD_some, not_not, storedBinding, hst]
    rfl
  · rw [hst, htruthy, hevidence]
    decide

/-- Otherwise it raises. -/
theorem finalizeX402Intent_raises (cfg : Config) (clk : Nat → Time)
    (hi : l.intents.get iid = some i) (hst : i.state = .settled) (hun : ¬ Unproven l i) :
    ∃ e, finalizeX402Intent cfg clk iid l = .raise e := by
  unfold finalizeX402Intent
  simp only [hi]
  split
  · exact ⟨_, rfl⟩
  · rename_i hguard
    split
    · exact ⟨_, rfl⟩
    · split
      · rename_i hfin
        rw [hst] at hfin
        cases hfin
      · have htx : truthy i.txHash = true := by
          cases hc : truthy i.txHash with
          | true => rfl
          | false => exact absurd (.inr (.inl hc)) hguard
        obtain ⟨tx, htx⟩ := isSome_of_truthy htx
        have hrefused : ∃ e, insertProof ⟨i.proofHash, .x402, i.orderId, some tx, clk 0⟩ l = .error e := by
          apply insertProof_fails
          by_cases hkey : l.proofs.get i.proofHash = none
          · right
            by_contra hnone
            refine hun ⟨hkey, ?_⟩
            intro h p hp hptx
            exact hnone ⟨h, p, tx, hp, hptx.trans htx, rfl⟩
          · exact .inl hkey
        obtain ⟨e, he⟩ := hrefused
        refine ⟨e, ?_⟩
        rw [htx, Option.getD_some, issueReserved, he]
        rfl

end GrowthMap.Payments
