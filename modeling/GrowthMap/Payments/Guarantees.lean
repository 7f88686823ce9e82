import Mathlib.Order.Interval.Finset.Nat
import GrowthMap.Payments.Reachable

/- What the sales ledger promises in every reachable state: a license delivered for a
   reversed order is queued for revocation, ordinals are exclusive and fix the price, and a
   sale through an intent rests on one authenticated piece of evidence. Each is read off
   the groups of `Inv`. -/
namespace GrowthMap.Payments

open Relational Transaction Runs LeastFree Table

variable {cfg : Config} {P : String → Prop} {c c' : Core}

/-! Revocations -/

theorem reversed_iff {st : OrderState} : st.reversed = true ↔ st = .refunded ∨ st = .revoked := by
  cases st <;> simp [OrderState.reversed]

/-- The revocation of a delivered license whose order is reversed is queued, is the only
one of its order, and names the license, the payload and the kind of reversal; no order
that is not reversed has one. -/
theorem reversed_delivery_is_revoked {s : Sys} (hs : Reachable (step cfg) (initial cfg) s) :
    (∀ oid e license o, s.ledger.entitlements.get oid = some e → e.state = .delivered →
      e.licenseId = some license → s.ledger.orders.get oid = some o →
      o.state = .refunded ∨ o.state = .revoked →
      ∃ r ∈ s.ledger.revocations.rows, r.payload.orderId = oid ∧ r.payload.licenseId = license ∧
        r.payload.entitlementPayloadDigest = payloadDigest cfg e.payload ∧
        r.payload.action = (if o.state = .refunded then .refund else .revoke) ∧
        ∀ r' ∈ s.ledger.revocations.rows, r'.payload.orderId = oid → r' = r) ∧
    ∀ r ∈ s.ledger.revocations.rows, ∃ o, s.ledger.orders.get r.payload.orderId = some o ∧
      (o.state = .refunded ∨ o.state = .revoked) := by
  have hinv := (reachable_inv hs).core.revocations
  constructor
  · intro oid e license o he hst hl ho hrev
    obtain ⟨k, r, hr, horder, hlicense, hdigest, haction⟩ :=
      hinv.owed oid e license o he hst hl ho (reversed_iff.mpr hrev)
    refine ⟨r, Table.get_mem hr, horder, hlicense, hdigest, haction, ?_⟩
    intro r' hr' horder'
    exact hinv.orderIds.rows_eq hr' (Table.get_mem hr) (congrArg some horder') (congrArg some horder)
  · intro r hr
    obtain ⟨o, e, ho, hrev, -⟩ := hinv.grounds _ r (Table.get_of_mem hr)
    exact ⟨o, ho, reversed_iff.mp hrev⟩

namespace Demo

/-- The license of the sale is delivered, then the order is refunded. -/
def revoked : List Event := delivered ++ refund 5

end Demo

theorem refunded_sale_is_revoked :
    ∃ e o r, (Demo.after Demo.revoked).ledger.entitlements.get "o" = some e ∧ e.state = .delivered ∧
      (Demo.after Demo.revoked).ledger.orders.get "o" = some o ∧ o.state = .refunded ∧
      r ∈ (Demo.after Demo.revoked).ledger.revocations.rows ∧ r.payload.licenseId = Demo.license ∧
      r.payload.action = .refund := by
  have h : ((Demo.after Demo.revoked).ledger.entitlements.get "o").any (fun e =>
      decide (e.state = .delivered ∧ e.licenseId = some Demo.license)) = true ∧
      ((Demo.after Demo.revoked).ledger.orders.get "o").any (fun o => decide (o.state = .refunded)) = true := by
    decide +kernel
  obtain ⟨e, he, hdel⟩ := (Option.any_eq_true _ _).mp h.1
  obtain ⟨o, ho, hst⟩ := (Option.any_eq_true _ _).mp h.2
  simp only [decide_eq_true_eq] at hdel hst
  obtain ⟨r, hr, -, hlicense, -, haction, -⟩ :=
    (reversed_delivery_is_revoked (Demo.reachable_after Demo.revoked)).1 "o" e Demo.license o he hdel.1
      hdel.2 ho (.inl hst)
  rw [if_pos hst] at haction
  exact ⟨e, o, r, he, hdel.1, ho, hst, hr, hlicense, haction⟩

/-- The rows of both outboxes only advance, whatever follows: payloads stay, fences do not fall,
and a delivered row does not change. -/
theorem outbox_rows_advance (cfg : Config) (es later : List Event) :
    let c := (run (step cfg) (initial cfg) es).ledger.core
    let c' := (run (step cfg) (initial cfg) (es ++ later)).ledger.core
    (∀ oid e, c.entitlements.get oid = some e → ∃ e', c'.entitlements.get oid = some e' ∧ e'.payload = e.payload ∧
      e.fencingVersion ≤ e'.fencingVersion ∧ (e.phase.crossed = true → e'.phase.crossed = true) ∧
      (e.state = .delivered → e' = e)) ∧
    ∀ k r, c.revocations.get k = some r → ∃ r', c'.revocations.get k = some r' ∧ r'.payload = r.payload ∧
      r.fencingVersion ≤ r'.fencingVersion := by
  intro c c'
  have hlater : c.Later c' := by
    have hinv : SysInv cfg (run (step cfg) (initial cfg) es) := reachable_inv ⟨es, rfl⟩
    have h := run_later hinv later
    rw [← run_append] at h
    exact h
  constructor
  · intro oid e he
    obtain ⟨e', he', h⟩ := hlater.entitlements oid e he
    exact ⟨e', he', h.payload, h.fence, h.crossed, h.delivered⟩
  · intro k r hr
    obtain ⟨r', hr', h⟩ := hlater.revocations k r hr
    exact ⟨r', hr', h.payload, h.fence⟩

/-! Ordinals -/

/-- The order holds the number: as its sale, or through an open intent. -/
def Holds (l : Ledger) (oid : String) (n : Nat) : Prop :=
  (∃ o, l.orders.get oid = some o ∧ o.saleOrdinal = some n) ∨
    ∃ iid i, l.intents.get iid = some i ∧ i.orderId = oid ∧ i.state.holds = true ∧ i.reservedOrdinal = n

def EarlySale (o : Order) : Prop := o.saleOrdinal.isSome = true ∧ o.quotedAmountMinor = early o.rail

instance : DecidablePred EarlySale := fun o => by unfold EarlySale; infer_instance

variable {l : Ledger} {oid k : String}

theorem holds_exclusive (h : Inv cfg l.core) {oid' : String} {n : Nat}
    (h₁ : Holds l oid n) (h₂ : Holds l oid' n) : oid = oid' := by
  rcases h₁ with ⟨o, ho, hn⟩ | ⟨iid, i, hi, rfl, hh, rfl⟩
  · rcases h₂ with ⟨o', ho', hn'⟩ | ⟨iid', i', hi', rfl, hh', rfl⟩
    · exact h.ordinals.sales oid oid' o o' n ho ho' hn hn'
    · exact absurd rfl (h.ordinals.apart oid o _ iid' i' ho hn hi' hh')
  · rcases h₂ with ⟨o', ho', hn'⟩ | ⟨iid', i', hi', rfl, hh', hn'⟩
    · exact absurd rfl (h.ordinals.apart oid' o' _ iid i ho' hn' hi hh)
    · -- two open intents with one ordinal are one intent
      have hactive : ∀ x : Intent, x.state.holds = true → x.activeOrdinal = some x.reservedOrdinal := by
        intro x hx
        unfold Intent.activeOrdinal
        rw [if_neg]
        intro hc
        rw [hc] at hx
        cases hx
      have hsame : i = i' := h.intents.ordinals.rows_eq (get_mem hi) (get_mem hi')
        (hactive i hh) (by rw [hactive i' hh', hn'])
      rw [hsame]

theorem holds_positive (h : Inv cfg l.core) {n : Nat} (hn : Holds l oid n) :
    0 < n := by
  rcases hn with ⟨o, ho, hn⟩ | ⟨iid, i, hi, -, -, rfl⟩
  · exact (h.ordinals.price oid o n ho hn).1
  · exact (h.intents.price iid i hi).2

theorem early_ne_regular (r : Rail) : early r ≠ regular r := by cases r <;> decide

theorem earlySale_ordinal (h : Inv cfg l.core) {o : Order} (ho : o ∈ l.orders.rows)
    (hearly : EarlySale o) : ∃ n, o.saleOrdinal = some n ∧ 1 ≤ n ∧ n ≤ earlyLimit := by
  obtain ⟨hsale, hprice⟩ := hearly
  obtain ⟨n, hn⟩ := Option.isSome_iff_exists.mp hsale
  obtain ⟨hpos, hquoted⟩ := h.ordinals.price o.id o n (get_of_mem ho) hn
  refine ⟨n, hn, hpos, ?_⟩
  by_contra hlarge
  rw [hquoted, amountFor, if_neg hlarge] at hprice
  exact early_ne_regular o.rail hprice.symm

/-- Counting: distinct numbers in 1..50. -/
theorem earlySales_le (h : Inv cfg l.core) :
    (l.orders.rows.filter (fun o => decide (EarlySale o))).length ≤ earlyLimit := by
  let sales := l.orders.rows.filter (fun o => decide (EarlySale o))
  let numbers := sales.map (fun o => o.saleOrdinal.getD 0)
  have hsales : ∀ o ∈ sales, ∃ n, o.saleOrdinal = some n ∧ 1 ≤ n ∧ n ≤ earlyLimit := by
    intro o ho
    obtain ⟨hmem, hearly⟩ := List.mem_filter.mp ho
    exact earlySale_ordinal h hmem (of_decide_eq_true hearly)
  have hnodup : numbers.Nodup := by
    refine List.Nodup.map_on ?_ ((List.Nodup.of_map _ l.orders.distinct).filter _)
    intro o ho o' ho' heq
    obtain ⟨n, hn, -⟩ := hsales o ho
    obtain ⟨n', hn', -⟩ := hsales o' ho'
    have hsame : n = n' := by simpa [hn, hn'] using heq
    subst hsame
    exact h.ordinals.sales.rows_eq (List.mem_filter.mp ho).1 (List.mem_filter.mp ho').1 hn hn'
  have hsub : numbers.toFinset ⊆ Finset.Icc 1 earlyLimit := by
    intro n hn
    obtain ⟨o, ho, rfl⟩ := List.mem_map.mp (List.mem_toFinset.mp hn)
    obtain ⟨n, hn, h1, h2⟩ := hsales o ho
    rw [hn, Finset.mem_Icc]
    exact ⟨h1, h2⟩
  calc sales.length = numbers.length := (List.length_map _).symm
    _ = numbers.toFinset.card := (List.toFinset_card_of_nodup hnodup).symm
    _ ≤ (Finset.Icc 1 earlyLimit).card := Finset.card_le_card hsub
    _ = earlyLimit := by simp

theorem kept_sale {orders : Orders} {k' : String} {o : Order} {f : Order → Order}
    (hf : ∀ r, (f r).id = r.id) (ho : orders.get k = some o) (hsale : EarlySale o)
    (hkeep : ∀ x, (x.saleOrdinal.isSome = true → (f x).saleOrdinal.isSome = true) ∧ (f x).rail = x.rail ∧
      (f x).quotedAmountMinor = x.quotedAmountMinor) :
    ∃ o', (orders.modify k' f hf).get k = some o' ∧ EarlySale o' := by
  obtain ⟨o', ho', rfl | ⟨-, rfl⟩⟩ := get_modify_exists k' f hf ho
  · exact ⟨o', ho', hsale⟩
  · obtain ⟨h1, h2, h3⟩ := hkeep o
    refine ⟨f o, ho', h1 hsale.1, ?_⟩
    rw [h3, h2]
    exact hsale.2

theorem move_keeps_sale (hm : Move cfg P c c')
    (h : ∃ o, c.orders.get k = some o ∧ EarlySale o) : ∃ o, c'.orders.get k = some o ∧ EarlySale o := by
  obtain ⟨o, ho, hsale⟩ := h
  cases hm with
  | create x t hi => exact ⟨o, get_insert_old hi ho, hsale⟩
  | reserve => exact ⟨o, ho, hsale⟩
  | settle => exact ⟨o, ho, hsale⟩
  | turn => exact ⟨o, ho, hsale⟩
  | compensate => exact ⟨o, ho, hsale⟩
  | revocation => exact ⟨o, ho, hsale⟩
  | finalize => exact kept_sale Order.confirmReserved_id ho hsale (fun _ => ⟨fun _ => rfl, rfl, rfl⟩)
  | confirm => exact kept_sale Order.confirmDirect_id ho hsale (fun _ => ⟨fun _ => rfl, rfl, rfl⟩)
  | issue => exact kept_sale Order.issue_id ho hsale (fun _ => ⟨id, rfl, rfl⟩)
  | payerRef => exact kept_sale Order.withPayerRef_id ho hsale (fun _ => ⟨id, rfl, rfl⟩)
  | _ => exact kept_sale Order.withState_id ho hsale (fun _ => ⟨id, rfl, rfl⟩)

theorem moves_keep_sale (hm : Moves cfg P c c')
    (h : ∃ o, c.orders.get k = some o ∧ EarlySale o) : ∃ o, c'.orders.get k = some o ∧ EarlySale o := by
  induction hm with
  | refl => exact h
  | tail _ hlast ih => exact move_keeps_sale hlast ih

theorem run_keeps_sale {s : Sys} (hs : SysInv cfg s) (es : List Event)
    (h : ∃ o, s.ledger.orders.get k = some o ∧ EarlySale o) :
    ∃ o, (run (step cfg) s es).ledger.orders.get k = some o ∧ EarlySale o := by
  induction es generalizing s with
  | nil => exact h
  | cons e es ih => exact ih (step_inv hs e) (moves_keep_sale (step_moves hs e) h)

/-- Ordinals held are positive and belong to one order, the search for a free one
succeeds, a sale's number fixes its price, and at most fifty sales carry the early price;
since no run takes one back, no more than fifty ever do. -/
theorem ordinals_are_exclusive {s : Sys} (hs : Reachable (step cfg) (initial cfg) s) :
    (∀ oid n, Holds s.ledger oid n → 0 < n ∧ ∀ oid', Holds s.ledger oid' n → oid' = oid) ∧
    (∃ n, leastFree (occupied s.ledger) = some n ∧ 0 < n ∧ ∀ oid, ¬ Holds s.ledger oid n) ∧
    (∀ oid o n, s.ledger.orders.get oid = some o → o.saleOrdinal = some n →
      o.quotedAmountMinor = if n ≤ 50 then early o.rail else regular o.rail) ∧
    (s.ledger.orders.rows.filter (fun o => decide (EarlySale o))).length ≤ 50 ∧
    ∀ es oid, (∃ o, s.ledger.orders.get oid = some o ∧ EarlySale o) →
      ∃ o, (run (step cfg) s es).ledger.orders.get oid = some o ∧ EarlySale o := by
  have hinv := (reachable_inv hs).core
  refine ⟨?_, ?_, ?_, earlySales_le hinv, ?_⟩
  · intro oid n hn
    exact ⟨holds_positive hinv hn, fun oid' hn' => holds_exclusive hinv hn' hn⟩
  · obtain ⟨n, hn⟩ := leastFree_isSome (occupied s.ledger)
    obtain ⟨hpos, horders, hintents⟩ := leastFree_free hn
    refine ⟨n, hn, hpos, ?_⟩
    rintro oid (⟨o, ho, hsale⟩ | ⟨iid, i, hi, -, hh, hres⟩)
    · exact horders oid o ho hsale
    · exact hintents iid i hi hh hres
  · intro oid o n ho hn
    exact (hinv.ordinals.price oid o n ho hn).2
  · intro es oid h
    exact run_keeps_sale (reachable_inv hs) es h

/-- In the sale of `Demo` the order holds the first number at the early price. -/
theorem sale_holds_first_ordinal :
    Holds (Demo.after Demo.sale).ledger "o" 1 ∧
      (∀ oid, Holds (Demo.after Demo.sale).ledger oid 1 → oid = "o") ∧
      ∃ o, (Demo.after Demo.sale).ledger.orders.get "o" = some o ∧ o.quotedAmountMinor = early o.rail := by
  have h : ((Demo.after Demo.sale).ledger.orders.get "o").any (fun o => decide (o.saleOrdinal = some 1)) = true := by
    decide +kernel
  obtain ⟨o, ho, hsale⟩ := (Option.any_eq_true _ _).mp h
  simp only [decide_eq_true_eq] at hsale
  have hholds : Holds (Demo.after Demo.sale).ledger "o" 1 := .inl ⟨o, ho, hsale⟩
  obtain ⟨hexcl, -, hprice, -⟩ := ordinals_are_exclusive (Demo.reachable_after Demo.sale)
  exact ⟨hholds, (hexcl "o" 1 hholds).2, o, ho, hprice "o" o 1 ho hsale⟩

/-! Evidence -/

/-- A confirmation through an x402 intent: `_issue_reserved` opens the order's outbox row
in the same transaction, and nothing else opens one. -/
def ConfirmedByIntent (l : Ledger) (oid : String) : Prop := ∃ e, l.entitlements.get oid = some e

/-- The evidence a confirmed x402 order rests on. -/
structure RestsOn (cfg : Config) (l : Ledger) (o : Order) (i : Intent) : Prop where
  order : i.orderId = o.id
  state : i.state = .finalizedPaid
  amount : i.amountMinor = o.quotedAmountMinor
  payer : i.settledPayer.isSome = true ∧ i.settledPayer = i.verifiedPayer
  ordinal : o.saleOrdinal = some i.reservedOrdinal
  tx : i.txHash.isSome = true ∧ o.txHash = i.txHash
  proof : ∃ q, l.proofs.get i.proofHash = some q ∧ q.orderId = o.id ∧ q.txHash = i.txHash
  binding : i.evidenceBinding = some (storedBinding cfg i)

theorem truthy_isSome {x : Option String} (h : truthy x = true) : x.isSome = true := by
  cases x with
  | none => cases h
  | some => rfl

/-- An order confirmed or issued through an x402 intent has exactly one finalized intent,
and it carries the order's amount, ordinal and transaction, the payer it was authorized by,
the recorded proof and the binding of its own row; no intent shares a transaction, an
evidence, a proof or a nonce with another. -/
theorem confirmed_sale_rests_on_evidence {s : Sys} (hs : Reachable (step cfg) (initial cfg) s) :
    (∀ oid o, s.ledger.orders.get oid = some o → ConfirmedByIntent s.ledger oid →
      o.state = .paymentConfirmed ∨ o.state = .licenseIssued →
      ∃ i ∈ s.ledger.intents.rows, RestsOn cfg s.ledger o i ∧
        ∀ i' ∈ s.ledger.intents.rows, i'.orderId = oid → i'.state = .finalizedPaid → i' = i) ∧
    ∀ i ∈ s.ledger.intents.rows, ∀ i' ∈ s.ledger.intents.rows,
      (i.txHash.isSome = true ∧ i.txHash = i'.txHash) ∨
        (i.evidenceHash.isSome = true ∧ i.evidenceHash = i'.evidenceHash) ∨
        i.proofHash = i'.proofHash ∨ i.nonceHash = i'.nonceHash → i' = i := by
  have hinv := (reachable_inv hs).core
  constructor
  · intro oid o ho hconf _
    obtain ⟨e, he⟩ := hconf
    obtain ⟨-, -, x, iid, i, q, hx, hi, hoid, hst, -, -, -, hord, htx, hq, hqo, hqtx⟩ := hinv.outbox oid e he
    have hxo : some x = some o := hx.symm.trans ho
    cases hxo
    have hid : o.id = oid := Table.get_key ho
    obtain ⟨y, hy, -, hquoted⟩ := hinv.intents.order iid i hi
    rw [hoid, hx] at hy
    cases hy
    obtain ⟨htxs, -, hver, hpayer⟩ := (hinv.intents.evidence iid i hi).paid (.inr hst)
    have hbound := (hinv.intents.evidence iid i hi).bound (by rw [hst]; rfl)
    refine ⟨i, Table.get_mem hi, ⟨hoid.trans hid.symm, hst, hquoted.symm,
      ⟨by rw [hpayer]; exact truthy_isSome hver, hpayer⟩, hord, ⟨truthy_isSome htxs, htx⟩,
      ⟨q, hq, hqo.trans hid.symm, hqtx⟩, hbound⟩, ?_⟩
    intro i' hi' hoid' _
    exact hinv.intents.orderIds.rows_eq hi' (Table.get_mem hi) (congrArg some hoid') (congrArg some hoid)
  · rintro i hi i' hi' (⟨hsome, heq⟩ | ⟨hsome, heq⟩ | heq | heq)
    · obtain ⟨tx, htx⟩ := Option.isSome_iff_exists.mp hsome
      exact hinv.intents.txs.rows_eq hi' hi (heq ▸ htx) htx
    · obtain ⟨ev, hev⟩ := Option.isSome_iff_exists.mp hsome
      exact hinv.intents.evidences.rows_eq hi' hi (heq ▸ hev) hev
    · exact hinv.intents.proofs.rows_eq hi' hi (congrArg some heq.symm) rfl
    · exact hinv.intents.nonces.rows_eq hi' hi (congrArg some heq.symm) rfl

theorem sale_rests_on_intent :
    ∃ o i, (Demo.after Demo.sale).ledger.orders.get "o" = some o ∧ o.state = .paymentConfirmed ∧
      i ∈ (Demo.after Demo.sale).ledger.intents.rows ∧
      RestsOn Demo.config (Demo.after Demo.sale).ledger o i := by
  have h : ((Demo.after Demo.sale).ledger.orders.get "o").any
      (fun o => decide (o.state = .paymentConfirmed)) = true ∧
      ((Demo.after Demo.sale).ledger.entitlements.get "o").isSome = true := by
    decide +kernel
  obtain ⟨o, ho, hst⟩ := (Option.any_eq_true _ _).mp h.1
  simp only [decide_eq_true_eq] at hst
  obtain ⟨i, hi, hrests, -⟩ := (confirmed_sale_rests_on_evidence (Demo.reachable_after Demo.sale)).1
    "o" o ho (Option.isSome_iff_exists.mp h.2) (.inl hst)
  exact ⟨o, i, ho, hst, hi, hrests⟩

end GrowthMap.Payments
