import Mathlib.Data.Set.Card
import GrowthMap.Payments.Guarantees
import GrowthMap.Payments.Restart

/- The price of a number.

   `create_order` quotes the early price while fewer than fifty numbers are held; the
   reservation and the confirmation take the least free number and price that. The two
   decide alike unless at least fifty numbers are held and one of the first fifty is free
   (`quotedAmount_iff`). What the three operations return, by that price. -/
namespace GrowthMap.Payments

open Relational Transaction LeastFree Runs Table

variable {cfg : Config} {l : Ledger}

/-! Held numbers -/

def Held (l : Ledger) (n : Nat) : Prop := ∃ oid, Holds l oid n

/-- Fewer numbers are held than there are early sales, or all of theirs are. -/
def NoEarlyGap (l : Ledger) : Prop :=
  Set.ncard {n | Held l n} < earlyLimit ∨ ∀ n, 0 < n → n ≤ earlyLimit → Held l n

variable {n : Nat} {i : Intent} {oid iid proofId nonce tx : String} {m : Ledger} {o : Order}

theorem mem_occupied : n ∈ occupied l ↔ Held l n := by
  simp only [occupied, List.mem_append, List.mem_filterMap, List.mem_map, List.mem_filter, Held, Holds]
  constructor
  · rintro (⟨o, ho, hn⟩ | ⟨i, ⟨hi, hh⟩, hn⟩)
    · exact ⟨o.id, .inl ⟨o, get_of_mem ho, hn⟩⟩
    · exact ⟨i.orderId, .inr ⟨i.intentId, i, get_of_mem hi, rfl, hh, hn⟩⟩
  · rintro ⟨oid, ⟨o, ho, hn⟩ | ⟨iid, i, hi, -, hh, hn⟩⟩
    · exact .inl ⟨o, get_mem ho, hn⟩
    · exact .inr ⟨i, ⟨get_mem hi, hh⟩, hn⟩

theorem activeOrdinal_of_holds (h : i.state.holds = true) :
    i.activeOrdinal = some i.reservedOrdinal := by
  unfold Intent.activeOrdinal
  rw [if_neg]
  intro hst
  rw [hst] at h
  cases h

theorem occupied_nodup (hinv : Inv cfg l.core) : (occupied l).Nodup := by
  unfold occupied
  rw [List.nodup_append]
  refine ⟨hinv.ordinals.sales.nodup_filterMap, ?_, ?_⟩
  · -- open intents
    refine List.Nodup.map_on ?_ ((List.Nodup.of_map _ l.intents.distinct).filter _)
    intro i hi j hj heq
    obtain ⟨hi, hhi⟩ := List.mem_filter.mp hi
    obtain ⟨hj, hhj⟩ := List.mem_filter.mp hj
    refine hinv.intents.ordinals.rows_eq hi hj (activeOrdinal_of_holds hhi) ?_
    rw [activeOrdinal_of_holds hhj, heq]
  · -- a sale against an open intent
    intro n hn k hk heq
    obtain ⟨o, ho, hon⟩ := List.mem_filterMap.mp hn
    obtain ⟨i, hi, rfl⟩ := List.mem_map.mp hk
    obtain ⟨hi, hhi⟩ := List.mem_filter.mp hi
    exact hinv.ordinals.apart o.id o n i.intentId i (get_of_mem ho) hon (get_of_mem hi) hhi heq.symm

/-- The count of `create_order` is the number of numbers held. -/
theorem allocated_eq_length : allocated l = (occupied l).length := by
  unfold allocated occupied
  rw [List.length_append, List.length_map, List.length_filterMap_eq_countP, List.countP_eq_length_filter]

theorem ncard_held (hinv : Inv cfg l.core) : Set.ncard {n | Held l n} = allocated l := by
  have hset : {n | Held l n} = ((occupied l).toFinset : Set Nat) := by
    ext n
    simp [mem_occupied]
  rw [hset, Set.ncard_coe_finset, List.toFinset_card_of_nodup (occupied_nodup hinv), allocated_eq_length]

def quotedAmount (l : Ledger) (rail : Rail) : Int :=
  if decide (allocated l < earlyLimit) then early rail else regular rail

theorem quotedAmount_iff (hinv : Inv cfg l.core) (rail : Rail) (h : leastFree (occupied l) = some n) :
    quotedAmount l rail = amountFor rail n ↔ NoEarlyGap l := by
  have hagree := count_agrees_iff (occupied_nodup hinv) h earlyLimit
  simp only [mem_occupied] at hagree
  unfold NoEarlyGap
  rw [ncard_held hinv, allocated_eq_length, ← hagree]
  have hne := early_ne_regular rail
  unfold quotedAmount amountFor
  rw [allocated_eq_length]
  by_cases h1 : (occupied l).length < earlyLimit <;> by_cases h2 : n ≤ earlyLimit <;>
    simp [h1, h2, hne, hne.symm]

/-! Finalized intents

The index `active_intent_ordinal` covers finalized intents too; their numbers are taken
because their orders hold them. -/

def FinalizedSales (orders : Orders) (intents : Intents) : Prop :=
  ∀ k i, intents.get k = some i → i.state = .finalizedPaid →
    ∃ o, orders.get i.orderId = some o ∧ o.saleOrdinal = some i.reservedOrdinal ∧ o.state ≠ .pendingPayment

section

variable {orders : Orders} {intents : Intents} {P : String → Prop} {c c' : Core} {k : String}

theorem FinalizedSales.modifyOrder (h : FinalizedSales orders intents) {f : Order → Order}
    (hf : ∀ r, (f r).id = r.id) (hkeep : ∀ o, orders.get k = some o → o.state ≠ .pendingPayment →
      (f o).saleOrdinal = o.saleOrdinal ∧ (f o).state ≠ .pendingPayment) :
    FinalizedSales (orders.modify k f hf) intents := by
  intro k' i hi hst
  obtain ⟨o, ho, hsale, hpaid⟩ := h k' i hi hst
  obtain ⟨o', ho', rfl | ⟨rfl, rfl⟩⟩ := get_modify_exists k f hf ho
  · exact ⟨o', ho', hsale, hpaid⟩
  · obtain ⟨h1, h2⟩ := hkeep o ho hpaid
    exact ⟨f o, ho', h1.trans hsale, h2⟩

theorem FinalizedSales.setState (h : FinalizedSales orders intents) {st : OrderState} {now : Time}
    (hst : st ≠ .pendingPayment) :
    FinalizedSales (orders.modify k (Order.withState st now) Order.withState_id) intents :=
  h.modifyOrder Order.withState_id (fun _ _ _ => ⟨rfl, hst⟩)

theorem FinalizedSales.modifyIntent (h : FinalizedSales orders intents) {f : Intent → Intent}
    (hf : ∀ r, (f r).intentId = r.intentId) (hst : ∀ i, intents.get k = some i → (f i).state ≠ .finalizedPaid) :
    FinalizedSales orders (intents.modify k f hf) := by
  intro k' i hi hpaid
  rcases get_modify_cases hf hi with ⟨rfl, x, hx, rfl⟩ | ⟨-, hx⟩
  · exact absurd hpaid (hst x hx)
  · exact h k' i hx hpaid

theorem move_finalizedSales (hinv : Inv cfg c) (h : FinalizedSales c.orders c.intents) (hm : Move cfg P c c') :
    FinalizedSales c'.orders c'.intents := by
  cases hm with
  | create o t hi =>
    intro k i hget hst
    obtain ⟨x, hx, hrest⟩ := h k i hget hst
    exact ⟨x, get_insert_old hi hx, hrest⟩
  | review => exact h.setState (by decide)
  | reject => exact h.setState (by decide)
  | payerRef => exact h.modifyOrder Order.withPayerRef_id (fun _ _ hst => ⟨rfl, hst⟩)
  | reserve i t o hi ho hrail hquoted hamount hpos hfree hst =>
    intro k x hx hpaid
    rcases get_insert_cases hi hx with ⟨-, rfl⟩ | hx
    · rw [hst] at hpaid
      cases hpaid
    · exact h k x hx hpaid
  | settle =>
    exact h.modifyIntent Intent.settle_intentId (fun _ _ => by simp [Intent.settle])
  | ambiguate =>
    exact (h.modifyIntent Intent.withState_intentId (fun _ _ => by simp [Intent.withState])).setState (by decide)
  | reviewAgain => exact h.setState (by decide)
  | cancel =>
    exact (h.modifyIntent Intent.cancel_intentId (fun _ _ => by simp [Intent.cancel])).setState (by decide)
  | finalize iid i o tx evidenceHash payer now tp te hi hst htx hev ho =>
    intro k x hx hpaid
    rcases get_modify_cases Intent.withState_intentId hx with ⟨rfl, y, hy, rfl⟩ | ⟨hne, hx⟩
    · rw [hi] at hy
      cases hy
      exact ⟨_, get_modify_self Order.confirmReserved_id ho, rfl, by simp [Order.confirmReserved]⟩
    · obtain ⟨z, hz, hsale, hnot⟩ := h k x hx hpaid
      -- one order has one intent
      have hother : x.orderId ≠ i.orderId := by
        intro heq
        exact hne (hinv.intents.orderIds k iid x i _ hx hi rfl (by rw [heq]))
      exact ⟨z, by rw [get_modify_ne Order.confirmReserved_id hother, hz], hsale, hnot⟩
  | confirm k o ordinal payerRef txHash now p tp ho hst =>
    refine h.modifyOrder Order.confirmDirect_id (fun x hx hnot => ?_)
    rw [ho] at hx
    cases hx
    exact absurd hst hnot
  | turn => exact h
  | issue =>
    exact h.modifyOrder Order.issue_id (fun _ _ _ => ⟨rfl, by simp [Order.issue]⟩)
  | compensate => exact h
  | reverseBare k st now o ho hlive hst => exact h.setState (fun hp => by rw [hp] at hst; cases hst)
  | reverseFenced k st now retryAt hash o e ho hlive hst =>
    exact h.setState (fun hp => by rw [hp] at hst; cases hst)
  | reverseDelivered k st now o e license r t ho hlive hst =>
    exact h.setState (fun hp => by rw [hp] at hst; cases hst)
  | revocation => exact h

theorem moves_finalizedSales (hinv : Inv cfg c) (h : FinalizedSales c.orders c.intents) (hm : Moves cfg P c c') :
    FinalizedSales c'.orders c'.intents := by
  induction hm with
  | refl => exact h
  | tail hfirst hlast ih => exact move_finalizedSales (moves_inv hinv hfirst) ih hlast

end

theorem reachable_finalizedSales {s : Sys} (hs : Reachable (step cfg) (initial cfg) s) :
    FinalizedSales s.ledger.orders s.ledger.intents := by
  have hboth : SysInv cfg s ∧ FinalizedSales s.ledger.core.orders s.ledger.core.intents := by
    refine hs.invariant (fun s => SysInv cfg s ∧ FinalizedSales s.ledger.core.orders s.ledger.core.intents)
      ⟨initial_inv cfg, fun k i hi => (by cases hi)⟩ ?_
    rintro s e ⟨hinv, h⟩
    exact ⟨step_inv hinv e, moves_finalizedSales hinv.core h (step_moves hinv e)⟩
  exact hboth.2

/-! create_order -/

/-- A transaction that returns has left its contents, or committed and published. -/
theorem Ended.returned {α : Type} {body : Body α} {w w' : World} {a : α} (h : Ended cfg body w (.ok a) w') :
    (body w.conn.committed = .leave a ∧ w' = w) ∨
      ∃ m, body w.conn.committed = .commit m a ∧ w' = w.published cfg m := by
  generalize hr : (Except.ok a : Except Err α) = r at h
  cases h with
  | refused => cases hr
  | left b ht hb =>
    cases hr
    exact .inl ⟨hb, rfl⟩
  | raised => cases hr
  | published m r ht hb =>
    refine .inr ⟨m, ?_, rfl⟩
    cases hv : body w.conn.committed with
    | commit =>
      rw [hv] at hb
      cases hb
      cases hr
      rfl
    | commitRaise =>
      rw [hv] at hb
      cases hb
      cases hr
    | leave b | raise e =>
      rw [hv] at hb
      cases hb
  | lost => cases hr

/-- The order a quote stands for. -/
structure Quoted (l : Ledger) (r : Rail) (t : Time) (o : Order) : Prop where
  rail : o.rail = r
  state : o.state = .pendingPayment
  amount : o.quotedAmountMinor = quotedAmount l r
  expires : o.quoteExpiresAt = t
  unsold : o.saleOrdinal = none

theorem createOrder_ok {clk : Nat → Time} {recovery email name : String} {rail : Rail}
    {q : Quote} (h : createOrder cfg clk oid recovery rail email name l = .commit m q) :
    q.orderId = oid ∧ q.amountMinor = quotedAmount l rail ∧
      ∃ o t, Quoted l rail q.quoteExpiresAt o ∧ o.id = oid ∧ l.orders.insert o = some t ∧
        m.core = { l.core with orders := t } ∧ m.externalEvents = l.externalEvents := by
  unfold createOrder at h
  split at h
  · cases h
  · simp only [orRaise] at h
    split at h
    · cases h
    · rename_i l' hi
      obtain ⟨t, ht, rfl⟩ := insertOrder_ok hi
      cases h
      exact ⟨rfl, rfl, _, t, ⟨rfl, rfl, rfl, rfl, rfl⟩, rfl, ht, rfl, rfl⟩

theorem occupied_insert {t : Orders} (ht : l.orders.insert o = some t)
    (hcore : m.core = { l.core with orders := t }) (hsale : o.saleOrdinal = none) : occupied m = occupied l := by
  have ho : m.orders = t := congrArg Core.orders hcore
  have hi : m.intents = l.intents := congrArg Core.intents hcore
  unfold occupied
  rw [ho, hi, insert_rows ht, List.filterMap_append]
  simp [hsale]

/-! prepare_x402_intent -/

/-- An intent id, a proof and a nonce that no intent has. -/
structure FreshProof (cfg : Config) (l : Ledger) (iid proofId nonce : String) : Prop where
  intent : l.intents.get iid = none
  proof : ∀ k i, l.intents.get k = some i → i.proofHash ≠ cfg.sha256 (.text proofId)
  nonce : ∀ k i, l.intents.get k = some i → i.nonceHash ≠ cfg.sha256 (.text nonce)

theorem FreshProof.of_intents (h : FreshProof cfg l iid proofId nonce)
    (heq : m.intents = l.intents) : FreshProof cfg m iid proofId nonce := by
  obtain ⟨hintent, hproof, hnonce⟩ := h
  rw [← heq] at hintent hproof hnonce
  exact ⟨hintent, hproof, hnonce⟩

theorem free_of_leastFree (hfin : FinalizedSales l.orders l.intents)
    (h : leastFree (occupied l) = some n) :
    ∀ k i, l.intents.get k = some i → i.activeOrdinal ≠ some n := by
  intro k i hi hactive
  obtain ⟨-, hfree⟩ := leastFree_free h
  unfold Intent.activeOrdinal at hactive
  split at hactive
  · cases hactive
  · rename_i hst
    have hn : i.reservedOrdinal = n := Option.some.inj hactive
    cases hh : i.state.holds with
    | true => exact hfree.2 k i hi hh hn
    | false =>
      have hpaid : i.state = .finalizedPaid := by
        cases hs : i.state with
        | finalizedPaid => rfl
        | cancelledUnpaid => exact absurd hs hst
        | prepared | settled | ambiguous => rw [hs] at hh; cases hh
      obtain ⟨o, ho, hsale, -⟩ := hfin k i hi hpaid
      exact hfree.1 i.orderId o ho (by rw [hsale, hn])

/-- A new intent is accepted under a free number. -/
theorem insertIntent_succeeds (hfresh : FreshProof cfg l iid proofId nonce)
    (hid : i.intentId = iid) (hoid : i.orderId = oid) (hproof : i.proofHash = cfg.sha256 (.text proofId))
    (hnonce : i.nonceHash = cfg.sha256 (.text nonce)) (hst : i.state = .prepared) (htx : i.txHash = none)
    (hev : i.evidenceHash = none) (hbind : i.evidenceBinding = none)
    (horder : (l.orders.get oid).isSome = true) (hnone : ∀ k x, l.intents.get k = some x → x.orderId ≠ oid)
    (hfree : ∀ k x, l.intents.get k = some x → x.activeOrdinal ≠ some i.reservedOrdinal) :
    ∃ t, l.intents.insert i = some t ∧ insertIntent i l = .ok { l with intents := t } := by
  have hunique : ∀ {V : Type} [DecidableEq V] (col : Intent → Option V),
      (∀ k x, l.intents.get k = some x → col x = col i → col i = none) →
      l.intents.taken i.intentId col (col i) = false := by
    intro V _ col hcol
    rw [taken_eq_false]
    intro k x v hx hv hxv
    have hno := hcol k x hx (hxv.trans hv.symm)
    rw [hv] at hno
    cases hno
  have hactive : i.activeOrdinal = some i.reservedOrdinal := activeOrdinal_of_holds (by rw [hst]; rfl)
  have hkey : l.intents.get i.intentId = none := by
    rw [hid]
    exact hfresh.intent
  obtain ⟨t, ht⟩ := insert_isSome hkey
  refine ⟨t, ht, ?_⟩
  unfold insertIntent insertChecked
  rw [firstBad_eq_none, ht]
  simp only [List.forall_mem_cons, List.not_mem_nil, false_implies, implies_true, and_true]
  refine ⟨?_, ?_, ?_, ?_, ?_, ?_, ?_, ?_, ?_⟩
  · exact hunique (fun r => some r.orderId) (fun k x hx h => absurd ((Option.some.inj h).trans hoid) (hnone k x hx))
  · exact hunique (fun r => some r.proofHash)
      (fun k x hx h => absurd ((Option.some.inj h).trans hproof) (hfresh.proof k x hx))
  · exact hunique (fun r => some r.nonceHash)
      (fun k x hx h => absurd ((Option.some.inj h).trans hnonce) (hfresh.nonce k x hx))
  · exact hunique (fun r => r.txHash) (fun _ _ _ _ => htx)
  · exact hunique (fun r => r.evidenceHash) (fun _ _ _ _ => hev)
  · exact hunique (fun r => r.evidenceBinding) (fun _ _ _ _ => hbind)
  · exact hunique Intent.activeOrdinal (fun k x hx h => absurd (h.trans hactive) (hfree k x hx))
  · simp [settlementEvidenceRequired, hst, IntentState.terminal]
  · rw [hoid]
    cases ho : l.orders.get oid with
    | none => rw [ho] at horder; cases horder
    | some => rfl

/-- The row `prepare_x402_intent` inserts. -/
def preparedIntent (cfg : Config) (iid oid proofId nonce : String) (amount : Int) (ordinal : Nat)
    (payer : Option String) (now : Time) : Intent :=
  { intentId := iid, orderId := oid, proofHash := cfg.sha256 (.text proofId),
    nonceHash := cfg.sha256 (.text nonce), amountMinor := amount, currency := "USDC",
    reservedOrdinal := ordinal, leaseExpiresAt := now + seconds cfg.intentSeconds, state := .prepared,
    txHash := none, evidenceHash := none, evidenceSource := none, finalityAt := none, reconciledBy := none,
    createdAt := now, updatedAt := now, evidenceBinding := none, verifiedPayer := payer.map lower,
    settledPayer := none, finalityBasis := none }

/-- The reservation of a pending x402 order, by the price of the least free number. -/
theorem prepareX402Intent_cases (clk : Nat → Time) {payer : Option String}
    (hinv : Inv cfg l.core) (hfin : FinalizedSales l.orders l.intents)
    (ho : l.orders.get oid = some o) (hrail : o.rail = .x402) (hst : o.state = .pendingPayment)
    (hnone : ∀ k x, l.intents.get k = some x → x.orderId ≠ oid) (hn : leastFree (occupied l) = some n)
    (hfresh : FreshProof cfg l iid proofId nonce) (hpayer : payer.all (matchesFixed "0x" 40 isHex) = true)
    (htime : clk 0 < o.quoteExpiresAt) :
    (o.quotedAmountMinor = amountFor .x402 n → ∃ m,
      prepareX402Intent cfg clk iid oid proofId nonce o.quotedAmountMinor payer l = .commit m ⟨iid, n⟩ ∧
      m.orders = l.orders ∧
      l.intents.insert (preparedIntent cfg iid oid proofId nonce (amountFor .x402 n) n payer (clk 0)) = some m.intents) ∧
    (o.quotedAmountMinor ≠ amountFor .x402 n → ∃ m,
      prepareX402Intent cfg clk iid oid proofId nonce o.quotedAmountMinor payer l =
        .commitRaise m (.value "stale quote") ∧
      m.orders = l.orders.modify oid (Order.withState .manualReview (clk 0)) Order.withState_id) := by
  have hexpired : ¬ o.quoteExpiresAt ≤ clk 0 := not_le.mpr htime
  have hvalid : payer.any (fun p => !matchesFixed "0x" 40 isHex p) = false := by
    cases payer with
    | none => rfl
    | some => simpa using hpayer
  unfold prepareX402Intent
  simp only [ho, hrail, hst, hn, hexpired, hvalid, ne_eq, not_true_eq_false, or_self, if_false, false_or]
  constructor
  · intro hprice
    simp only [hprice, not_true_eq_false, if_false, Bool.false_eq_true]
    have hsome : (l.orders.get oid).isSome = true := by rw [ho]; rfl
    obtain ⟨t, hins, ht⟩ := insertIntent_succeeds
      (i := preparedIntent cfg iid oid proofId nonce (amountFor .x402 n) n payer (clk 0)) hfresh rfl rfl rfl
      rfl rfl rfl rfl rfl hsome hnone (free_of_leastFree hfin hn)
    unfold preparedIntent at ht
    simp only [orRaiseAs, ht]
    exact ⟨_, rfl, rfl, hins⟩
  · intro hprice
    simp only [hprice, not_false_eq_true, if_true, setOrderState_ok hinv ho, orRaise]
    exact ⟨_, rfl, rfl⟩

/-! paypal_submit, paypal_confirm -/

/-- A transaction id that PayPal accepts and that no claim and no proof has. -/
structure FreshTransaction (cfg : Config) (l : Ledger) (tx : String) : Prop where
  nonempty : tx ≠ ""
  short : tx.toList.length ≤ 120
  claim : l.externalEvents.get (cfg.sha256 (.text ("paypal:" ++ tx))) = none
  proof : l.proofs.get (cfg.sha256 (.text tx)) = none
  unpaid : ∀ h p, l.proofs.get h = some p → p.txHash ≠ some tx

theorem withPayerRef_passes (hinv : Inv cfg l.core) (ho : l.orders.get oid = some o)
    (tx : String) (now : Time) : orderRefuses l.orders oid o (o.withPayerRef tx now) = none := by
  apply firstBad_eq_none
  simp only [List.forall_mem_cons]
  refine ⟨clash_same rfl, clash_same rfl, clash_same rfl, ?_, by simp⟩
  rw [decide_eq_false_iff_not]
  intro hz
  have hpos := (hinv.ordinals.price oid o 0 ho hz).1
  omega

theorem paypalSubmit_succeeds (clk : Nat → Time) {id : String} (hinv : Inv cfg l.core)
    (ho : l.orders.get oid = some o) (hrail : o.rail = .paypal) (hst : o.state = .pendingPayment)
    (hfresh : FreshTransaction cfg l (strip id)) :
    ∃ m, paypalSubmit cfg clk oid id l = .commit m () ∧
      m.core = { l.core with
        orders := l.orders.modify oid (Order.withPayerRef (strip id) (clk 1)) Order.withPayerRef_id } := by
  generalize htx : strip id = tx at hfresh ⊢
  have hlong : ¬ 120 < tx.toList.length := by
    have := hfresh.short
    omega
  obtain ⟨t, ht⟩ := insert_isSome (t := l.externalEvents)
    (r := ⟨cfg.sha256 (.text ("paypal:" ++ tx)), "paypal-claim", oid, clk 0⟩) hfresh.claim
  have hevent : insertExternalEvent ⟨cfg.sha256 (.text ("paypal:" ++ tx)), "paypal-claim", oid, clk 0⟩ l =
      .ok { l with externalEvents := t } := by
    unfold insertExternalEvent insertChecked
    simp [firstBad, ho, ht]
  unfold paypalSubmit
  simp only [htx, hfresh.nonempty, hlong, ho, hrail, hst, or_self, if_false, ne_eq,
    not_true_eq_false, orRaiseAs, hevent]
  rw [updateOrder_succeeds (l := { l with externalEvents := t }) ho (withPayerRef_passes hinv ho tx (clk 1))]
  exact ⟨_, rfl, rfl⟩

theorem confirmDirect_passes (hinv : Inv cfg l.core) {payerRef : Option String}
    (now : Time) (hn : leastFree (occupied l) = some n)
    (hunpaid : ∀ h p, l.proofs.get h = some p → p.txHash ≠ some tx) :
    orderRefuses l.orders oid o (o.confirmDirect n payerRef (some tx) now) = none := by
  obtain ⟨hpos, hfree, -⟩ := leastFree_free hn
  apply firstBad_eq_none
  simp only [List.forall_mem_cons]
  refine ⟨?_, ?_, clash_same rfl, ?_, by simp⟩
  · rw [Table.clash, Bool.and_eq_false_iff]
    right
    rw [taken_eq_false]
    intro k r x hr hx hrx
    cases hx
    obtain ⟨h, p, hp, hptx⟩ := hinv.paid k r tx hr hrx
    exact absurd hptx (hunpaid h p hp)
  · rw [Table.clash, Bool.and_eq_false_iff]
    right
    rw [taken_eq_false]
    intro k r x hr hx hrx
    cases hx
    exact absurd hrx (hfree k r hr)
  · have hzero : n ≠ 0 := by omega
    simp [Order.confirmDirect, hzero]

/-- The confirmation of a submitted PayPal order, by the price of the least free number. -/
theorem paypalConfirm_cases (clk : Nat → Time) {actor : String}
    (hinv : Inv cfg l.core) (ho : l.orders.get oid = some o) (hrail : o.rail = .paypal)
    (hst : o.state = .pendingPayment) (href : o.payerRef = some tx) (hn : leastFree (occupied l) = some n)
    (hproof : l.proofs.get (cfg.sha256 (.text tx)) = none)
    (hunpaid : ∀ h p, l.proofs.get h = some p → p.txHash ≠ some tx) (htime : clk 0 < o.quoteExpiresAt) :
    ∃ m o', paypalConfirm cfg clk oid tx ⟨.ok o.quotedAmountMinor, "USD", "COMPLETED", true⟩ actor l =
        .commit m (some o') ∧
      (o.quotedAmountMinor = amountFor .paypal n → o'.state = .paymentConfirmed) ∧
      (o.quotedAmountMinor ≠ amountFor .paypal n → o'.state = .manualReview) := by
  have hexpired : ¬ o.quoteExpiresAt ≤ clk 0 := not_le.mpr htime
  unfold paypalConfirm confirmPaymentLocked
  simp only [ho, Option.filter_some, hrail, decide_true, if_true, href, hst, hn, hexpired, ne_eq,
    not_true_eq_false, or_self, if_false, false_or, reduceCtorEq, currencyOf, or_false]
  by_cases hprice : o.quotedAmountMinor = amountFor .paypal n
  · simp only [hprice, not_true_eq_false, if_false]
    have hfree : l.proofs.taken (cfg.sha256 (.text tx)) (fun r => r.txHash) (some tx) = false := by
      rw [taken_eq_false]
      intro k p x hp hx hpx
      cases hx
      exact absurd hpx (hunpaid k p hp)
    obtain ⟨t, ht⟩ := insertProof_succeeds (p := ⟨cfg.sha256 (.text tx), .paypal, oid, some tx, clk 0⟩) hproof hfree
      (by rw [ho]; rfl)
    simp only [orRaiseAs, ht]
    rw [updateOrder_succeeds (l := { l with proofs := t }) ho (confirmDirect_passes hinv (clk 0) hn hunpaid)]
    refine ⟨_, _, congrArg (Verdict.commit _) (get_modify_self Order.confirmDirect_id ho), ?_, ?_⟩
    · exact fun _ => rfl
    · exact fun h => h.elim
  · simp only [hprice, not_false_eq_true, if_true, setOrderState_ok hinv ho, orRaise]
    refine ⟨_, _, congrArg (Verdict.commit _) (get_modify_self Order.withState_id ho), ?_, ?_⟩
    · exact fun h => h.elim
    · exact fun _ => rfl

end GrowthMap.Payments
