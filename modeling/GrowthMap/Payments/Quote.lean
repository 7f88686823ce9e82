import GrowthMap.Payments.Pricing

/- When a fresh quote can be sold.

   A quote just returned is reserved, or submitted and confirmed, at its price exactly
   where the count of `create_order` and the least free number agree. They disagree after
   an early intent is cancelled while fifty later ones stand: fifty-one reservations and
   one cancellation reach such a ledger, and the next quote goes to review. -/
namespace GrowthMap.Payments

open Relational Transaction LeastFree Runs Table

variable {cfg : Config} {l : Ledger}

/-! The sale of a fresh quote -/

/-- The world a successful `create_order` leaves, and its order. -/
structure AfterQuote (cfg : Config) (l : Ledger) (rail : Rail) (q : Quote) (m : Ledger) (o : Order) : Prop where
  inv : Inv cfg m.core
  finalized : FinalizedSales m.orders m.intents
  order : m.orders.get q.orderId = some o
  quoted : Quoted l rail q.quoteExpiresAt o
  amount : q.amountMinor = o.quotedAmountMinor
  occupied : Payments.occupied m = Payments.occupied l
  intents : m.intents = l.intents
  proofs : m.proofs = l.proofs
  events : m.externalEvents = l.externalEvents
  unreserved : ∀ k x, m.intents.get k = some x → x.orderId ≠ q.orderId

variable {clk : Nat → Time} {oid recovery email iid : String} {rail : Rail} {m : Ledger} {q : Quote} {o : Order}
  {s : Sys}

theorem createOrder_afterQuote (hinv : Inv cfg l.core) (hfin : FinalizedSales l.orders l.intents)
    {name : String} (h : createOrder cfg clk oid recovery rail email name l = .commit m q) :
    ∃ o, AfterQuote cfg l rail q m o := by
  have hcommitted : (createOrder cfg clk oid recovery rail email name l).committed = some m := by
    rw [h]
    rfl
  have hmoves : Moves cfg (fun _ => True) l.core m.core := createOrder_moves hcommitted
  obtain ⟨hid, hamount, o, t, hquoted, hkey, ht, hcore, hevents⟩ := createOrder_ok h
  have horders : m.orders = t := congrArg Core.orders hcore
  have hintents : m.intents = l.intents := congrArg Core.intents hcore
  refine ⟨o, moves_inv hinv hmoves, moves_finalizedSales hinv hfin hmoves, ?_, hquoted, ?_,
    occupied_insert ht hcore hquoted.unsold, hintents, congrArg Core.proofs hcore, hevents, ?_⟩
  · rw [horders, hid, ← hkey]
    exact get_insert_self ht
  · rw [hamount, hquoted.amount]
  · -- the order of an intent was there before
    intro k x hx heq
    rw [hintents] at hx
    obtain ⟨y, hy, -⟩ := hinv.intents.order k x hx
    have hnone : l.core.orders.get o.id = none := insert_fresh ht
    rw [heq, hid, ← hkey, hnone] at hy
    cases hy

theorem createOrder_not_leave {name : String} :
    createOrder cfg clk oid recovery rail email name l ≠ .leave q := by
  intro h
  unfold createOrder at h
  split at h
  · cases h
  · simp only [orRaise] at h
    split at h <;> cases h

theorem transaction_createOrder {w w₁ : World} (hw : Trusted cfg w) (hinv : Inv cfg w.conn.committed.core)
    (hfin : FinalizedSales w.conn.committed.orders w.conn.committed.intents) {name : String}
    (h : transaction cfg (createOrder cfg clk oid recovery rail email name) w = (.ok q, w₁)) :
    Trusted cfg w₁ ∧ ∃ o, AfterQuote cfg w.conn.committed rail q w₁.conn.committed o := by
  have hended := transaction_ended cfg (createOrder cfg clk oid recovery rail email name) w hw.closed
  rw [h] at hended
  refine ⟨hended.trusted hw, ?_⟩
  rcases hended.returned with ⟨hb, -⟩ | ⟨m, hb, hw₁⟩
  · exact absurd hb createOrder_not_leave
  · obtain ⟨o, ho⟩ := createOrder_afterQuote hinv hfin hb
    simp only at hw₁
    subst hw₁
    exact ⟨o, ho.inv, ho.finalized, ho.order, ho.quoted, ho.amount, ho.occupied, ho.intents, ho.proofs, ho.events,
      ho.unreserved⟩

section

variable {w w₁ : World} {q : Quote}

/-- A fresh x402 quote is reserved where no early number is left behind; elsewhere its
order goes to review. -/
theorem prepare_after_quote (hw : Trusted cfg w₁) (ho : AfterQuote cfg l .x402 q w₁.conn.committed o)
    (hinv : Inv cfg l.core) (clk : Nat → Time) {proofId nonce : String} {payer : Option String}
    (hfresh : FreshProof cfg w₁.conn.committed iid proofId nonce)
    (hpayer : payer.all (matchesFixed "0x" 40 isHex) = true) (htime : clk 0 < q.quoteExpiresAt) :
    (NoEarlyGap l → ∃ r w₂,
      transaction cfg (prepareX402Intent cfg clk iid q.orderId proofId nonce q.amountMinor payer) w₁ = (.ok r, w₂) ∧
      orderState w₂.conn.committed q.orderId = some .pendingPayment) ∧
    (¬ NoEarlyGap l → ∃ w₂,
      transaction cfg (prepareX402Intent cfg clk iid q.orderId proofId nonce q.amountMinor payer) w₁ =
        (.error (.value "stale quote"), w₂) ∧
      orderState w₂.conn.committed q.orderId = some .manualReview) := by
  obtain ⟨n, hn⟩ := leastFree_isSome (occupied l)
  have hn₁ : leastFree (occupied w₁.conn.committed) = some n := by rw [ho.occupied, hn]
  rw [← ho.quoted.expires] at htime
  obtain ⟨hsells, hstale⟩ := prepareX402Intent_cases clk ho.inv ho.finalized ho.order ho.quoted.rail ho.quoted.state
    ho.unreserved hn₁ hfresh hpayer htime
  rw [ho.amount, ← quotedAmount_iff hinv .x402 hn, ← ho.quoted.amount]
  constructor
  · intro hprice
    obtain ⟨m, hm, horders, -⟩ := hsells hprice
    refine ⟨_, _, hw.commits ho.inv hm, ?_⟩
    show Option.map Order.state (m.orders.get q.orderId) = some .pendingPayment
    rw [horders, ho.order]
    exact congrArg some ho.quoted.state
  · intro hprice
    obtain ⟨m, hm, horders⟩ := hstale hprice
    refine ⟨_, hw.ends ho.inv (by rw [hm]; rfl), ?_⟩
    show Option.map Order.state (m.orders.get q.orderId) = some .manualReview
    rw [horders, get_modify_self Order.withState_id ho.order]
    rfl

/-- A fresh PayPal quote is submitted, and confirmed where no early number is left
behind; elsewhere its order goes to review. -/
theorem confirm_after_quote (hw : Trusted cfg w₁) (ho : AfterQuote cfg l .paypal q w₁.conn.committed o)
    (hinv : Inv cfg l.core) (clk : Nat → Time) {clk' : Nat → Time} {id : String} (actor : String)
    (hfresh : FreshTransaction cfg w₁.conn.committed (strip id)) (htime : clk' 0 < q.quoteExpiresAt) :
    ∃ w₂ w₃ o', transaction cfg (paypalSubmit cfg clk q.orderId id) w₁ = (.ok (), w₂) ∧
      transaction cfg (paypalConfirm cfg clk' q.orderId (strip id)
        ⟨.ok q.amountMinor, "USD", "COMPLETED", true⟩ actor) w₂ = (.ok (some o'), w₃) ∧
      (NoEarlyGap l → o'.state = .paymentConfirmed) ∧ (¬ NoEarlyGap l → o'.state = .manualReview) := by
  obtain ⟨n, hn⟩ := leastFree_isSome (occupied l)
  obtain ⟨m, hm, hcore⟩ := paypalSubmit_succeeds clk ho.inv ho.order ho.quoted.rail ho.quoted.state hfresh
  have hmoves : Moves cfg (fun _ => True) w₁.conn.committed.core m.core := paypalSubmit_moves (by rw [hm]; rfl)
  have horders : m.orders = w₁.conn.committed.orders.modify q.orderId (Order.withPayerRef (strip id) (clk 1))
    Order.withPayerRef_id := congrArg Core.orders hcore
  have hproofs : m.proofs = w₁.conn.committed.proofs := congrArg Core.proofs hcore
  have hintents : m.intents = w₁.conn.committed.intents := congrArg Core.intents hcore
  -- the claim changes nobody's number
  have hoccupied : occupied m = occupied l := by
    rw [← ho.occupied]
    unfold occupied
    rw [horders, hintents, modify_rows_filterMap Order.withPayerRef_id (fun _ => rfl)]
  have horder : m.orders.get q.orderId = some (o.withPayerRef (strip id) (clk 1)) := by
    rw [horders]
    exact get_modify_self Order.withPayerRef_id ho.order
  have hn₂ : leastFree (occupied m) = some n := by rw [hoccupied, hn]
  have hinv₂ : Inv cfg m.core := moves_inv ho.inv hmoves
  have hexpires : clk' 0 < (o.withPayerRef (strip id) (clk 1)).quoteExpiresAt := by
    show clk' 0 < o.quoteExpiresAt
    rw [ho.quoted.expires]
    exact htime
  obtain ⟨m', o', hm', hsold, hreview⟩ := paypalConfirm_cases (l := bumpSequence m) clk' hinv₂ horder
    ho.quoted.rail ho.quoted.state rfl hn₂ (hproofs ▸ hfresh.proof) (hproofs ▸ hfresh.unpaid) hexpires
  rw [ho.amount, ← quotedAmount_iff hinv .paypal hn, ← ho.quoted.amount]
  exact ⟨_, _, o', hw.commits ho.inv hm, (hw.published m).commits hinv₂ hm', hsold, hreview⟩

end

/-! How a gap opens -/

section

variable {m : Ledger}

theorem insertOrder_refused {e : Err} (h : insertOrder o l = .error e) :
    l.orders.get o.id ≠ none ∨ ∃ k r, l.orders.get k = some r ∧ r.recoveryCodeHash = o.recoveryCodeHash := by
  by_contra hno
  push Not at hno
  obtain ⟨hid, hcode⟩ := hno
  have htaken : l.orders.taken o.id (fun r => some r.recoveryCodeHash) (some o.recoveryCodeHash) = false := by
    rw [taken_eq_false]
    intro k r x hr hx hrx
    cases hx
    exact absurd (Option.some.inj hrx) (hcode k r hr)
  obtain ⟨t, ht⟩ := insert_isSome hid
  unfold insertOrder insertChecked at h
  rw [firstBad_eq_none (by simpa using htaken), ht] at h
  cases h

theorem createOrder_succeeds (clk : Nat → Time) {email' : String} (name : String) (rail : Rail)
    (hemail : normalizeEmail email = .ok email') (hid : l.orders.get oid = none)
    (hrecovery : ∀ k o, l.orders.get k = some o → o.recoveryCodeHash ≠ cfg.sha256 (.text recovery)) :
    ∃ m o, createOrder cfg clk oid recovery rail email name l = .commit m
        ⟨oid, recovery, quotedAmount l rail, currencyOf rail,
          if decide (allocated l < earlyLimit) then .early else .regular, clk 0 + seconds cfg.quoteSeconds⟩ ∧
      l.orders.insert o = some m.orders ∧ o.id = oid ∧ o.recoveryCodeHash = cfg.sha256 (.text recovery) := by
  unfold createOrder
  rw [hemail]
  simp only [orRaise]
  split
  · rename_i e he
    rcases insertOrder_refused he with hused | ⟨k, r, hr, hcode⟩
    · exact absurd hid hused
    · exact absurd hcode (hrecovery k r hr)
  · rename_i l' hl'
    obtain ⟨t, ht, rfl⟩ := insertOrder_ok hl'
    exact ⟨_, _, rfl, ht, rfl, rfl⟩

variable {i : Intent}

theorem held_insert (horders : m.orders = l.orders) (hi : l.intents.insert i = some m.intents)
    (hh : i.state.holds = true) (n : Nat) : Held m n ↔ Held l n ∨ n = i.reservedOrdinal := by
  rw [← mem_occupied, ← mem_occupied]
  unfold occupied
  rw [horders, insert_rows hi, List.filter_append, List.map_append]
  simp [hh, or_assoc]

/-- A cancelled intent gives its number back. -/
theorem held_cancel {st : OrderState} {now : Time} {f : Intent → Intent}
    {hf : ∀ r, (f r).intentId = r.intentId} (hinv : Inv cfg l.core)
    (horders : m.orders = l.orders.modify oid (Order.withState st now) Order.withState_id)
    (hintents : m.intents = l.intents.modify iid f hf) (hi : l.intents.get iid = some i)
    (hh : i.state.holds = true) (hst : (f i).state = .cancelledUnpaid) (n : Nat) :
    Held m n ↔ Held l n ∧ n ≠ i.reservedOrdinal := by
  constructor
  · rintro ⟨k, ⟨o, ho, hn⟩ | ⟨k', x, hx, -, hxh, rfl⟩⟩
    · -- a sale keeps its number, and it was not the intent's
      rw [horders] at ho
      have hold : ∃ o', l.orders.get k = some o' ∧ o'.saleOrdinal = some n := by
        rcases get_modify_cases Order.withState_id ho with ⟨rfl, o', ho', rfl⟩ | ⟨-, ho'⟩
        · exact ⟨o', ho', hn⟩
        · exact ⟨o, ho', hn⟩
      obtain ⟨o', ho', hn'⟩ := hold
      refine ⟨⟨k, .inl ⟨o', ho', hn'⟩⟩, ?_⟩
      exact fun heq => hinv.ordinals.apart k o' n iid i ho' hn' hi hh heq.symm
    · rw [hintents] at hx
      rcases get_modify_cases hf hx with ⟨rfl, y, hy, rfl⟩ | ⟨hne, hx⟩
      · rw [hi] at hy
        cases hy
        rw [hst] at hxh
        cases hxh
      · refine ⟨⟨x.orderId, .inr ⟨k', x, hx, rfl, hxh, rfl⟩⟩, ?_⟩
        intro heq
        refine hne (hinv.intents.ordinals k' iid x i i.reservedOrdinal hx hi ?_ (activeOrdinal_of_holds hh))
        rw [activeOrdinal_of_holds hxh, heq]
  · rintro ⟨⟨k, ⟨o, ho, hn⟩ | ⟨k', x, hx, -, hxh, rfl⟩⟩, hne⟩
    · obtain ⟨o', ho', heq⟩ := get_modify_exists oid (Order.withState st now) Order.withState_id ho
      rw [← horders] at ho'
      refine ⟨k, .inl ⟨o', ho', ?_⟩⟩
      rcases heq with rfl | ⟨-, rfl⟩ <;> exact hn
    · have hother : k' ≠ iid := by
        rintro rfl
        rw [hi] at hx
        cases hx
        exact hne rfl
      refine ⟨x.orderId, .inr ⟨k', x, ?_, rfl, hxh, rfl⟩⟩
      rw [hintents, get_modify_ne hf hother, hx]

/-- While no intent has evidence, final unpaid evidence cancels a prepared one. -/
theorem cancelUnpaid_succeeds (clk : Nat → Time) (actor : String) {ev : ReconcilerEvidence}
    (hinv : Inv cfg l.core) (hi : l.intents.get iid = some i) (hst : i.state = .prepared)
    (hbare : ∀ k x, l.intents.get k = some x → x.evidenceHash = none ∧ x.evidenceBinding = none)
    (hev : ev.evidenceHash.isSome = true) :
    ∃ m binding, cancelUnpaid cfg clk iid ev actor l = .commit m ⟨iid, i.reservedOrdinal⟩ ∧
      m.orders = l.orders.modify i.orderId (Order.withState .expired (clk 0)) Order.withState_id ∧
      m.intents = l.intents.modify iid (Intent.cancel ev actor binding (clk 0)) Intent.cancel_intentId := by
  have hpasses : ∀ binding, intentRefuses l.intents iid i (i.cancel ev actor binding (clk 0)) = none := by
    intro binding
    have hfree : ∀ (col : Intent → Option String) (new : Intent),
        (∀ k x, l.intents.get k = some x → col x = none) → l.intents.clash iid col i new = false := by
      intro col new hnone
      rw [Table.clash, Bool.and_eq_false_iff]
      right
      rw [taken_eq_false]
      intro k x v hx hv hxv
      rw [hnone k x hx] at hxv
      cases hxv
    apply firstBad_eq_none
    simp only [List.forall_mem_cons]
    refine ⟨?_, ?_, clash_same rfl, ?_, ?_, ?_, by simp⟩
    · simp [settlementTerminalImmutable, hst, IntentState.terminal]
    · simpa [settlementEvidenceRequired, Intent.cancel] using fun _ => hev
    · exact hfree (fun r => r.evidenceHash) _ (fun k x hx => (hbare k x hx).1)
    · exact hfree (fun r => r.evidenceBinding) _ (fun k x hx => (hbare k x hx).2)
    · simp [Table.clash, Table.taken, Intent.activeOrdinal, Intent.cancel]
  obtain ⟨o, ho, -⟩ := hinv.intents.order iid i hi
  unfold cancelUnpaid
  simp only [hi, hst, true_or, not_true_eq_false, if_false, orRaiseAs, updateIntent_succeeds hi (hpasses _)]
  have hstate : ∀ t now, setOrderState i.orderId .expired now { l with intents := t } =
      .ok { l with intents := t, orders := l.orders.modify i.orderId (Order.withState .expired now) Order.withState_id } := by
    intro t now
    exact updateOrder_succeeds (l := { l with intents := t }) ho (withState_order_passes hinv ho .expired now)
  simp only [hstate, orRaise]
  exact ⟨_, _, rfl, rfl, rfl⟩

theorem step_commits (h : Healthy cfg s) {t : Tx}
    (hb : bodyOf cfg clk t s.ledger = .commit m ()) : (step cfg s ⟨0, clk, [], .tx t⟩).ledger = bumpSequence m := by
  have hw : Trusted cfg (s.world ⟨0, clk, [], .tx t⟩) := h.world (fun _ hp => by cases hp)
  show (transaction cfg (bodyOf cfg clk t) (s.world ⟨0, clk, [], .tx t⟩)).2.conn.committed = bumpSequence m
  rw [hw.commits h.inv.core hb]
  rfl

theorem Healthy.opens (h : Healthy cfg s) : ∃ w, Trusted cfg w ∧ w.conn.committed = s.ledger :=
  ⟨s.world ⟨0, fun _ => 0, [], .tx .reconcileExpiredIntents⟩, h.world (fun _ hp => by cases hp), rfl⟩

end

namespace Demo

/-- `config` with a hash that keeps texts apart. -/
def plain : Config := { config with sha256 := fun d => match d with | .text s => s | d => sha256 d }

theorem payer_valid : (some payer).all (matchesFixed "0x" 40 isHex) = true := by decide

def name (k : Nat) : String := String.ofList (List.replicate k 'a')

variable {j n : Nat}

theorem name_inj {k : Nat} (h : name j = name k) : j = k := by
  have hlist := String.ofList_injective h
  simpa using congrArg List.length hlist

/-- Order `name k` quoted and reserved, at the price of number `k + 1`. -/
def round (k : Nat) : List Event :=
  [event 0 (.tx (.createOrder (name k) (name k) .x402 "a@b.co" "A")),
   event 0 (.tx (.prepareX402Intent (name k) (name k) (name k) (name k) (amountFor .x402 (k + 1)) (some payer)))]

def rounds : Nat → List Event
  | 0 => []
  | k + 1 => rounds k ++ round k

/-- The intent of number `k + 1`. -/
def reserved (k : Nat) : Intent :=
  preparedIntent plain (name k) (name k) (name k) (name k) (amountFor .x402 (k + 1)) (k + 1) (some payer) 0

/-- Every order and every intent is one of the first `n`. -/
structure Named (n : Nat) (l : Ledger) : Prop where
  orders : ∀ k o, l.orders.get k = some o → ∃ j < n, k = name j ∧ o.recoveryCodeHash = name j
  intents : ∀ k i, l.intents.get k = some i → ∃ j < n, k = name j ∧ i.proofHash = name j ∧ i.nonceHash = name j

theorem name_ne (h : j < n) : name n ≠ name j := by
  intro heq
  have := name_inj heq
  omega

theorem Named.fresh (h : Named n l) : FreshProof plain l (name n) (name n) (name n) := by
  constructor
  · cases hi : l.intents.get (name n) with
    | none => rfl
    | some i =>
      obtain ⟨j, hj, heq, -⟩ := h.intents _ i hi
      exact absurd heq (name_ne hj)
  · intro k i hi heq
    obtain ⟨j, hj, -, hproof, -⟩ := h.intents k i hi
    exact name_ne hj (heq.symm.trans hproof)
  · intro k i hi heq
    obtain ⟨j, hj, -, -, hnonce⟩ := h.intents k i hi
    exact name_ne hj (heq.symm.trans hnonce)

theorem Named.quote (h : Named n l) :
    ∃ m o q, createOrder plain (fun _ => 0) (name n) (name n) .x402 "a@b.co" "A" l = .commit m q ∧
      l.orders.insert o = some m.orders ∧ o.id = name n ∧ o.recoveryCodeHash = name n ∧
      q.orderId = name n ∧ 0 < q.quoteExpiresAt := by
  have hemail : normalizeEmail "a@b.co" = .ok "a@b.co" := by rfl
  have hunused : l.orders.get (name n) = none := by
    cases ho : l.orders.get (name n) with
    | none => rfl
    | some o =>
      obtain ⟨j, hj, heq, -⟩ := h.orders _ o ho
      exact absurd heq (name_ne hj)
  have hcode : ∀ k o, l.orders.get k = some o → o.recoveryCodeHash ≠ plain.sha256 (.text (name n)) := by
    intro k o ho heq
    obtain ⟨j, hj, -, hrec⟩ := h.orders k o ho
    exact name_ne hj (heq.symm.trans hrec)
  obtain ⟨m, o, hm, hins, hid, hrec⟩ := createOrder_succeeds (fun _ => 0) "A" .x402 hemail hunused hcode
  have htime : (0 : Time) < 0 + seconds plain.quoteSeconds := by decide
  exact ⟨m, o, _, hm, hins, hid, hrec, rfl, htime⟩

/-- The first `n` numbers are reserved, and nothing else is there. -/
structure Filled (n : Nat) (s : Sys) : Prop where
  healthy : Healthy plain s
  reachable : Reachable (step plain) (initial plain) s
  named : Named n s.ledger
  bare : ∀ k i, s.ledger.intents.get k = some i → i.evidenceHash = none ∧ i.evidenceBinding = none
  reserved : ∀ j < n, s.ledger.intents.get (name j) = some (reserved j)
  held : ∀ k, Held s.ledger k ↔ 0 < k ∧ k ≤ n

theorem Filled.next (h : Filled n s) : leastFree (occupied s.ledger) = some (n + 1) := by
  obtain ⟨k, hk⟩ := leastFree_isSome (occupied s.ledger)
  obtain ⟨hpos, hfree⟩ := leastFree_spec hk
  rw [mem_occupied, h.held] at hfree
  have hle : k ≤ n + 1 := by
    by_contra hlt
    have hmem := leastFree_least hk (Nat.succ_pos n) (by omega)
    rw [mem_occupied, h.held] at hmem
    omega
  have heq : k = n + 1 := by omega
  rw [hk, heq]

theorem Filled.noEarlyGap (h : Filled n s) : NoEarlyGap s.ledger := by
  unfold NoEarlyGap
  simp only [h.held]
  by_cases hn : n < earlyLimit
  · left
    have hset : {k | 0 < k ∧ k ≤ n} = (Finset.Icc 1 n : Set Nat) := by
      ext k
      simp [Nat.one_le_iff_ne_zero, Nat.pos_iff_ne_zero]
    rw [hset, Set.ncard_coe_finset, Nat.card_Icc]
    omega
  · right
    intro k hk hle
    omega

/-- The next quote is reserved under the next number. -/
theorem Filled.reserve (h : Filled n s)
    (hm : createOrder plain (fun _ => 0) (name n) (name n) .x402 "a@b.co" "A" s.ledger = .commit m q)
    (hq : q.orderId = name n) (htime : 0 < q.quoteExpiresAt) :
    ∃ m', prepareX402Intent plain (fun _ => 0) (name n) (name n) (name n) (name n) (amountFor .x402 (n + 1))
        (some payer) (bumpSequence m) = .commit m' ⟨name n, n + 1⟩ ∧
      m'.orders = m.orders ∧ s.ledger.intents.insert (Demo.reserved n) = some m'.intents ∧
      ∀ k, Held m' k ↔ Held s.ledger k ∨ k = n + 1 := by
  have hinv := h.healthy.inv.core
  obtain ⟨o, ho⟩ := createOrder_afterQuote hinv (reachable_finalizedSales h.reachable) hm
  have hn : leastFree (occupied m) = some (n + 1) := by rw [ho.occupied, h.next]
  have hprice : o.quotedAmountMinor = amountFor .x402 (n + 1) := by
    rw [ho.quoted.amount]
    exact (quotedAmount_iff hinv .x402 h.next).mpr h.noEarlyGap
  have hfresh := h.named.fresh.of_intents ho.intents
  have horder := ho.order
  have hunreserved := ho.unreserved
  rw [hq] at horder hunreserved
  rw [← ho.quoted.expires] at htime
  obtain ⟨m', hm', horders, hins⟩ := (prepareX402Intent_cases (l := bumpSequence m) (fun _ => 0) ho.inv ho.finalized horder ho.quoted.rail ho.quoted.state hunreserved hn
    (hfresh.of_intents rfl) payer_valid htime).1 hprice
  rw [hprice] at hm'
  refine ⟨m', hm', horders, ?_, fun k => ?_⟩
  · rw [← ho.intents]
    exact hins
  · have hheld : Held m k ↔ Held s.ledger k := by rw [← mem_occupied, ho.occupied, mem_occupied]
    rw [← hheld]
    exact held_insert (l := m) horders hins rfl k

theorem Filled.round {n : Nat} {s : Sys} (h : Filled n s) : Filled (n + 1) (run (step plain) s (round n)) := by
  obtain ⟨m, o, q, hm, horders, hid, hrec, hq, htime⟩ := h.named.quote
  obtain ⟨m', hm', horders', hintents, hheld⟩ := h.reserve hm hq htime
  have hpub : ∀ t, (event 0 (.tx t)).Publishes := fun _ _ hp => by cases hp
  have hfirst : (step plain s (event 0 (.tx (.createOrder (name n) (name n) .x402 "a@b.co" "A")))).ledger =
      bumpSequence m := step_commits h.healthy (by simp only [bodyOf, hm]; rfl)
  have hledger : (run (step plain) s (Demo.round n)).ledger = bumpSequence m' := by
    refine step_commits (h.healthy.step (hpub _)) ?_
    rw [hfirst]
    simp only [bodyOf, hm']
    rfl
  rw [← horders'] at horders
  constructor
  · exact (h.healthy.step (hpub _)).step (hpub _)
  · exact (h.reachable.next _).next _
  · rw [hledger]
    constructor
    · intro k x hx
      rcases get_insert_cases horders hx with ⟨rfl, rfl⟩ | hx
      · exact ⟨n, Nat.lt_succ_self n, hid, hrec⟩
      · obtain ⟨j, hj, hrest⟩ := h.named.orders k x hx
        exact ⟨j, Nat.lt_succ_of_lt hj, hrest⟩
    · intro k x hx
      rcases get_insert_cases hintents hx with ⟨rfl, rfl⟩ | hx
      · exact ⟨n, Nat.lt_succ_self n, rfl, rfl, rfl⟩
      · obtain ⟨j, hj, hrest⟩ := h.named.intents k x hx
        exact ⟨j, Nat.lt_succ_of_lt hj, hrest⟩
  · intro k x hx
    rw [hledger] at hx
    rcases get_insert_cases hintents hx with ⟨rfl, rfl⟩ | hx
    · exact ⟨rfl, rfl⟩
    · exact h.bare k x hx
  · intro j hj
    rw [hledger]
    rcases Nat.lt_succ_iff_lt_or_eq.mp hj with hlt | rfl
    · exact get_insert_old hintents (h.reserved j hlt)
    · exact get_insert_self hintents
  · intro k
    rw [hledger]
    show Held m' k ↔ 0 < k ∧ k ≤ n + 1
    rw [hheld, h.held]
    omega

theorem filled_rounds (n : Nat) : Filled n (run (step plain) (initial plain) (rounds n)) := by
  induction n with
  | zero =>
    refine ⟨initial_healthy plain, .refl _, ⟨fun k o ho => (by cases ho), fun k i hi => (by cases hi)⟩,
      fun k i hi => (by cases hi), fun j hj => absurd hj (Nat.not_lt_zero j), fun k => ?_⟩
    rw [← mem_occupied]
    show k ∈ [] ↔ 0 < k ∧ k ≤ 0
    simp
    omega
  | succ n ih =>
    have hrun := ih.round
    rw [← run_append] at hrun
    exact hrun

/-- Final evidence that number three was never paid. -/
def unpaid : ReconcilerEvidence :=
  ⟨some .unpaid, none, some "e", some "s", some 0, some "b", payer, name 2, name 2, name 2⟩

/-- Fifty-one numbers reserved, and the third released. -/
def gap : List Event := rounds 51 ++ [event 0 (.tx (.cancelUnpaid (name 2) unpaid "a"))]

/-- What it leaves. -/
structure Gapped (s : Sys) : Prop where
  healthy : Healthy plain s
  reachable : Reachable (step plain) (initial plain) s
  named : Named 51 s.ledger
  held : ∀ k, Held s.ledger k ↔ (0 < k ∧ k ≤ 51) ∧ k ≠ 3

theorem gapped : Gapped (run (step plain) (initial plain) gap) := by
  have h := filled_rounds 51
  rw [gap, run_snoc]
  generalize run (step plain) (initial plain) (rounds 51) = s at h
  obtain ⟨m, binding, hm, horders, hintents⟩ := cancelUnpaid_succeeds (fun _ => 0) "a" h.healthy.inv.core
    (h.reserved 2 (by decide)) rfl h.bare (show unpaid.evidenceHash.isSome = true by rfl)
  have hledger : (step plain s (event 0 (.tx (.cancelUnpaid (name 2) unpaid "a")))).ledger = bumpSequence m :=
    step_commits h.healthy (by simp only [bodyOf, hm]; rfl)
  constructor
  · exact h.healthy.step (fun _ hp => by cases hp)
  · exact h.reachable.next _
  · rw [hledger]
    constructor
    · intro k o ho
      change m.orders.get k = some o at ho
      rw [horders] at ho
      rcases get_modify_cases Order.withState_id ho with ⟨rfl, x, hx, rfl⟩ | ⟨-, hx⟩
      · exact h.named.orders _ x hx
      · exact h.named.orders k o hx
    · intro k i hi
      change m.intents.get k = some i at hi
      rw [hintents] at hi
      rcases get_modify_cases Intent.cancel_intentId hi with ⟨rfl, x, hx, rfl⟩ | ⟨-, hx⟩
      · exact h.named.intents _ x hx
      · exact h.named.intents k i hx
  · intro k
    rw [hledger, ← h.held]
    exact held_cancel (m := m) h.healthy.inv.core horders hintents (h.reserved 2 (by decide)) rfl rfl k

theorem Gapped.gap (h : Gapped s) : ¬ NoEarlyGap s.ledger := by
  unfold NoEarlyGap
  simp only [h.held]
  have hset : {k | (0 < k ∧ k ≤ 51) ∧ k ≠ 3} = ((Finset.Icc 1 51).erase 3 : Set Nat) := by
    ext k
    simp [and_comm, Nat.one_le_iff_ne_zero, Nat.pos_iff_ne_zero]
  rw [hset, Set.ncard_coe_finset]
  rintro (hcount | hfull)
  · exact absurd hcount (by decide)
  · exact (hfull 3 (by decide) (by decide)).2 rfl

end Demo

/-! Selling a fresh quote -/

/-- The reservation of the quote is returned, and its order not sent to review. -/
def Reserves (cfg : Config) (clk : Nat → Time) (q : Quote) (iid proofId nonce : String) (payer : Option String)
    (w : World) : Prop :=
  ∃ r w', transaction cfg (prepareX402Intent cfg clk iid q.orderId proofId nonce q.amountMinor payer) w = (.ok r, w') ∧
    orderState w'.conn.committed q.orderId ≠ some .manualReview

/-- The claim of the quote is submitted and confirmed, and its order not sent to review. -/
def Confirms (cfg : Config) (clk clk' : Nat → Time) (q : Quote) (id actor : String) (w : World) : Prop :=
  ∃ w' w'' o, transaction cfg (paypalSubmit cfg clk q.orderId id) w = (.ok (), w') ∧
    transaction cfg (paypalConfirm cfg clk' q.orderId (strip id) ⟨.ok q.amountMinor, "USD", "COMPLETED", true⟩ actor) w' =
      (.ok (some o), w'') ∧
    o.state = .paymentConfirmed

/-- In every reachable ledger a quote just returned can be sold exactly when fewer than
fifty numbers are held or the first fifty are. -/
theorem fresh_quote_sells_iff {s : Sys} (hs : Reachable (step cfg) (initial cfg) s) {w w₁ : World}
    (hw : Trusted cfg w) (hl : w.conn.committed = s.ledger) {clk : Nat → Time}
    {oid recovery email name : String} {rail : Rail} {q : Quote}
    (h : transaction cfg (createOrder cfg clk oid recovery rail email name) w = (.ok q, w₁)) :
    (rail = .x402 → ∀ clk' iid proofId nonce payer, FreshProof cfg w₁.conn.committed iid proofId nonce →
      payer.all (matchesFixed "0x" 40 isHex) = true → clk' 0 < q.quoteExpiresAt →
      (Reserves cfg clk' q iid proofId nonce payer w₁ ↔ NoEarlyGap s.ledger)) ∧
    (rail = .paypal → ∀ clk' clk'' id actor, FreshTransaction cfg w₁.conn.committed (strip id) →
      clk'' 0 < q.quoteExpiresAt → (Confirms cfg clk' clk'' q id actor w₁ ↔ NoEarlyGap s.ledger)) := by
  have hinv : Inv cfg s.ledger.core := (reachable_inv hs).core
  rw [← hl] at hinv
  have hfin := reachable_finalizedSales hs
  rw [← hl] at hfin ⊢
  obtain ⟨hw₁, o, ho⟩ := transaction_createOrder hw hinv hfin h
  constructor
  · rintro rfl clk' iid proofId nonce payer hfresh hpayer htime
    obtain ⟨hsells, hstale⟩ := prepare_after_quote hw₁ ho hinv clk' hfresh hpayer htime
    constructor
    · rintro ⟨r, w₂, hr, -⟩
      by_contra hgap
      obtain ⟨w₂', hr', -⟩ := hstale hgap
      rw [hr] at hr'
      cases hr'
    · intro hno
      obtain ⟨r, w₂, hr, hst⟩ := hsells hno
      refine ⟨r, w₂, hr, ?_⟩
      rw [hst]
      decide
  · rintro rfl clk' clk'' id actor hfresh htime
    obtain ⟨w₂, w₃, o', hsubmit, hconfirm, hsells, hreview⟩ := confirm_after_quote hw₁ ho hinv clk' actor
      hfresh htime
    constructor
    · rintro ⟨w₂', w₃', o'', hsubmit', hconfirm', hst⟩
      rw [hsubmit] at hsubmit'
      cases hsubmit'
      rw [hconfirm] at hconfirm'
      cases hconfirm'
      by_contra hgap
      rw [hreview hgap] at hst
      cases hst
    · intro hno
      exact ⟨w₂, w₃, o', hsubmit, hconfirm, hsells hno⟩

/-- The fourth quote is reserved exactly if no early number is left behind. -/
theorem fourth_quote_sells_iff :
    ∃ w q w₁, transaction Demo.plain (createOrder Demo.plain (fun _ => 0) (Demo.name 3) (Demo.name 3) .x402 "a@b.co" "A")
        w = (.ok q, w₁) ∧
      (Reserves Demo.plain (fun _ => 0) q (Demo.name 3) (Demo.name 3) (Demo.name 3) (some Demo.payer) w₁ ↔
        NoEarlyGap (run (step Demo.plain) (initial Demo.plain) (Demo.rounds 3)).ledger) := by
  have h := Demo.filled_rounds 3
  generalize run (step Demo.plain) (initial Demo.plain) (Demo.rounds 3) = s at h ⊢
  obtain ⟨w, hw, hl⟩ := h.healthy.opens
  have hinv := h.healthy.inv.core
  obtain ⟨m, o, q, hm, -, -, -, -, htime⟩ := h.named.quote
  rw [← hl] at hinv hm
  have hcreate := hw.commits hinv hm
  have hfin := reachable_finalizedSales h.reachable
  rw [← hl] at hfin
  obtain ⟨-, o', ho'⟩ := transaction_createOrder hw hinv hfin hcreate
  have hfresh := h.named.fresh
  rw [← hl] at hfresh
  exact ⟨w, q, _, hcreate, (fresh_quote_sells_iff h.reachable hw hl hcreate).1 rfl _ _ _ _ _
    (hfresh.of_intents ho'.intents) Demo.payer_valid htime⟩

/-- Fifty numbers held and the third free: a quote reserved at once, at its price, is
refused as stale and its order goes to review. -/
theorem fresh_quote_refused :
    ∃ w q w₁ w₂, Trusted Demo.plain w ∧
      w.conn.committed = (run (step Demo.plain) (initial Demo.plain) Demo.gap).ledger ∧
      transaction Demo.plain (createOrder Demo.plain (fun _ => 0) (Demo.name 51) (Demo.name 51) .x402 "a@b.co" "A") w =
        (.ok q, w₁) ∧
      FreshProof Demo.plain w₁.conn.committed (Demo.name 51) (Demo.name 51) (Demo.name 51) ∧
      (0 : Time) < q.quoteExpiresAt ∧
      transaction Demo.plain (prepareX402Intent Demo.plain (fun _ => 0) (Demo.name 51) q.orderId (Demo.name 51)
        (Demo.name 51) q.amountMinor (some Demo.payer)) w₁ = (.error (.value "stale quote"), w₂) ∧
      orderState w₂.conn.committed q.orderId = some .manualReview := by
  have h := Demo.gapped
  generalize run (step Demo.plain) (initial Demo.plain) Demo.gap = s at h ⊢
  obtain ⟨w, hw, hl⟩ := h.healthy.opens
  have hinv := h.healthy.inv.core
  have hfin := reachable_finalizedSales h.reachable
  have hfresh := h.named.fresh
  have hgap := h.gap
  obtain ⟨m, o, q, hm, -, -, -, -, htime⟩ := h.named.quote
  rw [← hl] at hinv hfin hfresh hgap hm
  have hcreate := hw.commits hinv hm
  obtain ⟨hw₁, o', ho'⟩ := transaction_createOrder hw hinv hfin hcreate
  have hfresh₁ := hfresh.of_intents ho'.intents
  obtain ⟨w₂, hr, hst⟩ := (prepare_after_quote hw₁ ho' hinv (fun _ => 0) hfresh₁ Demo.payer_valid htime).2 hgap
  exact ⟨w, q, _, w₂, hw, hl, hcreate, hfresh₁, htime, hr, hst⟩

end GrowthMap.Payments
