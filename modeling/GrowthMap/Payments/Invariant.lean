import GrowthMap.Payments.Moves

/- What holds of the sales ledger whatever is done to it.

   Five groups of facts, each over the tables it is about, so that a move is checked
   only against the groups whose tables it writes: intents and the evidence they
   store, the exclusive ordinals, the proofs behind a recorded transaction, the
   outbox rows with the sale they rest on, and the revocations a reversed delivery
   owes. The lemmas of a group say what each kind of statement must bring for the group
   to survive it. -/
namespace GrowthMap.Payments

open Relational Table

/-! Intents -/

/-- What an intent stores, by its state. -/
structure Intent.Evidence (cfg : Config) (i : Intent) : Prop where
  unsettled : i.state = .prepared ∨ i.state = .ambiguous → i.txHash = none
  paid : i.state = .settled ∨ i.state = .finalizedPaid →
    truthy i.txHash = true ∧ truthy i.evidenceHash = true ∧ truthy i.verifiedPayer = true ∧
      i.settledPayer = i.verifiedPayer
  bound : i.state.terminal = true → i.evidenceBinding = some (storedBinding cfg i)

structure IntentsInv (cfg : Config) (orders : Orders) (intents : Intents) : Prop where
  order : ∀ k i, intents.get k = some i →
    ∃ o, orders.get i.orderId = some o ∧ o.rail = .x402 ∧ o.quotedAmountMinor = i.amountMinor
  price : ∀ k i, intents.get k = some i →
    i.amountMinor = amountFor .x402 i.reservedOrdinal ∧ 0 < i.reservedOrdinal
  evidence : ∀ k i, intents.get k = some i → i.Evidence cfg
  orderIds : intents.Unique (fun r => some r.orderId)
  proofs : intents.Unique (fun r => some r.proofHash)
  nonces : intents.Unique (fun r => some r.nonceHash)
  txs : intents.Unique (fun r => r.txHash)
  evidences : intents.Unique (fun r => r.evidenceHash)
  ordinals : intents.Unique Intent.activeOrdinal

variable {cfg : Config} {orders : Orders} {proofs : Proofs} {intents : Intents} {entitlements : Entitlements}
  {revocations : Revocations} {k oid : String} {f : Order → Order} {o : Order} {t orders' : Orders} {i : Intent}
  {p : PaymentProof} {entitlements' : Entitlements}

theorem IntentsInv.modifyOrder (h : IntentsInv cfg orders intents) (hf : ∀ r, (f r).id = r.id)
    (hkeep : ∀ o, (f o).rail = o.rail ∧ (f o).quotedAmountMinor = o.quotedAmountMinor) :
    IntentsInv cfg (orders.modify k f hf) intents := by
  refine { h with order := ?_ }
  intro k' i hi
  obtain ⟨o, ho, hrail, hquoted⟩ := h.order k' i hi
  obtain ⟨o', ho', rfl | ⟨-, rfl⟩⟩ := get_modify_exists k f hf ho
  · exact ⟨o', ho', hrail, hquoted⟩
  · exact ⟨f o, ho', (hkeep o).1.trans hrail, (hkeep o).2.trans hquoted⟩

theorem IntentsInv.insertOrder (h : IntentsInv cfg orders intents)
    (hi : orders.insert o = some t) : IntentsInv cfg t intents := by
  refine { h with order := ?_ }
  intro k i hk
  obtain ⟨o', ho', hrest⟩ := h.order k i hk
  exact ⟨o', get_insert_old hi ho', hrest⟩

/-- An update of one intent that leaves its identity alone and passes the UNIQUE
columns it may change. -/
theorem IntentsInv.modifyIntent (h : IntentsInv cfg orders intents)
    {f : Intent → Intent} (hf : ∀ r, (f r).intentId = r.intentId) (hi : intents.get k = some i)
    (hkeep : (f i).orderId = i.orderId ∧ (f i).proofHash = i.proofHash ∧ (f i).nonceHash = i.nonceHash ∧
      (f i).amountMinor = i.amountMinor ∧ (f i).reservedOrdinal = i.reservedOrdinal)
    (hev : (f i).Evidence cfg) (htx : intents.clash k (fun r => r.txHash) i (f i) = false)
    (heh : intents.clash k (fun r => r.evidenceHash) i (f i) = false)
    (hord : intents.clash k Intent.activeOrdinal i (f i) = false) :
    IntentsInv cfg orders (intents.modify k f hf) := by
  obtain ⟨hoid, hproof, hnonce, hamount, hres⟩ := hkeep
  -- what holds of the row `i` is asked of `f i`, all other rows are as they were
  have hcases : ∀ k' x, (intents.modify k f hf).get k' = some x → x = f i ∨ intents.get k' = some x := by
    intro k' x hx
    rcases get_modify_cases hf hx with ⟨-, r, hr, rfl⟩ | ⟨-, hx⟩
    · rw [hi] at hr
      cases hr
      exact .inl rfl
    · exact .inr hx
  have hsame : ∀ (V : Type) [DecidableEq V] (col : Intent → Option V), intents.Unique col →
      intents.clash k col i (f i) = false → (intents.modify k f hf).Unique col := by
    intro V _ col hu hc
    apply unique_modify hf hu
    intro r hr
    rw [hi] at hr
    cases hr
    exact hc
  constructor
  · intro k' x hx
    rcases hcases k' x hx with rfl | hx
    · rw [hoid, hamount]
      exact h.order k i hi
    · exact h.order k' x hx
  · intro k' x hx
    rcases hcases k' x hx with rfl | hx
    · rw [hamount, hres]
      exact h.price k i hi
    · exact h.price k' x hx
  · intro k' x hx
    rcases hcases k' x hx with rfl | hx
    · exact hev
    · exact h.evidence k' x hx
  · exact hsame _ _ h.orderIds (clash_same (by simp [hoid]))
  · exact hsame _ _ h.proofs (clash_same (by simp [hproof]))
  · exact hsame _ _ h.nonces (clash_same (by simp [hnonce]))
  · exact hsame _ _ h.txs htx
  · exact hsame _ _ h.evidences heh
  · exact hsame _ _ h.ordinals hord

theorem IntentsInv.insertIntent (h : IntentsInv cfg orders intents) {t : Intents}
    (hi : intents.insert i = some t) (ho : orders.get i.orderId = some o)
    (hrail : o.rail = .x402) (hquoted : o.quotedAmountMinor = i.amountMinor)
    (hamount : i.amountMinor = amountFor .x402 i.reservedOrdinal) (hpos : 0 < i.reservedOrdinal)
    (hst : i.state = .prepared) (htx : i.txHash = none) (hev : i.evidenceHash = none)
    (horder : intents.taken i.intentId (fun r => some r.orderId) (some i.orderId) = false)
    (hproof : intents.taken i.intentId (fun r => some r.proofHash) (some i.proofHash) = false)
    (hnonce : intents.taken i.intentId (fun r => some r.nonceHash) (some i.nonceHash) = false)
    (hord : intents.taken i.intentId Intent.activeOrdinal i.activeOrdinal = false) :
    IntentsInv cfg orders t := by
  have hcases := fun k x => get_insert_cases (k := k) (x := x) hi
  constructor
  · intro k x hx
    rcases hcases k x hx with ⟨-, rfl⟩ | hx
    · exact ⟨o, ho, hrail, hquoted⟩
    · exact h.order k x hx
  · intro k x hx
    rcases hcases k x hx with ⟨-, rfl⟩ | hx
    · exact ⟨hamount, hpos⟩
    · exact h.price k x hx
  · intro k x hx
    rcases hcases k x hx with ⟨-, rfl⟩ | hx
    · exact ⟨fun _ => htx, by simp [hst], by simp [hst, IntentState.terminal]⟩
    · exact h.evidence k x hx
  · exact unique_insert h.orderIds hi horder
  · exact unique_insert h.proofs hi hproof
  · exact unique_insert h.nonces hi hnonce
  · exact unique_insert h.txs hi (by simp [htx, Table.taken])
  · exact unique_insert h.evidences hi (by simp [hev, Table.taken])
  · exact unique_insert h.ordinals hi hord

theorem IntentsInv.only (h : IntentsInv cfg orders intents) {k' : String} {i' : Intent}
    (hi : intents.get k = some i) (hi' : intents.get k' = some i') (ho : i'.orderId = i.orderId) :
    k' = k ∧ i' = i := by
  have hk : k' = k := h.orderIds k' k i' i i.orderId hi' hi (congrArg some ho) rfl
  subst hk
  rw [hi] at hi'
  exact ⟨rfl, (Option.some.inj hi').symm⟩

/-! Ordinals -/

structure OrdinalsInv (orders : Orders) (intents : Intents) : Prop where
  price : ∀ k o n, orders.get k = some o → o.saleOrdinal = some n →
    0 < n ∧ o.quotedAmountMinor = amountFor o.rail n
  sales : orders.Unique (fun r => r.saleOrdinal)
  apart : ∀ k o n k' i, orders.get k = some o → o.saleOrdinal = some n →
    intents.get k' = some i → i.state.holds = true → i.reservedOrdinal ≠ n

theorem OrdinalsInv.modifyOrder (h : OrdinalsInv orders intents) (hf : ∀ r, (f r).id = r.id)
    (hkeep : ∀ o, (f o).saleOrdinal = o.saleOrdinal ∧ (f o).rail = o.rail ∧
      (f o).quotedAmountMinor = o.quotedAmountMinor) :
    OrdinalsInv (orders.modify k f hf) intents := by
  constructor
  · intro k' x n hx hn
    rcases get_modify_cases hf hx with ⟨-, o, ho, rfl⟩ | ⟨-, hx⟩
    · obtain ⟨hs, hr, hq⟩ := hkeep o
      rw [hr, hq]
      exact h.price k o n ho (hs ▸ hn)
    · exact h.price k' x n hx hn
  · apply unique_modify hf h.sales
    intro o _
    exact clash_same (hkeep o).1
  · intro k' x n k'' i hx hn hi hh
    rcases get_modify_cases hf hx with ⟨-, o, ho, rfl⟩ | ⟨-, hx⟩
    · exact h.apart k o n k'' i ho ((hkeep o).1 ▸ hn) hi hh
    · exact h.apart k' x n k'' i hx hn hi hh

theorem OrdinalsInv.insertOrder (h : OrdinalsInv orders intents)
    (hi : orders.insert o = some t) (hsale : o.saleOrdinal = none) : OrdinalsInv t intents := by
  constructor
  · intro k x n hx hn
    rcases get_insert_cases hi hx with ⟨-, rfl⟩ | hx
    · rw [hsale] at hn
      cases hn
    · exact h.price k x n hx hn
  · exact unique_insert h.sales hi (by simp [hsale, Table.taken])
  · intro k x n k' i hx hn
    rcases get_insert_cases hi hx with ⟨-, rfl⟩ | hx
    · rw [hsale] at hn
      cases hn
    · exact h.apart k x n k' i hx hn

theorem OrdinalsInv.modifyIntent (h : OrdinalsInv orders intents)
    {f : Intent → Intent} (hf : ∀ r, (f r).intentId = r.intentId) (hi : intents.get k = some i)
    (hres : (f i).reservedOrdinal = i.reservedOrdinal)
    (hholds : (f i).state.holds = true → i.state.holds = true) :
    OrdinalsInv orders (intents.modify k f hf) := by
  refine { h with apart := ?_ }
  intro k₁ o n k₂ x ho hn hx hh
  rcases get_modify_cases hf hx with ⟨-, r, hr, rfl⟩ | ⟨-, hx⟩
  · rw [hi] at hr
    cases hr
    rw [hres]
    exact h.apart k₁ o n k i ho hn hi (hholds hh)
  · exact h.apart k₁ o n k₂ x ho hn hx hh

theorem OrdinalsInv.insertIntent (h : OrdinalsInv orders intents) {t : Intents}
    (hi : intents.insert i = some t) (hfree : Free orders intents i.reservedOrdinal) :
    OrdinalsInv orders t := by
  refine { h with apart := ?_ }
  intro k o n k' x ho hn hx hh
  rcases get_insert_cases hi hx with ⟨-, rfl⟩ | hx
  · rintro rfl
    exact hfree.1 k o ho hn
  · exact h.apart k o n k' x ho hn hx hh

/-- An order is given a sale: a positive number at its own price that no other order
and no open intent holds. -/
theorem OrdinalsInv.allot (h : OrdinalsInv orders intents) {n : Nat}
    (hf : ∀ r, (f r).id = r.id) (ho : orders.get k = some o)
    (hn : (f o).saleOrdinal = some n) (hkeep : (f o).rail = o.rail ∧
      (f o).quotedAmountMinor = o.quotedAmountMinor) (hpos : 0 < n)
    (hquoted : o.quotedAmountMinor = amountFor o.rail n)
    (hclash : orders.clash k (fun r => r.saleOrdinal) o (f o) = false)
    (hfree : ∀ k' i, intents.get k' = some i → i.state.holds = true → i.reservedOrdinal ≠ n) :
    OrdinalsInv (orders.modify k f hf) intents := by
  constructor
  · intro k' x m hx hm
    rcases get_modify_cases hf hx with ⟨-, r, hr, rfl⟩ | ⟨-, hx⟩
    · rw [ho] at hr
      cases hr
      rw [hn] at hm
      cases hm
      rw [hkeep.1, hkeep.2]
      exact ⟨hpos, hquoted⟩
    · exact h.price k' x m hx hm
  · apply unique_modify hf h.sales
    intro r hr
    rw [ho] at hr
    cases hr
    exact hclash
  · intro k' x m k'' i hx hm hi hh
    rcases get_modify_cases hf hx with ⟨-, r, hr, rfl⟩ | ⟨-, hx⟩
    · rw [ho] at hr
      cases hr
      rw [hn] at hm
      cases hm
      exact hfree k'' i hi hh
    · exact h.apart k' x m k'' i hx hm hi hh

/-! Proofs -/

/-- Every transaction an order records has a row in `payment_proofs`. -/
def PaidInv (orders : Orders) (proofs : Proofs) : Prop :=
  ∀ k o tx, orders.get k = some o → o.txHash = some tx →
    ∃ h p, proofs.get h = some p ∧ p.txHash = some tx

theorem PaidInv.insertProof (h : PaidInv orders proofs) {t : Proofs}
    (hi : proofs.insert p = some t) : PaidInv orders t := by
  intro k o tx ho htx
  obtain ⟨ph, p', hp', hp'tx⟩ := h k o tx ho htx
  exact ⟨ph, p', get_insert_old hi hp', hp'tx⟩

theorem PaidInv.insertOrder (h : PaidInv orders proofs)
    (hi : orders.insert o = some t) (htx : o.txHash = none) : PaidInv t proofs := by
  intro k x tx hx hxtx
  rcases get_insert_cases hi hx with ⟨-, rfl⟩ | hx
  · rw [htx] at hxtx
    cases hxtx
  · exact h k x tx hx hxtx

theorem PaidInv.modifyOrder (h : PaidInv orders proofs) (hf : ∀ r, (f r).id = r.id)
    (hkeep : ∀ o tx, orders.get k = some o → (f o).txHash = some tx →
      o.txHash = some tx ∨ ∃ ph p, proofs.get ph = some p ∧ p.txHash = some tx) :
    PaidInv (orders.modify k f hf) proofs := by
  intro k' x tx hx hxtx
  rcases get_modify_cases hf hx with ⟨-, o, ho, rfl⟩ | ⟨-, hx⟩
  · rcases hkeep o tx ho hxtx with hsame | hproof
    · exact h k o tx ho hsame
    · exact hproof
  · exact h k' x tx hx hxtx

/-! The entitlement outbox -/

/-- What a row says of itself. -/
structure Entitlement.Wf (cfg : Config) (e : Entitlement) : Prop where
  prepared : e.phase = .crossingPrepared → e.state = .leased
  leased : e.state = .leased → e.leaseOwner.isSome = true
  delivered : e.state = .delivered → ∃ license, e.licenseId = some license ∧ license ≠ ""
  identity : e.identity = some cfg.identity ∧ e.identityStatus = .verified
  source : e.payload.source = "x402" ∧ e.payload.sourceId = sourceId cfg e.payload.orderId

def Fits (st : OrderState) (e : Entitlement) : Prop :=
  (st = .paymentConfirmed ∧ e.state ≠ .delivered) ∨ (st = .licenseIssued ∧ e.state = .delivered) ∨
    st.reversed = true

/-- The settled sale a payload states: the order's one intent, paid and finalized, its
ordinal and transaction on the order, its proof in `payment_proofs`. -/
def Backed (orders : Orders) (proofs : Proofs) (intents : Intents) (oid : String)
    (p : EntitlementPayload) : Prop :=
  ∃ o iid i q, orders.get oid = some o ∧ intents.get iid = some i ∧ i.orderId = oid ∧
    i.state = .finalizedPaid ∧ i.proofHash = p.proofHash ∧ i.txHash = some p.txHash ∧
    i.evidenceHash = some p.evidenceHash ∧ o.saleOrdinal = some i.reservedOrdinal ∧
    o.txHash = i.txHash ∧ proofs.get i.proofHash = some q ∧ q.orderId = oid ∧ q.txHash = i.txHash

def Entitled (cfg : Config) (orders : Orders) (proofs : Proofs) (intents : Intents) (oid : String)
    (e : Entitlement) : Prop :=
  e.Wf cfg ∧ (∃ o, orders.get oid = some o ∧ Fits o.state e) ∧ Backed orders proofs intents oid e.payload

def OutboxInv (cfg : Config) (orders : Orders) (proofs : Proofs) (intents : Intents)
    (entitlements : Entitlements) : Prop :=
  ∀ oid e, entitlements.get oid = some e → Entitled cfg orders proofs intents oid e

theorem Backed.sameOrder {p : EntitlementPayload} {o' : Order}
    (h : Backed orders proofs intents oid p) (ho : orders.get oid = some o)
    (ho' : orders'.get oid = some o') (hsale : o'.saleOrdinal = o.saleOrdinal)
    (htx : o'.txHash = o.txHash) : Backed orders' proofs intents oid p := by
  obtain ⟨x, iid, i, q, hx, hi, hoid, hst, h1, h2, h3, h4, h5, h6⟩ := h
  rw [ho] at hx
  cases hx
  exact ⟨o', iid, i, q, ho', hi, hoid, hst, h1, h2, h3, hsale.trans h4, htx.trans h5, h6⟩

theorem OutboxInv.change (h : OutboxInv cfg orders proofs intents entitlements)
    (hO : ∀ k', k' ≠ k → orders'.get k' = orders.get k')
    (hE : ∀ k', k' ≠ k → entitlements'.get k' = entitlements.get k')
    (hk : ∀ e, entitlements'.get k = some e → Entitled cfg orders' proofs intents k e) :
    OutboxInv cfg orders' proofs intents entitlements' := by
  intro oid e he
  by_cases hoid : oid = k
  · subst hoid
    exact hk e he
  · rw [hE oid hoid] at he
    obtain ⟨hwf, ⟨o, ho, hfit⟩, hb⟩ := h oid e he
    have ho' : orders'.get oid = some o := by rw [hO oid hoid, ho]
    exact ⟨hwf, ⟨o, ho', hfit⟩, hb.sameOrder ho ho' rfl rfl⟩

theorem OutboxInv.modifyOrder (h : OutboxInv cfg orders proofs intents entitlements)
    (hf : ∀ r, (f r).id = r.id)
    (hkeep : ∀ o e, orders.get k = some o → entitlements.get k = some e →
      (f o).saleOrdinal = o.saleOrdinal ∧ (f o).txHash = o.txHash ∧ Fits (f o).state e) :
    OutboxInv cfg (orders.modify k f hf) proofs intents entitlements := by
  apply h.change (k := k)
  · intro k' hk'
    exact get_modify_ne _ hk'
  · intro k' _
    rfl
  · intro e he
    obtain ⟨hwf, ⟨o, ho, -⟩, hb⟩ := h k e he
    obtain ⟨hsale, htx, hfit⟩ := hkeep o e ho he
    have ho' := get_modify_self hf ho
    exact ⟨hwf, ⟨f o, ho', hfit⟩, hb.sameOrder ho ho' hsale htx⟩

theorem OutboxInv.insertOrder (h : OutboxInv cfg orders proofs intents entitlements)
    (hi : orders.insert o = some t) : OutboxInv cfg t proofs intents entitlements := by
  intro oid e he
  obtain ⟨hwf, ⟨x, hx, hfit⟩, hb⟩ := h oid e he
  have hx' := get_insert_old hi hx
  exact ⟨hwf, ⟨x, hx', hfit⟩, hb.sameOrder hx hx' rfl rfl⟩

theorem OutboxInv.insertProof (h : OutboxInv cfg orders proofs intents entitlements)
    {t : Proofs} (hi : proofs.insert p = some t) : OutboxInv cfg orders t intents entitlements := by
  intro oid e he
  obtain ⟨hwf, hfit, o, iid, i, q, ho, hii, hoid, hst, h1, h2, h3, h4, h5, h6, h7⟩ := h oid e he
  exact ⟨hwf, hfit, o, iid, i, q, ho, hii, hoid, hst, h1, h2, h3, h4, h5, get_insert_old hi h6, h7⟩

theorem OutboxInv.insertIntent (h : OutboxInv cfg orders proofs intents entitlements)
    {t : Intents} (hi : intents.insert i = some t) : OutboxInv cfg orders proofs t entitlements := by
  intro oid e he
  obtain ⟨hwf, hfit, o, iid, x, q, ho, hx, hrest⟩ := h oid e he
  exact ⟨hwf, hfit, o, iid, x, q, ho, get_insert_old hi hx, hrest⟩

theorem OutboxInv.modifyIntent (h : OutboxInv cfg orders proofs intents entitlements)
    {f : Intent → Intent} (hf : ∀ r, (f r).intentId = r.intentId)
    (hi : intents.get k = some i) (hst : i.state ≠ .finalizedPaid) :
    OutboxInv cfg orders proofs (intents.modify k f hf) entitlements := by
  intro oid e he
  obtain ⟨hwf, hfit, o, iid, x, q, ho, hx, hoid, hxst, hrest⟩ := h oid e he
  have hne : iid ≠ k := by
    rintro rfl
    rw [hi] at hx
    cases hx
    exact hst hxst
  exact ⟨hwf, hfit, o, iid, x, q, ho, by rw [get_modify_ne hf hne, hx], hoid, hxst, hrest⟩

theorem OutboxInv.modifyEntitlement (h : OutboxInv cfg orders proofs intents entitlements)
    {f : Entitlement → Entitlement} (hf : ∀ r, (f r).payload.orderId = r.payload.orderId)
    (hkeep : ∀ e o, entitlements.get k = some e → orders.get k = some o →
      (f e).payload = e.payload ∧ (f e).Wf cfg ∧ Fits o.state (f e)) :
    OutboxInv cfg orders proofs intents (entitlements.modify k f hf) := by
  apply h.change (k := k)
  · intro k' _
    rfl
  · intro k' hk'
    exact get_modify_ne _ hk'
  · intro e he
    rcases get_modify_cases hf he with ⟨-, x, hx, rfl⟩ | ⟨hne, -⟩
    · obtain ⟨-, ⟨o, ho, -⟩, hb⟩ := h k x hx
      obtain ⟨hpay, hwf, hfit⟩ := hkeep x o hx ho
      rw [Entitled, hpay]
      exact ⟨hwf, ⟨o, ho, hfit⟩, hb⟩
    · exact absurd rfl hne

theorem OutboxInv.none_of_open (h : OutboxInv cfg orders proofs intents entitlements)
    (hI : IntentsInv cfg orders intents) (hi : intents.get k = some i)
    (hst : i.state ≠ .finalizedPaid) : entitlements.get i.orderId = none := by
  cases he : entitlements.get i.orderId with
  | none => rfl
  | some e =>
    exfalso
    obtain ⟨-, -, o, iid, x, q, -, hx, hoid, hxst, -⟩ := h i.orderId e he
    obtain ⟨-, rfl⟩ := hI.only hi hx hoid
    exact hst hxst

theorem OutboxInv.none_of_state (h : OutboxInv cfg orders proofs intents entitlements)
    (ho : orders.get k = some o) (h1 : o.state ≠ .paymentConfirmed)
    (h2 : o.state ≠ .licenseIssued) (h3 : o.state.reversed = false) : entitlements.get k = none := by
  cases he : entitlements.get k with
  | none => rfl
  | some e =>
    exfalso
    obtain ⟨-, ⟨x, hx, hfit⟩, -⟩ := h k e he
    rw [ho] at hx
    cases hx
    rcases hfit with ⟨hc, -⟩ | ⟨hc, -⟩ | hc
    · exact h1 hc
    · exact h2 hc
    · rw [h3] at hc
      cases hc

/-! The revocation outbox -/

/-- The revocation that answers the delivery of `license` for a reversed order. -/
def Answers (cfg : Config) (oid license : String) (e : Entitlement) (st : OrderState) (r : Revocation) :
    Prop :=
  r.payload.orderId = oid ∧ r.payload.licenseId = license ∧
    r.payload.entitlementPayloadDigest = payloadDigest cfg e.payload ∧ r.payload.action = st.action

structure RevocationInv (cfg : Config) (orders : Orders) (entitlements : Entitlements)
    (revocations : Revocations) : Prop where
  owed : ∀ oid e license o, entitlements.get oid = some e → e.state = .delivered →
    e.licenseId = some license → orders.get oid = some o → o.state.reversed = true →
    ∃ k r, revocations.get k = some r ∧ Answers cfg oid license e o.state r
  grounds : ∀ k r, revocations.get k = some r →
    ∃ o e, orders.get r.payload.orderId = some o ∧ o.state.reversed = true ∧
      entitlements.get r.payload.orderId = some e ∧ e.state = .delivered
  orderIds : revocations.Unique (fun r => some r.payload.orderId)

theorem RevocationInv.none_of_unreversed (h : RevocationInv cfg orders entitlements revocations)
    (ho : orders.get oid = some o) (hst : o.state.reversed = false) :
    ∀ k r, revocations.get k = some r → r.payload.orderId ≠ oid := by
  rintro k r hr rfl
  obtain ⟨x, e, hx, hrev, -⟩ := h.grounds k r hr
  rw [ho] at hx
  cases hx
  rw [hst] at hrev
  cases hrev

theorem RevocationInv.none_of_undelivered (h : RevocationInv cfg orders entitlements revocations)
    (hnot : ∀ e, entitlements.get oid = some e → e.state ≠ .delivered) :
    ∀ k r, revocations.get k = some r → r.payload.orderId ≠ oid := by
  rintro k r hr rfl
  obtain ⟨-, e, -, -, he, hst⟩ := h.grounds k r hr
  exact hnot e he hst

theorem RevocationInv.change (h : RevocationInv cfg orders entitlements revocations)
    (hO : ∀ k', k' ≠ k → orders'.get k' = orders.get k')
    (hE : ∀ k', k' ≠ k → entitlements'.get k' = entitlements.get k')
    (hnone : ∀ kr r, revocations.get kr = some r → r.payload.orderId ≠ k)
    (hquiet : ∀ e o, entitlements'.get k = some e → orders'.get k = some o → e.state = .delivered →
      o.state.reversed = false) :
    RevocationInv cfg orders' entitlements' revocations := by
  refine { owed := ?_, grounds := ?_, orderIds := h.orderIds }
  · intro oid e license o he hst hl ho hrev
    by_cases hoid : oid = k
    · subst hoid
      rw [hquiet e o he ho hst] at hrev
      cases hrev
    · rw [hE oid hoid] at he
      rw [hO oid hoid] at ho
      exact h.owed oid e license o he hst hl ho hrev
  · intro kr r hr
    have hne := hnone kr r hr
    rw [hO _ hne, hE _ hne]
    exact h.grounds kr r hr

/-- A delivery and a reversal have met under one id: the revocation queued for it is the
only one. -/
theorem RevocationInv.queue (h : RevocationInv cfg orders entitlements revocations)
    {e : Entitlement} {license : String} {r : Revocation} {t : Revocations}
    (hO : ∀ k', k' ≠ k → orders'.get k' = orders.get k')
    (hE : ∀ k', k' ≠ k → entitlements'.get k' = entitlements.get k')
    (hnone : ∀ kr x, revocations.get kr = some x → x.payload.orderId ≠ k)
    (he : entitlements'.get k = some e) (hst : e.state = .delivered) (hl : e.licenseId = some license)
    (ho : orders'.get k = some o) (hrev : o.state.reversed = true)
    (hr : Answers cfg k license e o.state r) (hi : revocations.insert r = some t)
    (hfree : revocations.taken r.payload.eventId (fun x => some x.payload.orderId) (some k) = false) :
    RevocationInv cfg orders' entitlements' t := by
  refine { owed := ?_, grounds := ?_, orderIds := ?_ }
  · intro oid x lic y hx hxst hxl hy hyrev
    by_cases hoid : oid = k
    · subst hoid
      rw [he] at hx
      rw [ho] at hy
      cases hx
      cases hy
      rw [hl] at hxl
      cases hxl
      exact ⟨_, r, get_insert_self hi, hr⟩
    · rw [hE oid hoid] at hx
      rw [hO oid hoid] at hy
      obtain ⟨kr, z, hz, ha⟩ := h.owed oid x lic y hx hxst hxl hy hyrev
      exact ⟨kr, z, get_insert_old hi hz, ha⟩
  · intro kr x hx
    rcases get_insert_cases hi hx with ⟨-, rfl⟩ | hx
    · rw [hr.1]
      exact ⟨o, e, ho, hrev, he, hst⟩
    · have hne := hnone kr x hx
      rw [hO _ hne, hE _ hne]
      exact h.grounds kr x hx
  · apply unique_insert h.orderIds hi
    rw [hr.1]
    exact hfree

theorem RevocationInv.modifyOrder (h : RevocationInv cfg orders entitlements revocations)
    (hf : ∀ r, (f r).id = r.id) (hkeep : ∀ o, (f o).state = o.state) :
    RevocationInv cfg (orders.modify k f hf) entitlements revocations := by
  refine { owed := ?_, grounds := ?_, orderIds := h.orderIds }
  · intro oid e license o he hst hl ho hrev
    rcases get_modify_cases hf ho with ⟨rfl, x, hx, rfl⟩ | ⟨-, hx⟩
    · rw [hkeep] at hrev ⊢
      exact h.owed oid e license x he hst hl hx hrev
    · exact h.owed oid e license o he hst hl hx hrev
  · intro kr r hr
    obtain ⟨o, e, ho, hrev, he, hst⟩ := h.grounds kr r hr
    obtain ⟨o', ho', rfl | ⟨-, rfl⟩⟩ := get_modify_exists k f hf ho
    · exact ⟨o', e, ho', hrev, he, hst⟩
    · exact ⟨f o, e, ho', by rw [hkeep, hrev], he, hst⟩

theorem RevocationInv.insertOrder (h : RevocationInv cfg orders entitlements revocations)
    (hi : orders.insert o = some t) (hnone : entitlements.get o.id = none) :
    RevocationInv cfg t entitlements revocations := by
  refine { owed := ?_, grounds := ?_, orderIds := h.orderIds }
  · intro oid e license x he hst hl hx hrev
    rcases get_insert_cases hi hx with ⟨rfl, rfl⟩ | hx
    · rw [hnone] at he
      cases he
    · exact h.owed oid e license x he hst hl hx hrev
  · intro kr r hr
    obtain ⟨x, e, hx, hrest⟩ := h.grounds kr r hr
    exact ⟨x, e, get_insert_old hi hx, hrest⟩

theorem RevocationInv.modifyRevocation (h : RevocationInv cfg orders entitlements revocations)
    {f : Revocation → Revocation} (hf : ∀ r, (f r).payload.eventId = r.payload.eventId)
    (hkeep : ∀ r, revocations.get k = some r → (f r).payload = r.payload) :
    RevocationInv cfg orders entitlements (revocations.modify k f hf) := by
  refine { owed := ?_, grounds := ?_, orderIds := ?_ }
  · intro oid e license o he hst hl ho hrev
    obtain ⟨kr, r, hr, ha⟩ := h.owed oid e license o he hst hl ho hrev
    obtain ⟨r', hr', rfl | ⟨rfl, rfl⟩⟩ := get_modify_exists k f hf hr
    · exact ⟨kr, r', hr', ha⟩
    · refine ⟨kr, f r, hr', ?_⟩
      rw [Answers, hkeep r hr]
      exact ha
  · intro kr x hx
    rcases get_modify_cases hf hx with ⟨-, r, hr, rfl⟩ | ⟨-, hx⟩
    · rw [hkeep r hr]
      exact h.grounds k r hr
    · exact h.grounds kr x hx
  · apply unique_modify hf h.orderIds
    intro r hr
    exact clash_same (by rw [hkeep r hr])

end GrowthMap.Payments
