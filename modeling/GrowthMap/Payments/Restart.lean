import GrowthMap.Payments.Finalization
import GrowthMap.Payments.Operations
import GrowthMap.Payments.StartTrust

/- Restarts.

   While publications succeed the checkpoint file is always that of the committed ledger,
   so a restart passes every check and comes to the settled intents. It finalizes them one
   after the other; each can be finalized exactly when its proof and its transaction are
   not in `payment_proofs` (`finalizeX402Intent_succeeds`, `finalizeX402Intent_raises`),
   and the finalization of one never stands in the way of another. -/
namespace GrowthMap.Payments

open Relational Transaction Runs Table
open Fallible (bind_ok)

variable {cfg : Config}

/-! Successful publications -/

/-- The file is the checkpoint of the committed ledger, the service is open, and the
coming publications succeed. -/
structure Trusted (cfg : Config) (w : World) : Prop where
  closed : w.conn.working = none
  checkpoint : w.checkpoint = .issuance (checkpointDocument cfg w.conn.committed)
  trusting : w.checkpointFailed = false
  publishing : ∀ p ∈ w.publications, p = .ok

variable {w w' w₁ : World} {α : Type} {body : Body α} {r : Except Err α} {P : String → Prop} {c c' : Core} {s : Sys}
  {e : Event} {l m : Ledger} {iid iid' tx : String} {i j : Intent} {clk : StartClock}

theorem Trusted.publication (h : Trusted cfg w) : w.publication = .ok := by
  have hall := h.publishing
  unfold World.publication
  cases hp : w.publications with
  | nil => rfl
  | cons p =>
    rw [hp] at hall
    exact hall p List.mem_cons_self

theorem Trusted.published (h : Trusted cfg w) (m : Ledger) : Trusted cfg (w.published cfg m) where
  closed := rfl
  checkpoint := rfl
  trusting := h.trusting
  publishing p hp := h.publishing p (List.mem_of_mem_tail hp)

theorem Ended.trusted (h : Ended cfg body w r w') (hw : Trusted cfg w) : Trusted cfg w' := by
  cases h with
  | refused => exact hw
  | left => exact hw
  | raised => exact hw
  | published m => exact hw.published m
  | lost m ht hb hp => exact absurd hw.publication hp

theorem trusted_kept (cfg : Config) : KeptByTransactions cfg (Trusted cfg) where
  transaction body w hw := (transaction_ended cfg body w hw.closed).trusted hw
  failOutbox clk row worker error maxAttempts w hw := by
    obtain ⟨r, hr⟩ := failOutbox_ended cfg clk row worker error maxAttempts w hw.closed
    exact hr.trusted hw

theorem applyWhopEvent_trusted (clk : Nat → Time) (eventId : String) (maxAttempts : Int) :
    Prog.Keeps (Trusted cfg) (applyWhopEvent cfg clk eventId maxAttempts) := by
  intro w hw
  have hended := applyWhopEvent_ended cfg clk eventId maxAttempts w hw.closed
  generalize (applyWhopEvent cfg clk eventId maxAttempts w).2 = w' at hended
  cases hended with
  | idle => exact hw
  | applied ev m => exact hw.published m
  | failed ev x m => exact hw.published m
  | failedLost m h ht hp => exact absurd hw.publication hp
  | resumed ev m m' w' ht hev hr hm hp => exact absurd hw.publication hp

/-! Runs whose publications succeed -/

/-- Schema 13, as the migrations leave it. -/
structure AtSchema13 (c : Core) : Prop where
  userVersion : c.userVersion = 13
  schema : c.schema = schema13
  migrationLedger : c.migrationLedger.rows = migrations

theorem AtSchema13.move (h : AtSchema13 c) (hm : Move cfg P c c') : AtSchema13 c' := by
  cases hm <;> exact ⟨h.userVersion, h.schema, h.migrationLedger⟩

theorem AtSchema13.moves (h : AtSchema13 c) (hm : Moves cfg P c c') : AtSchema13 c' := by
  induction hm with
  | refl => exact h
  | tail _ hlast ih => exact ih.move hlast

structure Healthy (cfg : Config) (s : Sys) : Prop where
  inv : SysInv cfg s
  current : AtSchema13 s.ledger.core
  checkpoint : s.checkpoint = .issuance (checkpointDocument cfg s.ledger)
  trusting : ∀ n, s.closed n = false

def Event.Publishes (e : Event) : Prop := ∀ p ∈ e.publications, p = .ok

theorem Sys.world_committed (s : Sys) (e : Event) : (s.world e).conn.committed = s.ledger := rfl

theorem Healthy.world (h : Healthy cfg s) (he : e.Publishes) : Trusted cfg (s.world e) where
  closed := rfl
  checkpoint := h.checkpoint
  trusting := h.trusting e.svc
  publishing := he

theorem ran_trusted (h : Trusted cfg (s.world e)) : Trusted cfg (ran cfg s e) := by
  unfold ran
  split
  · exact (trusted_kept cfg).transaction _ _ h
  · exact (trusted_kept cfg).failOutbox _ _ _ _ _ _ h
  · exact applyWhopEvent_trusted _ _ _ _ h
  · exact h
  · split
    · exact h
    · exact (trusted_kept cfg).deliverStep _ _ _ _ h

theorem Healthy.step (h : Healthy cfg s) (he : e.Publishes) :
    Healthy cfg (step cfg s e) where
  inv := step_inv h.inv e
  current := h.current.moves (step_moves h.inv e)
  checkpoint := (ran_trusted (h.world he)).checkpoint
  trusting n := by
    show (if n = e.svc then (ran cfg s e).checkpointFailed else s.closed n) = false
    split
    · exact (ran_trusted (h.world he)).trusting
    · exact h.trusting n

theorem initial_healthy (cfg : Config) : Healthy cfg (initial cfg) where
  inv := initial_inv cfg
  current := ⟨rfl, rfl, rfl⟩
  checkpoint := rfl
  trusting _ := rfl

theorem run_healthy (h : Healthy cfg s) {es : List Event} (hes : ∀ e ∈ es, e.Publishes) :
    Healthy cfg (run (step cfg) s es) := by
  induction es generalizing s with
  | nil => exact h
  | cons e es ih =>
    exact ih (h.step (hes e List.mem_cons_self)) (fun x hx => hes x (List.mem_cons_of_mem e hx))

/-! One transaction of a start-up -/

theorem verifyTerminalEvidence_of_inv (h : Inv cfg l.core) : verifyTerminalEvidence cfg l = .ok () := by
  unfold verifyTerminalEvidence
  rw [if_pos]
  rw [List.all_eq_true]
  intro i hi
  cases ht : i.state.terminal with
  | false => rfl
  | true =>
    have hbound := (h.intents.evidence i.intentId i (get_of_mem hi)).bound ht
    simp [hbound]

theorem verifyCheckpoint_document (cfg : Config) (l : Ledger) :
    verifyCheckpoint cfg (.issuance (checkpointDocument cfg l)) l = .ok () := by
  have hmac : (checkpointDocument cfg l).mac = issuanceMac cfg (checkpointDocument cfg l).count
      (checkpointDocument cfg l).root (checkpointDocument cfg l).schema (checkpointDocument cfg l).sequence
      (checkpointDocument cfg l).version := rfl
  unfold verifyCheckpoint
  simp only
  rw [if_neg (not_not.mpr hmac), if_neg (not_not.mpr rfl)]

theorem Trusted.trust (h : Trusted cfg w) (hinv : Inv cfg w.conn.committed.core) :
    trust cfg w = .ok () := by
  have hcur : w.conn.current = w.conn.committed := by
    unfold Conn.current
    rw [h.closed]
    rfl
  unfold Payments.trust
  rw [h.trusting, if_neg (by decide), hcur, h.checkpoint, verifyCheckpoint_document]
  exact verifyTerminalEvidence_of_inv hinv

/-- A transaction that decides to commit does, and returns or raises as it says. -/
theorem Trusted.ends (h : Trusted cfg w) (hinv : Inv cfg w.conn.committed.core)
    (hb : ending (body w.conn.committed) = some (m, r)) :
    transaction cfg body w = (r, w.published cfg m) := by
  have hended := transaction_ended cfg body w h.closed
  generalize transaction cfg body w = x at hended
  obtain ⟨x, w'⟩ := x
  have htrust := h.trust hinv
  cases hended with
  | refused e ht =>
    rw [htrust] at ht
    cases ht
  | left a' ht hb' =>
    rw [hb'] at hb
    cases hb
  | raised e ht hb' =>
    rw [hb'] at hb
    cases hb
  | published m' r' ht hb' =>
    rw [hb] at hb'
    cases hb'
    rfl
  | lost m' ht hb' hp => exact absurd h.publication hp

theorem Trusted.commits (h : Trusted cfg w) (hinv : Inv cfg w.conn.committed.core)
    {a : α} (hb : body w.conn.committed = .commit m a) :
    transaction cfg body w = (.ok a, w.published cfg m) :=
  h.ends hinv (by rw [hb]; rfl)

theorem Trusted.raises (h : Trusted cfg w) (hinv : Inv cfg w.conn.committed.core)
    {e : Err} (hb : body w.conn.committed = .raise e) :
    transaction cfg body w = (.error e, w) := by
  have hended := transaction_ended cfg body w h.closed
  generalize transaction cfg body w = r at hended
  obtain ⟨r, w'⟩ := r
  cases hended with
  | refused e' ht =>
    rw [h.trust hinv] at ht
    cases ht
  | left a' ht hb' =>
    rw [hb] at hb'
    cases hb'
  | raised e' ht hb' =>
    rw [hb] at hb'
    cases hb'
    rfl
  | published m' r' ht hb' =>
    rw [hb] at hb'
    cases hb'
  | lost m' ht hb' =>
    rw [hb] at hb'
    cases hb'

/-! The settled intents -/

def NoSettled (l : Ledger) : Prop := ∀ iid i, l.intents.get iid = some i → i.state ≠ .settled

theorem mem_settledIds :
    iid ∈ settledIds l ↔ ∃ i, l.intents.get iid = some i ∧ i.state = .settled := by
  unfold settledIds
  simp only [List.mem_map, List.mem_mergeSort, List.mem_filter, decide_eq_true_eq]
  constructor
  · rintro ⟨i, ⟨hi, hst⟩, rfl⟩
    exact ⟨i, get_of_mem hi, hst⟩
  · rintro ⟨i, hi, hst⟩
    exact ⟨i, ⟨get_mem hi, hst⟩, get_key hi⟩

theorem settledIds_nodup (l : Ledger) : (settledIds l).Nodup := by
  unfold settledIds
  have hperm := (List.mergeSort_perm (l.intents.rows.filter (fun i => decide (i.state = .settled)))
    (fun a b => decide (a.createdAt ≤ b.createdAt))).map (fun i => i.intentId)
  rw [hperm.nodup_iff]
  exact l.intents.distinct.sublist (List.filter_sublist.map _)

theorem settledIds_eq_nil (h : NoSettled l) : settledIds l = [] := by
  rw [List.eq_nil_iff_forall_not_mem]
  intro iid hiid
  obtain ⟨i, hi, hst⟩ := mem_settledIds.mp hiid
  exact h iid i hi hst

/-- What the finalization of one intent does to the intents and the proofs. -/
structure Finalized (iid : String) (i : Intent) (tx : String) (now : Time) (l m : Ledger) : Prop where
  found : l.intents.get iid = some i
  settled : i.state = .settled
  paid : i.txHash = some tx
  intents : m.intents = l.intents.modify iid (Intent.withState .finalizedPaid now) Intent.withState_intentId
  proofs : l.proofs.insert ⟨i.proofHash, .x402, i.orderId, some tx, now⟩ = some m.proofs
  orders : ∀ oid, (m.orders.get oid).isSome = (l.orders.get oid).isSome

theorem finalized_of_committed {clk : Nat → Time} (hinv : Inv cfg l.core)
    (h : (finalizeX402Intent cfg clk iid l).committed = some m) : ∃ i tx, Finalized iid i tx (clk 0) l m := by
  obtain ⟨i, o, tx, evidenceHash, payer, tp, te, hi, hst, htx, -, ho, hp, -, -, hcore⟩ :=
    finalizeX402Intent_ok hinv h
  refine ⟨i, tx, hi, hst, htx, congrArg Core.intents hcore, ?_, ?_⟩
  · rw [hp]
    exact congrArg some (congrArg Core.proofs hcore).symm
  · intro oid
    have horders : m.orders = l.orders.modify i.orderId (Order.confirmReserved i.reservedOrdinal tx (clk 0))
      Order.confirmReserved_id := congrArg Core.orders hcore
    rw [horders, get_modify]
    split
    · rw [Option.isSome_map]
    · rfl

variable {now : Time} {ids : List String}

theorem Finalized.kept
    (h : Finalized iid i tx now l m) (hne : iid' ≠ iid) (hj : l.intents.get iid' = some j) :
    m.intents.get iid' = some j := by
  rw [h.intents, get_modify_ne Intent.withState_intentId hne, hj]

theorem Finalized.other
    (h : Finalized iid i tx now l m) (hj : m.intents.get iid' = some j) (hst : j.state = .settled) :
    iid' ≠ iid ∧ l.intents.get iid' = some j := by
  rw [h.intents] at hj
  rcases get_modify_cases Intent.withState_intentId hj with ⟨-, r, -, rfl⟩ | hother
  · cases hst
  · exact hother

theorem Finalized.noReuse
    (h : Finalized iid i tx now l m) (hinv : Inv cfg l.core) (hl : NoReuse l) : NoReuse m := by
  intro iid' j hj hst
  obtain ⟨hne, hj'⟩ := h.other hj hst
  obtain ⟨hproof, htx⟩ := hl iid' j hj' hst
  obtain ⟨tx', htx'⟩ := isSome_of_truthy ((hinv.intents.evidence iid' j hj').paid (.inl hst)).1
  constructor
  · rw [get_insert h.proofs, if_neg, hproof]
    intro heq
    exact hne (hinv.intents.proofs iid' iid j i _ hj' h.found rfl (congrArg some heq.symm))
  · intro k p hp heq
    rcases get_insert_cases h.proofs hp with ⟨-, rfl⟩ | hp'
    · exact hne (hinv.intents.txs iid' iid j i tx' hj' h.found htx' (h.paid.trans (heq.trans htx')))
    · exact htx k p hp' heq

theorem Finalized.stuck {iid : String} {i : Intent} {tx : String} {now : Time} {l m : Ledger}
    (h : Finalized iid i tx now l m) {iid' : String} {j : Intent} (hne : iid' ≠ iid)
    (hj : l.intents.get iid' = some j) (hun : ¬ Unproven l j) :
    m.intents.get iid' = some j ∧ ¬ Unproven m j := by
  refine ⟨h.kept hne hj, ?_⟩
  rintro ⟨hproof, htx⟩
  refine hun ⟨?_, ?_⟩
  · cases hc : l.proofs.get j.proofHash with
    | none => rfl
    | some =>
      rw [get_insert_old h.proofs hc] at hproof
      cases hproof
  · intro k p hp
    exact htx k p (get_insert_old h.proofs hp)

/-- A start-up's world at one of its transactions. -/
structure Starting (cfg : Config) (w : World) : Prop where
  trusted : Trusted cfg w
  inv : Inv cfg w.conn.committed.core
  current : AtSchema13 w.conn.committed.core

theorem Starting.published (h : Starting cfg w)
    (hm : Moves cfg P w.conn.committed.core m.core) : Starting cfg (w.published cfg m) where
  trusted := h.trusted.published m
  inv := moves_inv h.inv hm
  current := h.current.moves hm

/-- `recover_durable_settlements` finalizes every settled intent, if it can. -/
theorem finalizeAll_succeeds (clks : Nat → Nat → Time) (hw : Starting cfg w)
    (hsrc : SourceIdsDiffer cfg w.conn.committed) (hfresh : NoReuse w.conn.committed)
    (hids : ∀ iid ∈ ids, ∃ i, w.conn.committed.intents.get iid = some i ∧ i.state = .settled)
    (hnodup : ids.Nodup)
    (hall : ∀ iid i, w.conn.committed.intents.get iid = some i → i.state = .settled → iid ∈ ids) :
    ∃ w', finalizeAll cfg clks ids w = (.ok (), w') ∧ Starting cfg w' ∧ NoSettled w'.conn.committed := by
  induction ids generalizing w with
  | nil =>
    refine ⟨w, rfl, hw, ?_⟩
    intro iid i hi hst
    exact absurd (hall iid i hi hst) List.not_mem_nil
  | cons iid rest ih =>
    obtain ⟨i, hi, hst⟩ := hids iid List.mem_cons_self
    rw [List.nodup_cons] at hnodup
    obtain ⟨m, a, hm⟩ := finalizeX402Intent_succeeds (clks rest.length) hw.inv hsrc hi hst (hfresh iid i hi hst)
    have hcommitted : (finalizeX402Intent cfg (clks rest.length) iid w.conn.committed).committed = some m := by
      rw [hm]
      rfl
    obtain ⟨i', tx, hfin⟩ := finalized_of_committed hw.inv hcommitted
    have hnext : Starting cfg (w.published cfg m) := hw.published (finalizeX402Intent_moves hw.inv hcommitted)
    have hsrc' : SourceIdsDiffer cfg (w.published cfg m).conn.committed := by
      intro x y hx hy
      exact hsrc x y (by rw [← hfin.orders]; exact hx) (by rw [← hfin.orders]; exact hy)
    have hrest : ∀ iid' ∈ rest, ∃ j, m.intents.get iid' = some j ∧ j.state = .settled := by
      intro iid' hiid'
      obtain ⟨j, hj, hjst⟩ := hids iid' (List.mem_cons_of_mem iid hiid')
      have hne : iid' ≠ iid := by
        rintro rfl
        exact hnodup.1 hiid'
      exact ⟨j, hfin.kept hne hj, hjst⟩
    have hothers : ∀ iid' j, m.intents.get iid' = some j → j.state = .settled → iid' ∈ rest := by
      intro iid' j hj hjst
      obtain ⟨hne, hj'⟩ := hfin.other hj hjst
      exact (List.mem_cons.mp (hall iid' j hj' hjst)).resolve_left hne
    obtain ⟨w', hrun, hw', hnone⟩ := ih hnext hsrc' (hfin.noReuse hw.inv hfresh) hrest hnodup.2 hothers
    refine ⟨w', ?_, hw', hnone⟩
    unfold finalizeAll
    rw [Prog.bind_apply, hw.trusted.commits hw.inv hm]
    exact hrun

/-- An intent that cannot be finalized stops it. -/
theorem finalizeAll_raises (clks : Nat → Nat → Time) (hw : Starting cfg w)
    (hids : ∀ iid ∈ ids, ∃ i, w.conn.committed.intents.get iid = some i ∧ i.state = .settled)
    (hnodup : ids.Nodup) (hmem : iid ∈ ids)
    (hi : w.conn.committed.intents.get iid = some i) (hst : i.state = .settled)
    (hun : ¬ Unproven w.conn.committed i) :
    ∃ e w', finalizeAll cfg clks ids w = (.error e, w') := by
  induction ids generalizing w with
  | nil => cases hmem
  | cons first rest ih =>
    rw [List.nodup_cons] at hnodup
    have hrest := fun iid' h => hids iid' (List.mem_cons_of_mem first h)
    unfold finalizeAll
    rw [Prog.bind_apply]
    have hended := transaction_ended cfg (finalizeX402Intent cfg (clks rest.length) first) w hw.trusted.closed
    by_cases hfirst : iid = first
    · subst hfirst
      obtain ⟨e, he⟩ := finalizeX402Intent_raises cfg (clks rest.length) hi hst hun
      rw [hw.trusted.raises hw.inv he]
      exact ⟨e, w, rfl⟩
    · have hlater : iid ∈ rest := (List.mem_cons.mp hmem).resolve_left hfirst
      generalize transaction cfg (finalizeX402Intent cfg (clks rest.length) first) w = r at hended
      obtain ⟨r, w'⟩ := r
      cases hended with
      | refused e => exact ⟨e, _, rfl⟩
      | left => exact ih hw hrest hnodup.2 hlater hi hun
      | raised e => exact ⟨e, _, rfl⟩
      | lost => exact ⟨publicationFailed, _, rfl⟩
      | published m r ht hb =>
        cases r with
        | error e => exact ⟨e, _, rfl⟩
        | ok =>
          -- the intents left are still settled, this one still with a proof in its way
          have hcommitted := ending_committed hb
          obtain ⟨i', tx, hfin⟩ := finalized_of_committed hw.inv hcommitted
          obtain ⟨hi', hun'⟩ := hfin.stuck hfirst hi hun
          refine ih (hw.published (finalizeX402Intent_moves hw.inv hcommitted)) ?_ hnodup.2 hlater hi' hun'
          intro iid' hiid'
          obtain ⟨j, hj, hjst⟩ := hrest iid' hiid'
          have hne : iid' ≠ first := by
            rintro rfl
            exact hnodup.1 hiid'
          exact ⟨j, hfin.kept hne hj, hjst⟩

/-! The expired intents -/

/-- The sweep never fails, and leaves no intent settled that was not. -/
theorem expireIntents_succeeds (now : Time) : ∀ (rows : List Intent) {l : Ledger},
    Inv cfg l.core → (rows.map (fun i => i.intentId)).Nodup →
    (∀ i ∈ rows, l.intents.get i.intentId = some i ∧ i.state = .prepared) → NoSettled l →
    ∃ l', expireIntents cfg now rows l = .ok l' ∧ NoSettled l' := by
  intro rows
  induction rows with
  | nil =>
    intro l _ _ _ hnone
    exact ⟨l, rfl, hnone⟩
  | cons i rest ih =>
    intro l hinv hnodup hrows hnone
    obtain ⟨hi, hst⟩ := hrows i List.mem_cons_self
    rw [List.map_cons, List.nodup_cons] at hnodup
    have hpass : intentRefuses l.intents i.intentId i (i.withState .ambiguous now) = none := by
      apply withState_passes
      · intro h
        cases h
      · rw [hst]
        exact .inl rfl
      · rw [hst]
        exact ⟨by decide, by decide⟩
    have h₁ : setIntentState i.intentId .ambiguous now l = .ok { l with
        intents := l.intents.modify i.intentId (Intent.withState .ambiguous now) Intent.withState_intentId } :=
      updateIntent_succeeds hi hpass
    obtain ⟨o, ho, -⟩ := hinv.intents.order i.intentId i hi
    replace ho : l.orders.get i.orderId = some o := ho
    have h₂ : setOrderState i.orderId .manualReview now { l with
        intents := l.intents.modify i.intentId (Intent.withState .ambiguous now) Intent.withState_intentId } =
        .ok { l with
          intents := l.intents.modify i.intentId (Intent.withState .ambiguous now) Intent.withState_intentId,
          orders := l.orders.modify i.orderId (Order.withState .manualReview now) Order.withState_id } :=
      updateOrder_succeeds ho (withState_order_passes hinv ho _ _)
    have hmove : Move cfg (fun _ => True) l.core _ := ambiguate_moves hinv hi hst h₁ h₂ trivial
    have hnext := ih (l := audit cfg now "recovery" "settlement_intent.lease_expired" i.orderId
      [("intent_id", .str i.intentId)] { l with
        intents := l.intents.modify i.intentId (Intent.withState .ambiguous now) Intent.withState_intentId,
        orders := l.orders.modify i.orderId (Order.withState .manualReview now) Order.withState_id })
      (move_inv hinv hmove) hnodup.2 ?_ ?_
    · obtain ⟨l', hl', hnone'⟩ := hnext
      refine ⟨l', ?_, hnone'⟩
      rw [expireIntents, h₁]
      show (setOrderState i.orderId .manualReview now _ >>= _) = _
      rw [h₂]
      exact hl'
    · intro j hj
      obtain ⟨hj', hjst⟩ := hrows j (List.mem_cons_of_mem i hj)
      have hne : j.intentId ≠ i.intentId := by
        intro heq
        exact hnodup.1 (List.mem_map.mpr ⟨j, hj, heq⟩)
      refine ⟨?_, hjst⟩
      show (l.intents.modify i.intentId _ Intent.withState_intentId).get j.intentId = some j
      rw [get_modify_ne Intent.withState_intentId hne, hj']
    · intro k j hj hjst
      rcases get_modify_cases Intent.withState_intentId hj with ⟨-, r, -, rfl⟩ | ⟨-, hj'⟩
      · cases hjst
      · exact hnone k j hj' hjst

theorem expired_rows (l : Ledger) (now : Time) :
    ((l.intents.rows.filter (leaseExpired now)).map (fun i => i.intentId)).Nodup ∧
      ∀ i ∈ l.intents.rows.filter (leaseExpired now),
        l.intents.get i.intentId = some i ∧ i.state = .prepared := by
  refine ⟨l.intents.distinct.sublist (List.filter_sublist.map _), ?_⟩
  intro i hi
  obtain ⟨hmem, hexp⟩ := List.mem_filter.mp hi
  simp only [leaseExpired, Bool.and_eq_true, decide_eq_true_eq] at hexp
  exact ⟨get_of_mem hmem, hexp.1⟩

/-- `reconcile_expired_intents` commits. -/
theorem reconcileExpiredIntents_succeeds (clk : Nat → Time) (hinv : Inv cfg l.core) (hnone : NoSettled l) :
    ∃ m, reconcileExpiredIntents cfg clk l = .commit m () ∧ NoSettled m := by
  obtain ⟨hnodup, hrows⟩ := expired_rows l (clk 0)
  obtain ⟨m, hm, hnone'⟩ := expireIntents_succeeds (clk 0) _ hinv hnodup hrows hnone
  refine ⟨m, ?_, hnone'⟩
  unfold reconcileExpiredIntents
  rw [hm]
  rfl

/-! The start-up -/

theorem migrationLedgerMatches_of_rows (h : l.migrationLedger.rows = migrations) :
    migrationLedgerMatches 13 l = true := by
  have hall : supportedLedger 13 = migrations := rfl
  unfold migrationLedgerMatches
  rw [hall, h, Bool.and_self, List.all_eq_true]
  intro m hm
  exact decide_eq_true hm

theorem checkStored_current (cfg : Config) (file : CheckpointFile) (h : AtSchema13 l.core) :
    checkStored cfg file l = .ok () := by
  have hversion : l.userVersion = 13 := h.userVersion
  have hschema : l.schema = schema13 := h.schema
  have hmatches := migrationLedgerMatches_of_rows h.migrationLedger
  unfold checkStored
  rw [hversion, hschema, hmatches]
  rfl

theorem requireTables_current (ts : List TableName) (h : AtSchema13 l.core) :
    requireTables ts l = .ok () := by
  have hschema : l.schema = schema13 := h.schema
  unfold requireTables
  rw [hschema, if_pos]
  rw [List.all_eq_true]
  intro t _
  rfl

theorem Starting.conn (h : Starting cfg w) : w.conn = ⟨w.conn.committed, none⟩ := by
  rw [← h.trusted.closed]

theorem Starting.current_eq (h : Starting cfg w) : w.conn.current = w.conn.committed := by
  rw [h.conn]
  rfl

theorem upgrade_eq {now : Nat → Time} (hstored : checkStored cfg w.checkpoint w.conn.current = .ok ())
    (hmigrate : migrateTo cfg now (targets w.conn.current.userVersion) w = (.ok (), w'))
    (htables : requireTables [.migrationLedger] w'.conn.current = .ok ())
    (hledger : migrationLedgerMatches schemaVersion w'.conn.current = true) :
    upgrade cfg now w =
      (.ok (decide (w.conn.current.userVersion < schemaVersion)), { w' with conn := w'.conn.commit }) := by
  have hbody : (do
      let l ← Payments.current
      ofExcept (checkStored cfg (← checkpointFile) l)
      migrateTo cfg now (targets l.userVersion)
      let l' ← Payments.current
      ofExcept (requireTables [.migrationLedger] l')
      ofExcept (if migrationLedgerMatches schemaVersion l' then .ok () else .error ledgerMismatch)
      return decide (l.userVersion < schemaVersion) : Py Bool) w =
        (.ok (decide (w.conn.current.userVersion < schemaVersion)), w') := by
    refine Prog.bind_eq_ok.mpr ⟨w.conn.current, w, rfl, ?_⟩
    refine Prog.bind_eq_ok.mpr ⟨w.checkpoint, w, rfl, ?_⟩
    refine Prog.bind_eq_ok.mpr ⟨(), w, by rw [hstored]; rfl, ?_⟩
    refine Prog.bind_eq_ok.mpr ⟨(), w', hmigrate, ?_⟩
    refine Prog.bind_eq_ok.mpr ⟨w'.conn.current, w', rfl, ?_⟩
    refine Prog.bind_eq_ok.mpr ⟨(), w', by rw [htables]; rfl, ?_⟩
    exact Prog.bind_eq_ok.mpr ⟨(), w', by rw [hledger]; rfl, rfl⟩
  unfold upgrade withDb
  rw [hbody]

/-- Nothing is migrated and nothing written. -/
theorem Starting.establish (h : Starting cfg w) (now : Nat → Time) :
    establish cfg now w = (.ok (), w) := by
  have hversion : w.conn.current.userVersion = 13 := by
    rw [h.current_eq]
    exact h.current.userVersion
  have hstored : checkStored cfg w.checkpoint w.conn.current = .ok () := by
    rw [h.current_eq]
    exact checkStored_current cfg w.checkpoint h.current
  have htables : requireTables [.migrationLedger] w.conn.current = .ok () := by
    rw [h.current_eq]
    exact requireTables_current _ h.current
  have hledger : migrationLedgerMatches schemaVersion w.conn.current = true := by
    rw [h.current_eq]
    exact migrationLedgerMatches_of_rows h.current.migrationLedger
  have hnone : targets w.conn.current.userVersion = [] := by
    rw [hversion]
    rfl
  have hcommit : { w with conn := w.conn.commit } = w := by
    rw [Conn.commit, h.current_eq, ← h.conn]
  have hsame : migrateTo cfg now (targets w.conn.current.userVersion) w = (.ok (), w) := by
    rw [hnone]
    rfl
  unfold Payments.establish
  rw [Prog.bind_apply, upgrade_eq hstored hsame htables hledger, hversion]
  show (Except.ok (), { w with conn := w.conn.commit }) = (Except.ok (), w)
  rw [hcommit]

theorem Starting.verify (h : Starting cfg w) : verifyStored cfg w = (.ok (), w) := by
  unfold verifyStored
  rw [h.current_eq, requireTables_current _ h.current]
  simp only
  rw [assertTerminalTrust_apply, h.trusted.trust h.inv]

theorem init_eq (he : establish cfg clk.migration w = (.ok (), w₁)) (h : Starting cfg w₁) :
    init cfg clk w = (finalizeAll cfg clk.finalize (settledIds w₁.conn.committed) >>= fun _ =>
      transaction cfg (reconcileExpiredIntents cfg clk.expire)) w₁ := by
  have hcur : (current >>= fun l => finalizeAll cfg clk.finalize (settledIds l)) w₁ =
      finalizeAll cfg clk.finalize (settledIds w₁.conn.committed) w₁ := by
    rw [← h.current_eq]
    rfl
  unfold init
  rw [Prog.bind_apply, he]
  simp only
  rw [Prog.bind_apply, h.verify]
  simp only
  rw [Prog.bind_apply, Prog.bind_apply, recoverDurableSettlements, hcur]

theorem init_quiet (he : establish cfg clk.migration w = (.ok (), w₁))
    (h : Starting cfg w₁) (hnone : NoSettled w₁.conn.committed)
    (hlive : ∀ i ∈ w₁.conn.committed.intents.rows, leaseExpired (clk.expire 0) i = false) :
    init cfg clk w = (.ok (), w₁.published cfg w₁.conn.committed) := by
  have hsweep : reconcileExpiredIntents cfg clk.expire w₁.conn.committed = .commit w₁.conn.committed () := by
    have hrows : w₁.conn.committed.intents.rows.filter (leaseExpired (clk.expire 0)) = [] := by
      rw [List.filter_eq_nil_iff]
      intro i hi
      rw [hlive i hi]
      decide
    unfold reconcileExpiredIntents
    rw [hrows]
    rfl
  rw [init_eq he h, settledIds_eq_nil hnone]
  exact h.trusted.commits h.inv hsweep

theorem Starting.init_succeeds (h : Starting cfg w) (clk : StartClock)
    (hsrc : SourceIdsDiffer cfg w.conn.committed) (hfresh : NoReuse w.conn.committed) :
    ∃ w', init cfg clk w = (.ok (), w') ∧ Starting cfg w' ∧ NoSettled w'.conn.committed := by
  obtain ⟨w₁, hrun, hw₁, hnone⟩ := finalizeAll_succeeds clk.finalize h hsrc hfresh
    (fun iid hiid => mem_settledIds.mp hiid) (settledIds_nodup _) (fun iid i hi hst => mem_settledIds.mpr ⟨i, hi, hst⟩)
  obtain ⟨m, hm, hnone'⟩ := reconcileExpiredIntents_succeeds clk.expire hw₁.inv hnone
  have hcommitted : (reconcileExpiredIntents cfg clk.expire w₁.conn.committed).committed = some m := by
    rw [hm]
    rfl
  refine ⟨w₁.published cfg m, ?_, hw₁.published (reconcileExpiredIntents_moves hw₁.inv hcommitted), hnone'⟩
  rw [init_eq (h.establish _) h, Prog.bind_apply, hrun]
  exact hw₁.trusted.commits hw₁.inv hm

theorem Starting.init_raises (h : Starting cfg w) (clk : StartClock)
    (hreuse : ¬ NoReuse w.conn.committed) : ∃ e w', init cfg clk w = (.error e, w') := by
  unfold NoReuse at hreuse
  push Not at hreuse
  obtain ⟨iid, i, hi, hst, hun⟩ := hreuse
  obtain ⟨e, w', hrun⟩ := finalizeAll_raises clk.finalize h (fun iid hiid => mem_settledIds.mp hiid)
    (settledIds_nodup _) (mem_settledIds.mpr ⟨i, hi, hst⟩) hi hst hun
  refine ⟨e, w', ?_⟩
  rw [init_eq (h.establish _) h, Prog.bind_apply, hrun]

theorem Healthy.opened (h : Healthy cfg s) : Starting cfg (opened s.ledger s.checkpoint []) where
  trusted := { closed := rfl, checkpoint := h.checkpoint, trusting := rfl, publishing := fun _ hp => by cases hp }
  inv := h.inv.core
  current := h.current

/-! The first start -/

theorem migrateTo_of_all {now : Nat → Time} {ns : List Nat} (hw : w.conn = ⟨l, none⟩)
    (h : migrateAll cfg now ns l = .ok m) : migrateTo cfg now ns w = (.ok (), { w with conn := ⟨m, none⟩ }) := by
  induction ns generalizing w l with
  | nil =>
    cases h
    rw [← hw]
    rfl
  | cons n ns ih =>
    obtain ⟨l', hl', h⟩ := bind_ok h
    have hstatement : statement (applyMigration cfg (now n) n) { w with conn := ⟨l, some l⟩ } =
        (.ok (), { w with conn := ⟨l, some l'⟩ }) := by
      unfold statement
      simp only [Conn.current_open, hl', Conn.exec_open]
    unfold migrateTo
    refine Prog.bind_eq_ok.mpr ⟨(), { w with conn := ⟨l, some l⟩ }, by rw [beginImmediate, hw]; rfl, ?_⟩
    refine Prog.bind_eq_ok.mpr ⟨(), _, hstatement, ?_⟩
    exact Prog.bind_eq_ok.mpr ⟨(), { w with conn := ⟨l', none⟩ }, rfl, ih rfl h⟩

theorem eq_schema13 {s : Schema} (ht : ∀ t, s.tables t = true) (ho : ∀ o, s.objects o = some (lastWritten o)) :
    s = schema13 := by
  obtain ⟨tables, objects⟩ := s
  rw [schema13, Schema.mk.injEq]
  exact ⟨funext ht, funext ho⟩

theorem migrateAll_blank (cfg : Config) (now : Nat → Time) :
    migrateAll cfg now (targets 0) blankLedger = .ok freshLedger := by
  have h : ∃ s, migrateAll cfg now (targets 0) blankLedger = .ok { freshLedger with schema := s } ∧ s = schema13 := by
    refine ⟨_, rfl, eq_schema13 ?_ ?_⟩
    · intro t
      cases t <;> rfl
    · intro o
      cases o <;> rfl
  obtain ⟨s, hs, rfl⟩ := h
  exact hs

/-- A first construction, over an empty file and without a checkpoint, leaves the state
every run begins in. -/
theorem first_start (cfg : Config) (clk : StartClock) :
    ∃ w, init cfg clk (opened blankLedger .missing []) = (.ok (), w) ∧
      w.conn.committed = (initial cfg).ledger ∧ w.checkpoint = (initial cfg).checkpoint := by
  have hfresh : AtSchema13 freshLedger.core := ⟨rfl, rfl, rfl⟩
  have hmigrate : migrateTo cfg clk.migration (targets 0) (opened blankLedger .missing []) =
      (.ok (), opened freshLedger .missing []) := migrateTo_of_all rfl (migrateAll_blank cfg clk.migration)
  have hupgrade : upgrade cfg clk.migration (opened blankLedger .missing []) =
      (.ok true, opened freshLedger .missing []) :=
    upgrade_eq (w := opened blankLedger .missing []) rfl hmigrate (requireTables_current _ hfresh)
      (migrationLedgerMatches_of_rows rfl)
  have hestablish : establish cfg clk.migration (opened blankLedger .missing []) =
      (.ok (), opened freshLedger (.issuance (checkpointDocument cfg freshLedger)) []) := by
    unfold establish
    rw [Prog.bind_apply, hupgrade]
    show writeCheckpoint cfg (opened freshLedger .missing []) = _
    rfl
  have hstarting : Starting cfg (opened freshLedger (.issuance (checkpointDocument cfg freshLedger)) []) :=
    { trusted := { closed := rfl, checkpoint := rfl, trusting := rfl, publishing := fun _ hp => by cases hp },
      inv := fresh_inv cfg, current := hfresh }
  refine ⟨_, init_quiet hestablish hstarting ?_ ?_, rfl, rfl⟩
  · intro iid i hi
    cases hi
  · intro i hi
    cases hi

/-! Any later start -/

/-- Constructing the service over a database and its checkpoint file returns, at any time,
and leaves no intent settled; constructing it once more, before another lease has run out,
adds one to the sequence and changes nothing else. -/
def Restarts (cfg : Config) (l : Ledger) (file : CheckpointFile) : Prop :=
  ∀ clk, ∃ w, init cfg clk (opened l file []) = (.ok (), w) ∧ NoSettled w.conn.committed ∧
    ∀ clk', (∀ i ∈ w.conn.committed.intents.rows, leaseExpired (clk'.expire 0) i = false) →
      ∃ w', init cfg clk' (opened w.conn.committed w.checkpoint []) = (.ok (), w') ∧
        w'.conn.committed = bumpSequence w.conn.committed

/-- After every run of operations whose publications succeed: the service can be restarted
exactly when no settled intent's proof or transaction is in `payment_proofs`. -/
theorem restarts_iff_no_reuse {es : List Event} (hes : ∀ e ∈ es, e.Publishes)
    (hsrc : SourceIdsDiffer cfg (run (step cfg) (initial cfg) es).ledger) :
    Restarts cfg (run (step cfg) (initial cfg) es).ledger (run (step cfg) (initial cfg) es).checkpoint ↔
      NoReuse (run (step cfg) (initial cfg) es).ledger := by
  have hstart := (run_healthy (initial_healthy cfg) hes).opened
  constructor
  · intro hrestarts
    by_contra hreuse
    obtain ⟨w, hw, -⟩ := hrestarts ⟨fun _ => 0, fun _ _ => 0, fun _ => 0⟩
    obtain ⟨e, w', hw'⟩ := hstart.init_raises ⟨fun _ => 0, fun _ _ => 0, fun _ => 0⟩ hreuse
    rw [hw'] at hw
    cases hw
  · intro hfresh clk
    obtain ⟨w, hw, hnext, hnone⟩ := hstart.init_succeeds clk hsrc hfresh
    refine ⟨w, hw, hnone, ?_⟩
    intro clk' hlive
    have hagain : Starting cfg (opened w.conn.committed w.checkpoint []) :=
      { trusted := { closed := rfl, checkpoint := hnext.trusted.checkpoint, trusting := rfl,
                     publishing := fun _ hp => by cases hp },
        inv := hnext.inv, current := hnext.current }
    exact ⟨_, init_quiet (hagain.establish _) hagain hnone hlive, rfl⟩

namespace Demo

def settled : List Event := sale.take 3

/-- The order is also confirmed directly, with the same proof and transaction. -/
def reused : List Event :=
  sale.take 2 ++ [event 2 (.tx (.confirmPaymentAndAllocateSale "o" "p" 10000000 "USDC" none (some "t") "a"))] ++
    (sale.drop 2).take 1

end Demo

/-- While publications succeed the file is that of the committed ledger, and no service closes. -/
theorem checkpoint_stays_current {es : List Event} (hes : ∀ e ∈ es, e.Publishes) :
    (run (step cfg) (initial cfg) es).checkpoint =
        .issuance (checkpointDocument cfg (run (step cfg) (initial cfg) es).ledger) ∧
      ∀ svc, (run (step cfg) (initial cfg) es).closed svc = false := by
  have h := run_healthy (initial_healthy cfg) hes
  exact ⟨h.checkpoint, h.trusting⟩

theorem settled_sale_stays_current :
    (Demo.after Demo.settled).checkpoint = .issuance (checkpointDocument Demo.config (Demo.after Demo.settled).ledger) ∧
      ∀ svc, (Demo.after Demo.settled).closed svc = false := by
  refine checkpoint_stays_current ?_
  have hnone : ∀ e ∈ Demo.settled, e.publications = [] := by decide
  intro e he p hp
  rw [hnone e he] at hp
  cases hp

/-- The settled sale is stopped before it is finalized and restarted. -/
theorem settled_sale_restarts :
    Restarts Demo.config (Demo.after Demo.settled).ledger (Demo.after Demo.settled).checkpoint := by
  have hpublish : ∀ e ∈ Demo.settled, e.Publishes := by
    have hnone : ∀ e ∈ Demo.settled, e.publications = [] := by decide
    intro e he p hp
    rw [hnone e he] at hp
    cases hp
  have horders : (Demo.after Demo.settled).ledger.orders.rows.map (fun o => o.id) = ["o"] := by decide +kernel
  have hone : ∀ a, ((Demo.after Demo.settled).ledger.orders.get a).isSome = true → a = "o" := by
    intro a ha
    obtain ⟨o, ho⟩ := Option.isSome_iff_exists.mp ha
    have hmem : a ∈ (Demo.after Demo.settled).ledger.orders.rows.map (fun o => o.id) :=
      List.mem_map.mpr ⟨o, Table.get_mem ho, Table.get_key ho⟩
    rw [horders] at hmem
    exact List.mem_singleton.mp hmem
  have hproofs : (Demo.after Demo.settled).ledger.proofs.rows = [] := by decide +kernel
  have hget : ∀ k, (Demo.after Demo.settled).ledger.proofs.get k = none := by
    intro k
    rw [Table.get_eq_none, hproofs]
    exact List.not_mem_nil
  refine (restarts_iff_no_reuse hpublish ?_).mpr ?_
  · intro a b ha hb _
    rw [hone a ha, hone b hb]
  · intro iid i _ _
    refine ⟨hget _, ?_⟩
    intro h p hp
    cases (hget h).symm.trans hp

/-- The database of the order confirmed twice cannot be opened again. -/
theorem reused_transaction_blocks_restart :
    (∀ e ∈ Demo.reused, e.publications = []) ∧
    ¬ Restarts Demo.config (Demo.after Demo.reused).ledger (Demo.after Demo.reused).checkpoint := by
  refine ⟨by decide, ?_⟩
  intro h
  obtain ⟨w, hw, -⟩ := h (Demo.starting 9)
  have hraises : (init Demo.config (Demo.starting 9)
      (opened (Demo.after Demo.reused).ledger (Demo.after Demo.reused).checkpoint [])).1 ≠ .ok () := by
    decide +kernel
  exact hraises (congrArg Prod.fst hw)

end GrowthMap.Payments
