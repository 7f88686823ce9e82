import GrowthMap.Payments.Preservation

/- The bodies of orders and settlement refine the abstract machine: what a body commits
   is reached by moves from what it saw, one lemma per body. First what each statement
   of the schema has done when it returns; the later proofs see nothing else of it. The
   invariant is assumed where a body trusts the ledger: that an intent's order exists,
   that a settled intent stores its transaction. -/
namespace GrowthMap.Payments

open Relational Transaction LeastFree Table
open Fallible (bind_ok)

variable {cfg : Config} {clk : Nat → Time} {l l' m : Ledger} {P : String → Prop}

/-! What the statements do -/

variable {r : Except Err Ledger} {k oid iid proofId actor tx : String} {f : Order → Order} {hf : ∀ r, (f r).id = r.id}
  {o : Order} {i : Intent} {e : Entitlement} {a : Assertion} {amount : Int}

theorem committed_orRaise {α : Type} {k : Ledger → Verdict Ledger Err α}
    (h : (orRaise r k).committed = some m) : ∃ l', r = .ok l' ∧ (k l').committed = some m := by
  cases r with
  | error => cases h
  | ok l' => exact ⟨l', rfl, h⟩

theorem committed_orRaiseAs {α : Type} {err : Err}
    {k : Ledger → Verdict Ledger Err α} (h : (orRaiseAs err r k).committed = some m) :
    ∃ l', r = .ok l' ∧ (k l').committed = some m := by
  cases r with
  | error => cases h
  | ok l' => exact ⟨l', rfl, h⟩

theorem updateOrder_ok (h : updateOrder k f hf l = .ok l') (ho : l.orders.get k = some o) :
    orderRefuses l.orders k o (f o) = none ∧ l' = { l with orders := l.orders.modify k f hf } := by
  unfold updateOrder at h
  rw [ho] at h
  simp only at h
  split at h
  · cases h
  · cases h
    exact ⟨‹_›, rfl⟩

theorem updateIntent_ok {f : Intent → Intent} {hf : ∀ r, (f r).intentId = r.intentId}
    (h : updateIntent k f hf l = .ok l') (hi : l.intents.get k = some i) :
    intentRefuses l.intents k i (f i) = none ∧ l' = { l with intents := l.intents.modify k f hf } := by
  unfold updateIntent at h
  rw [hi] at h
  simp only at h
  split at h
  · cases h
  · cases h
    exact ⟨‹_›, rfl⟩

theorem updateOrder_succeeds
    (ho : l.orders.get k = some o) (href : orderRefuses l.orders k o (f o) = none) :
    updateOrder k f hf l = .ok { l with orders := l.orders.modify k f hf } := by
  unfold updateOrder
  rw [ho]
  simp only [href]

theorem updateIntent_succeeds {f : Intent → Intent} {hf : ∀ r, (f r).intentId = r.intentId}
    (hi : l.intents.get k = some i) (href : intentRefuses l.intents k i (f i) = none) :
    updateIntent k f hf l = .ok { l with intents := l.intents.modify k f hf } := by
  unfold updateIntent
  rw [hi]
  simp only [href]

theorem updateEntitlement_ok {f : Entitlement → Entitlement}
    {hf : ∀ r, (f r).payload.orderId = r.payload.orderId}
    (h : updateEntitlement k f hf l = .ok l') (he : l.entitlements.get k = some e) :
    Permitted e (f e) ∧ l' = { l with entitlements := l.entitlements.modify k f hf } := by
  unfold updateEntitlement at h
  rw [he] at h
  simp only at h
  split at h
  · cases h
  · rename_i hnone
    cases h
    have hall := firstBad_none hnone
    simp only [List.forall_mem_cons] at hall
    exact ⟨⟨hall.1, hall.2.1⟩, rfl⟩

theorem updateRevocation_ok {f : Revocation → Revocation}
    {hf : ∀ r, (f r).payload.eventId = r.payload.eventId} {r : Revocation}
    (h : updateRevocation k f hf l = .ok l') (hr : l.revocations.get k = some r) :
    l' = { l with revocations := l.revocations.modify k f hf } := by
  unfold updateRevocation at h
  rw [hr] at h
  simp only at h
  split at h
  · cases h
  · cases h
    rfl

theorem insertOrder_ok (h : insertOrder o l = .ok l') :
    ∃ t, l.orders.insert o = some t ∧ l' = { l with orders := t } := by
  unfold insertOrder at h
  split at h
  · cases h
  · rename_i t ht
    cases h
    exact ⟨t, (insertChecked_ok ht).2, rfl⟩

theorem insertProof_ok {p : PaymentProof} (h : insertProof p l = .ok l') :
    ∃ t, l.proofs.insert p = some t ∧ l' = { l with proofs := t } := by
  unfold insertProof at h
  split at h
  · cases h
  · rename_i t ht
    cases h
    exact ⟨t, (insertChecked_ok ht).2, rfl⟩

theorem insertEntitlement_ok (h : insertEntitlement e l = .ok l') :
    ∃ t, l.entitlements.insert e = some t ∧ l' = { l with entitlements := t } := by
  unfold insertEntitlement at h
  split at h
  · cases h
  · rename_i t ht
    cases h
    exact ⟨t, (insertChecked_ok ht).2, rfl⟩

theorem insertIntent_ok (h : insertIntent i l = .ok l') :
    ∃ t, l.intents.insert i = some t ∧ l' = { l with intents := t } ∧
      l.intents.taken i.intentId (fun r => some r.orderId) (some i.orderId) = false ∧
      l.intents.taken i.intentId (fun r => some r.proofHash) (some i.proofHash) = false ∧
      l.intents.taken i.intentId (fun r => some r.nonceHash) (some i.nonceHash) = false ∧
      l.intents.taken i.intentId Intent.activeOrdinal i.activeOrdinal = false := by
  unfold insertIntent at h
  split at h
  · cases h
  · rename_i t ht
    cases h
    obtain ⟨hbad, hi⟩ := insertChecked_ok ht
    have hall := firstBad_none hbad
    simp only [List.forall_mem_cons] at hall
    exact ⟨t, hi, rfl, hall.1, hall.2.1, hall.2.2.1, hall.2.2.2.2.2.2.1⟩

theorem insertCandidate_core {v : Candidate} (h : insertCandidate v l = .ok l') : l'.core = l.core := by
  unfold insertCandidate at h
  split at h
  · cases h
  · cases h
    rfl

theorem insertExternalEvent_core {v : ExternalEvent} (h : insertExternalEvent v l = .ok l') :
    l'.core = l.core := by
  unfold insertExternalEvent at h
  split at h
  · cases h
  · cases h
    rfl

theorem insertAssertion_core (h : insertAssertion a l = .ok l') : l'.core = l.core := by
  unfold insertAssertion at h
  split at h
  · cases h
  · cases h
    rfl

theorem insertAssertionOrIgnore_core (h : insertAssertionOrIgnore a l = .ok l') :
    l'.core = l.core := by
  unfold insertAssertionOrIgnore at h
  split at h
  · cases h
    rfl
  · exact insertAssertion_core h

theorem insertInbox_core {v : InboxEvent} (h : insertInbox v l = .ok l') : l'.core = l.core := by
  unfold insertInbox at h
  split at h
  · cases h
  · cases h
    rfl

theorem updateInbox_core {f : InboxEvent → InboxEvent} {hf : ∀ r, (f r).eventId = r.eventId}
    (h : updateInbox k f hf l = .ok l') : l'.core = l.core := by
  unfold updateInbox at h
  split at h
  · cases h
    rfl
  · split at h
    · cases h
    · cases h
      rfl

@[simp] theorem audit_core (now : Time) (actor operation obj : String) (data : List (String × Value)) :
    (audit cfg now actor operation obj data l).core = l.core := rfl

@[simp] theorem bumpSequence_core : (bumpSequence l).core = l.core := rfl

theorem leastFree_free {n : Nat} (h : leastFree (occupied l) = some n) :
    0 < n ∧ Free l.orders l.intents n := by
  obtain ⟨hpos, hn⟩ := leastFree_spec h
  simp only [occupied, List.mem_append, List.mem_filterMap, List.mem_map, List.mem_filter, not_or,
    not_exists, not_and] at hn
  refine ⟨hpos, ?_, ?_⟩
  · intro k o ho hs
    exact hn.1 o (get_mem ho) hs
  · intro k i hi hh heq
    exact hn.2 i ⟨get_mem hi, hh⟩ heq

/-! Orders and settlement -/

theorem createOrder_moves {recovery : String} {rail : Rail} {email name : String}
    (h : (createOrder cfg clk oid recovery rail email name l).committed = some m) :
    Moves cfg P l.core m.core := by
  unfold createOrder at h
  split at h
  · cases h
  · obtain ⟨l', hi, h⟩ := committed_orRaise h
    obtain ⟨t, ht, rfl⟩ := insertOrder_ok hi
    cases h
    exact .single (.create _ t ht rfl rfl)

variable {now : Time}

theorem review_moves (ho : l.orders.get oid = some o)
    (hst : o.state = .pendingPayment) (h : setOrderState oid .manualReview now l = .ok l') :
    Moves cfg P l.core l'.core := by
  obtain ⟨-, rfl⟩ := updateOrder_ok h ho
  exact .single (.review oid now o ho hst)

theorem prepareX402Intent_moves {nonce : String} {payer : Option String}
    (h : (prepareX402Intent cfg clk iid oid proofId nonce amount payer l).committed = some m) :
    Moves cfg P l.core m.core := by
  unfold prepareX402Intent at h
  simp only at h
  split at h
  · cases h
  · rename_i o ho
    split at h
    · cases h
    · rename_i hguard
      push Not at hguard
      split at h
      · cases h
      · rename_i ordinal hfree
        split at h
        · obtain ⟨l', hu, h⟩ := committed_orRaise h
          cases h
          have hm : Moves cfg P l.core l'.core := review_moves ho hguard.2 hu
          exact hm
        · rename_i hquote
          push Not at hquote
          split at h
          · cases h
          · obtain ⟨l', hi, h⟩ := committed_orRaiseAs h
            obtain ⟨t, ht, rfl, horder, hproof, hnonce, hord⟩ := insertIntent_ok hi
            obtain ⟨hpos, hfree⟩ := leastFree_free hfree
            cases h
            exact .single (.reserve _ t o ht ho hguard.1 (hquote.2.2.trans hquote.2.1.symm) hquote.2.1 hpos
              hfree rfl rfl rfl horder hproof hnonce hord)

theorem recordSettlementResult_moves {ev : SettlementEvidence}
    (h : (recordSettlementResult cfg clk iid ev actor l).committed = some m) :
    Moves cfg P l.core m.core := by
  unfold recordSettlementResult at h
  split at h
  · cases h
  · rename_i hev
    split at h
    · cases h
    · rename_i i hi
      split at h
      · cases h
      · rename_i hpayer
        simp only at h
        split at h
        · split at h <;> cases h
        · split at h
          · cases h
          · rename_i hst
            obtain ⟨l', hu, h⟩ := committed_orRaiseAs h
            obtain ⟨href, rfl⟩ := updateIntent_ok hu hi
            cases h
            simp only [Bool.or_eq_true, Bool.not_eq_true', decide_eq_true_eq, not_or, not_not,
              Bool.not_eq_false] at hev hpayer
            refine .single (.settle iid i ev actor (clk 1) hi (not_not.mp hst) ?_ href)
            exact { tx := hev.1.1.1.1.1, evidence := hev.1.1.1.1.2, payer := hpayer.2,
                    verified := hpayer.1.1 }

/-- The order of an intent that `iid` names and that satisfies `p`. -/
def ActsOn (l : Ledger) (iid : String) (p : Intent → Prop) (oid : String) : Prop :=
  ∃ i, l.intents.get iid = some i ∧ p i ∧ i.orderId = oid

theorem issueReserved_ok
    (ho : l.orders.get i.orderId = some o) (hi : l.intents.get i.intentId = some i)
    (h : issueReserved cfg clk i tx now actor l = .ok l') :
    ∃ tp te evidenceHash payer, i.evidenceHash = some evidenceHash ∧
      l.proofs.insert ⟨i.proofHash, .x402, i.orderId, some tx, now⟩ = some tp ∧
      orderRefuses l.orders i.orderId o (o.confirmReserved i.reservedOrdinal tx now) = none ∧
      l.entitlements.insert (newEntitlement cfg i tx evidenceHash payer now) = some te ∧
      l'.core = { l.core with
        proofs := tp, entitlements := te,
        orders := l.orders.modify i.orderId (Order.confirmReserved i.reservedOrdinal tx now)
          Order.confirmReserved_id,
        intents := l.intents.modify i.intentId (Intent.withState .finalizedPaid now)
          Intent.withState_intentId } := by
  unfold issueReserved at h
  obtain ⟨l₁, h₁, h⟩ := bind_ok h
  obtain ⟨tp, hp, rfl⟩ := insertProof_ok h₁
  obtain ⟨l₂, h₂, h⟩ := bind_ok h
  obtain ⟨href, rfl⟩ := updateOrder_ok h₂ ho
  split at h
  · rename_i evidenceHash payer heh hpayer
    obtain ⟨l₃, h₃, h⟩ := bind_ok h
    obtain ⟨te, he, rfl⟩ := insertEntitlement_ok h₃
    obtain ⟨l₄, h₄, h⟩ := bind_ok h
    obtain ⟨-, rfl⟩ := updateIntent_ok h₄ hi
    cases h
    exact ⟨tp, te, evidenceHash, payer, heh, hp, href, he, rfl⟩
  · cases h

/-- What a finalization that commits has found, and what it leaves. -/
theorem finalizeX402Intent_ok (hinv : Inv cfg l.core)
    (h : (finalizeX402Intent cfg clk iid l).committed = some m) :
    ∃ i o tx evidenceHash payer tp te, l.intents.get iid = some i ∧ i.state = .settled ∧
      i.txHash = some tx ∧ i.evidenceHash = some evidenceHash ∧ l.orders.get i.orderId = some o ∧
      l.proofs.insert ⟨i.proofHash, .x402, i.orderId, some tx, clk 0⟩ = some tp ∧
      orderRefuses l.orders i.orderId o (o.confirmReserved i.reservedOrdinal tx (clk 0)) = none ∧
      l.entitlements.insert (newEntitlement cfg i tx evidenceHash payer (clk 0)) = some te ∧
      m.core = { l.core with
        proofs := tp, entitlements := te,
        orders := l.orders.modify i.orderId (Order.confirmReserved i.reservedOrdinal tx (clk 0))
          Order.confirmReserved_id,
        intents := l.intents.modify iid (Intent.withState .finalizedPaid (clk 0))
          Intent.withState_intentId } := by
  unfold finalizeX402Intent at h
  split at h
  · cases h
  · rename_i i hi
    split at h
    · cases h
    · rename_i hguard
      split at h
      · cases h
      · split at h
        · cases h
        · rename_i hfin
          obtain ⟨l', hissue, h⟩ := committed_orRaise h
          cases h
          have hst : i.state = .settled :=
            (not_not.mp (not_or.mp hguard).1).resolve_right hfin
          obtain ⟨htx, -⟩ := (hinv.intents.evidence iid i hi).paid (.inl hst)
          obtain ⟨o, ho, -⟩ := hinv.intents.order iid i hi
          obtain ⟨tx, hitx⟩ : ∃ tx, i.txHash = some tx := by
            cases hc : i.txHash with
            | none => rw [hc] at htx; cases htx
            | some tx => exact ⟨tx, rfl⟩
          have hkey : i.intentId = iid := get_key hi
          subst hkey
          rw [hitx] at hissue
          obtain ⟨tp, te, evidenceHash, payer, heh, hp, href, he, hcore⟩ := issueReserved_ok ho hi hissue
          exact ⟨i, o, tx, evidenceHash, payer, tp, te, hi, hst, hitx, heh, ho, hp, href, he, hcore⟩

theorem finalizeX402Intent_moves (hinv : Inv cfg l.core)
    (h : (finalizeX402Intent cfg clk iid l).committed = some m) :
    Moves cfg (ActsOn l iid (fun i => i.state = .settled ∧ l.proofs.get i.proofHash = none))
      l.core m.core := by
  obtain ⟨i, o, tx, evidenceHash, payer, tp, te, hi, hst, htx, hev, ho, hp, href, he, hcore⟩ :=
    finalizeX402Intent_ok hinv h
  rw [hcore]
  exact .single (.finalize iid i o tx evidenceHash payer (clk 0) tp te hi hst htx hev ho hp href he
    ⟨i, hi, ⟨hst, insert_fresh hp⟩, rfl⟩)

theorem ambiguate_moves {now' : Time} {l₁ l₂ : Ledger}
    (hinv : Inv cfg l.core) (hi : l.intents.get iid = some i) (hst : i.state = .prepared)
    (h₁ : setIntentState iid .ambiguous now l = .ok l₁)
    (h₂ : setOrderState i.orderId .manualReview now' l₁ = .ok l₂) (hP : P i.orderId) :
    Move cfg P l.core l₂.core := by
  obtain ⟨-, rfl⟩ := updateIntent_ok h₁ hi
  obtain ⟨o, ho, -⟩ := hinv.intents.order iid i hi
  obtain ⟨-, rfl⟩ := updateOrder_ok h₂ ho
  exact .ambiguate iid i now now' hi hst hP

theorem markIntentAmbiguous_moves {reason : String} (hinv : Inv cfg l.core)
    (h : (markIntentAmbiguous cfg clk iid reason l).committed = some m) :
    Moves cfg (ActsOn l iid (fun i => i.state = .prepared)) l.core m.core := by
  unfold markIntentAmbiguous at h
  split at h
  · cases h
    exact .refl
  · rename_i i hi
    split at h
    · rename_i hst
      obtain ⟨l₁, h₁, h⟩ := committed_orRaise h
      obtain ⟨l₂, h₂, h⟩ := committed_orRaise h
      cases h
      have hm := ambiguate_moves (P := ActsOn l iid (fun i => i.state = .prepared)) hinv hi hst h₁ h₂
        ⟨i, hi, hst, rfl⟩
      exact .single hm
    · cases h
      exact .refl

/-- The open intent a facilitator's report speaks of. -/
def CandidateReport.Matches (r : CandidateReport) (i : Intent) : Prop :=
  (i.state = .prepared ∨ i.state = .ambiguous) ∧ some r.payer = i.verifiedPayer ∧
    r.amountMinor = i.amountMinor

theorem recordSettlementCandidate_moves {r : CandidateReport} (hinv : Inv cfg l.core)
    (h : (recordSettlementCandidate cfg clk iid r l).committed = some m) :
    Moves cfg (fun oid => l.candidates.get iid = none ∧ ActsOn l iid r.Matches oid) l.core m.core := by
  unfold recordSettlementCandidate at h
  split at h
  · cases h
  · split at h
    · cases h
    · rename_i i hi
      split at h
      · cases h
      · rename_i hguard
        simp only at h
        split at h
        · split at h <;> cases h
        · rename_i hnew
          obtain ⟨l₁, h₁, h⟩ := committed_orRaiseAs h
          have hcore := insertCandidate_core h₁
          obtain ⟨l₂, h₂, h⟩ := committed_orRaise h
          obtain ⟨l₃, h₃, h⟩ := committed_orRaise h
          cases h
          obtain ⟨hopen, hrest⟩ := not_or.mp hguard
          have hst := not_not.mp hopen
          simp only [not_or, not_not] at hrest
          obtain ⟨-, hpayer, hamount⟩ := hrest
          have hP : l.candidates.get iid = none ∧ ActsOn l iid r.Matches i.orderId :=
            ⟨hnew, i, hi, ⟨hst, hpayer, hamount⟩, rfl⟩
          have hi₁ : l₁.intents.get iid = some i := by
            rw [show l₁.intents = l.intents from congrArg Core.intents hcore]
            exact hi
          show Moves cfg _ l.core l₃.core
          rw [← hcore]
          split at h₂
          · rename_i hprep
            exact .single (ambiguate_moves (hcore ▸ hinv) hi₁ hprep h₂ h₃ hP)
          · rename_i hprep
            cases h₂
            obtain ⟨o, ho, -⟩ := (hcore ▸ hinv : Inv cfg l₁.core).intents.order iid i hi₁
            obtain ⟨-, rfl⟩ := updateOrder_ok h₃ ho
            exact .single (.reviewAgain iid i (clk 2) hi₁ (hst.resolve_left hprep) hP)

theorem cancelUnpaid_moves {ev : ReconcilerEvidence}
    (hinv : Inv cfg l.core) (h : (cancelUnpaid cfg clk iid ev actor l).committed = some m) :
    Moves cfg (fun oid => ev.evidenceHash.isSome = true ∧
      ActsOn l iid (fun i => i.state = .prepared ∨ i.state = .ambiguous) oid) l.core m.core := by
  unfold cancelUnpaid at h
  split at h
  · cases h
  · rename_i i hi
    split at h
    · cases h
    · rename_i hguard
      obtain ⟨l₁, h₁, h⟩ := committed_orRaiseAs h
      obtain ⟨l₂, h₂, h⟩ := committed_orRaise h
      cases h
      have hst := not_not.mp hguard
      obtain ⟨href, rfl⟩ := updateIntent_ok h₁ hi
      obtain ⟨o, ho, -⟩ := hinv.intents.order iid i hi
      obtain ⟨-, rfl⟩ := updateOrder_ok h₂ ho
      have hev : ev.evidenceHash.isSome = true := by
        have hreq := firstBad_none href _ (List.mem_cons_of_mem _ List.mem_cons_self)
        simp only [settlementEvidenceRequired, Intent.cancel, IntentState.terminal, Bool.true_and,
          Bool.or_eq_false_iff, Option.isNone_eq_false_iff] at hreq
        exact hreq.1
      exact .single (.cancel iid i ev actor (clk 0) hi hst href ⟨hev, i, hi, hst, rfl⟩)

/-- The sweep: every row it selected is still prepared when its turn comes, because the
rows before it are other intents. -/
theorem expireIntents_moves : ∀ (rows : List Intent) {l l' : Ledger},
    Inv cfg l.core → (rows.map (fun i => i.intentId)).Nodup →
    (∀ i ∈ rows, l.intents.get i.intentId = some i ∧ i.state = .prepared ∧ P i.orderId) →
    expireIntents cfg now rows l = .ok l' → Moves cfg P l.core l'.core := by
  intro rows
  induction rows with
  | nil =>
    intro l l' _ _ _ h
    cases h
    exact .refl
  | cons i rest ih =>
    intro l l' hinv hnodup hrows h
    obtain ⟨hi, hst, hP⟩ := hrows i (by simp)
    obtain ⟨l₁, h₁, h⟩ := bind_ok h
    obtain ⟨l₂, h₂, h⟩ := bind_ok h
    have hmove : Move cfg P l.core l₂.core := ambiguate_moves hinv hi hst h₁ h₂ hP
    rw [List.map_cons, List.nodup_cons] at hnodup
    have hrest : ∀ j ∈ rest, l₂.intents.get j.intentId = some j ∧ j.state = .prepared ∧ P j.orderId := by
      intro j hj
      obtain ⟨hj', hjst, hjP⟩ := hrows j (by simp [hj])
      refine ⟨?_, hjst, hjP⟩
      have hne : j.intentId ≠ i.intentId := by
        intro heq
        exact hnodup.1 (List.mem_map.mpr ⟨j, hj, heq⟩)
      obtain ⟨-, rfl⟩ := updateIntent_ok h₁ hi
      obtain ⟨o, ho, -⟩ := hinv.intents.order i.intentId i hi
      obtain ⟨-, rfl⟩ := updateOrder_ok h₂ ho
      show (l.intents.modify i.intentId _ Intent.withState_intentId).get j.intentId = some j
      rw [get_modify_ne Intent.withState_intentId hne, hj']
    have htail := ih (l := audit cfg now "recovery" "settlement_intent.lease_expired" i.orderId
      [("intent_id", .str i.intentId)] l₂) (move_inv hinv hmove) hnodup.2 hrest h
    exact .head hmove htail

theorem reconcileExpiredIntents_moves (hinv : Inv cfg l.core)
    (h : (reconcileExpiredIntents cfg clk l).committed = some m) :
    Moves cfg (fun oid => ∃ iid, ActsOn l iid (fun i => leaseExpired (clk 0) i = true) oid)
      l.core m.core := by
  obtain ⟨l', hloop, h⟩ := committed_orRaise h
  cases h
  refine expireIntents_moves _ hinv ?_ ?_ hloop
  · exact l.intents.distinct.sublist (List.filter_sublist.map _)
  · intro i hi
    obtain ⟨hmem, hexp⟩ := List.mem_filter.mp hi
    have hget := get_of_mem hmem
    have hst : i.state = .prepared := by
      simp only [leaseExpired, Bool.and_eq_true, decide_eq_true_eq] at hexp
      exact hexp.1
    exact ⟨hget, hst, i.intentId, i, hget, hexp, rfl⟩

theorem confirmPaymentLocked_moves {currency : String} {payerRef txHash : Option String}
    (h : (confirmPaymentLocked cfg clk oid proofId amount currency payerRef txHash actor l).committed = some m) :
    Moves cfg P l.core m.core := by
  unfold confirmPaymentLocked at h
  split at h
  · cases h
  · rename_i o ho
    split at h
    · cases h
    · split at h
      · cases h
      · rename_i hst
        split at h
        · cases h
        · rename_i ordinal hfree
          simp only at h
          split at h
          · obtain ⟨l', hu, h⟩ := committed_orRaise h
            cases h
            have hm : Moves cfg P l.core l'.core := review_moves ho (not_not.mp hst) hu
            exact hm
          · rename_i hquote
            push Not at hquote
            obtain ⟨l₁, h₁, h⟩ := committed_orRaiseAs h
            obtain ⟨tp, hp, rfl⟩ := insertProof_ok h₁
            obtain ⟨l₂, h₂, h⟩ := committed_orRaise h
            obtain ⟨href, rfl⟩ := updateOrder_ok h₂ ho
            cases h
            obtain ⟨hpos, hfree⟩ := leastFree_free hfree
            exact .single (.confirm oid o ordinal payerRef txHash (clk 0) _ tp ho (not_not.mp hst) hpos
              hfree hquote.2.2.1 hp rfl href)

theorem paypalSubmit_moves (h : (paypalSubmit cfg clk oid tx l).committed = some m) :
    Moves cfg P l.core m.core := by
  unfold paypalSubmit at h
  simp only at h
  split at h
  · cases h
  · split at h
    · cases h
    · rename_i o ho
      split at h
      · cases h
      · obtain ⟨l₁, h₁, h⟩ := committed_orRaiseAs h
        have hcore := insertExternalEvent_core h₁
        obtain ⟨l₂, h₂, h⟩ := committed_orRaise h
        have ho₁ : l₁.orders.get oid = some o := by
          rw [show l₁.orders = l.orders from congrArg Core.orders hcore]
          exact ho
        obtain ⟨-, rfl⟩ := updateOrder_ok h₂ ho₁
        cases h
        show Moves cfg P l.core { l₁.core with orders := _ }
        rw [← hcore]
        exact .single (.payerRef oid (strip tx) (clk 1))

theorem paypalConfirm_moves {a : PaypalAttestation}
    (h : (paypalConfirm cfg clk oid tx a actor l).committed = some m) : Moves cfg P l.core m.core := by
  unfold paypalConfirm at h
  split at h
  · cases h
  · split at h
    · cases h
    · split at h
      · cases h
      · split at h
        · cases h
        · exact confirmPaymentLocked_moves h

end GrowthMap.Payments
