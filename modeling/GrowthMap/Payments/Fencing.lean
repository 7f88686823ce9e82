import GrowthMap.Payments.Reachable

/- Fences of the two outboxes.

   A worker writes under the owner and fence of its lease. Claims and reversals raise the
   fence of every row they change, nothing lowers it, and under one fence there is one owner
   over the whole life of a row. So a worker whose lease has been taken over or fenced off
   finds its pair gone, and what it does leaves the ledger as it was; the one write of a
   stale worker is the delivery of a verified acknowledgement for an order that has been
   reversed meanwhile. -/
namespace GrowthMap.Payments

open Relational Transaction Runs Table

variable {cfg : Config} {clk : Nat → Time} {l m : Ledger}

def Current (l : Ledger) (oid worker : String) (fence : Nat) : Prop :=
  ∃ x, l.entitlements.get oid = some x ∧ x.holds worker fence = true

def CurrentRevocation (l : Ledger) (eventId worker : String) (fence : Nat) : Prop :=
  ∃ r, l.revocations.get eventId = some r ∧ r.holds worker fence = true

variable {e : Entitlement} {worker worker' k oid : String} {fence fence' maxAttempts : Nat} {r : Revocation}
  {t t' : Entitlements} {f : Entitlement → Entitlement} {l' : Ledger} {expires retryAt : Time} {leaseSeconds : Int}
  {orderId : Option String} {a : EntitlementAck}

theorem Entitlement.holds_pair
    (h : e.holds worker fence = true) (h' : e.holds worker' fence' = true) :
    worker' = worker ∧ fence' = fence := by
  obtain ⟨-, ho, hf⟩ := of_decide_eq_true h
  obtain ⟨-, ho', hf'⟩ := of_decide_eq_true h'
  rw [ho] at ho'
  exact ⟨(Option.some.inj ho').symm, hf'.symm.trans hf⟩

theorem Revocation.holds_pair
    (h : r.holds worker fence = true) (h' : r.holds worker' fence' = true) :
    worker' = worker ∧ fence' = fence := by
  obtain ⟨-, ho, hf⟩ := of_decide_eq_true h
  obtain ⟨-, ho', hf'⟩ := of_decide_eq_true h'
  rw [ho] at ho'
  exact ⟨(Option.some.inj ho').symm, hf'.symm.trans hf⟩

theorem Entitlement.Later.holds_owner {e' : Entitlement} (hl : e.Later e')
    (h : e.holds worker fence = true) (h' : e'.holds worker' fence = true) :
    worker' = worker := by
  obtain ⟨-, ho, hf⟩ := of_decide_eq_true h
  obtain ⟨-, ho', hf'⟩ := of_decide_eq_true h'
  rcases hl.owner (hf'.trans hf.symm) with heq | hnone
  · rw [ho, ho'] at heq
    exact Option.some.inj heq
  · rw [ho'] at hnone
    cases hnone

theorem Revocation.Later.holds_owner {r' : Revocation} (hl : r.Later r')
    (h : r.holds worker fence = true) (h' : r'.holds worker' fence = true) :
    worker' = worker := by
  obtain ⟨-, ho, hf⟩ := of_decide_eq_true h
  obtain ⟨-, ho', hf'⟩ := of_decide_eq_true h'
  rcases hl.owner (hf'.trans hf.symm) with heq | hnone
  · rw [ho, ho'] at heq
    exact Option.some.inj heq
  · rw [ho'] at hnone
    cases hnone

/-! Fences rise -/

/-- Every row that has changed stands under a higher fence. -/
def Raised (t t' : Entitlements) : Prop :=
  ∀ k x x', t.get k = some x → t'.get k = some x' → x' = x ∨ x.fencingVersion < x'.fencingVersion

theorem Raised.refl (t : Entitlements) : Raised t t := by
  intro k x x' hx hx'
  rw [hx] at hx'
  exact .inl (Option.some.inj hx').symm

theorem Raised.modify (h : Raised t t') (hf : ∀ r, (f r).payload.orderId = r.payload.orderId)
    (hup : ∀ r, r.fencingVersion < (f r).fencingVersion) : Raised t (t'.modify k f hf) := by
  intro k' x x' hx hx'
  rcases get_modify_cases hf hx' with ⟨rfl, y, hy, rfl⟩ | ⟨-, hy⟩
  · right
    have hyf := hup y
    rcases h k' x y hx hy with rfl | hlt
    · exact hyf
    · omega
  · exact h k' x x' hx hy

theorem leaseTo_raises (e : Entitlement) :
    e.fencingVersion < (e.leaseTo worker expires).fencingVersion := Nat.lt_succ_self _

theorem resetPrepared_raises {now : Time} (e : Entitlement) :
    e.fencingVersion < (e.resetPrepared now).fencingVersion := Nat.lt_succ_self _

theorem cancel_raises {hash : String} (e : Entitlement) :
    e.fencingVersion < (e.cancel hash retryAt).fencingVersion := Nat.lt_succ_self _

theorem leaseEntitlement_hands {k : Option String}
    (he : l.entitlements.get oid = some e) (h : leaseEntitlement worker expires oid l = .commit m k) :
    k = some oid ∧ m.entitlements = l.entitlements.modify oid (Entitlement.leaseTo worker expires)
        Entitlement.leaseTo_orderId ∧
      m.entitlements.get oid = some (e.leaseTo worker expires) := by
  unfold leaseEntitlement orRaise at h
  split at h
  · cases h
  · rename_i l' hu
    cases h
    obtain ⟨htable, hrow⟩ := updateEntitlement_get hu he
    exact ⟨rfl, htable, hrow⟩

theorem holds_leaseTo (e : Entitlement) :
    (e.leaseTo worker expires).holds worker (e.leaseTo worker expires).fencingVersion = true := by
  simp [Entitlement.holds, Entitlement.leaseTo]

/-- A claim raises the fence of what it changes, and hands its row to the claimant. -/
theorem claimOutbox_raises {k : Option String}
    (h : claimOutbox clk worker leaseSeconds orderId l = .commit m k) :
    Raised l.entitlements m.entitlements ∧
      ∀ oid, k = some oid → ∃ x x', l.entitlements.get oid = some x ∧ m.entitlements.get oid = some x' ∧
        x.fencingVersion < x'.fencingVersion ∧ x'.holds worker x'.fencingVersion = true := by
  unfold claimOutbox at h
  simp only at h
  split at h
  · cases h
  · rename_i row hrow
    have hmem : row ∈ l.entitlements.rows := (List.mem_filter.mp (oldest_mem hrow)).1
    have hget := get_of_mem hmem
    split at h
    · split at h
      · cases h
      · split at h
        · cases h
        · unfold orRaise at h
          split at h
          · cases h
          · rename_i l₁ hu
            obtain ⟨htable, hrow₁⟩ := updateEntitlement_get hu hget
            have hraised : Raised l.entitlements l₁.entitlements := by
              rw [htable]
              exact (Raised.refl _).modify Entitlement.resetPrepared_orderId resetPrepared_raises
            simp only at h
            split at h
            · cases h
              exact ⟨hraised, fun oid hk => by cases hk⟩
            · split at h
              · cases h
              · -- the reset row is claimed at once
                obtain ⟨rfl, htable₂, hrow₂⟩ := leaseEntitlement_hands hrow₁ h
                refine ⟨?_, ?_⟩
                · rw [htable₂]
                  exact hraised.modify Entitlement.leaseTo_orderId leaseTo_raises
                · intro oid hk
                  cases hk
                  refine ⟨row, _, hget, hrow₂, ?_, holds_leaseTo _⟩
                  exact lt_trans (resetPrepared_raises row) (leaseTo_raises _)
    · obtain ⟨rfl, htable, hrow₁⟩ := leaseEntitlement_hands hget h
      refine ⟨?_, ?_⟩
      · rw [htable]
        exact (Raised.refl _).modify Entitlement.leaseTo_orderId leaseTo_raises
      · intro oid hk
        cases hk
        exact ⟨row, _, hget, hrow₁, leaseTo_raises row, holds_leaseTo _⟩

/-- The same of the revocation outbox. -/
theorem claimRevocation_raises {k : Option String}
    (h : claimRevocation clk worker leaseSeconds orderId l = .commit m k) :
    (∀ eid r r', l.revocations.get eid = some r → m.revocations.get eid = some r' →
      r' = r ∨ r.fencingVersion < r'.fencingVersion) ∧
      ∀ eid, k = some eid → ∃ r r', l.revocations.get eid = some r ∧ m.revocations.get eid = some r' ∧
        r.fencingVersion < r'.fencingVersion ∧ r'.holds worker r'.fencingVersion = true := by
  unfold claimRevocation orRaise at h
  split at h
  · cases h
  · rename_i row hrow
    have hmem : row ∈ l.revocations.rows := (List.mem_filter.mp (oldest_mem hrow)).1
    have hget := get_of_mem hmem
    split at h
    · cases h
    · rename_i l₁ hu
      cases h
      obtain rfl := updateRevocation_ok hu hget
      refine ⟨?_, ?_⟩
      · intro eid r r' hr hr'
        rcases get_modify_cases Revocation.leaseTo_eventId hr' with ⟨rfl, y, hy, rfl⟩ | ⟨-, hy⟩
        · have hry : some r = some y := hr.symm.trans hy
          cases hry
          exact .inr (Nat.lt_succ_self _)
        · have hry : some r = some r' := hr.symm.trans hy
          cases hry
          exact .inl rfl
      · intro eid hk
        cases hk
        refine ⟨row, _, hget, get_modify_self Revocation.leaseTo_eventId hget, Nat.lt_succ_self _, ?_⟩
        simp [Revocation.holds, Revocation.leaseTo]

/-! Reversals -/

def Cancels (t t' : Entitlements) : Prop :=
  t' = t ∨ ∃ oid hash retryAt, t' = t.modify oid (Entitlement.cancel hash retryAt) Entitlement.cancel_orderId

theorem Cancels.row {hash : String} (he : l.entitlements.get oid = some e)
    (h : updateEntitlement oid (Entitlement.cancel hash retryAt) Entitlement.cancel_orderId l = .ok l') :
    Cancels l.entitlements l'.entitlements :=
  .inr ⟨oid, hash, retryAt, (updateEntitlement_get h he).1⟩

/-- Every row that has changed is quarantined under a higher fence. -/
def FencedOff (t t' : Entitlements) : Prop :=
  ∀ k x x', t.get k = some x → t'.get k = some x' →
    x' = x ∨ (x'.state = .quarantined ∧ x.fencingVersion < x'.fencingVersion)

theorem Cancels.fencedOff (h : Cancels t t') : FencedOff t t' := by
  intro k x x' hx hx'
  rcases h with rfl | ⟨oid, hash, retryAt, rfl⟩
  · rw [hx] at hx'
    exact .inl (Option.some.inj hx').symm
  · rcases get_modify_cases Entitlement.cancel_orderId hx' with ⟨rfl, y, hy, rfl⟩ | ⟨-, hy⟩
    · rw [hx] at hy
      cases hy
      exact .inr ⟨rfl, cancel_raises x⟩
    · rw [hx] at hy
      exact .inl (Option.some.inj hy).symm

theorem updateOrder_entitlements {f : Order → Order} {hf : ∀ r, (f r).id = r.id}
    (h : updateOrder k f hf l = .ok l') : l'.entitlements = l.entitlements := by
  unfold updateOrder at h
  split at h
  · cases h
    rfl
  · split at h
    · cases h
    · cases h
      rfl

theorem adminTransition_cancels {action : AdminAction} {reason : Option String}
    (h : (adminTransition cfg clk oid action reason l).committed = some m) :
    Cancels l.entitlements m.entitlements := by
  unfold adminTransition at h
  simp only at h
  split at h
  · cases h
  · split at h
    · cases h
    · split at h
      · cases h
        exact .inl rfl
      · split at h
        · cases h
        · split at h
          · cases h
          · rename_i l₁ assertion event hrev
            obtain ⟨l₂, hset, h⟩ := committed_orRaise h
            cases h
            have hl₂ : l₂.entitlements = l₁.entitlements := updateOrder_entitlements hset
            show Cancels l.entitlements l₂.entitlements
            rw [hl₂]
            rcases reverseEntitlement_ok hrev with ⟨rfl, -⟩ | hdel | ⟨-, e, hash, retryAt, he, -, hu⟩
            · exact .inl rfl
            · obtain ⟨-, e, license, l₀, r, text, -, -, hcore, henq⟩ := hdel
              obtain ⟨t, rfl⟩ := enqueueRevocation_tables henq
              exact .inl (congrArg Core.entitlements hcore)
            · exact .row he hu

theorem applyWhopBusinessLocked_cancels {ev : InboxEvent} :
    Cancels l.entitlements (applyWhopBusinessLocked cfg clk ev l).1.entitlements := by
  have hrev : ∀ oid kind, Cancels l.entitlements (reverseByWhop cfg clk oid kind l).1.entitlements := by
    intro oid kind
    generalize hr : reverseByWhop cfg clk oid kind l = r
    rcases reverseByWhop_cases hr with ⟨x, -, hcore⟩ | ⟨rfl, -⟩ | hdel | ⟨e, hash, retryAt, he, -, -, hu⟩
    · exact .inl (congrArg Core.entitlements hcore)
    · exact .inl rfl
    · obtain ⟨e, license, l₀, q, text, -, -, hcore, -, henq⟩ := hdel
      obtain ⟨t, ht⟩ := enqueueRevocation_tables henq
      rw [ht]
      exact .inl (congrArg Core.entitlements hcore)
    · exact .row he hu
  unfold applyWhopBusinessLocked
  split
  · exact .inl rfl
  · rename_i o ho
    split
    · split
      · exact .inl rfl
      · split <;> exact .inl rfl
    · split
      · exact .inl rfl
      · split
        · exact .inl rfl
        · have hpart := hrev o.id ev.kind
          split
          · rename_i heq
            rw [heq] at hpart
            exact hpart
          · rename_i heq
            rw [heq] at hpart
            split
            · exact hpart
            · rename_i l₂ hset
              show Cancels l.entitlements l₂.entitlements
              rw [updateOrder_entitlements hset]
              exact hpart

/-! Stale workers -/

variable {row : Entitlement} {error : Err}

theorem prepareCrossing_current (h : (prepareCrossing row worker l).committed = some m) :
    Current l row.payload.orderId worker row.fencingVersion := by
  obtain ⟨fresh, hget, hheld, -⟩ := prepareCrossing_ok h
  exact ⟨fresh, hget, hheld⟩

theorem requeue_current
    (h : (requeueReconciliationFailure cfg clk row worker error maxAttempts l).committed = some m) :
    Current l row.payload.orderId worker row.fencingVersion := by
  obtain ⟨fresh, hget, hheld, -⟩ := requeueReconciliationFailure_ok h
  exact ⟨fresh, hget, hheld⟩

theorem failUncrossed_current
    (h : (failUncrossed cfg clk row worker error maxAttempts l).committed = some m) :
    Current l row.payload.orderId worker row.fencingVersion := by
  obtain ⟨fresh, hget, hheld, -⟩ := failUncrossed_ok h
  exact ⟨fresh, hget, hheld⟩

theorem failBody_current
    (h : (failBody cfg clk row worker error maxAttempts l).committed = some m) :
    Current l row.payload.orderId worker row.fencingVersion := by
  unfold failBody at h
  split at h
  · exact requeue_current h
  · exact failUncrossed_current h

theorem commitRevocation_current {row : Revocation} {a : RevocationAck}
    (h : (commitRevocation cfg clk row worker a l).committed = some m) :
    CurrentRevocation l row.payload.eventId worker row.fencingVersion := by
  unfold commitRevocation at h
  split at h
  · cases h
  · rename_i fresh hget
    split at h
    · cases h
    · rename_i hguard
      exact ⟨fresh, hget, by simpa using hguard⟩

theorem failRevocation_current {row : Revocation}
    (h : (failRevocation cfg clk row worker error maxAttempts l).committed = some m) :
    CurrentRevocation l row.payload.eventId worker row.fencingVersion := by
  unfold failRevocation at h
  split at h
  · cases h
  · rename_i fresh hget
    split at h
    · cases h
    · rename_i hguard
      exact ⟨fresh, hget, by simpa using hguard⟩

/-- The compensating write: the acknowledgement of a reversed order's license, recorded
on a row that is not delivered yet. -/
def Compensates (l m : Ledger) (oid : String) (a : EntitlementAck) (now : Time) : Prop :=
  (orderState l oid = some .refunded ∨ orderState l oid = some .revoked) ∧
    ∃ x, l.entitlements.get oid = some x ∧ x.state ≠ .delivered ∧
      m.entitlements.get oid = some (x.deliver a now) ∧
      ∀ k, k ≠ oid → m.entitlements.get k = l.entitlements.get k

theorem compensate_entitlements {p : EntitlementPayload} {action : ReversalAction}
    {reason operation : String} {data : List (String × Value)}
    (h : (compensate cfg clk p a action reason operation data l).committed = some m) :
    m.entitlements = l.entitlements := by
  unfold compensate at h
  split at h
  · cases h
  · rename_i l₁ r henq
    cases h
    obtain ⟨t, rfl⟩ := enqueueRevocation_tables henq
    rfl

/-- The last transaction of a delivery whose lease is gone. -/
theorem commitDelivery_stale (hstale : ¬ Current l row.payload.orderId worker row.fencingVersion)
    (h : (commitDelivery cfg clk row worker a l).committed = some m) :
    Compensates l m row.payload.orderId a (clk 0) := by
  unfold commitDelivery at h
  simp only at h
  split at h
  · cases h
  · rename_i fresh hget
    split at h
    · split at h
      · rename_i hrev
        simp only [Bool.and_eq_true, decide_eq_true_eq] at hrev
        obtain ⟨l₁, hu, h⟩ := committed_orRaise h
        obtain ⟨htable, hrow⟩ := updateEntitlement_get hu hget
        have hm := compensate_entitlements h
        refine ⟨hrev.1, fresh, hget, hrev.2, by rw [hm]; exact hrow, ?_⟩
        intro k hk
        rw [hm, htable]
        exact get_modify_ne Entitlement.deliver_orderId hk
      · cases h
    · rename_i hguard
      exact absurd ⟨fresh, hget, by simpa using hguard⟩ hstale

/-! The discipline -/

def Act.reverses : Act → Prop
  | .tx (.adminTransition _ _ _) => True
  | .applyWhopEvent _ _ => True
  | _ => False

/-- How the fences of a state are respected from there on. -/
structure Fencing (cfg : Config) (s : Sys) : Prop where
  /-- a claim raises the fence of what it changes and hands its row to the claimant -/
  claimed : ∀ clk worker leaseSeconds orderId m k,
    claimOutbox clk worker leaseSeconds orderId s.ledger = .commit m k →
    Raised s.ledger.entitlements m.entitlements ∧
      ∀ oid, k = some oid → ∃ x x', s.ledger.entitlements.get oid = some x ∧
        m.entitlements.get oid = some x' ∧ x.fencingVersion < x'.fencingVersion ∧
        x'.holds worker x'.fencingVersion = true
  claimedRevocation : ∀ clk worker leaseSeconds orderId m k,
    claimRevocation clk worker leaseSeconds orderId s.ledger = .commit m k →
    (∀ eid r r', s.ledger.revocations.get eid = some r → m.revocations.get eid = some r' →
      r' = r ∨ r.fencingVersion < r'.fencingVersion) ∧
      ∀ eid, k = some eid → ∃ r r', s.ledger.revocations.get eid = some r ∧
        m.revocations.get eid = some r' ∧ r.fencingVersion < r'.fencingVersion ∧
        r'.holds worker r'.fencingVersion = true
  /-- a reversal quarantines what it changes under a higher fence -/
  reversed : ∀ e : Event, e.act.reverses →
    FencedOff s.ledger.entitlements (step cfg s e).ledger.entitlements
  /-- a fence never falls -/
  monotone : ∀ (es : List Event) oid x, s.ledger.entitlements.get oid = some x →
    ∃ x', (run (step cfg) s es).ledger.entitlements.get oid = some x' ∧ x.fencingVersion ≤ x'.fencingVersion
  monotoneRevocation : ∀ (es : List Event) eid r, s.ledger.revocations.get eid = some r →
    ∃ r', (run (step cfg) s es).ledger.revocations.get eid = some r' ∧ r.fencingVersion ≤ r'.fencingVersion
  /-- one pair is current at a time, and one owner is ever current under a fence -/
  current : ∀ oid worker worker' fence fence', Current s.ledger oid worker fence →
    Current s.ledger oid worker' fence' → worker' = worker ∧ fence' = fence
  currentRevocation : ∀ eid worker worker' fence fence', CurrentRevocation s.ledger eid worker fence →
    CurrentRevocation s.ledger eid worker' fence' → worker' = worker ∧ fence' = fence
  owner : ∀ (es : List Event) oid worker worker' fence, Current s.ledger oid worker fence →
    Current (run (step cfg) s es).ledger oid worker' fence → worker' = worker
  ownerRevocation : ∀ (es : List Event) eid worker worker' fence, CurrentRevocation s.ledger eid worker fence →
    CurrentRevocation (run (step cfg) s es).ledger eid worker' fence → worker' = worker
  /-- a step of a delivery whose pair is not current changes nothing, except that it may
  record a verified acknowledgement for a reversed order -/
  staleDelivery : ∀ (e : Event) tid ans d, e.act = .deliver tid ans → s.deliveries tid = some d →
    ¬ Current s.ledger d.row.payload.orderId d.worker d.row.fencingVersion →
    (step cfg s e).ledger = s.ledger ∨ ∃ a, d.pc = .verified a ∧ d.Verified cfg a ∧
      Compensates s.ledger (step cfg s e).ledger d.row.payload.orderId a (e.clk 0)
  staleFailure : ∀ (e : Event) row worker error maxAttempts,
    e.act = .failOutbox row worker error maxAttempts →
    ¬ Current s.ledger row.payload.orderId worker row.fencingVersion → (step cfg s e).ledger = s.ledger
  staleRevocation : ∀ (e : Event) row worker a, e.act = .tx (.commitRevocation row worker a) →
    ¬ CurrentRevocation s.ledger row.payload.eventId worker row.fencingVersion →
    (step cfg s e).ledger = s.ledger
  staleRevocationFailure : ∀ (e : Event) row worker error maxAttempts,
    e.act = .tx (.failRevocation row worker error maxAttempts) →
    ¬ CurrentRevocation s.ledger row.payload.eventId worker row.fencingVersion →
    (step cfg s e).ledger = s.ledger

theorem step_unchanged {s : Sys} {e : Event} {b : Body Unit} (hb : actBody cfg s e = some b)
    (h : ∀ m, (b s.ledger).committed ≠ some m) : (step cfg s e).ledger = s.ledger := by
  rcases step_ledger cfg s e with heq | ⟨m, hm, -⟩
  · exact heq
  · exfalso
    cases hm with
    | body b' m hb' hm =>
      rw [hb] at hb'
      cases hb'
      exact h m hm
    | whopApplied eventId maxAttempts ev m ha => simp [actBody, ha] at hb
    | whopFailed eventId maxAttempts ev x l' m ha => simp [actBody, ha] at hb

/-- What an event that reverses an order does to the outbox. -/
theorem step_cancels {s : Sys} {e : Event} (h : e.act.reverses) :
    Cancels s.ledger.entitlements (step cfg s e).ledger.entitlements := by
  rcases step_ledger cfg s e with heq | ⟨m, hm, heq⟩
  · rw [heq]
    exact .inl rfl
  · rw [heq]
    have hattempt : ∀ ev, Cancels s.ledger.entitlements (whopAttempt cfg e.clk ev s.ledger).1.entitlements := by
      intro ev
      have hb : Cancels s.ledger.entitlements (applyWhopBusinessLocked cfg e.clk ev s.ledger).1.entitlements :=
        applyWhopBusinessLocked_cancels
      unfold whopAttempt
      split
      · rename_i hr
        rw [hr] at hb
        exact hb
      · rename_i hr
        rw [hr] at hb
        exact hb
    show Cancels s.ledger.entitlements m.entitlements
    cases hm with
    | body b m hb hm =>
      unfold Act.reverses at h
      split at h
      · rename_i oid action reason ha
        simp only [actBody, ha, Option.some.injEq] at hb
        subst hb
        simp only [bodyOf, Verdict.void_committed] at hm
        exact adminTransition_cancels hm
      · rename_i eventId maxAttempts ha
        simp [actBody, ha] at hb
      · exact h.elim
    | whopApplied eventId maxAttempts ev m ha hev hm =>
      have hcore := congrArg Core.entitlements (whopAttempt_ok hm)
      rw [show m.entitlements = (whopAttempt cfg e.clk ev s.ledger).1.entitlements from hcore]
      exact hattempt ev
    | whopFailed eventId maxAttempts ev x l' m ha hl hm =>
      have hcore := congrArg Core.entitlements (whopFailed_core hm)
      rw [show m.entitlements = l'.entitlements from hcore]
      rcases hl with rfl | ⟨-, rfl⟩
      · exact .inl rfl
      · exact hattempt ev

/-- In every reachable state the fences of both outboxes are respected: only the holder of
the current owner and fence writes a row, save the compensating delivery. -/
theorem stale_workers_never_write {s : Sys} (hs : Reachable (step cfg) (initial cfg) s) : Fencing cfg s where
  claimed _ _ _ _ _ _ h := claimOutbox_raises h
  claimedRevocation _ _ _ _ _ _ h := claimRevocation_raises h
  reversed _ h := (step_cancels h).fencedOff
  monotone es oid x hx := by
    obtain ⟨x', hx', hl⟩ := (run_later (reachable_inv hs) es).entitlements oid x hx
    exact ⟨x', hx', hl.fence⟩
  monotoneRevocation es eid r hr := by
    obtain ⟨r', hr', hl⟩ := (run_later (reachable_inv hs) es).revocations eid r hr
    exact ⟨r', hr', hl.fence⟩
  current oid worker worker' fence fence' h h' := by
    obtain ⟨x, hx, hh⟩ := h
    obtain ⟨x', hx', hh'⟩ := h'
    rw [hx] at hx'
    cases hx'
    exact Entitlement.holds_pair hh hh'
  currentRevocation eid worker worker' fence fence' h h' := by
    obtain ⟨x, hx, hh⟩ := h
    obtain ⟨x', hx', hh'⟩ := h'
    rw [hx] at hx'
    cases hx'
    exact Revocation.holds_pair hh hh'
  owner es oid worker worker' fence h h' := by
    obtain ⟨x, hx, hh⟩ := h
    obtain ⟨x', hx', hh'⟩ := h'
    obtain ⟨y, hy, hl⟩ := (run_later (reachable_inv hs) es).entitlements oid x hx
    have hxy : some x' = some y := hx'.symm.trans hy
    cases hxy
    exact hl.holds_owner hh hh'
  ownerRevocation es eid worker worker' fence h h' := by
    obtain ⟨x, hx, hh⟩ := h
    obtain ⟨x', hx', hh'⟩ := h'
    obtain ⟨y, hy, hl⟩ := (run_later (reachable_inv hs) es).revocations eid x hx
    have hxy : some x' = some y := hx'.symm.trans hy
    cases hxy
    exact hl.holds_owner hh hh'
  staleDelivery e tid ans d ha hd hstale := by
    cases hb : deliverBody cfg e.clk d with
    | none =>
      left
      rcases step_ledger cfg s e with heq | ⟨m, hm, -⟩
      · exact heq
      · cases hm with
        | body b m hb' hm => simp [actBody, ha, hd, hb] at hb'
        | whopApplied eventId maxAttempts ev m ha' hev hm => rw [ha] at ha'; cases ha'
        | whopFailed eventId maxAttempts ev x l' m ha' hl hm => rw [ha] at ha'; cases ha'
    | some b =>
      have hbody : actBody cfg s e = some b := by simp [actBody, ha, hd, hb]
      rcases step_ledger cfg s e with heq | ⟨m, hm, heq⟩
      · exact .inl heq
      · cases hm with
        | whopApplied eventId maxAttempts ev m ha' hev hm => rw [ha] at ha'; cases ha'
        | whopFailed eventId maxAttempts ev x l' m ha' hl hm => rw [ha] at ha'; cases ha'
        | body b' m hb' hm =>
          rw [hbody] at hb'
          cases hb'
          unfold deliverBody at hb
          split at hb
          · cases hb
            rw [revalidateLease_moves] at hm
            cases hm
          · cases hb
            exact absurd (prepareCrossing_current hm) hstale
          · cases hb
            obtain ⟨x, hx, hh, -⟩ := authorizeCrossing_ok hm
            exact absurd ⟨x, hx, hh⟩ hstale
          · cases hb
            exact absurd (requeue_current hm) hstale
          · rename_i a hpc
            cases hb
            rw [Verdict.void_committed] at hm
            right
            refine ⟨a, hpc, ((reachable_inv hs).deliveries tid d hd).verified a hpc, ?_⟩
            have hcomp := commitDelivery_stale hstale hm
            rw [heq]
            exact hcomp
          · cases hb
  staleFailure e row worker error maxAttempts ha hstale :=
    step_unchanged (b := failBody cfg e.clk row worker error maxAttempts) (by simp [actBody, ha])
      (fun _ hm => hstale (failBody_current hm))
  staleRevocation e row worker a ha hstale := by
    refine step_unchanged (b := bodyOf cfg e.clk (.commitRevocation row worker a)) (by simp [actBody, ha]) ?_
    intro m hm
    simp only [bodyOf, Verdict.void_committed] at hm
    exact hstale (commitRevocation_current hm)
  staleRevocationFailure e row worker error maxAttempts ha hstale := by
    refine step_unchanged (b := bodyOf cfg e.clk (.failRevocation row worker error maxAttempts))
      (by simp [actBody, ha]) ?_
    intro m hm
    exact hstale (failRevocation_current hm)

namespace Demo

/-- A lease on the sale's row runs out and another worker takes over. -/
def takenOver : List Event :=
  sale ++ claim 4 30 ++ [event (seconds 40) (.tx (.claimOutbox "v" 30 none))]

end Demo

/-- The first worker's late failure report changes nothing. -/
theorem late_failure_is_ignored :
    ∃ row, (Demo.after (Demo.sale ++ Demo.claim 4 30)).ledger.entitlements.get "o" = some row ∧
      row.holds "w" 1 = true ∧
      (step Demo.config (Demo.after Demo.takenOver)
        (Demo.event (seconds 41) (.failOutbox row "w" (.runtime "late") 8))).ledger =
      (Demo.after Demo.takenOver).ledger := by
  have h : ((Demo.after (Demo.sale ++ Demo.claim 4 30)).ledger.entitlements.get "o").any
      (fun row => row.holds "w" 1) = true ∧
      ((Demo.after Demo.takenOver).ledger.entitlements.get "o").all (fun x => !x.holds "w" 1) = true := by
    decide +kernel
  obtain ⟨row, hrow, hholds⟩ := (Option.any_eq_true _ _).mp h.1
  have hkey : row.payload.orderId = "o" := (Table.get_eq_some.mp hrow).2
  obtain ⟨-, -, hfence⟩ := of_decide_eq_true hholds
  refine ⟨row, hrow, hholds, ?_⟩
  refine (stale_workers_never_write (Demo.reachable_after Demo.takenOver)).staleFailure _ row "w"
    (.runtime "late") 8 rfl ?_
  rintro ⟨x, hx, hh⟩
  rw [hkey] at hx
  rw [hfence] at hh
  have hall := h.2
  rw [hx] at hall
  simp [hh] at hall

end GrowthMap.Payments
