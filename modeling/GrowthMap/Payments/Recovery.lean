import GrowthMap.Payments.Guarantees
import GrowthMap.Payments.Restart
import GrowthMap.Payments.Rows
import GrowthMap.Payments.Triggers

/- Recovery of an authorized crossing.

   Once a row is authorized the Authority may hold a license for it, so it must be
   delivered, handed to an operator, or stay within reach of `claim_outbox`. Its
   eligibility leaves one combination out: a crossed row that is pending while its order
   is reversed. `fail_outbox` would make such a row if it were given an old copy of it; a
   reversal raises the fence, so no copy from before it is current, and the copies from
   after it tell that the row has crossed. -/
namespace GrowthMap.Payments

open Relational Transaction Runs Table

variable {cfg : Config} {l : Ledger}

theorem crossed_iff {p : Phase} :
    p.crossed = true ↔ p = .crossingAuthorized ∨ p = .readbackOnly ∨ p = .manualReview := by
  cases p <;> simp [Phase.crossed]

/-! What a chain of steps keeps -/

variable {st : OrderState} {e e' : Entitlement} {p q : OrderState × Entitlement} {oid : String} {es : List Event}

theorem Turn.fence_le (h : Turn st e e') :
    e.fencingVersion ≤ e'.fencingVersion := by
  cases h with
  | claim => exact Nat.le_succ _
  | reset => exact Nat.le_succ _
  | prepare | authorize | requeue | fail => exact le_refl _

theorem Turn.not_delivered (h : Turn st e e') :
    e.state ≠ .delivered ∧ e'.state ≠ .delivered := by
  cases h with
  | claim worker expires hs => exact ⟨hs, by simp [Entitlement.leaseTo]⟩
  | reset now hs => exact ⟨by rw [hs]; decide, by simp [Entitlement.resetPrepared]⟩
  | prepare worker fence hh hp | authorize worker fence hh hp ho =>
    have hs := (holds_leased hh).1
    exact ⟨by rw [hs]; decide, by simp [Entitlement.withPhase, hs]⟩
  | requeue worker fence hash now maxAttempts hh =>
    exact ⟨by rw [(holds_leased hh).1]; decide, by simp [Entitlement.requeue]⟩
  | fail worker fence hash now maxAttempts hh =>
    refine ⟨by rw [(holds_leased hh).1]; decide, ?_⟩
    simp only [Entitlement.fail]
    split <;> decide

/-- What a row knows of an earlier version of itself and of its order. -/
structure Follows (q p : OrderState × Entitlement) : Prop where
  fence : q.2.fencingVersion ≤ p.2.fencingVersion
  delivered : q.2.state = .delivered → p.2.state = .delivered
  reversed : q.1.reversed = true → p.1.reversed = true
  /-- nothing crosses for a reversed order -/
  uncrossed : q.1.reversed = true → q.2.phase.crossed = false → p.2.phase.crossed = false
  reviewed : q.2.phase = .manualReview → p.2.phase = .manualReview
  /-- a reversal before the delivery raises the fence -/
  fenced : p.1.reversed = true → p.2.state ≠ .delivered →
    q.1.reversed = true ∨ q.2.fencingVersion < p.2.fencingVersion

theorem Follows.refl (p : OrderState × Entitlement) : Follows p p where
  fence := le_refl _
  delivered := id
  reversed := id
  uncrossed _ := id
  reviewed := id
  fenced h _ := .inl h

theorem Follows.trans {r : OrderState × Entitlement} (h : Follows q r) (h' : Follows r p) : Follows q p where
  fence := le_trans h.fence h'.fence
  delivered hq := h'.delivered (h.delivered hq)
  reversed hq := h'.reversed (h.reversed hq)
  uncrossed hrev hq := h'.uncrossed (h.reversed hrev) (h.uncrossed hrev hq)
  reviewed hq := h'.reviewed (h.reviewed hq)
  fenced hrev hs := by
    have hqr := h.fence
    have hrp := h'.fence
    rcases h'.fenced hrev hs with hr | hlt
    · rcases h.fenced hr (fun hd => hs (h'.delivered hd)) with hq | hlt
      · exact .inl hq
      · exact .inr (by omega)
    · exact .inr (by omega)

theorem terminal_of_reversed (h : st.reversed = true) : st.terminal = true := by
  cases st <;> first | rfl | cases h

theorem Turn.follows (h : Turn st e e') :
    Follows (st, e) (st, e') where
  fence := h.fence_le
  delivered hd := absurd hd h.not_delivered.1
  reversed := id
  uncrossed hrev hq := by
    simp only at hrev hq ⊢
    cases h with
    | claim =>
      simp only [Entitlement.leaseTo]
      split
      · rename_i hcase
        rcases hcase with hcase | hcase <;> rw [hcase] at hq <;> cases hq
      · exact hq
    | reset => rfl
    | prepare => rfl
    | authorize worker fence hh hp ho =>
      rw [ho] at hrev
      cases hrev
    | requeue worker fence hash now maxAttempts hh hp =>
      rcases hp with hp | hp <;> rw [hp] at hq <;> cases hq
    | fail => exact hq
  reviewed hq := by
    simp only at hq ⊢
    cases h with
    | claim => simp [Entitlement.leaseTo, hq]
    | reset now hs hp =>
      rw [hq] at hp
      cases hp
    | prepare worker fence hh hp =>
      rw [hq] at hp
      cases hp
    | authorize worker fence hh hp =>
      rw [hq] at hp
      cases hp
    | requeue worker fence hash now maxAttempts hh hp =>
      rcases hp with hp | hp <;> rw [hq] at hp <;> cases hp
    | fail => exact hq
  fenced hrev _ := .inl hrev

theorem RowStep.follows (h : RowStep q p) : Follows q p := by
  cases h with
  | keep => exact .refl _
  | turn st e e' ht => exact ht.follows
  | issue =>
    exact { fence := le_refl _, delivered := fun _ => rfl, reversed := fun h => (by cases h),
            uncrossed := fun _ h => h, reviewed := fun h => h, fenced := fun h => (by cases h) }
  | compensate =>
    exact { fence := le_refl _, delivered := fun _ => rfl, reversed := id, uncrossed := fun _ h => h,
            reviewed := fun h => h, fenced := fun h _ => .inl h }
  | fence st st' e hash retryAt hlive hrev hs hperm =>
    have hnot : st.reversed ≠ true := by
      intro h
      rw [terminal_of_reversed h] at hlive
      cases hlive
    refine { fence := Nat.le_succ _, delivered := fun h => absurd h hs, reversed := fun _ => hrev,
             uncrossed := fun h => absurd h hnot, reviewed := ?_, fenced := fun _ _ => .inr (Nat.lt_succ_self _) }
    -- the phase trigger lets no reviewed crossing go
    intro hq
    simp only at hq
    have hprotocol := hperm.1
    simp [reconciliationProtocol, Entitlement.cancel, hq] at hprotocol
  | reverse st st' e hlive hrev hs =>
    exact { fence := le_refl _, delivered := id, reversed := fun _ => hrev, uncrossed := fun _ h => h,
            reviewed := id, fenced := fun _ h => absurd hs h }

theorem RowSteps.follows (h : RowSteps q p) : Follows q p := by
  induction h with
  | refl => exact .refl q
  | tail _ hlast ih => exact ih.trans hlast.follows

/-! The rows of every reachable state -/

/-- What makes a row claimable again: a lease that can run out, and for a reversed order a
phase that says readback. -/
structure InSight (p : OrderState × Entitlement) : Prop where
  leased : p.2.state = .leased → p.2.leaseExpiresAt.isSome = true
  readback : p.1.reversed = true → p.2.state ≠ .delivered → p.2.phase ≠ .crossingAuthorized

theorem Enqueued.inSight (h : Enqueued p) : InSight p where
  leased hs := by
    rw [h.2.1] at hs
    cases hs
  readback hrev := by
    rw [h.1] at hrev
    cases hrev

theorem RowStep.inSight (hq : InSight q) (h : RowStep q p) : InSight p := by
  cases h with
  | keep => exact hq
  | turn st e e' ht =>
    cases ht with
    | claim worker expires hs =>
      refine ⟨fun _ => rfl, fun hrev _ => ?_⟩
      have hphase := hq.readback hrev hs
      simp only at hphase
      simp only [Entitlement.leaseTo]
      split
      · decide
      · exact hphase
    | reset => exact ⟨fun h => (by cases h), fun _ _ => by simp [Entitlement.resetPrepared]⟩
    | prepare => exact ⟨hq.leased, fun _ _ => by simp [Entitlement.withPhase]⟩
    | authorize worker fence hh hp ho =>
      refine ⟨hq.leased, fun hrev _ => ?_⟩
      simp only at hrev
      rw [ho] at hrev
      cases hrev
    | requeue =>
      refine ⟨fun h => (by cases h), fun _ _ => ?_⟩
      simp only [Entitlement.requeue]
      split <;> decide
    | fail worker fence hash now maxAttempts hh =>
      refine ⟨fun h => ?_, fun hrev _ => hq.readback hrev (by rw [(holds_leased hh).1]; decide)⟩
      simp only [Entitlement.fail] at h
      split at h <;> cases h
  | issue => exact ⟨fun h => (by cases h), fun hrev => (by cases hrev)⟩
  | compensate => exact ⟨fun h => (by cases h), fun _ h => absurd rfl h⟩
  | fence =>
    refine ⟨fun h => (by cases h), fun _ _ => ?_⟩
    simp only [Entitlement.cancel]
    split <;> decide
  | reverse st st' e hlive hrev hs => exact ⟨hq.leased, fun _ h => absurd hs h⟩

theorem RowSteps.inSight (hq : InSight q) (h : RowSteps q p) : InSight p := by
  induction h with
  | refl => exact hq
  | tail _ hlast ih => exact hlast.inSight ih

theorem reachable_inSight {s : Sys} (h : Reachable (step cfg) (initial cfg) s)
    (hp : At s.ledger.core oid p) : InSight p := by
  have hboth : SysInv cfg s ∧ ∀ oid p, At s.ledger.core oid p → InSight p := by
    refine h.invariant (fun s => SysInv cfg s ∧ ∀ oid p, At s.ledger.core oid p → InSight p)
      ⟨initial_inv cfg, fun oid p hat => (by cases hat.2)⟩ ?_
    rintro s e ⟨hinv, hall⟩
    refine ⟨step_inv hinv e, fun oid p hat => ?_⟩
    rcases moves_rows_new hinv.core (step_moves hinv e) hat with ⟨q, hq, hqp⟩ | ⟨-, q, hq, hqp⟩
    · exact hqp.inSight (hall oid q hq)
    · exact hqp.inSight hq.inSight
  exact hboth.2 oid p hp

/-! Copies handed back to fail_outbox -/

/-- Every row `fail_outbox` is given is a row as the outbox held it earlier in the run. -/
def CopiesOfRows (cfg : Config) (es : List Event) : Prop :=
  ∀ pre e post copy worker error maxAttempts, es = pre ++ e :: post →
    e.act = .failOutbox copy worker error maxAttempts →
    ∃ past, past <+: pre ∧
      (run (step cfg) (initial cfg) past).ledger.entitlements.get copy.payload.orderId = some copy

theorem CopiesOfRows.before {e : Event} (h : CopiesOfRows cfg (es ++ [e])) :
    CopiesOfRows cfg es := by
  intro pre x post copy worker error maxAttempts hes hx
  exact h pre x (post ++ [e]) copy worker error maxAttempts (by rw [hes]; simp) hx

/-- The action reports a failure to `fail_outbox`. -/
def Act.fails : Act → Bool
  | .failOutbox _ _ _ _ => true
  | _ => false

theorem copies_of_none (h : ∀ e ∈ es, e.act.fails = false) : CopiesOfRows cfg es := by
  intro pre e post copy worker error maxAttempts hes hact
  have hfails := h e (by rw [hes]; simp)
  rw [hact] at hfails
  cases hfails

theorem CopiesOfRows.snoc {e : Event} (h : CopiesOfRows cfg es)
    (he : ∀ copy worker error maxAttempts, e.act = .failOutbox copy worker error maxAttempts →
      ∃ past, past <+: es ∧
        (run (step cfg) (initial cfg) past).ledger.entitlements.get copy.payload.orderId = some copy) :
    CopiesOfRows cfg (es ++ [e]) := by
  intro pre x post copy worker error maxAttempts hes hx
  rcases List.eq_nil_or_concat post with rfl | ⟨post', y, rfl⟩
  · obtain ⟨rfl, hxe⟩ := List.append_inj' hes rfl
    cases hxe
    exact he copy worker error maxAttempts hx
  · have hinit : es ++ [e] = (pre ++ x :: post') ++ [y] := by rw [hes]; simp
    obtain ⟨rfl, -⟩ := List.append_inj' hinit rfl
    exact h pre x post' copy worker error maxAttempts rfl hx

theorem at_unique {c : Core} (hp : At c oid p) (hq : At c oid q) : p = q :=
  Prod.ext (Option.some.inj (hp.1.symm.trans hq.1)) (Option.some.inj (hp.2.symm.trans hq.2))

/-- No crossed row of a reversed order is put back to pending. -/
theorem reversed_not_pending (h : CopiesOfRows cfg es)
    (hp : At (run (step cfg) (initial cfg) es).ledger.core oid p)
    (hrev : p.1.reversed = true) (hcrossed : p.2.phase.crossed = true)
    (hreview : p.2.phase ≠ .manualReview) : p.2.state ≠ .pending := by
  induction es using List.reverseRecOn generalizing p with
  | nil => cases hp.2
  | append_singleton es e ih =>
    intro hst
    have hnd : p.2.state ≠ .delivered := by rw [hst]; decide
    rw [run_snoc] at hp
    have hinv : SysInv cfg (run (step cfg) (initial cfg) es) := run_inv (initial_inv cfg) es
    -- the row before the event: its order was reversed already
    have hbefore : ∀ {x : Entitlement}, (run (step cfg) (initial cfg) es).ledger.entitlements.get oid = some x →
        p.2.fencingVersion = x.fencingVersion →
        ∃ st, At (run (step cfg) (initial cfg) es).ledger.core oid (st, x) ∧ st.reversed = true := by
      intro x hx hfence
      obtain ⟨st, hat⟩ := at_of_row hinv.core hx
      obtain ⟨p', hp', hsteps⟩ := step_rows hinv e hat
      have hsame := at_unique hp' hp
      subst hsame
      rcases hsteps.follows.fenced hrev hnd with hst | hlt
      · exact ⟨st, hat, hst⟩
      · simp only at hlt
        omega
    rcases step_requeues hinv e hp.2 hst (by intro hn; rw [hn] at hcrossed; cases hcrossed) with
      hold | ⟨x, copy, hback, hphase, hfence⟩
    · obtain ⟨st, hat, hstrev⟩ := hbefore hold rfl
      exact ih h.before hat hstrev hcrossed hreview hst
    · obtain ⟨st, hat, hstrev⟩ := hbefore hback.stored hfence
      -- the copy the failure was reported with
      obtain ⟨worker, error, maxAttempts, hact⟩ := hback.act
      obtain ⟨past, hpast, hcopy⟩ := h es e [] copy worker error maxAttempts rfl hact
      obtain ⟨rest, rfl⟩ := hpast
      rw [hback.order] at hcopy
      have hinvp : SysInv cfg (run (step cfg) (initial cfg) past) := run_inv (initial_inv cfg) past
      obtain ⟨stc, hatc⟩ := at_of_row hinvp.core hcopy
      obtain ⟨q, hq, hsteps⟩ := run_rows hinvp rest hatc
      rw [← run_append] at hq
      have hsame := at_unique hq hat
      subst hsame
      have hfollows := hsteps.follows
      have hstc : stc.reversed = true := by
        rcases hfollows.fenced hstrev (by simp only; rw [hback.leased]; decide) with hr | hlt
        · exact hr
        · have hsamefence := hback.fence
          simp only at hlt
          omega
      -- under one fence the copy and the row have both crossed, or neither
      cases hc : copy.phase with
      | none | crossingPrepared =>
        have hx := hfollows.uncrossed hstc (by simp only; rw [hc]; rfl)
        simp only at hx
        rw [hphase, hx] at hcrossed
        cases hcrossed
      | crossingAuthorized => exact hback.copied (.inl hc)
      | readbackOnly => exact hback.copied (.inr hc)
      | manualReview =>
        have hx := hfollows.reviewed hc
        simp only at hx
        exact hreview (hphase.trans hx)

/-! The claim -/

/-- The lease and the back-off of the row have passed. -/
def Entitlement.Due (now : Time) (e : Entitlement) : Prop :=
  (∀ t, e.leaseExpiresAt = some t → t ≤ now) ∧ ∀ t, e.nextAttemptAt = some t → t ≤ now

variable {now : Time}

theorem due_of_passed {next : Option Time} (h : ∀ t, next = some t → t ≤ now) :
    due now next = true := by
  cases next with
  | none => rfl
  | some t => exact decide_eq_true (h t rfl)

/-- The eligibility misses no crossed row of a run. -/
theorem claimable_of_crossed (hsight : InSight (st, e))
    (hfits : Fits st e) (hnd : e.state ≠ .delivered)
    (hphase : e.phase = .crossingAuthorized ∨ e.phase = .readbackOnly)
    (hpending : st.reversed = true → e.state ≠ .pending) (hdue : e.Due now) : claimable now st e = true := by
  -- the order is confirmed, or reversed with the row in readback
  have hrecoverable : (decide (st = .paymentConfirmed ∨ st = .refunded) ||
      decide (st = .revoked ∧ e.phase = .readbackOnly)) = true := by
    rcases hfits with ⟨hst, -⟩ | ⟨-, hs⟩ | hrev
    · simp [hst]
    · exact absurd hs hnd
    · have hread : e.phase = .readbackOnly := hphase.resolve_left (hsight.readback hrev hnd)
      rcases reversed_iff.mp hrev with hst | hst <;> simp [hst, hread]
  have hnext := due_of_passed hdue.2
  unfold claimable
  simp only [hrecoverable, hnext, Bool.and_true]
  cases hs : e.state with
  | delivered => exact absurd hs hnd
  | quarantined => simp [hphase]
  | leased =>
    obtain ⟨t, ht⟩ := Option.isSome_iff_exists.mp (hsight.leased hs)
    have hexpired : expiredBy now e.leaseExpiresAt = true := by
      rw [show e.leaseExpiresAt = some t from ht]
      exact decide_eq_true (hdue.1 t ht)
    simp [hexpired]
  | pending =>
    rcases hfits with ⟨hst, -⟩ | ⟨-, hdel⟩ | hrev
    · simp [hst]
    · rw [hs] at hdel
      cases hdel
    · exact absurd hs (hpending hrev)

theorem leaseTo_passes {t : Entitlements} {k : String} {worker : String} {expires : Time}
    (hp : e.phase ≠ .crossingPrepared) (hnd : e.state ≠ .delivered) :
    entitlementRefuses t k e (e.leaseTo worker expires) = none := by
  have hperm : Permitted e (e.leaseTo worker expires) := permitted_leaseTo hp
  obtain ⟨hprotocol, hlease⟩ := hperm
  apply firstBad_eq_none
  simp only [List.forall_mem_cons, List.not_mem_nil, false_implies, implies_true, and_true]
  refine ⟨hprotocol, hlease, ?_, ?_, ?_, ?_, ?_, clash_same rfl, clash_same rfl⟩
  · simp [entitlementPayloadImmutable, Entitlement.leaseTo]
  · simp [entitlementAckOnce, hnd]
  · simp [entitlementIdentityImmutable, Entitlement.leaseTo]
  · simp [entitlementAuthorityAckOnce, Entitlement.leaseTo]
  · simp [entitlementDeliveredAckRequired, Entitlement.leaseTo]

/-- A claim for the order of an eligible crossed row leases it for readback. -/
theorem claimOutbox_succeeds {clk : Nat → Time} (worker : String) (leaseSeconds : Int)
    (hat : At l.core oid (st, e)) (hnd : e.state ≠ .delivered)
    (hphase : e.phase = .crossingAuthorized ∨ e.phase = .readbackOnly) (hc : claimable (clk 0) st e = true) :
    ∃ m, claimOutbox clk worker leaseSeconds (some oid) l = .commit m (some oid) ∧
      m.entitlements.get oid = some (e.leaseTo worker (clk 0 + seconds leaseSeconds)) := by
  have hrow : l.entitlements.get oid = some e := hat.2
  have hkey : e.payload.orderId = oid := (Table.get_eq_some.mp hrow).2
  have hprepared : e.phase ≠ .crossingPrepared := by rcases hphase with h | h <;> rw [h] <;> decide
  have hwhere : claimWhere (clk 0) (some oid) l e = true := by
    have hst : orderState l oid = some st := hat.1
    simp [claimWhere, hkey, hst, hc]
  have hmem : e ∈ l.entitlements.rows.filter (claimWhere (clk 0) (some oid) l) :=
    List.mem_filter.mpr ⟨get_mem hrow, hwhere⟩
  unfold claimOutbox
  simp only
  cases hmin : oldest (fun e => e.createdAt)
      (l.entitlements.rows.filter (claimWhere (clk 0) (some oid) l)) with
  | none =>
    rw [oldest_eq_none] at hmin
    rw [hmin] at hmem
    cases hmem
  | some row =>
    -- one order, one row
    have hsame : row = e := by
      obtain ⟨hrows, hw⟩ := List.mem_filter.mp (oldest_mem hmin)
      have hoid : row.payload.orderId = oid := by
        simp only [claimWhere, Bool.and_eq_true, decide_eq_true_eq] at hw
        exact hw.2
      have hget := get_of_mem hrows
      rw [hoid, hrow] at hget
      exact (Option.some.inj hget).symm
    subst hsame
    simp only [hkey, hprepared, and_false, if_false]
    have hleased : updateEntitlement oid (Entitlement.leaseTo worker (clk 0 + seconds leaseSeconds))
        Entitlement.leaseTo_orderId l = .ok { l with
          entitlements := l.entitlements.modify oid (Entitlement.leaseTo worker (clk 0 + seconds leaseSeconds))
            Entitlement.leaseTo_orderId } := by
      unfold updateEntitlement
      rw [hrow]
      simp only [leaseTo_passes hprepared hnd]
    unfold leaseEntitlement
    rw [hleased]
    exact ⟨_, rfl, get_modify_self Entitlement.leaseTo_orderId hrow⟩

/-- In every run, a row that was authorized at some time keeps a crossed phase; delivered it
names its license, and undelivered and not under manual review it is handed out for
readback by the first `claim_outbox` for its order after its lease and back-off. -/
theorem authorized_crossing_stays_in_sight {es : List Event} (hcopies : CopiesOfRows cfg es)
    {past : List Event} (hpast : past <+: es) {oid : String} {e₀ : Entitlement}
    (h₀ : (run (step cfg) (initial cfg) past).ledger.entitlements.get oid = some e₀)
    (hauthorized : e₀.phase = .crossingAuthorized) :
    ∃ e, (run (step cfg) (initial cfg) es).ledger.entitlements.get oid = some e ∧
      (e.phase = .crossingAuthorized ∨ e.phase = .readbackOnly ∨ e.phase = .manualReview) ∧
      (e.state = .delivered → ∃ license, e.licenseId = some license ∧ license ≠ "") ∧
      (e.state ≠ .delivered → e.phase ≠ .manualReview →
        (∃ st, orderState (run (step cfg) (initial cfg) es).ledger oid = some st ∧
          (st = .paymentConfirmed ∨ st = .refunded ∨ st = .revoked)) ∧
        ∀ clk worker leaseSeconds w, Trusted cfg w →
          w.conn.committed = (run (step cfg) (initial cfg) es).ledger → e.Due (clk 0) →
          ∃ row w', claimOutboxRow cfg clk worker leaseSeconds (some oid) w = (.ok (some row), w') ∧
            row.payload = e.payload ∧ row.holds worker row.fencingVersion = true ∧
            row.phase = .readbackOnly) := by
  obtain ⟨rest, rfl⟩ := hpast
  have hinv : SysInv cfg (run (step cfg) (initial cfg) (past ++ rest)) := run_inv (initial_inv cfg) _
  obtain ⟨e, he, hlater⟩ : ∃ e, (run (step cfg) (initial cfg) (past ++ rest)).ledger.entitlements.get oid = some e ∧
      e₀.Later e := by
    rw [run_append]
    exact (run_later (run_inv (initial_inv cfg) past) rest).entitlements oid e₀ h₀
  have hcrossed : e.phase.crossed = true := hlater.crossed (by rw [hauthorized]; rfl)
  obtain ⟨hwf, ⟨o, ho, hfits⟩, -⟩ := hinv.core.outbox oid e he
  have hat : At (run (step cfg) (initial cfg) (past ++ rest)).ledger.core oid (o.state, e) :=
    ⟨by rw [ho]; rfl, he⟩
  have hphases := crossed_iff.mp hcrossed
  refine ⟨e, he, hphases, hwf.delivered, ?_⟩
  · intro hnd hreview
    have hphase : e.phase = .crossingAuthorized ∨ e.phase = .readbackOnly := by
      rcases hphases with h | h | h
      · exact .inl h
      · exact .inr h
      · exact absurd h hreview
    refine ⟨⟨o.state, hat.1, ?_⟩, ?_⟩
    · rcases hfits with ⟨hst, -⟩ | ⟨-, hs⟩ | hrev
      · exact .inl hst
      · exact absurd hs hnd
      · exact .inr (reversed_iff.mp hrev)
    · intro clk worker leaseSeconds w htrusted hw hdue
      have hclaimable := claimable_of_crossed (reachable_inSight ⟨_, rfl⟩ hat) hfits hnd hphase
        (fun hrev => reversed_not_pending hcopies hat hrev hcrossed hreview) hdue
      obtain ⟨m, hm, hrow⟩ := claimOutbox_succeeds worker leaseSeconds hat hnd hphase hclaimable
      rw [← hw] at hm
      have hrun := htrusted.commits (hw ▸ hinv.core) hm
      refine ⟨e.leaseTo worker (clk 0 + seconds leaseSeconds), w.published cfg m, ?_, rfl, holds_leaseTo e, ?_⟩
      · unfold claimOutboxRow
        rw [Prog.bind_apply, hrun]
        simp only [Prog.bind_apply, current, World.published]
        exact congrArg (fun r => (Except.ok r, _)) hrow
      · simp [Entitlement.leaseTo, hphase]

namespace Demo

/-- The handshake after the call of the Authority fails. -/
def silent : Answer := ⟨none, none, .raised⟩

/-- The sale's row is claimed and its crossing authorized. -/
def authorized : List Event := sale ++ claim 4 30 ++ deliver 4 .raised 4

def failed : List Event := authorized ++ deliver 4 .raised 1 ++ [event 4 (.deliver 0 silent)]

/-- `fail_outbox` is called with the row as it was claimed, then the order is refunded. -/
def refundedCrossing (copy : Entitlement) : List Event :=
  failed ++ [event 5 (.failOutbox copy "w" (.runtime "authority_identity_unavailable") 8)] ++ refund 6

end Demo

/-- The refunded crossing is handed out for readback once its back-off has passed. -/
theorem refunded_crossing_is_read_back :
    ∃ copy e row w', (Demo.after (Demo.sale ++ Demo.claim 4 30)).ledger.entitlements.get "o" = some copy ∧
      copy.phase = .none ∧
      (Demo.after (Demo.refundedCrossing copy)).ledger.entitlements.get "o" = some e ∧
      e.state = .quarantined ∧
      claimOutboxRow Demo.config (fun _ => seconds 10) "v" 30 (some "o")
        ((Demo.after (Demo.refundedCrossing copy)).world (Demo.event (seconds 10) (.take 0 "v" "o"))) =
        (.ok (some row), w') ∧ row.phase = .readbackOnly := by
  have hrun : ((Demo.after (Demo.sale ++ Demo.claim 4 30)).ledger.entitlements.get "o").any (fun copy =>
      decide (copy.phase = .none) &&
      ((Demo.after (Demo.refundedCrossing copy)).ledger.entitlements.get "o").any (fun e =>
        decide (e.state = .quarantined ∧ e.phase ≠ .manualReview ∧ e.leaseExpiresAt = none ∧
          e.nextAttemptAt.all (fun t => decide (t ≤ seconds 10))))) = true := by
    decide +kernel
  have hauth : ((Demo.after Demo.authorized).ledger.entitlements.get "o").any (fun e =>
      decide (e.phase = .crossingAuthorized)) = true := by
    decide +kernel
  obtain ⟨copy, hcopy, hrest⟩ := (Option.any_eq_true _ _).mp hrun
  rw [Bool.and_eq_true] at hrest
  obtain ⟨e, he, hfacts⟩ := (Option.any_eq_true _ _).mp hrest.2
  obtain ⟨e₀, he₀, hphase₀⟩ := (Option.any_eq_true _ _).mp hauth
  simp only [decide_eq_true_eq] at hfacts hphase₀
  obtain ⟨hst, hreview, hlease, hnext⟩ := hfacts
  -- the one failure of the run is reported with the row as it was claimed
  have hkey : copy.payload.orderId = "o" := (Table.get_eq_some.mp hcopy).2
  have hfailed : CopiesOfRows Demo.config Demo.failed := copies_of_none (by decide)
  have hcopies : CopiesOfRows Demo.config (Demo.refundedCrossing copy) := by
    refine (hfailed.snoc ?_).snoc ?_
    · rintro copy' worker error maxAttempts hact
      cases hact
      exact ⟨Demo.sale ++ Demo.claim 4 30, ⟨Demo.failed.drop 6, rfl⟩, by rw [hkey]; exact hcopy⟩
    · rintro copy' worker error maxAttempts hact
      cases hact
  have hfirst : Demo.authorized <+: Demo.failed :=
    (List.prefix_append _ _).trans (List.prefix_append _ _)
  have hstart : Demo.authorized <+: Demo.refundedCrossing copy :=
    hfirst.trans ((List.prefix_append _ _).trans (List.prefix_append _ _))
  obtain ⟨e', he', -, -, hclaim⟩ := authorized_crossing_stays_in_sight hcopies hstart he₀ hphase₀
  have hsame : e' = e := Option.some.inj (he'.symm.trans he)
  subst hsame
  have hhealthy : Healthy Demo.config (Demo.after (Demo.refundedCrossing copy)) := by
    refine run_healthy (initial_healthy Demo.config) (fun x hx p hp => ?_)
    have hnone : ∀ x ∈ Demo.refundedCrossing copy, x.publications = [] := by
      simp [Demo.refundedCrossing, Demo.failed, Demo.authorized, Demo.sale, Demo.claim, Demo.deliver,
        Demo.refund, Demo.event]
    rw [hnone x hx] at hp
    cases hp
  have hdue : e'.Due (seconds 10) := by
    constructor
    · intro t ht
      rw [hlease] at ht
      cases ht
    · intro t ht
      rw [ht] at hnext
      simpa using hnext
  obtain ⟨row, w', hrow, -, -, hphase⟩ := (hclaim (by rw [hst]; decide) hreview).2
    (fun _ => seconds 10) "v" 30
    ((Demo.after (Demo.refundedCrossing copy)).world (Demo.event (seconds 10) (.take 0 "v" "o")))
    (hhealthy.world (fun _ hp => by cases hp)) (Sys.world_committed _ _) hdue
  exact ⟨copy, e', row, w', hcopy, of_decide_eq_true hrest.1, he, hst, hrow, hphase⟩

end GrowthMap.Payments
