import GrowthMap.Payments.Reachable

/- Crossings to the Authority.

   A delivery is armed between its authorization and its call of
   `create_external_entitlement`. Along a run: two armed deliveries are never for one
   order, an armed delivery's order has not been called for, and an order that has been
   called for has a row that says so. The authorization is the only step that arms, and it
   needs a row that has not crossed; a row that has crossed never forgets it. So no order is
   called for twice, and every call has its authorization behind it. -/
namespace GrowthMap.Payments

open Relational Transaction Runs

variable {cfg : Config}

/-- The order for which the event calls `create_external_entitlement`. -/
def createCall (cfg : Config) (s : Sys) (e : Event) : Option String :=
  match e.act with
  | .deliver tid _ =>
    (s.deliveries tid).bind (fun d => if d.creates cfg then some d.row.payload.orderId else none)
  | _ => none

def createCalls (cfg : Config) : Sys → List Event → List String
  | _, [] => []
  | s, e :: es => (createCall cfg s e).toList ++ createCalls cfg (step cfg s e) es

theorem createCalls_append (s : Sys) (es fs : List Event) :
    createCalls cfg s (es ++ fs) = createCalls cfg s es ++ createCalls cfg (run (step cfg) s es) fs := by
  induction es generalizing s with
  | nil => rfl
  | cons e es ih => simp [createCalls, ih]

theorem createCalls_snoc (s : Sys) (es : List Event) (e : Event) :
    createCalls cfg s (es ++ [e]) =
      createCalls cfg s es ++ (createCall cfg (run (step cfg) s es) e).toList := by
  rw [createCalls_append]
  simp [createCalls]

/-- The event is the committed authorization of the delivery under `tid`: the order was
confirmed, the worker held the row under the fence of its copy, and the row went from
crossing_prepared to crossing_authorized. -/
structure AuthorizedAt (cfg : Config) (s : Sys) (e : Event) (tid : Nat) (d : Delivery) : Prop where
  act : ∃ ans, e.act = .deliver tid ans
  order : orderState s.ledger d.row.payload.orderId = some .paymentConfirmed
  before : ∃ x, s.ledger.entitlements.get d.row.payload.orderId = some x ∧
    x.holds d.worker d.row.fencingVersion = true ∧ x.phase = .crossingPrepared
  committed : ∃ x, (step cfg s e).ledger.entitlements.get d.row.payload.orderId = some x ∧
    x.holds d.worker d.row.fencingVersion = true ∧ x.phase = .crossingAuthorized

def Armed (cfg : Config) (s : Sys) (tid : Nat) (d : Delivery) : Prop :=
  s.deliveries tid = some d ∧ d.creates cfg = true

variable {d : Delivery} {s : Sys} {oid : String} {es : List Event}

theorem creates_crossing (h : d.creates cfg = true) :
    d.pc = .crossing ∧ d.row.phase ≠ .readbackOnly := by
  unfold Delivery.creates at h
  split at h
  · rename_i hpc
    simp only [Bool.and_eq_true, decide_eq_true_eq] at h
    exact ⟨hpc, h.2⟩
  · cases h

theorem Armed.crossed {tid : Nat} (hs : SysInv cfg s) (h : Armed cfg s tid d) :
    ∃ x, s.ledger.entitlements.get d.row.payload.orderId = some x ∧ x.phase.crossed = true := by
  have hok := hs.deliveries tid d h.1
  obtain ⟨x, hx, -, -, hcross⟩ := hok.stored
  refine ⟨x, hx, hcross (hok.past ?_)⟩
  rw [(creates_crossing h.2).1]
  rfl

/-- A delivery is armed after an event because it was and the event is not its own, or
because the event is its authorization. -/
theorem armed_after {e : Event} {tid : Nat} (h : Armed cfg (step cfg s e) tid d) :
    (Armed cfg s tid d ∧ ∀ ans, e.act ≠ .deliver tid ans) ∨
      (AuthorizedAt cfg s e tid d ∧ createCall cfg s e = none) := by
  obtain ⟨hd, hcreates⟩ := h
  obtain ⟨hpc, hphase⟩ := creates_crossing hcreates
  replace hd : deliveryAfter cfg s e tid = some d := hd
  unfold deliveryAfter at hd
  split at hd
  · rename_i t worker oid ha
    split at hd
    · -- a delivery that has just started is not armed
      obtain ⟨row, -, rfl⟩ := Option.map_eq_some_iff.mp hd
      cases hpc
    · exact .inl ⟨⟨hd, hcreates⟩, by simp [ha]⟩
  · rename_i t ans ha
    split at hd
    · rename_i htid
      subst htid
      split at hd
      · cases hd
      · rename_i d₀ hd₀
        obtain ⟨d', hres, hcase⟩ := deliverStep_cases cfg e.clk ans d₀ (s.world e) rfl
        rw [hres] at hd
        cases hd
        rcases hcase with hstay | hauth
        · -- without an authorization only a readback gets this far
          rw [hstay.row] at hphase
          exact absurd (hstay.crossing hpc) hphase
        · right
          obtain ⟨m, hm, hw⟩ := hauth.committed
          obtain ⟨x, hx, hholds, hprep, hconf, hu⟩ := authorizeCrossing_ok hm
          have hstored := (updateEntitlement_get hu hx).2
          have hledger : (step cfg s e).ledger = bumpSequence m := by
            show (ran cfg s e).conn.committed = _
            unfold ran
            rw [ha]
            simp only [hd₀]
            rw [hw]
            rfl
          refine ⟨?_, ?_⟩
          · rw [hauth.next]
            refine ⟨⟨ans, ha⟩, hconf, ⟨x, hx, hholds, hprep⟩, ?_⟩
            rw [hledger]
            exact ⟨x.withPhase .crossingAuthorized, hstored, hholds, rfl⟩
          · simp [createCall, ha, hd₀, Delivery.creates, hauth.pc]
    · rename_i htid
      refine .inl ⟨⟨hd, hcreates⟩, ?_⟩
      intro ans' heq
      rw [ha] at heq
      cases heq
      exact htid rfl
  · rename_i hnot
    exact .inl ⟨⟨hd, hcreates⟩, fun ans heq => hnot tid ans heq⟩

theorem createCall_armed {e : Event} (h : createCall cfg s e = some oid) :
    ∃ tid ans d, e.act = .deliver tid ans ∧ Armed cfg s tid d ∧ d.row.payload.orderId = oid := by
  unfold createCall at h
  split at h
  · rename_i tid ans ha
    obtain ⟨d, hd, h⟩ := Option.bind_eq_some_iff.mp h
    split at h
    · rename_i hcreates
      exact ⟨tid, ans, d, ha, ⟨hd, hcreates⟩, Option.some.inj h⟩
    · cases h
  · cases h

/-- What a run of events has done by the time it is over. -/
structure CallsInv (cfg : Config) (es : List Event) : Prop where
  sys : SysInv cfg (run (step cfg) (initial cfg) es)
  once : (createCalls cfg (initial cfg) es).Nodup
  called : ∀ oid ∈ createCalls cfg (initial cfg) es,
    ∃ x, (run (step cfg) (initial cfg) es).ledger.entitlements.get oid = some x ∧ x.phase.crossed = true
  alone : ∀ tid tid' d d', Armed cfg (run (step cfg) (initial cfg) es) tid d →
    Armed cfg (run (step cfg) (initial cfg) es) tid' d' →
    d'.row.payload.orderId = d.row.payload.orderId → tid' = tid
  unspent : ∀ tid d, Armed cfg (run (step cfg) (initial cfg) es) tid d →
    d.row.payload.orderId ∉ createCalls cfg (initial cfg) es
  authorized : ∀ tid d, Armed cfg (run (step cfg) (initial cfg) es) tid d →
    ∃ pre e mid, es = pre ++ e :: mid ∧ AuthorizedAt cfg (run (step cfg) (initial cfg) pre) e tid d

theorem CallsInv.nil (cfg : Config) : CallsInv cfg [] where
  sys := initial_inv cfg
  once := List.nodup_nil
  called oid h := by cases h
  alone _ _ _ _ h := by cases h.1
  unspent _ _ h := by cases h.1
  authorized _ _ h := by cases h.1

theorem CallsInv.uncrossed (h : CallsInv cfg es) {x : Entitlement}
    (hx : (run (step cfg) (initial cfg) es).ledger.entitlements.get oid = some x)
    (hphase : x.phase.crossed = false) :
    oid ∉ createCalls cfg (initial cfg) es ∧
      ∀ tid d, Armed cfg (run (step cfg) (initial cfg) es) tid d → d.row.payload.orderId ≠ oid := by
  constructor
  · intro hmem
    obtain ⟨y, hy, hcross⟩ := h.called oid hmem
    rw [hx] at hy
    cases hy
    rw [hphase] at hcross
    cases hcross
  · rintro tid d harm rfl
    obtain ⟨y, hy, hcross⟩ := harm.crossed h.sys
    rw [hx] at hy
    cases hy
    rw [hphase] at hcross
    cases hcross

theorem CallsInv.snoc (h : CallsInv cfg es) (e : Event) : CallsInv cfg (es ++ [e]) := by
  have hfresh : ∀ tid d, AuthorizedAt cfg (run (step cfg) (initial cfg) es) e tid d →
      d.row.payload.orderId ∉ createCalls cfg (initial cfg) es ∧
        ∀ tid' d', Armed cfg (run (step cfg) (initial cfg) es) tid' d' →
          d'.row.payload.orderId ≠ d.row.payload.orderId := by
    intro tid d hauth
    obtain ⟨x, hx, -, hprep⟩ := hauth.before
    exact h.uncrossed hx (by rw [hprep]; rfl)
  have hlater := moves_later (step_moves h.sys e)
  constructor
  · rw [run_snoc]
    exact step_inv h.sys e
  · rw [createCalls_snoc]
    cases hcall : createCall cfg (run (step cfg) (initial cfg) es) e with
    | none => simpa using h.once
    | some =>
      obtain ⟨tid, ans, d, -, harm, rfl⟩ := createCall_armed hcall
      have hnew := h.unspent tid d harm
      rw [Option.toList_some, List.nodup_append]
      refine ⟨h.once, List.nodup_singleton _, ?_⟩
      intro a ha b hb
      rw [List.mem_singleton.mp hb]
      rintro rfl
      exact hnew ha
  · intro oid hmem
    rw [createCalls_snoc] at hmem
    rw [run_snoc]
    -- the row had crossed before this event, for an old call and for a new one
    have hold : ∃ x, (run (step cfg) (initial cfg) es).ledger.entitlements.get oid = some x ∧
        x.phase.crossed = true := by
      rcases List.mem_append.mp hmem with hmem | hmem
      · exact h.called oid hmem
      · obtain ⟨tid, ans, d, -, harm, rfl⟩ := createCall_armed (Option.mem_toList.mp hmem)
        exact harm.crossed h.sys
    obtain ⟨x, hx, hcross⟩ := hold
    obtain ⟨x', hx', hl⟩ := hlater.entitlements oid x hx
    exact ⟨x', hx', hl.crossed hcross⟩
  · intro tid tid' d d' hd hd' hsame
    rw [run_snoc] at hd hd'
    rcases armed_after hd with ⟨harm, -⟩ | ⟨hauth, -⟩
    · rcases armed_after hd' with ⟨harm', -⟩ | ⟨hauth', -⟩
      · exact h.alone tid tid' d d' harm harm' hsame
      · exact absurd hsame.symm ((hfresh tid' d' hauth').2 tid d harm)
    · rcases armed_after hd' with ⟨harm', -⟩ | ⟨hauth', -⟩
      · exact absurd hsame ((hfresh tid d hauth).2 tid' d' harm')
      · obtain ⟨ans, ha⟩ := hauth.act
        obtain ⟨ans', ha'⟩ := hauth'.act
        rw [ha] at ha'
        cases ha'
        rfl
  · intro tid d hd
    rw [run_snoc] at hd
    rw [createCalls_snoc, List.mem_append, not_or]
    rcases armed_after hd with ⟨harm, hother⟩ | ⟨hauth, hnone⟩
    · refine ⟨h.unspent tid d harm, ?_⟩
      intro hmem
      obtain ⟨tid', ans, d', ha, harm', hsame⟩ := createCall_armed (Option.mem_toList.mp hmem)
      -- the caller is the one armed delivery of the order, and it is not this event's
      have htid := h.alone tid tid' d d' harm harm' hsame
      subst htid
      exact hother ans ha
    · rw [hnone]
      exact ⟨(hfresh tid d hauth).1, by simp⟩
  · intro tid d hd
    rw [run_snoc] at hd
    rcases armed_after hd with ⟨harm, -⟩ | ⟨hauth, -⟩
    · obtain ⟨pre, e', mid, rfl, hauth⟩ := h.authorized tid d harm
      exact ⟨pre, e', mid ++ [e], by simp, hauth⟩
    · exact ⟨es, e, [], rfl, hauth⟩

theorem calls_inv (cfg : Config) (es : List Event) : CallsInv cfg es := by
  induction es using List.reverseRecOn with
  | nil => exact .nil cfg
  | append_singleton es e ih => exact ih.snoc e

/-- `create_external_entitlement` is called at most once for an order over any run, and
before each call the calling delivery committed its authorization. -/
theorem create_called_once (cfg : Config) (es : List Event) :
    (createCalls cfg (initial cfg) es).Nodup ∧
      ∀ pre e post oid, es = pre ++ e :: post →
        createCall cfg (run (step cfg) (initial cfg) pre) e = some oid →
        ∃ tid ans d, e.act = .deliver tid ans ∧
          (run (step cfg) (initial cfg) pre).deliveries tid = some d ∧ d.row.payload.orderId = oid ∧
          ∃ before auth mid, pre = before ++ auth :: mid ∧
            AuthorizedAt cfg (run (step cfg) (initial cfg) before) auth tid d := by
  refine ⟨(calls_inv cfg es).once, ?_⟩
  intro pre e post oid _ hcall
  obtain ⟨tid, ans, d, ha, harm, hoid⟩ := createCall_armed hcall
  exact ⟨tid, ans, d, ha, harm.1, hoid, (calls_inv cfg pre).authorized tid d harm⟩

/-- The sale of `Demo` is created once, at the fifth step of its delivery. -/
theorem demo_created_once :
    createCalls Demo.config (initial Demo.config) Demo.delivered = ["o"] ∧
      ∃ d before auth mid, Demo.delivered.take 10 = before ++ auth :: mid ∧
        AuthorizedAt Demo.config (run (step Demo.config) (initial Demo.config) before) auth 0 d := by
  have hcall : createCall Demo.config (run (step Demo.config) (initial Demo.config)
      (Demo.delivered.take 10)) (Demo.event 4 (.deliver 0 (Demo.answer (.ack Demo.ack)))) = some "o" := by
    decide +kernel
  have hsplit : Demo.delivered = Demo.delivered.take 10 ++
      Demo.event 4 (.deliver 0 (Demo.answer (.ack Demo.ack))) :: Demo.delivered.drop 11 := rfl
  obtain ⟨tid, ans, d, ha, -, -, before, auth, mid, hpre, hauth⟩ :=
    (create_called_once Demo.config Demo.delivered).2 _ _ _ "o" hsplit hcall
  cases ha
  exact ⟨by decide +kernel, d, before, auth, mid, hpre, hauth⟩

end GrowthMap.Payments
