import GrowthMap.Whop.Effects

/- The invariants of the fulfilment worker.

   `Books` relates the fulfilments to what the Authority holds, `Queue` the inbox and the
   jobs to the fulfilments; both hold in every reachable state, whatever calls were lost,
   and a fulfilment that is revoked stays so. -/
namespace GrowthMap.Whop

open Relational Runs Table
open Payments (Time)
open Authority (Crypto Store ExternalEntitlement Later Revoked)

variable {k : Crypto} {decode : String → Option Event} {maxAttempts : Nat}

/-! Rows and events -/

def InboxRow.Same (a b : InboxRow) : Prop :=
  a.webhookId = b.webhookId ∧ a.eventType = b.eventType ∧ a.payloadSha256 = b.payloadSha256

variable {a b : InboxRow} {t t' : Fulfilments} {p : String} {s s' : State} {out : Except Failure Outcome} {job : Job}

theorem InboxRow.Same.parseEvent (h : a.Same b) : parseEvent decode a = parseEvent decode b := by
  obtain ⟨h₁, h₂, h₃⟩ := h
  simp only [Whop.parseEvent, h₁, h₂, h₃]

variable {row : InboxRow}

theorem parseEvent_ok {e : Event} (h : parseEvent decode row = .ok e) :
    decode row.payloadSha256 = some e ∧ e.webhookId = row.webhookId ∧ e.eventType = row.eventType ∧
      e.payloadSha256 = row.payloadSha256 := by
  unfold parseEvent at h
  split at h
  · cases h
  · rename_i e' he
    split at h
    · rename_i hsame
      cases h
      exact ⟨he, hsame⟩
    · cases h

/-- `refund.created` and `dispute.created` -/
def EventType.isReversal : EventType → Bool
  | .refundCreated | .disputeCreated => true
  | _ => false

def Done (decode : String → Option Event) (t : Fulfilments) (row : InboxRow) : Prop :=
  ∀ e, parseEvent decode row = .ok e →
    (e.eventType = .paymentSucceeded → (t.get e.paymentId).isSome) ∧
    (e.eventType.isReversal → ∃ f, t.get e.paymentId = some f ∧ f.state = .revoked)

/-! Later fulfilments -/

structure Fulfilment.Later (f g : Fulfilment) : Prop where
  binding : g.sourceId = f.sourceId ∧ g.payloadDigest = f.payloadDigest ∧ g.tier = f.tier ∧ g.licenseId = f.licenseId
  revoked : f.state = .revoked → g.state = .revoked

theorem Fulfilment.Later.refl (f : Fulfilment) : f.Later f := ⟨⟨rfl, rfl, rfl, rfl⟩, id⟩

theorem Fulfilment.Later.trans (f g h : Fulfilment) (h₁ : f.Later g) (h₂ : g.Later h) : f.Later h where
  binding := ⟨h₂.binding.1.trans h₁.binding.1, h₂.binding.2.1.trans h₁.binding.2.1,
    h₂.binding.2.2.1.trans h₁.binding.2.2.1, h₂.binding.2.2.2.trans h₁.binding.2.2.2⟩
  revoked := fun h => h₂.revoked (h₁.revoked h)

theorem isSome_grows (h : t.Grows Fulfilment.Later t') (hs : (t.get p).isSome) :
    (t'.get p).isSome := by
  obtain ⟨f, hf⟩ := Option.isSome_iff_exists.mp hs
  obtain ⟨f', hf', -⟩ := h p f hf
  rw [hf']
  rfl

theorem Done.later (h : t.Grows Fulfilment.Later t') (hd : Done decode t row) :
    Done decode t' row := by
  intro e he
  obtain ⟨hpayment, hreversal⟩ := hd e he
  refine ⟨fun ht => isSome_grows h (hpayment ht), ?_⟩
  intro ht
  obtain ⟨f, hf, hrevoked⟩ := hreversal ht
  obtain ⟨f', hf', hlater⟩ := h _ f hf
  exact ⟨f', hf', hlater.revoked hrevoked⟩

theorem Done.same (h : a.Same b) (hd : Done decode t a) : Done decode t b := by
  intro e he
  rw [← h.parseEvent] at he
  exact hd e he

section Attempt

variable {row : InboxRow} {s s' : State} {out : Except Failure Outcome}

theorem Processed.frame (h : Processed k decode row s s' out) : s'.inbox = s.inbox ∧ s'.jobs = s.jobs := by
  cases h <;> exact ⟨rfl, rfl⟩

theorem Processed.grows (h : Processed k decode row s s' out) : s.fulfilments.Grows Fulfilment.Later s'.fulfilments := by
  cases h with
  | idle | ignored | kept | lost | reversed | unheard => exact .refl Fulfilment.Later.refl _
  | granted e tier a f t hvalid hpayment hnone hearly honward hwritten hi => exact .insert Fulfilment.Later.refl hi
  | revoked e tier linked licenseId now =>
    have hlater : ∀ f : Fulfilment, f.Later (f.revoke now) := fun f => ⟨⟨rfl, rfl, rfl, rfl⟩, fun _ => rfl⟩
    exact .modify Fulfilment.Later.refl (Fulfilment.revoke_key now) (fun f _ => hlater f)

theorem Processed.done {o : Outcome} (h : Processed k decode row s s' (.ok o)) : Done decode s'.fulfilments row := by
  cases h with
  | ignored htype =>
    intro e he
    obtain ⟨-, -, hty, -⟩ := parseEvent_ok he
    rw [hty, htype]
    exact ⟨(by intro h; cases h), (by intro h; cases h)⟩
  | kept e tier hvalid hpayment hrow =>
    intro e' he
    cases hvalid.parsed.symm.trans he
    rw [hpayment]
    exact ⟨fun _ => hrow, by intro h; cases h⟩
  | granted e tier a f t hvalid hpayment hnone hearly honward hwritten hi =>
    intro e' he
    cases hvalid.parsed.symm.trans he
    rw [hpayment]
    refine ⟨fun _ => ?_, by intro h; cases h⟩
    show (t.get e.paymentId).isSome
    rw [← hwritten.payment, get_insert_self hi]
    rfl
  | reversed e tier linked hvalid hreversal hrow hstate =>
    intro e' he
    cases hvalid.parsed.symm.trans he
    exact ⟨fun h => absurd h hreversal, fun _ => ⟨linked, hrow, hstate⟩⟩
  | revoked e tier linked licenseId now a hvalid hreversal hrow =>
    intro e' he
    cases hvalid.parsed.symm.trans he
    refine ⟨fun h => absurd h hreversal, fun _ => ⟨linked.revoke now, ?_, rfl⟩⟩
    exact get_modify_self (Fulfilment.revoke_key now) hrow

end Attempt

/-! The books -/

/-- A fulfilment row, against the Authority. -/
structure Recorded (k : Crypto) (decode : String → Option Event) (a : Store) (p : String) (f : Fulfilment) : Prop where
  state : f.state ≠ .granting
  license : ∃ en, a.entitlements.get ("whop", sourceId k p) = some en ∧ f.licenseId = some en.licenseId ∧
    en.payloadDigest = some f.payloadDigest
  revoked : f.state = .revoked → ∀ l, f.licenseId = some l → Revoked a.licenses l
  tier : ∃ e, decode f.payloadDigest = some e ∧ validateSemantics e = .ok f.tier

theorem Recorded.later {a b : Store} (h : Later a.core b.core) {f : Fulfilment}
    (hr : Recorded k decode a p f) : Recorded k decode b p f where
  state := hr.state
  license := by
    obtain ⟨en, hen, hlicense⟩ := hr.license
    obtain ⟨en', hen', rfl⟩ := h.entitlements _ _ hen
    exact ⟨en, hen', hlicense⟩
  revoked := fun hs l hl => (hr.revoked hs l hl).later h.licenses
  tier := hr.tier

/-- An entitlement of source `whop` was made for a payment event. -/
def Issued (k : Crypto) (decode : String → Option Event) (id : String) (en : ExternalEntitlement) : Prop :=
  ∃ d e tier, en.payloadDigest = some d ∧ decode d = some e ∧ e.eventType = .paymentSucceeded ∧
    validateSemantics e = .ok tier ∧ id = sourceId k e.paymentId

structure Books (k : Crypto) (decode : String → Option Event) (a : Store) (t : Fulfilments) : Prop where
  reached : Authority.Reached k a
  recorded : ∀ p f, t.get p = some f → Recorded k decode a p f
  issued : ∀ id en, a.entitlements.get ("whop", id) = some en → Issued k decode id en
  cap : earlyRows t ≤ earlyLimit

theorem Books.empty : Books k decode .empty .empty where
  reached := .refl _
  recorded := by intro p f h; simp at h
  issued := by intro id en h; simp [Store.empty] at h
  cap := Nat.zero_le _

theorem Books.onward {a b : Store} (h : Books k decode a t) {new : String → ExternalEntitlement → Prop}
    (ho : Onward k new a b) (hnew : ∀ id en, new id en → Issued k decode id en) : Books k decode b t where
  reached := ho.reached h.reached
  recorded := fun p f hf => (h.recorded p f hf).later ho.later
  issued := by
    intro id en hen
    rcases ho.whop id en hen with hold | hn
    · exact h.issued id en hold
    · exact hnew id en hn
  cap := h.cap

theorem Valid.issued {e : Event} {tier : Tier} (hv : Valid decode row e tier)
    (hpayment : e.eventType = .paymentSucceeded) {id : String} {en : ExternalEntitlement}
    (h : id = sourceId k e.paymentId ∧ en.payloadDigest = some e.payloadSha256) : Issued k decode id en := by
  obtain ⟨hdecode, -, -, hdigest⟩ := parseEvent_ok hv.parsed
  exact ⟨e.payloadSha256, e, tier, h.2, hdigest ▸ hdecode, hpayment, hv.semantics, h.1⟩

theorem Books.processed
    (hp : Processed k decode row s s' out) (h : Books k decode s.authority s.fulfilments) :
    Books k decode s'.authority s'.fulfilments := by
  cases hp with
  | idle | ignored | kept | reversed => exact h
  | lost e tier a f hvalid hpayment hnone hearly honward => exact h.onward honward (fun _ _ => hvalid.issued hpayment)
  | unheard a f honward => exact h.onward honward (fun _ _ hf => hf.elim)
  | granted e tier a f t hvalid hpayment hnone hearly honward hw hi =>
    have hb := h.onward honward (fun _ _ => hvalid.issued hpayment)
    refine ⟨hb.reached, ?_, hb.issued, ?_⟩
    · intro p g hg
      rcases get_insert_cases hi hg with ⟨rfl, rfl⟩ | hold
      · obtain ⟨en, hen, hlicense, hdigest⟩ := hw.license
        obtain ⟨hdecode, -, -, hsha⟩ := parseEvent_ok hvalid.parsed
        refine ⟨?_, ⟨en, ?_, hlicense, ?_⟩, ?_, e, ?_, ?_⟩
        · rw [hw.state]
          simp
        · rw [hw.payment]
          exact hen
        · rw [hw.digest]
          exact hdigest
        · intro hs
          rw [hw.state] at hs
          cases hs
        · rw [hw.digest, hsha]
          exact hdecode
        · rw [hw.tier]
          exact hvalid.semantics
      · exact hb.recorded p g hold
    · show earlyRows t ≤ earlyLimit
      have hcap := h.cap
      unfold earlyRows at hcap hearly ⊢
      rw [countP_insert hi, hw.tier]
      by_cases ht : tier = .early
      · have := hearly ht
        simp [ht]
        omega
      · simp [ht]
        omega
  | revoked e tier linked licenseId now a hvalid hreversal hrow hlicense honward hrevoked =>
    have hb := h.onward honward (fun _ _ hf => hf.elim)
    refine ⟨hb.reached, ?_, hb.issued, ?_⟩
    · intro p g hg
      rcases get_modify_cases (Fulfilment.revoke_key now) hg with ⟨rfl, f, hf, rfl⟩ | ⟨-, hold⟩
      · have hr := hb.recorded _ f hf
        cases hrow.symm.trans hf
        refine ⟨by simp [Fulfilment.revoke], hr.license, ?_, hr.tier⟩
        intro _ l hl
        cases hlicense.symm.trans hl
        exact hrevoked
      · exact hb.recorded p g hold
    · have hle : earlyRows (s.fulfilments.modify e.paymentId (Fulfilment.revoke now) (Fulfilment.revoke_key now)) ≤
          earlyRows s.fulfilments := countP_modify_le _ (fun f _ hp => hp)
      exact hle.trans h.cap

/-! The queue -/

structure Queue (decode : String → Option Event) (s : State) : Prop where
  copies : ∀ job ∈ s.jobs, ∃ row, s.inbox.get job.row.webhookId = some row ∧ job.row.Same row
  finished : ∀ job ∈ s.jobs, ∀ o, job.outcome = some (.ok o) → Done decode s.fulfilments job.row
  processed : ∀ id row, s.inbox.get id = some row → row.status = .processed → Done decode s.fulfilments row

theorem Queue.empty : Queue decode .empty where
  copies := by intro job h; cases h
  finished := by intro job h; cases h
  processed := by intro id row h; simp [State.empty] at h

/-- The job's outcome gives its row up. -/
def rejects (maxAttempts : Nat) (job : Job) : Bool :=
  match job.outcome with
  | some (.error f) => terminal maxAttempts job f
  | _ => false

/-- What settling a job does to the inbox. -/
structure Settled (maxAttempts : Nat) (job : Job) (s s' : State) : Prop where
  frame : s'.fulfilments = s.fulfilments ∧ s'.authority = s.authority ∧ s'.jobs = s.jobs
  forward : ∀ id row, s.inbox.get id = some row → ∃ row', s'.inbox.get id = some row' ∧ row.Same row'
  backward : ∀ id row', s'.inbox.get id = some row' → ∃ row, s.inbox.get id = some row ∧ row.Same row' ∧
    (row'.status = row.status ∨ row.status = .verifiedPending ∧ id = job.row.webhookId ∧
      row.payloadSha256 = job.row.payloadSha256 ∧
      ((row'.status = .processed ∧ ∃ o, job.outcome = some (.ok o)) ∨ (row'.status = .rejected ∧ rejects maxAttempts job)))

theorem InboxRow.Same.refl (a : InboxRow) : a.Same a := ⟨rfl, rfl, rfl⟩

theorem InboxRow.same_mark (status : Status) (d : String) (row : InboxRow) : row.Same (row.mark status d) := by
  unfold InboxRow.mark
  split <;> exact ⟨rfl, rfl, rfl⟩

theorem Settled.refl (maxAttempts : Nat) (job : Job) (s : State) (attempts : Attempts) :
    Settled maxAttempts job s { s with attempts := attempts } where
  frame := ⟨rfl, rfl, rfl⟩
  forward := fun _ row h => ⟨row, h, .refl row⟩
  backward := fun _ row h => ⟨row, h, .refl row, .inl rfl⟩

/-- A mark on the job's row; a row that is not pending any more stays as it is. -/
theorem settled_markRow {status : Status} (attempts : Attempts)
    (hstatus : ∀ row, s.inbox.get job.row.webhookId = some row → row.payloadSha256 = job.row.payloadSha256 →
      row.status = .verifiedPending →
      (status = .processed ∧ ∃ o, job.outcome = some (.ok o)) ∨ (status = .rejected ∧ rejects maxAttempts job)) :
    Settled maxAttempts job s { s.markRow job.row status with attempts := attempts } where
  frame := ⟨rfl, rfl, rfl⟩
  forward := by
    intro id row hrow
    obtain ⟨row', hrow', rfl | ⟨-, rfl⟩⟩ :=
      get_modify_exists job.row.webhookId (InboxRow.mark status job.row.payloadSha256) (InboxRow.mark_key _ _) hrow
    · exact ⟨_, hrow', .refl _⟩
    · exact ⟨_, hrow', row.same_mark _ _⟩
  backward := by
    intro id row' hrow'
    rcases get_modify_cases (InboxRow.mark_key _ _) hrow' with ⟨rfl, row, hrow, rfl⟩ | ⟨-, hold⟩
    · refine ⟨row, hrow, row.same_mark _ _, ?_⟩
      unfold InboxRow.mark
      split
      · rename_i hpending
        exact .inr ⟨hpending.2, rfl, hpending.1, hstatus row hrow hpending.1 hpending.2⟩
      · exact .inl rfl
    · exact ⟨row', hold, .refl row', .inl rfl⟩

theorem settle_settled (maxAttempts : Nat) (job : Job) (now : Time) (s : State) :
    Settled maxAttempts job s (settle maxAttempts job now s) := by
  unfold settle
  cases hout : job.outcome with
  | none => exact .refl maxAttempts job s s.attempts
  | some out =>
    cases out with
    | error f =>
      show Settled maxAttempts job s (fail job (terminal maxAttempts job f) now s)
      unfold fail
      dsimp only
      split
      · rename_i hterminal
        refine settled_markRow _ (fun row _ _ _ => .inr ⟨rfl, ?_⟩)
        unfold rejects
        rw [hout]
        exact hterminal
      · exact .refl maxAttempts job s _
    | ok o =>
      dsimp only
      cases hfin : finish job s with
      | some =>
        unfold finish at hfin
        split at hfin
        · cases hfin
        · split at hfin
          · cases hfin
            exact settled_markRow _ (fun row _ _ _ => .inl ⟨rfl, o, hout⟩)
          · cases hfin
      | none =>
        dsimp only
        split
        · exact .refl maxAttempts job s s.attempts
        · unfold fail
          dsimp only
          split
          · -- the row changed meanwhile, so the mark finds nothing to do
            refine settled_markRow _ (fun row hrow hsame hpending => ?_)
            unfold finish at hfin
            rw [hrow] at hfin
            simp only [hsame, hpending, and_self, if_true] at hfin
            cases hfin
          · exact .refl maxAttempts job s _

/-! Steps -/

structure Sound (k : Crypto) (decode : String → Option Event) (s : State) : Prop where
  books : Books k decode s.authority s.fulfilments
  queue : Queue decode s

theorem Sound.empty : Sound k decode .empty := ⟨.empty, .empty⟩

section Steps

variable {s : State}

theorem process_cases (maxAttempts : Nat) (hs : Sound k decode s) (i : Nat) (r : Remote) :
    step k decode maxAttempts s (.process i r) = s ∨
      ∃ job s' out, s.jobs[i]? = some job ∧ Processed k decode job.row s s' out ∧
        step k decode maxAttempts s (.process i r) = { s' with jobs := s.jobs.set i { job with outcome := some out } } := by
  simp only [step]
  split
  · exact .inl rfl
  · rename_i job hjob
    split
    · exact .inl rfl
    · have hp : Processed k decode job.row s (processRow k decode job.row r s).1 (processRow k decode job.row r s).2 :=
        processRow_processed hs.books.reached (fun p f hf => (hs.books.recorded p f hf).state) rfl
      refine .inr ⟨job, _, _, hjob, hp, ?_⟩
      rw [hp.frame.2]

theorem settle_cases (k : Crypto) (decode : String → Option Event) (maxAttempts : Nat) (s : State) (i : Nat) (now : Time) :
    step k decode maxAttempts s (.settle i now) = s ∨
      ∃ job s', s.jobs[i]? = some job ∧ Settled maxAttempts job s s' ∧
        step k decode maxAttempts s (.settle i now) = { s' with jobs := s.jobs.eraseIdx i } := by
  simp only [step]
  split
  · exact .inl rfl
  · rename_i job hjob
    split
    · exact .inl rfl
    · have hsettled := settle_settled maxAttempts job now s
      refine .inr ⟨job, _, hjob, hsettled, ?_⟩
      rw [hsettled.frame.2.2]

theorem Queue.arrive (h : Queue decode s) (row : InboxRow) (hpending : row.status = .verifiedPending) :
    Queue decode { s with inbox := (s.inbox.insert row).getD s.inbox } := by
  cases hi : s.inbox.insert row with
  | none => exact h
  | some =>
    refine ⟨?_, h.finished, ?_⟩
    · intro job hjob
      obtain ⟨old, hold, hsame⟩ := h.copies job hjob
      exact ⟨old, get_insert_old hi hold, hsame⟩
    · intro id row' hrow' hstatus
      rcases get_insert_cases hi hrow' with ⟨-, rfl⟩ | hold
      · rw [hpending] at hstatus
        cases hstatus
      · exact h.processed id row' hold hstatus

theorem Queue.select (h : Queue decode s) (now : Time) (limit : Nat) :
    Queue decode { s with jobs := s.jobs ++ due s now limit } := by
  have hdue : ∀ job ∈ due s now limit, s.inbox.get job.row.webhookId = some job.row ∧ job.outcome = none := by
    intro job hjob
    unfold due at hjob
    obtain ⟨row, hrow, rfl⟩ := List.mem_map.mp hjob
    exact ⟨get_of_mem (List.mem_of_mem_filter (List.mem_of_mem_take hrow)), rfl⟩
  refine ⟨?_, ?_, h.processed⟩
  · intro job hjob
    rcases List.mem_append.mp hjob with hold | hnew
    · exact h.copies job hold
    · exact ⟨job.row, (hdue job hnew).1, .refl _⟩
  · intro job hjob o ho
    rcases List.mem_append.mp hjob with hold | hnew
    · exact h.finished job hold o ho
    · rw [(hdue job hnew).2] at ho
      cases ho

theorem Queue.drop (h : Queue decode s) {jobs : List Job} (hsub : ∀ job ∈ jobs, job ∈ s.jobs) :
    Queue decode { s with jobs := jobs } :=
  ⟨fun job hjob => h.copies job (hsub job hjob), fun job hjob => h.finished job (hsub job hjob), h.processed⟩

theorem Queue.process {i : Nat} (h : Queue decode s)
    (hjob : s.jobs[i]? = some job) (hp : Processed k decode job.row s s' out) :
    Queue decode { s' with jobs := s.jobs.set i { job with outcome := some out } } := by
  have hgrows := hp.grows
  obtain ⟨hinbox, -⟩ := hp.frame
  refine ⟨?_, ?_, ?_⟩
  · intro j hj
    show ∃ row, s'.inbox.get j.row.webhookId = some row ∧ _
    rw [hinbox]
    rcases List.mem_or_eq_of_mem_set hj with hold | rfl
    · exact h.copies j hold
    · exact h.copies job (List.mem_of_getElem? hjob)
  · intro j hj o ho
    rcases List.mem_or_eq_of_mem_set hj with hold | rfl
    · exact (h.finished j hold o ho).later hgrows
    · cases ho
      exact hp.done
  · intro id row hrow hstatus
    change s'.inbox.get id = some row at hrow
    rw [hinbox] at hrow
    exact (h.processed id row hrow hstatus).later hgrows

theorem Queue.settle {i : Nat} (h : Queue decode s) (hjob : s.jobs[i]? = some job)
    (hsettled : Settled maxAttempts job s s') : Queue decode { s' with jobs := s.jobs.eraseIdx i } := by
  obtain ⟨hful, -, -⟩ := hsettled.frame
  refine ⟨?_, ?_, ?_⟩
  · intro j hj
    obtain ⟨row, hrow, hsame⟩ := h.copies j (List.mem_of_mem_eraseIdx hj)
    obtain ⟨row', hrow', hsame'⟩ := hsettled.forward _ row hrow
    exact ⟨row', hrow', hsame.1.trans hsame'.1, hsame.2.1.trans hsame'.2.1, hsame.2.2.trans hsame'.2.2⟩
  · intro j hj o ho
    show Done decode s'.fulfilments j.row
    rw [hful]
    exact h.finished j (List.mem_of_mem_eraseIdx hj) o ho
  · intro id row' hrow' hstatus
    show Done decode s'.fulfilments row'
    rw [hful]
    obtain ⟨row, hrow, hsame, hkept | ⟨-, rfl, -, ⟨-, o, ho⟩ | ⟨hrejected, -⟩⟩⟩ := hsettled.backward id row' hrow'
    · exact (h.processed id row hrow (hkept ▸ hstatus)).same hsame
    · -- the row is the one the job is a copy of
      have hmem := List.mem_of_getElem? hjob
      obtain ⟨row₀, hrow₀, hcopy⟩ := h.copies job hmem
      cases hrow₀.symm.trans hrow
      exact ((h.finished job hmem o ho).same hcopy).same hsame
    · rw [hrejected] at hstatus
      cases hstatus

theorem Sound.step (h : Sound k decode s) (e : Step) : Sound k decode (step k decode maxAttempts s e) := by
  cases e with
  | arrive => exact ⟨h.books, h.queue.arrive _ rfl⟩
  | select now limit => exact ⟨h.books, h.queue.select now limit⟩
  | process i r =>
    rcases process_cases maxAttempts h i r with hsame | ⟨job, s', out, hjob, hp, heq⟩
    · rw [hsame]
      exact h
    · have hbooks : Books k decode s'.authority s'.fulfilments := h.books.processed hp
      rw [heq]
      exact ⟨hbooks, h.queue.process hjob hp⟩
  | settle i now =>
    rcases settle_cases k decode maxAttempts s i now with hsame | ⟨job, s', hjob, hsettled, heq⟩
    · rw [hsame]
      exact h
    · rw [heq]
      refine ⟨?_, h.queue.settle hjob hsettled⟩
      show Books k decode s'.authority s'.fulfilments
      rw [hsettled.frame.1, hsettled.frame.2.1]
      exact h.books
  | crash => exact ⟨h.books, h.queue.drop (fun _ => List.mem_of_mem_eraseIdx)⟩
  | authority e => exact ⟨h.books.onward (untouched_foreign k s.authority e) (fun _ _ hf => hf.elim), ⟨h.queue.copies, h.queue.finished, h.queue.processed⟩⟩

theorem grows_step (h : Sound k decode s) (e : Step) :
    s.fulfilments.Grows Fulfilment.Later (step k decode maxAttempts s e).fulfilments := by
  cases e with
  | arrive | select | crash | authority => exact .refl Fulfilment.Later.refl _
  | process i r =>
    rcases process_cases maxAttempts h i r with hsame | ⟨job, s', out, hjob, hp, heq⟩
    · rw [hsame]
      exact .refl Fulfilment.Later.refl _
    · rw [heq]
      exact hp.grows
  | settle i now =>
    rcases settle_cases k decode maxAttempts s i now with hsame | ⟨job, s', hjob, hsettled, heq⟩
    · rw [hsame]
      exact .refl Fulfilment.Later.refl _
    · rw [heq]
      show s.fulfilments.Grows Fulfilment.Later s'.fulfilments
      rw [hsettled.frame.1]
      exact .refl Fulfilment.Later.refl _

end Steps

theorem sound_run (es : List Step) (h : Sound k decode s) : Sound k decode (run (step k decode maxAttempts) s es) := by
  induction es generalizing s with
  | nil => exact h
  | cons e es ih => exact ih (h.step e)

theorem grows_run (maxAttempts : Nat) (es : List Step) (h : Sound k decode s) :
    s.fulfilments.Grows Fulfilment.Later (run (step k decode maxAttempts) s es).fulfilments := by
  induction es generalizing s with
  | nil => exact .refl Fulfilment.Later.refl _
  | cons e es ih => exact (grows_step h e).trans Fulfilment.Later.trans (ih (h.step e))

end GrowthMap.Whop
