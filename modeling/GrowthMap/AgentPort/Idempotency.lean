import GrowthMap.AgentPort.Traffic
import GrowthMap.Lib.Mutex

/- Batches of an agent are idempotent.

   Batches of one grant under one key may overlap in any way, across sessions and
   processes: at most one of them is applied, and all that succeed return the response
   that its receipt stores. A batch with another document finds the key used and is refused. -/
namespace GrowthMap.AgentPort

open Canon Relational

variable {digest : Document → String}

/-- The batch succeeded with this response, by being applied or from a receipt. -/
def Task.Succeeded (t : Task) (r : Response) : Prop := t.stage = .answered (.applied r) ∨ t.stage = .answered (.replayed r)

/-- What the receipts say about the batches so far. -/
structure Settled (digest : Document → String) (s : Traffic) : Prop where
  fits : ∀ t ∈ s.tasks, t.Fits
  stored : ∀ t ∈ s.tasks, ∀ grantId body r, t.call = .batch grantId body → t.Succeeded r →
    ∃ receipt, s.port.receipts.get (grantId, body.idempotencyKey) = some receipt ∧
      receipt.requestDigest = digest (.batch body) ∧ receipt.response = r
  once : ∀ (i j : Nat) (t u : Task) (grantId : String) (body body' : Batch) (r r' : Response), s.tasks[i]? = some t → s.tasks[j]? = some u →
    t.call = .batch grantId body → u.call = .batch grantId body' → body'.idempotencyKey = body.idempotencyKey →
    t.stage = .answered (.applied r) → u.stage = .answered (.applied r') → i = j

def Call.document : Call → Option Document
  | .batch _ body => some (.batch body)
  | .record _ r => some r.document
  | .review .. => none

def documents (es : List Event) : List Document :=
  es.filterMap fun
    | .arrive call => call.document
    | .advance .. | .outside .. => none

/-- Every task is of a request that came. -/
theorem mem_documents (p : Port) (es : List Event) :
    ∀ t ∈ (Runs.run (step digest) ⟨p, []⟩ es).tasks, ∀ d, t.call.document = some d → d ∈ documents es := by
  induction es using List.reverseRecOn with
  | nil => simp
  | append_singleton es e ih =>
    have hold : ∀ d, d ∈ documents es → d ∈ documents (es ++ [e]) := by
      intro d hd
      rw [documents, List.filterMap_append]
      exact List.mem_append_left _ hd
    intro t ht d hd
    rw [Runs.run_snoc] at ht
    cases e with
    | arrive =>
      rcases List.mem_append.mp ht with ht | ht
      · exact hold d (ih t ht d hd)
      · rw [List.mem_singleton.mp ht] at hd
        rw [documents, List.filterMap_append]
        exact List.mem_append_right _ (List.mem_filterMap.mpr ⟨_, List.mem_singleton.mpr rfl, hd⟩)
    | outside => exact hold d (ih t ht d hd)
    | advance i =>
      cases hi : (Runs.run (step digest) ⟨p, []⟩ es).tasks[i]? with
      | none =>
        simp only [step, hi] at ht
        exact hold d (ih t ht d hd)
      | some u =>
        simp only [step, hi] at ht
        rcases List.mem_or_eq_of_mem_set ht with ht | rfl
        · exact hold d (ih t ht d hd)
        · exact hold d (ih u (List.mem_of_getElem? hi) d hd)

theorem settled_start (p : Port) : Settled digest ⟨p, []⟩ where
  fits := by simp
  stored := by simp
  once := by simp

variable {s : Traffic} {t : Task} {grantId : String} {body : Batch} {c : Choice} {p p' : Port} {r : Response}
  {stage : Stage}

theorem Settled.arrive (hs : Settled digest s) (call : Call) : Settled digest ⟨s.port, s.tasks ++ [⟨call, .arrived⟩]⟩ := by
  refine ⟨?_, ?_, ?_⟩
  · intro t ht
    rcases List.mem_append.mp ht with ht | ht
    · exact hs.fits t ht
    · rw [List.mem_singleton.mp ht]
      cases call <;> trivial
  · intro t ht grantId body r hcall hr
    rcases List.mem_append.mp ht with ht | ht
    · exact hs.stored t ht grantId body r hcall hr
    · rw [List.mem_singleton.mp ht] at hr
      rcases hr with hr | hr <;> cases hr
  · intro i j t u grantId body body' r r' ht hu hcall hcall' hkey hr hr'
    rcases Mutex.get_snoc_cases ht with ht | rfl
    · rcases Mutex.get_snoc_cases hu with hu | rfl
      · exact hs.once i j t u grantId body body' r r' ht hu hcall hcall' hkey hr hr'
      · cases hr'
    · cases hr

theorem Task.Fits.work (ht : t.Fits) (hcall : t.call = .batch grantId body) {w : Work}
    (hw : t.stage = .lookup w ∨ t.stage = .write w ∨ t.stage = .recover w) :
    w.slot = (grantId, body.idempotencyKey) ∧ w.body = body := by
  obtain ⟨call, old⟩ := t
  cases hcall
  rcases hw with hw | hw | hw
  all_goals
    cases hw
    obtain ⟨rfl, rfl, -⟩ := ht
    exact ⟨rfl, rfl⟩

theorem batch_start (c : Choice) (p : Port) (grantId : String) (body : Batch) :
    (∃ e, (Call.batch grantId body).arrive c p = .answered (.refused e)) ∨ ∃ w, (Call.batch grantId body).arrive c p = .lookup w := by
  simp only [Call.arrive]
  cases authorize c.now .write "write" grantId p with
  | error e => exact .inl ⟨e, rfl⟩
  | ok =>
    simp only [orRefuse]
    split
    · exact .inl ⟨_, rfl⟩
    · exact .inr ⟨_, rfl⟩

theorem arrive_not_succeeded :
    ¬ Task.Succeeded ⟨.batch grantId body, (Call.batch grantId body).arrive c p⟩ r := by
  rcases batch_start c p grantId body with ⟨e, h⟩ | ⟨w, h⟩
  · simp [Task.Succeeded, h]
  · simp [Task.Succeeded, h]

/-- What a batch is answered with is in the receipt of its key. -/
theorem Moves.answer_stored (h : Moves digest c t p stage p') (ht : t.Fits)
    (hcall : t.call = .batch grantId body)
    (hold : t.Succeeded r → ∃ receipt, p.receipts.get (grantId, body.idempotencyKey) = some receipt ∧
      receipt.requestDigest = digest (.batch body) ∧ receipt.response = r) (hr : Task.Succeeded ⟨t.call, stage⟩ r) :
    ∃ receipt, p'.receipts.get (grantId, body.idempotencyKey) = some receipt ∧
      receipt.requestDigest = digest (.batch body) ∧ receipt.response = r := by
  cases h with
  | @found w receipt hstage hget hsame =>
    obtain ⟨hslot, hbody⟩ := ht.work hcall (hstage.imp_right Or.inr)
    rcases hr with hr | hr
    · cases hr
    · cases hr
      exact ⟨receipt, hslot ▸ hget, hbody ▸ hsame, rfl⟩
  | @wrote w p' r' hstage hwrote =>
    obtain ⟨hslot, hbody⟩ := ht.work hcall (.inr (.inl hstage))
    rcases hr with hr | hr
    · cases hr
      refine ⟨w.receipt digest c.receiptId r, ?_, by rw [← hbody]; rfl, rfl⟩
      rw [← hslot]
      exact Table.get_insert_self hwrote.receipt
    · cases hr
  | answered hstage =>
    obtain ⟨call, old⟩ := t
    cases hstage
    exact hold hr
  | start =>
    rw [hcall] at hr
    exact absurd hr arrive_not_succeeded
  | known hstage =>
    obtain ⟨call, old⟩ := t
    cases hcall
    cases hstage
    exact ht.elim
  | _ => rcases hr with hr | hr <;> cases hr

theorem Moves.applied (h : Moves digest c t p stage p') (ht : t.Fits)
    (hcall : t.call = .batch grantId body) (hr : stage = .answered (.applied r)) :
    t.stage = .answered (.applied r) ∨ p.receipts.get (grantId, body.idempotencyKey) = none := by
  cases h with
  | answered hstage => exact .inl (hstage.trans hr)
  | @wrote w p' r' hstage hwrote =>
    obtain ⟨hslot, -⟩ := ht.work hcall (.inr (.inl hstage))
    refine .inr ?_
    rw [← hslot]
    exact Table.insert_fresh hwrote.receipt
  | start =>
    rw [hcall] at hr
    exact absurd (.inl hr) (arrive_not_succeeded (r := r))
  | _ => cases hr

theorem Settled.move (hs : Settled digest s) {i : Nat}
    (ht : s.tasks[i]? = some t) (h : Moves digest c t s.port stage p') : Settled digest ⟨p', s.tasks.set i ⟨t.call, stage⟩⟩ := by
  have hmem : t ∈ s.tasks := List.mem_of_getElem? ht
  have hfits := hs.fits t hmem
  refine ⟨?_, ?_, ?_⟩
  · intro u hu
    rcases List.mem_or_eq_of_mem_set hu with hu | rfl
    · exact hs.fits u hu
    · exact h.fits hfits
  · intro u hu grantId body r hcall hr
    rcases List.mem_or_eq_of_mem_set hu with hu | rfl
    · obtain ⟨receipt, hget, hrest⟩ := hs.stored u hu grantId body r hcall hr
      exact ⟨receipt, h.receipts hget, hrest⟩
    · exact h.answer_stored hfits hcall (hs.stored t hmem grantId body r hcall) hr
  · -- of two that are applied, the later one found the receipt of the earlier one
    have hnew : ∀ (j : Nat) (u : Task) (grantId : String) (body body' : Batch) (r r' : Response), s.tasks[j]? = some u →
        t.call = .batch grantId body → u.call = .batch grantId body' → body'.idempotencyKey = body.idempotencyKey →
        stage = .answered (.applied r) → u.stage = .answered (.applied r') → j = i := by
      intro j u grantId body body' r r' hu hcall hcall' hkey hr hr'
      rcases h.applied hfits hcall hr with hold | hnone
      · exact (hs.once i j t u grantId body body' r r' ht hu hcall hcall' hkey hold hr').symm
      · obtain ⟨receipt, hget, -⟩ := hs.stored u (List.mem_of_getElem? hu) grantId body' r' hcall' (.inl hr')
        rw [hkey, hnone] at hget
        cases hget
    intro j k u v grantId body body' r r' hu hv hcall hcall' hkey hr hr'
    rcases Mutex.get_set_cases hu with ⟨hj, hnow⟩ | ⟨-, hold⟩
    · subst hj hnow
      rcases Mutex.get_set_cases hv with ⟨hk, -⟩ | ⟨-, hold'⟩
      · exact hk.symm
      · exact (hnew k v grantId body body' r r' hold' hcall hcall' hkey hr hr').symm
    · rcases Mutex.get_set_cases hv with ⟨hk, hnow⟩ | ⟨-, hold'⟩
      · subst hk hnow
        exact hnew j u grantId body' body r' r hold hcall' hcall hkey.symm hr' hr
      · exact hs.once j k u v grantId body body' r r' hold hold' hcall hcall' hkey hr hr'

theorem reachable_settled (h : Runs.Reachable (step digest) ⟨p, []⟩ s) : Settled digest s := by
  refine invariant_of_moves (settled_start p) (fun s call hs => hs.arrive call) ?_ ?_ h
  · intro s i c t stage p' hs ht hmove
    exact hs.move ht hmove
  · intro s graph grants hs
    exact ⟨hs.fits, hs.stored, hs.once⟩

/-! A key that is used -/

/-- A batch under a key that another document used: it has come, or looks up its key, or was refused. -/
def Stage.IsBarred (grantId : String) (body : Batch) (stage : Stage) : Prop :=
  stage = .arrived ∨ (∃ w, stage = .lookup w ∧ w.slot = (grantId, body.idempotencyKey) ∧ w.body = body) ∨
    (∃ c q e, (Call.batch grantId body).arrive c q = .answered (.refused e) ∧ stage = .answered (.refused e)) ∨
    stage = .answered (.refused (mismatch "Key was used with different payload"))

structure Barred (receipt : Receipt) (n : Nat) (grantId : String) (body : Batch) (s : Traffic) : Prop where
  used : s.port.receipts.get (grantId, body.idempotencyKey) = some receipt
  task : ∃ stage, s.tasks[n]? = some ⟨.batch grantId body, stage⟩ ∧ stage.IsBarred grantId body

variable {receipt : Receipt}

theorem Stage.IsBarred.advance (h : stage.IsBarred grantId body)
    (hused : p.receipts.get (grantId, body.idempotencyKey) = some receipt)
    (hother : receipt.requestDigest ≠ digest (.batch body)) (c : Choice) :
    (Task.advance digest c ⟨.batch grantId body, stage⟩ p).2 = p ∧
      (Task.advance digest c ⟨.batch grantId body, stage⟩ p).1.IsBarred grantId body := by
  rcases h with rfl | ⟨w, rfl, hslot, rfl⟩ | ⟨c', q, e, he, rfl⟩ | rfl
  · refine ⟨rfl, ?_⟩
    show Stage.IsBarred grantId body ((Call.batch grantId body).arrive c p)
    rcases batch_start c p grantId body with ⟨e, he⟩ | ⟨w, hw⟩
    · exact .inr (.inr (.inl ⟨c, p, e, he, he⟩))
    · have hfits := fits_start c p (.batch grantId body)
      exact .inr (.inl ⟨w, hw, hfits.work rfl (.inl hw)⟩)
  · have hreplay : w.lookup digest p = some (.error (mismatch "Key was used with different payload")) := by
      simp only [Work.lookup, hslot, hused, Option.map_some, Receipt.replay, if_pos hother]
    simp only [Task.advance, hreplay, orRefuse]
    exact ⟨trivial, .inr (.inr (.inr rfl))⟩
  · exact ⟨rfl, .inr (.inr (.inl ⟨c', q, e, he, rfl⟩))⟩
  · exact ⟨rfl, .inr (.inr (.inr rfl))⟩

theorem reachable_barred {n : Nat}
    (hother : receipt.requestDigest ≠ digest (.batch body)) {s₀ : Traffic} (h₀ : Barred receipt n grantId body s₀)
    (h : Runs.Reachable (step digest) s₀ s) : Barred receipt n grantId body s := by
  refine h.invariant (Barred receipt n grantId body) h₀ ?_
  rintro s e ⟨hused, stage, htask, hbarred⟩
  cases e with
  | arrive =>
    refine ⟨hused, stage, ?_, hbarred⟩
    show (s.tasks ++ [_])[n]? = _
    rw [List.getElem?_append_left (List.getElem?_eq_some_iff.mp htask).1]
    exact htask
  | outside => exact ⟨hused, stage, htask, hbarred⟩
  | advance i c =>
    cases ht : s.tasks[i]? with
    | none => simpa only [step, ht] using ⟨hused, stage, htask, hbarred⟩
    | some t =>
      simp only [step, ht]
      refine ⟨(t.moves c s.port).receipts hused, ?_⟩
      by_cases hi : i = n
      · subst hi
        rw [htask, Option.some.injEq] at ht
        subst ht
        refine ⟨_, ?_, (hbarred.advance hused hother c).2⟩
        show (s.tasks.set i _)[i]? = _
        rw [List.getElem?_set_self (List.getElem?_eq_some_iff.mp htask).1]
      · refine ⟨stage, ?_, hbarred⟩
        show (s.tasks.set i _)[n]? = _
        rw [List.getElem?_set_ne hi]
        exact htask

/-! Idempotency -/

theorem batch_writes (h : Moves digest c t p stage p') (ht : t.Fits)
    (hcall : t.call = .batch grantId body) (hchange : p' ≠ p) :
    ∃ r, stage = .answered (.applied r) := by
  obtain ⟨call, old⟩ := t
  cases hcall
  cases h with
  | @wrote w p' r => exact ⟨r, rfl⟩
  | stored hstage =>
    cases hstage
    exact ht.elim
  | rejected hstage =>
    cases hstage
    exact ht.elim
  | _ => exact absurd rfl hchange

def shortDigest : Document → String
  | .batch b => if b.expectedProjectRevision.val = 1 then "one" else "other"
  | .proposal _ => "proposal"
  | .event _ => "event"

def sampleBatch (expected : Revision) : Call := .batch "g" ⟨expected, "key-0001", []⟩

/-- Two batches with different bodies under one key. -/
def sampleRun : List Event := [.arrive (sampleBatch ⟨1, by decide⟩), .arrive (sampleBatch ⟨2, by decide⟩)]

end GrowthMap.AgentPort
