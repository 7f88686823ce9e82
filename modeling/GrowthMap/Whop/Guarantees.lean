import GrowthMap.Whop.Invariant

/- What the worker guarantees.

   A reversal that was not given up has its payment's license revoked, in whatever order
   the events came. A license without a fulfilment row is left behind by an attempt that
   did not commit: `Settling` says what is known of such a license in the runs in which
   the event it was made for is not given up before it is recorded. -/
namespace GrowthMap.Whop

open Relational Runs Table
open Payments (Time)
open Authority (Crypto Store ExternalEntitlement Later Revoked)

variable {k : Crypto} {decode : String → Option Event} {maxAttempts : Nat}

/-! Reversals -/

def Held (k : Crypto) (s : State) (p : String) (en : ExternalEntitlement) : Prop :=
  s.authority.entitlements.get ("whop", sourceId k p) = some en

/-- An event of the payment, in the inbox. -/
structure EventOf (decode : String → Option Event) (s : State) (p : String) (row : InboxRow) (e : Event) : Prop where
  stored : s.inbox.get row.webhookId = some row
  parsed : parseEvent decode row = .ok e
  payment : e.paymentId = p

/-- The state a worker that retries `maxAttempts` times reaches from an empty database. -/
abbrev reached (k : Crypto) (decode : String → Option Event) (maxAttempts : Nat) (es : List Step) : State :=
  run (step k decode maxAttempts) .empty es

theorem Recorded.held {s : State} {p : String} {f : Fulfilment} {en : ExternalEntitlement} (h : Recorded k decode s.authority p f)
    (hen : Held k s p en) : f.licenseId = some en.licenseId ∧ en.payloadDigest = some f.payloadDigest := by
  obtain ⟨en', hen', hlicense⟩ := h.license
  cases hen'.symm.trans hen
  exact hlicense

/-- The worker's rows agree with the Authority: a fulfilment names the license held for its
payment under the same payload, which is revoked if the row is, and an event marked as processed
has had its effect. -/
theorem fulfilments_agree (k : Crypto) (decode : String → Option Event) (maxAttempts : Nat) (es : List Step) :
    let s := reached k decode maxAttempts es
    (∀ p f, s.fulfilments.get p = some f → f.state ≠ .granting ∧
      ∃ en, Held k s p en ∧ f.licenseId = some en.licenseId ∧ en.payloadDigest = some f.payloadDigest ∧
        (f.state = .revoked → Revoked s.authority.licenses en.licenseId)) ∧
    (∀ id en, s.authority.entitlements.get ("whop", id) = some en → Issued k decode id en) ∧
    ∀ id row, s.inbox.get id = some row → row.status = .processed → Done decode s.fulfilments row := by
  intro s
  have hsound : Sound k decode s := sound_run es .empty
  refine ⟨?_, hsound.books.issued, hsound.queue.processed⟩
  intro p f hf
  have hrecorded := hsound.books.recorded p f hf
  obtain ⟨en, hen, hlicense, hdigest⟩ := hrecorded.license
  exact ⟨hrecorded.state, en, hen, hlicense, hdigest, fun hst => hrecorded.revoked hst _ hlicense⟩

/-- Whatever came first and however often it was tried: once none of a payment's events is
pending, a reversal that was not rejected has its fulfilment and its license revoked. -/
theorem reversal_revokes (k : Crypto) (decode : String → Option Event) (maxAttempts : Nat) (es : List Step) (p : String)
    (row : InboxRow) (e : Event) (he : EventOf decode (reached k decode maxAttempts es) p row e)
    (hreversal : e.eventType.isReversal)
    (hsettled : ∀ row e, EventOf decode (reached k decode maxAttempts es) p row e → row.status ≠ .verifiedPending)
    (hkept : row.status ≠ .rejected) :
    (∀ f, (reached k decode maxAttempts es).fulfilments.get p = some f → f.state ≠ .granted) ∧
      ∀ en, Held k (reached k decode maxAttempts es) p en →
        Revoked (reached k decode maxAttempts es).authority.licenses en.licenseId := by
  have hsound : Sound k decode (reached k decode maxAttempts es) := sound_run es .empty
  have hprocessed : row.status = .processed := by
    cases hst : row.status with
    | verifiedPending => exact absurd hst (hsettled row e he)
    | processed => rfl
    | rejected => exact absurd hst hkept
  obtain ⟨-, hdone⟩ := hsound.queue.processed _ row he.stored hprocessed e he.parsed
  obtain ⟨f, hf, hrevoked⟩ := hdone hreversal
  rw [he.payment] at hf
  have hrec := hsound.books.recorded p f hf
  refine ⟨?_, ?_⟩
  · intro g hg
    cases hf.symm.trans hg
    rw [hrevoked]
    simp
  · intro en hen
    exact hrec.revoked hrevoked _ (hrec.held hen).1

def idle (s : State) : Bool := s.inbox.rows.all fun row => decide (row.status ≠ .verifiedPending)

variable {s : State} {p d : String} {e : Event} {en : ExternalEntitlement} {row : InboxRow}

theorem EventOf.not_pending (h : idle s = true)
    (he : EventOf decode s p row e) : row.status ≠ .verifiedPending :=
  of_decide_eq_true (List.all_eq_true.mp h row (get_mem he.stored))

namespace Demo

def refundAfter : List Step :=
  [pinned, paid] ++ round 0 (remote true true) ++ [refunded] ++ round 1 (remote true true)

/-- A refund is tried eight times before the payment arrives. -/
def refundBefore : List Step :=
  [pinned, refunded] ++ round 0 (remote true true) ++ outage ++ [paid] ++ round 16 (remote true true)

def refundRow (status : Status) : InboxRow := ⟨"w2", .refundCreated, "refund", status⟩

def refund : Event := event "w2" .refundCreated "refunded" "refund" none

theorem refundRow_parsed (status : Status) : parseEvent payloads (refundRow status) = .ok refund := by
  cases status <;> decide +kernel

end Demo

theorem reversal_revokes_refundAfter :
    (reached Demo.crypto Demo.payloads 8 Demo.refundAfter).fulfilments.rows.map Fulfilment.state = [.revoked] ∧
      ∀ en, Held Demo.crypto (reached Demo.crypto Demo.payloads 8 Demo.refundAfter) "pay_1" en →
        Revoked (reached Demo.crypto Demo.payloads 8 Demo.refundAfter).authority.licenses en.licenseId := by
  have hrun : (reached Demo.crypto Demo.payloads 8 Demo.refundAfter).fulfilments.rows.map Fulfilment.state = [.revoked] ∧
      (reached Demo.crypto Demo.payloads 8 Demo.refundAfter).inbox.get (Demo.refundRow .processed).webhookId =
        some (Demo.refundRow .processed) ∧
      idle (reached Demo.crypto Demo.payloads 8 Demo.refundAfter) = true := by
    decide +kernel
  obtain ⟨hrevoked, hrow, hall⟩ := hrun
  have he : EventOf Demo.payloads (reached Demo.crypto Demo.payloads 8 Demo.refundAfter) "pay_1" (Demo.refundRow .processed)
      Demo.refund :=
    ⟨hrow, Demo.refundRow_parsed _, rfl⟩
  have hsettled : ∀ row e, EventOf Demo.payloads (reached Demo.crypto Demo.payloads 8 Demo.refundAfter) "pay_1" row e →
      row.status ≠ .verifiedPending :=
    fun _ _ he => he.not_pending hall
  have hkept : (Demo.refundRow .processed).status ≠ .rejected := by simp [Demo.refundRow]
  have hboth := reversal_revokes Demo.crypto Demo.payloads 8 Demo.refundAfter "pay_1" (Demo.refundRow .processed) Demo.refund he
    rfl hsettled hkept
  exact ⟨hrevoked, hboth.2⟩

/-- The refund is rejected, the payment granted after it, and no event is pending. -/
theorem refund_given_up_stays_granted :
    ¬ ∀ (k : Crypto) (decode : String → Option Event) (es : List Step) (p : String) (row : InboxRow) (e : Event),
      EventOf decode (reached k decode 8 es) p row e → e.eventType.isReversal →
      (∀ row e, EventOf decode (reached k decode 8 es) p row e → row.status ≠ .verifiedPending) →
      ∀ f, (reached k decode 8 es).fulfilments.get p = some f → f.state ≠ .granted := by
  intro h
  have hrun : ((reached Demo.crypto Demo.payloads 8 Demo.refundBefore).fulfilments.get "pay_1").map Fulfilment.state = some .granted ∧
      (reached Demo.crypto Demo.payloads 8 Demo.refundBefore).inbox.get (Demo.refundRow .rejected).webhookId =
        some (Demo.refundRow .rejected) ∧
      idle (reached Demo.crypto Demo.payloads 8 Demo.refundBefore) = true := by
    decide +kernel
  obtain ⟨hgranted, hrow, hall⟩ := hrun
  have he : EventOf Demo.payloads (reached Demo.crypto Demo.payloads 8 Demo.refundBefore) "pay_1" (Demo.refundRow .rejected)
      Demo.refund :=
    ⟨hrow, Demo.refundRow_parsed _, rfl⟩
  obtain ⟨f, hf, hstate⟩ := Option.map_eq_some_iff.mp hgranted
  have hsettled : ∀ row e, EventOf Demo.payloads (reached Demo.crypto Demo.payloads 8 Demo.refundBefore) "pay_1" row e →
      row.status ≠ .verifiedPending :=
    fun _ _ he => he.not_pending hall
  have hstays := h Demo.crypto Demo.payloads Demo.refundBefore "pay_1" (Demo.refundRow .rejected) Demo.refund he rfl hsettled
  exact hstays f hf hstate

/-! Licenses without a row -/

/-- The Authority holds a license that it made for an early event of the payment. -/
def EarlyHeld (k : Crypto) (decode : String → Option Event) (s : State) (p : String) : Prop :=
  ∃ en d e, Held k s p en ∧ en.payloadDigest = some d ∧ decode d = some e ∧ e.paymentId = p ∧ validateSemantics e = .ok .early

def Unrecorded (k : Crypto) (decode : String → Option Event) (s : State) (p : String) : Prop :=
  EarlyHeld k decode s p ∧ s.fulfilments.get p = none

def Awaits (decode : String → Option Event) (s : State) (d : String) (e : Event) : Prop :=
  ∃ row, s.inbox.get row.webhookId = some row ∧ row.payloadSha256 = d ∧ parseEvent decode row = .ok e ∧
    row.status = .verifiedPending

/-- A license without a row has its event pending, and there is at most one such license
of the early tier, with room for its row. -/
structure Settling (k : Crypto) (decode : String → Option Event) (s : State) : Prop where
  pending : ∀ id en d e, s.authority.entitlements.get ("whop", id) = some en → en.payloadDigest = some d →
    decode d = some e → (s.fulfilments.get e.paymentId).isSome ∨ Awaits decode s d e
  one : ∀ p q, Unrecorded k decode s p → Unrecorded k decode s q → p = q ∧ earlyRows s.fulfilments < earlyLimit

/-- The steps that do not lose a license: an event is tried for the first license of its
payment while its row is pending, and, of the early tier, while no other early license
lacks its row; a row is not given up while the license made for it lacks its row. -/
def Careful (k : Crypto) (decode : String → Option Event) (maxAttempts : Nat) (s : State) : Step → Prop
  | .process i _ => ∀ job e tier, s.jobs[i]? = some job → Valid decode job.row e tier →
      e.eventType = .paymentSucceeded → s.fulfilments.get e.paymentId = none →
      (∃ row, s.inbox.get job.row.webhookId = some row ∧ row.status = .verifiedPending) ∧
        (tier = .early → ∀ q, Unrecorded k decode s q → q = e.paymentId)
  | .settle i _ => ∀ job e en, s.jobs[i]? = some job → rejects maxAttempts job → parseEvent decode job.row = .ok e →
      Held k s e.paymentId en → en.payloadDigest = some job.row.payloadSha256 → (s.fulfilments.get e.paymentId).isSome
  | _ => True

theorem Settling.empty : Settling k decode .empty where
  pending := by intro id en d e h; simp [State.empty, Store.empty] at h
  one := by
    rintro p q ⟨⟨en, d, e, hen, -⟩, -⟩
    simp [Held, State.empty, Store.empty] at hen

section Settling

variable {s : State} {a : Store} {t : Fulfilments} {tier : Tier} {s' : State}

theorem EarlyHeld.untouched (h : Untouched k s.authority a)
    (he : EarlyHeld k decode { s with authority := a, fulfilments := t } p) : EarlyHeld k decode s p := by
  obtain ⟨en, d, e, hen, hrest⟩ := he
  rcases h.whop _ _ hen with hold | hnew
  · exact ⟨en, d, e, hold, hrest⟩
  · exact hnew.elim

theorem Settling.untouched (h : Settling k decode s) (ho : Untouched k s.authority a) :
    Settling k decode { s with authority := a } where
  pending := by
    intro id en d e hen
    rcases ho.whop _ _ hen with hold | hnew
    · exact h.pending id en d e hold
    · exact hnew.elim
  one := fun p q hp hq => h.one p q ⟨hp.1.untouched ho, hp.2⟩ ⟨hq.1.untouched ho, hq.2⟩

/-- A reversal leaves the rows where they are. -/
theorem Settling.revoke (h : Settling k decode s) (p : String) (now : Time) :
    Settling k decode
      { s with fulfilments := s.fulfilments.modify p (Fulfilment.revoke now) (Fulfilment.revoke_key now) } := by
  have hget : ∀ q, ((s.fulfilments.modify p (Fulfilment.revoke now) (Fulfilment.revoke_key now)).get q).isSome =
      (s.fulfilments.get q).isSome := by
    intro q
    rw [get_modify]
    split
    · rw [Option.isSome_map]
    · rfl
  refine ⟨?_, ?_⟩
  · intro id en d e hen hd he
    rcases h.pending id en d e hen hd he with hrow | hawaits
    · exact .inl ((hget e.paymentId).trans hrow)
    · exact .inr hawaits
  · have hold : ∀ q, Unrecorded k decode
        { s with fulfilments := s.fulfilments.modify p (Fulfilment.revoke now) (Fulfilment.revoke_key now) } q →
        Unrecorded k decode s q := by
      rintro q ⟨hearly, hnone⟩
      have hiff := hget q
      change Table.get (s.fulfilments.modify p (Fulfilment.revoke now) (Fulfilment.revoke_key now)) q = none at hnone
      rw [hnone] at hiff
      exact ⟨hearly, Option.not_isSome_iff_eq_none.mp (by rw [← hiff]; simp)⟩
    intro q q' hq hq'
    obtain ⟨heq, hlt⟩ := h.one q q' (hold q hq) (hold q' hq')
    have hle : earlyRows (s.fulfilments.modify p (Fulfilment.revoke now) (Fulfilment.revoke_key now)) ≤
        earlyRows s.fulfilments := countP_modify_le _ (fun f _ hp => hp)
    exact ⟨heq, hle.trans_lt hlt⟩

theorem EarlyHeld.asked (hvalid : Valid decode row e tier)
    (ho : Onward k (fun id en => id = sourceId k e.paymentId ∧ en.payloadDigest = some e.payloadSha256) s.authority a)
    (h : EarlyHeld k decode { s with authority := a, fulfilments := t } p) :
    EarlyHeld k decode s p ∨ p = e.paymentId ∧ tier = .early := by
  obtain ⟨en, d, e', hen, hd, hdecode, hp, hearly⟩ := h
  rcases ho.whop _ _ hen with hold | ⟨-, hdigest⟩
  · exact .inl ⟨en, d, e', hold, hd, hdecode, hp, hearly⟩
  · obtain ⟨hself, -, -, hsha⟩ := parseEvent_ok hvalid.parsed
    cases hd.symm.trans hdigest
    rw [hsha] at hdecode
    cases hself.symm.trans hdecode
    cases hvalid.semantics.symm.trans hearly
    exact .inr ⟨hp.symm, rfl⟩

theorem Settling.asked_pending (h : Settling k decode s) (hvalid : Valid decode row e tier)
    (ho : Onward k (fun id en => id = sourceId k e.paymentId ∧ en.payloadDigest = some e.payloadSha256) s.authority a)
    {id : String} {e' : Event} (hen : a.entitlements.get ("whop", id) = some en)
    (hd : en.payloadDigest = some d) (hdecode : decode d = some e') :
    (s.fulfilments.get e'.paymentId).isSome ∨ Awaits decode s d e' ∨ (e' = e ∧ d = row.payloadSha256) := by
  rcases ho.whop _ _ hen with hold | ⟨-, hdigest⟩
  · exact (h.pending id en d e' hold hd hdecode).imp_right .inl
  · obtain ⟨hself, -, -, hsha⟩ := parseEvent_ok hvalid.parsed
    cases hd.symm.trans hdigest
    rw [hsha] at hdecode
    cases hself.symm.trans hdecode
    exact .inr (.inr ⟨rfl, hsha⟩)

theorem Settling.process {i : Nat} {job : Job} {out : Except Failure Outcome} {r : Remote} (hs : Sound k decode s)
    (h : Settling k decode s) (hcareful : Careful k decode maxAttempts s (.process i r)) (hjob : s.jobs[i]? = some job)
    (hp : Processed k decode job.row s s' out) : Settling k decode s' := by
  cases hp with
  | idle | ignored | kept | reversed => exact h
  | unheard a f honward => exact h.untouched honward
  | revoked e tier linked licenseId now a hvalid hreversal hrow hlicense honward =>
    exact (h.untouched honward).revoke e.paymentId now
  | lost e tier a f hvalid hpayment hnone hearly honward =>
    obtain ⟨⟨row, hrow, hpending⟩, halone⟩ := hcareful job e tier hjob hvalid hpayment hnone
    refine ⟨?_, ?_⟩
    · intro id en d e' hen hd hdecode
      rcases h.asked_pending hvalid honward hen hd hdecode with hrow' | hawaits | ⟨rfl, rfl⟩
      · exact .inl hrow'
      · exact .inr hawaits
      · -- the row the job is a copy of awaits its settlement
        obtain ⟨row₀, hrow₀, hcopy⟩ := hs.queue.copies job (List.mem_of_getElem? hjob)
        cases hrow₀.symm.trans hrow
        refine .inr ⟨row, ?_, hcopy.2.2.symm, hcopy.parseEvent ▸ hvalid.parsed, hpending⟩
        rw [← hcopy.1]
        exact hrow
    · rintro p q ⟨hp, hpnone⟩ ⟨hq, hqnone⟩
      have hnew : ∀ p, EarlyHeld k decode { s with authority := a } p → EarlyHeld k decode s p ∨ p = e.paymentId ∧ tier = .early :=
        fun p hp => hp.asked hvalid honward
      rcases hnew p hp with hp | ⟨rfl, htier⟩
      · rcases hnew q hq with hq | ⟨rfl, htier⟩
        · exact h.one p q ⟨hp, hpnone⟩ ⟨hq, hqnone⟩
        · exact ⟨halone htier p ⟨hp, hpnone⟩, hearly htier⟩
      · rcases hnew q hq with hq | ⟨rfl, -⟩
        · exact ⟨(halone htier q ⟨hq, hqnone⟩).symm, hearly htier⟩
        · exact ⟨rfl, hearly htier⟩
  | granted e tier a f t hvalid hpayment hnone hearly honward hw hi =>
    obtain ⟨-, halone⟩ := hcareful job e tier hjob hvalid hpayment hnone
    have hself : (t.get e.paymentId).isSome := by
      rw [← hw.payment, get_insert_self hi]
      rfl
    refine ⟨?_, ?_⟩
    · intro id en d e' hen hd hdecode
      rcases h.asked_pending hvalid honward hen hd hdecode with hrow' | hawaits | ⟨rfl, rfl⟩
      · exact .inl (isSome_grows (.insert Fulfilment.Later.refl hi) hrow')
      · exact .inr hawaits
      · exact .inl hself
    · have hold : ∀ p, Unrecorded k decode { s with authority := a, fulfilments := t } p →
          p ≠ e.paymentId ∧ Unrecorded k decode s p := by
        rintro p ⟨hp, hpnone⟩
        change t.get p = none at hpnone
        have hne : p ≠ e.paymentId := by
          rintro rfl
          rw [hpnone] at hself
          cases hself
        rcases hp.asked hvalid honward with hp | ⟨rfl, -⟩
        · refine ⟨hne, hp, ?_⟩
          rw [get_insert hi, if_neg (hw.payment ▸ hne)] at hpnone
          exact hpnone
        · exact absurd rfl hne
      intro p q hp hq
      obtain ⟨hpne, hpold⟩ := hold p hp
      obtain ⟨-, hqold⟩ := hold q hq
      obtain ⟨heq, hlt⟩ := h.one p q hpold hqold
      refine ⟨heq, ?_⟩
      -- another early license without its row: the tier is not early
      have htier : tier ≠ .early := fun htier => hpne (halone htier p hpold)
      show earlyRows t < earlyLimit
      unfold earlyRows at hlt ⊢
      rw [countP_insert hi, hw.tier]
      simpa [htier] using hlt

theorem Settling.settle {i : Nat} {now : Time} {job : Job} (hs : Sound k decode s) (h : Settling k decode s)
    (hcareful : Careful k decode maxAttempts s (.settle i now)) (hjob : s.jobs[i]? = some job)
    (hsettled : Settled maxAttempts job s s') : Settling k decode s' := by
  obtain ⟨hful, hauthority, -⟩ := hsettled.frame
  refine ⟨?_, ?_⟩
  · intro id en d e hen hd hdecode
    rw [hauthority] at hen
    rw [hful]
    rcases h.pending id en d e hen hd hdecode with hrow | ⟨row, hrow, hsha, hparsed, hpending⟩
    · exact .inl hrow
    obtain ⟨row', hrow', hsame⟩ := hsettled.forward _ row hrow
    obtain ⟨row₀, hrow₀, -, hstatus⟩ := hsettled.backward _ row' hrow'
    cases hrow₀.symm.trans hrow
    obtain ⟨d', e', tier, hd', hdecode', hpayment, -, hid⟩ := hs.books.issued id en hen
    cases hd.symm.trans hd'
    cases hdecode.symm.trans hdecode'
    have hmem := List.mem_of_getElem? hjob
    rcases hstatus with hkept | ⟨-, hkey, hpayload, hmarked⟩
    · refine .inr ⟨row', ?_, hsame.2.2 ▸ hsha, hsame.parseEvent ▸ hparsed, hkept.trans hpending⟩
      rw [← hsame.1]
      exact hrow'
    · obtain ⟨row₁, hrow₁, hcopy⟩ := hs.queue.copies job hmem
      rw [hkey] at hrow
      cases hrow₁.symm.trans hrow
      have hparsed' : parseEvent decode job.row = .ok e := hcopy.parseEvent.trans hparsed
      rcases hmarked with ⟨-, o, ho⟩ | ⟨-, hrejects⟩
      · exact .inl ((hs.queue.finished job hmem o ho e hparsed').1 hpayment)
      · refine .inl (hcareful job e en hjob hrejects hparsed' ?_ ?_)
        · unfold Held
          rw [← hid]
          exact hen
        · rw [hd, ← hsha, hpayload]
  · have hold : ∀ p, Unrecorded k decode s' p → Unrecorded k decode s p := by
      rintro p ⟨⟨en, d, e, hen, hrest⟩, hnone⟩
      unfold Held at hen
      rw [hauthority] at hen
      rw [hful] at hnone
      exact ⟨⟨en, d, e, hen, hrest⟩, hnone⟩
    intro p q hp hq
    rw [hful]
    exact h.one p q (hold p hp) (hold q hq)

theorem Settling.arrive (h : Settling k decode s) (row : InboxRow) :
    Settling k decode { s with inbox := (s.inbox.insert row).getD s.inbox } := by
  cases hi : s.inbox.insert row with
  | none => exact h
  | some =>
    refine ⟨?_, h.one⟩
    intro id en d e hen hd hdecode
    rcases h.pending id en d e hen hd hdecode with hrow | ⟨row', hrow', hrest⟩
    · exact .inl hrow
    · exact .inr ⟨row', get_insert_old hi hrow', hrest⟩

theorem Settling.step (hs : Sound k decode s) (h : Settling k decode s) (e : Step)
    (hcareful : Careful k decode maxAttempts s e) : Settling k decode (step k decode maxAttempts s e) := by
  cases e with
  | arrive => exact h.arrive _
  | select | crash => exact ⟨h.pending, h.one⟩
  | process i r =>
    rcases process_cases maxAttempts hs i r with hsame | ⟨job, s', out, hjob, hp, heq⟩
    · rw [hsame]
      exact h
    · have hnext : Settling k decode s' := h.process hs hcareful hjob hp
      rw [heq]
      exact ⟨hnext.pending, hnext.one⟩
  | settle i now =>
    rcases settle_cases k decode maxAttempts s i now with hsame | ⟨job, s', hjob, hsettled, heq⟩
    · rw [hsame]
      exact h
    · have hnext : Settling k decode s' := h.settle hs hcareful hjob hsettled
      rw [heq]
      exact ⟨hnext.pending, hnext.one⟩
  | authority e => exact h.untouched (untouched_foreign k s.authority e)

end Settling

theorem settling_run (es : List Step) (hs : Sound k decode s) (h : Settling k decode s)
    (halong : Along (step k decode maxAttempts) (Careful k decode maxAttempts) s es) :
    Settling k decode (run (step k decode maxAttempts) s es) := by
  induction es generalizing s with
  | nil => exact h
  | cons e es ih => exact ih (hs.step e) (h.step hs e halong.1) halong.2

/-! One license -/

def earlyPayments (t : Fulfilments) : List String := (t.rows.filter (fun f => decide (f.tier = .early))).map Fulfilment.paymentId

theorem earlyPayments_length (t : Fulfilments) : (earlyPayments t).length = earlyRows t := by
  rw [earlyPayments, List.length_map, earlyRows, List.countP_eq_length_filter]

theorem Books.early_mem (h : Books k decode s.authority s.fulfilments) {f : Fulfilment}
    (he : EarlyHeld k decode s p) (hf : s.fulfilments.get p = some f) : p ∈ earlyPayments s.fulfilments := by
  obtain ⟨en, d, e, hen, hd, hdecode, -, hearly⟩ := he
  have hrec := h.recorded p f hf
  obtain ⟨e', hdecode', hsemantics⟩ := hrec.tier
  cases hd.symm.trans (hrec.held hen).2
  cases hdecode.symm.trans hdecode'
  have htier : f.tier = .early := Except.ok.inj (hsemantics.symm.trans hearly)
  refine List.mem_map.mpr ⟨f, ?_, get_key hf⟩
  exact List.mem_filter.mpr ⟨get_mem hf, by simpa using htier⟩

theorem Settling.early_le (hs : Sound k decode s) (h : Settling k decode s) {ps : List String} (hnodup : ps.Nodup)
    (hheld : ∀ p ∈ ps, EarlyHeld k decode s p) : ps.length ≤ earlyLimit := by
  have hcap := hs.books.cap
  have hlength := earlyPayments_length s.fulfilments
  by_cases hu : ∃ u, Unrecorded k decode s u
  · -- the payment without its row, and those with one
    obtain ⟨u, hu⟩ := hu
    have hsub : ps ⊆ u :: earlyPayments s.fulfilments := by
      intro p hp
      cases hf : s.fulfilments.get p with
      | none => rw [(h.one p u ⟨hheld p hp, hf⟩ hu).1]; exact List.mem_cons_self
      | some => exact List.mem_cons_of_mem _ (hs.books.early_mem (hheld p hp) hf)
    have hle := (List.subperm_of_subset hnodup hsub).length_le
    have hroom := (h.one u u hu hu).2
    rw [List.length_cons] at hle
    omega
  · have hsub : ps ⊆ earlyPayments s.fulfilments := by
      intro p hp
      cases hf : s.fulfilments.get p with
      | none => exact absurd ⟨p, hheld p hp, hf⟩ hu
      | some => exact hs.books.early_mem (hheld p hp) hf
    have hle := (List.subperm_of_subset hnodup hsub).length_le
    omega

/-- SHA-256 gives two payments two source ids. -/
def CollisionFree (k : Crypto) (decode : String → Option Event) : Prop :=
  ∀ d e d' e', decode d = some e → decode d' = some e' → sourceId k e.paymentId = sourceId k e'.paymentId →
    e.paymentId = e'.paymentId

/-- One license for a payment, on both sides. -/
structure OneLicense (k : Crypto) (decode : String → Option Event) (s : State) : Prop where
  rows : ∀ p, s.fulfilments.rows.countP (fun f => decide (f.paymentId = p)) ≤ 1
  licenses : ∀ p, s.authority.entitlements.rows.countP (fun en => decide (en.source = "whop" ∧ en.sourceId = sourceId k p)) ≤ 1
  agree : ∀ p f l, s.fulfilments.get p = some f → f.licenseId = some l → ∃ en, Held k s p en ∧ en.licenseId = l
  early : ∀ ps : List String, ps.Nodup → (∀ p ∈ ps, EarlyHeld k decode s p) → ps.length ≤ earlyLimit
  recorded : ∀ d e, decode d = some e → (∀ row e', EventOf decode s e.paymentId row e' → row.status ≠ .verifiedPending) →
    ∀ en, Held k s e.paymentId en → (s.fulfilments.get e.paymentId).isSome

theorem Settling.recorded (hfree : CollisionFree k decode) (hs : Sound k decode s) (h : Settling k decode s)
    (hdecode : decode d = some e)
    (hsettled : ∀ row e', EventOf decode s e.paymentId row e' → row.status ≠ .verifiedPending)
    (hen : Held k s e.paymentId en) : (s.fulfilments.get e.paymentId).isSome := by
  obtain ⟨d', e', tier, hd', hdecode', -, -, hid⟩ := hs.books.issued _ en hen
  have hsame : e.paymentId = e'.paymentId := hfree d e d' e' hdecode hdecode' hid
  rcases h.pending _ en d' e' hen hd' hdecode' with hrow | ⟨row, hrow, -, hparsed, hpending⟩
  · rw [hsame]
    exact hrow
  · exact absurd hpending (hsettled row e' ⟨hrow, hparsed, hsame.symm⟩)

/-- In a run of careful steps there is one license for a payment, whatever else was lost,
repeated or given up; and in every run a revoked fulfilment stays revoked. -/
theorem one_license_per_payment (k : Crypto) (decode : String → Option Event) (maxAttempts : Nat)
    (hfree : CollisionFree k decode) (es : List Step)
    (halong : Along (step k decode maxAttempts) (Careful k decode maxAttempts) .empty es) :
    OneLicense k decode (reached k decode maxAttempts es) ∧
      ∀ p f later, (reached k decode maxAttempts es).fulfilments.get p = some f → f.state = .revoked →
        ∃ f', (reached k decode maxAttempts (es ++ later)).fulfilments.get p = some f' ∧ f'.state = .revoked := by
  have hsound : Sound k decode (reached k decode maxAttempts es) := sound_run es .empty
  have hsettling : Settling k decode (reached k decode maxAttempts es) := settling_run es .empty .empty halong
  refine ⟨⟨?_, ?_, ?_, ?_, ?_⟩, ?_⟩
  · intro p
    apply Table.countP_key_le_one _ p
    intro f hf
    exact of_decide_eq_true hf
  · intro p
    apply Table.countP_key_le_one _ ("whop", sourceId k p)
    intro en hen
    obtain ⟨hsource, hid⟩ := of_decide_eq_true hen
    rw [hsource, hid]
  · intro p f l hf hl
    obtain ⟨en, hen, hlicense, -⟩ := (hsound.books.recorded p f hf).license
    exact ⟨en, hen, Option.some.inj (hlicense.symm.trans hl)⟩
  · intro ps hnodup hheld
    exact hsettling.early_le hsound hnodup hheld
  · intro d e hdecode hsettled en hen
    exact hsettling.recorded hfree hsound hdecode hsettled hen
  · intro p f later hf hrevoked
    obtain ⟨f', hf', hlater⟩ := grows_run maxAttempts later hsound p f hf
    rw [← run_append] at hf'
    exact ⟨f', hf', hlater.revoked hrevoked⟩

/-! A lost answer -/

namespace Demo

/-- The Authority serves the first call of the payment, and its answer is lost. -/
def retried : List Step := [pinned, paid] ++ round 0 (remote true false) ++ round 1 (remote true true)

/-- The first answer is lost, and the Authority is away for the other attempts. -/
def unheard : List Step := [pinned, paid] ++ round 0 (remote true false) ++ outage

theorem collisionFree : CollisionFree crypto payloads := by
  intro d e d' e' he he' _
  rw [payloads_payment he, payloads_payment he']

/-- The jobs are of the payment, whose row is pending, and none gives it up. -/
def eased (s : State) : Bool :=
  (s.inbox.get "w1").all (fun row => decide (row.status = .verifiedPending)) &&
    s.jobs.all (fun job => (s.inbox.get job.row.webhookId).isSome && decide (job.row.webhookId = "w1") && !rejects 8 job)

def easedAlong : State → List Step → Bool
  | _, [] => true
  | s, e :: es => eased s && easedAlong (step crypto payloads 8 s e) es

theorem careful (h : eased s = true) (e : Step) : Careful crypto payloads 8 s e := by
  unfold eased at h
  rw [Bool.and_eq_true, List.all_eq_true] at h
  obtain ⟨hpending, hjobs⟩ := h
  cases e with
  | process =>
    intro job e tier hjob hvalid hpayment hnone
    have hj := hjobs job (List.mem_of_getElem? hjob)
    simp only [Bool.and_eq_true, decide_eq_true_eq] at hj
    obtain ⟨row, hrow⟩ := Option.isSome_iff_exists.mp hj.1.1
    refine ⟨⟨row, hrow, ?_⟩, ?_⟩
    · rw [hj.1.2] at hrow
      rw [hrow] at hpending
      simpa using hpending
    · rintro - q ⟨⟨en, d, e', -, -, hdecode, rfl, -⟩, -⟩
      rw [payloads_payment hdecode, payloads_payment (parseEvent_ok hvalid.parsed).1]
  | settle =>
    intro job e en hjob hrejects
    have hj := hjobs job (List.mem_of_getElem? hjob)
    simp [hrejects] at hj
  | arrive | select | crash | authority => trivial

theorem along_careful {es : List Step} (h : easedAlong s es = true) :
    Along (step crypto payloads 8) (Careful crypto payloads 8) s es := by
  induction es generalizing s with
  | nil => trivial
  | cons e es ih =>
    rw [easedAlong, Bool.and_eq_true] at h
    exact ⟨careful h.1 e, ih h.2⟩

end Demo

theorem one_license_per_payment_retried :
    (reached Demo.crypto Demo.payloads 8 Demo.retried).fulfilments.rows.map (fun f => (f.state, f.licenseId)) =
        [(.granted, some "W")] ∧
      OneLicense Demo.crypto Demo.payloads (reached Demo.crypto Demo.payloads 8 Demo.retried) := by
  have hrun : (reached Demo.crypto Demo.payloads 8 Demo.retried).fulfilments.rows.map
        (fun f => (f.state, f.licenseId)) = [(.granted, some "W")] ∧
      Demo.easedAlong .empty Demo.retried = true := by
    decide +kernel
  exact ⟨hrun.1, (one_license_per_payment Demo.crypto Demo.payloads 8 Demo.collisionFree Demo.retried
    (Demo.along_careful hrun.2)).1⟩

/-- After eight attempts, the first of which the Authority served, the event is rejected;
the Authority holds a license for the payment, which has no row. -/
theorem unheard_license_without_row :
    ¬ ∀ (k : Crypto) (decode : String → Option Event) (es : List Step), CollisionFree k decode →
      OneLicense k decode (reached k decode 8 es) := by
  intro h
  have hrun : idle (reached Demo.crypto Demo.payloads 8 Demo.unheard) = true ∧
      ((reached Demo.crypto Demo.payloads 8 Demo.unheard).authority.entitlements.get
        ("whop", sourceId Demo.crypto Demo.refund.paymentId)).isSome = true ∧
      ((reached Demo.crypto Demo.payloads 8 Demo.unheard).fulfilments.get Demo.refund.paymentId).isSome = false ∧
      Demo.payloads "refund" = some Demo.refund := by
    decide +kernel
  obtain ⟨hall, hheld, hnone, hdecode⟩ := hrun
  obtain ⟨en, hen⟩ := Option.isSome_iff_exists.mp hheld
  have hone := h Demo.crypto Demo.payloads Demo.unheard Demo.collisionFree
  have hsettled : ∀ row e', EventOf Demo.payloads (reached Demo.crypto Demo.payloads 8 Demo.unheard) Demo.refund.paymentId row e' →
      row.status ≠ .verifiedPending := fun _ _ he => he.not_pending hall
  have hen' : Held Demo.crypto (reached Demo.crypto Demo.payloads 8 Demo.unheard) Demo.refund.paymentId en := hen
  have hrow := hone.recorded "refund" Demo.refund hdecode hsettled en hen'
  rw [hnone] at hrow
  cases hrow

end GrowthMap.Whop
