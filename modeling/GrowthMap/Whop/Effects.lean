import GrowthMap.Authority.Entitlements
import GrowthMap.Authority.Ledger
import GrowthMap.Whop.Fulfilment

/- What an attempt does.

   `Onward` is what the Authority may have become around the calls of one attempt, and
   `Processed` lists the ways an attempt ends, with what it left behind: the proofs about
   runs look at these and never at `grant` or `revoke` again. -/
namespace GrowthMap.Whop

open Relational Runs Table
open Payments (Time seconds Identity EntitlementAck)
open Authority (Crypto Call Store EntitlementRequest RevocationRequest ExternalEntitlement Later Revoked)

variable {k : Crypto} {decode : String → Option Event}

/-! The Authority around an attempt -/

/-- The Authority went on from `a` to `b`: other clients called it, and the entitlements
of source `whop` that are new are as `new` says. -/
structure Onward (k : Crypto) (new : String → ExternalEntitlement → Prop) (a b : Store) : Prop where
  reached : Authority.Reached k a → Authority.Reached k b
  later : Later a.core b.core
  whop : ∀ id en, b.entitlements.get ("whop", id) = some en → a.entitlements.get ("whop", id) = some en ∨ new id en

namespace Onward

variable {new new' : String → ExternalEntitlement → Prop} {a b c : Store}

theorem refl (k : Crypto) (new : String → ExternalEntitlement → Prop) (a : Store) : Onward k new a a :=
  ⟨id, Later.refl _, fun _ _ h => .inl h⟩

theorem trans (h : Onward k new a b) (h' : Onward k new b c) : Onward k new a c where
  reached := fun ha => h'.reached (h.reached ha)
  later := Later.trans _ _ _ h.later h'.later
  whop := by
    intro id en hen
    rcases h'.whop id en hen with hen | hnew
    · exact h.whop id en hen
    · exact .inr hnew

theorem mono (hnew : ∀ id en, new id en → new' id en) (h : Onward k new a b) : Onward k new' a b :=
  ⟨h.reached, h.later, fun id en hen => (h.whop id en hen).imp_right (hnew id en)⟩

end Onward

/-- No new entitlement of source `whop`. -/
abbrev Untouched (k : Crypto) : Store → Store → Prop := Onward k (fun _ _ => False)

theorem onward_step (k : Crypto) (a : Store) (e : Authority.Event) :
    Onward k (fun id en => ∃ body licenseId, e.op = .createExternalEntitlement body licenseId ∧ body.source = "whop" ∧
      id = body.sourceId ∧ en.payloadDigest = some body.payloadDigest) a (Authority.step k a e) where
  reached := fun h => h.next e
  later := Authority.step_later k a e
  whop := by
    intro id en hen
    rcases Authority.step_entitlements k a e with hsame | ⟨body, licenseId, signature, hop, hi⟩
    · rw [hsame] at hen
      exact .inl hen
    · rcases get_insert_cases hi hen with ⟨hkey, rfl⟩ | hold
      · obtain ⟨hsource, hid⟩ := Prod.mk.inj hkey
        exact .inr ⟨body, licenseId, hop, hsource.symm, hid, rfl⟩
      · exact .inl hold

theorem untouched_foreign (k : Crypto) (a : Store) (e : ForeignEvent) : Untouched k a (Authority.step k a e.val) := by
  refine (onward_step k a e.val).mono ?_
  rintro id en ⟨body, licenseId, hop, hsource, -⟩
  have hforeign := e.property
  unfold foreign at hforeign
  rw [hop] at hforeign
  exact of_decide_eq_true hforeign hsource

theorem untouched_others (k : Crypto) (a : Store) (es : List ForeignEvent) : Untouched k a (others k a es) := by
  induction es generalizing a with
  | nil => exact .refl k _ a
  | cons e es ih => exact (untouched_foreign k a e).trans (ih (Authority.step k a e.val))

def Asked (body : EntitlementRequest) (id : String) (en : ExternalEntitlement) : Prop :=
  id = body.sourceId ∧ en.payloadDigest = some body.payloadDigest

theorem asked_exec (k : Crypto) (a : Store) (c : Call) (body : EntitlementRequest) (licenseId : String) :
    Onward k (Asked body) a (Authority.exec k a ⟨c, .createExternalEntitlement body licenseId⟩).1 := by
  refine (onward_step k a ⟨c, .createExternalEntitlement body licenseId⟩).mono ?_
  rintro id en ⟨body', licenseId', hop, -, hid, hdigest⟩
  cases hop
  exact ⟨hid, hdigest⟩

theorem untouched_revoke (k : Crypto) (a : Store) (c : Call) (body : RevocationRequest) :
    Untouched k a (Authority.exec k a ⟨c, .revokeExternalEntitlement body⟩).1 := by
  refine (onward_step k a ⟨c, .revokeExternalEntitlement body⟩).mono ?_
  rintro id en ⟨body', licenseId', hop, -⟩
  cases hop

variable {a a' : Store} {body : EntitlementRequest} {t : Fulfilments}

theorem create_held {c : Call} {licenseId : String} {x : Authority.EntitlementResponse}
    (h : Authority.exec k a ⟨c, .createExternalEntitlement body licenseId⟩ = (a', .entitlement x)) :
    ∃ en, a'.entitlements.get (body.source, body.sourceId) = some en ∧ en.payloadDigest = some body.payloadDigest := by
  have hreply := congrArg Prod.snd h
  obtain ⟨x', hx, -⟩ := Authority.answer_ok hreply (by intro err; simp)
  have hstore : (Authority.exec k a ⟨c, .createExternalEntitlement body licenseId⟩).1 = a' := by rw [h]
  change _ = Except.ok ((Authority.exec k a ⟨c, .createExternalEntitlement body licenseId⟩).1, x') at hx
  rw [hstore] at hx
  obtain ⟨-, -, ⟨e, l, -, hprior, hdigest, -, -, rfl, -⟩ | ⟨tl, te, signature, -, -, -, hi, hcore, -, -⟩⟩ :=
    Authority.createExternalEntitlement_ok hx
  · unfold Authority.priorEntitlement at hprior
    obtain ⟨e', he', hprior⟩ := Option.bind_eq_some_iff.mp hprior
    obtain ⟨l', -, hpair⟩ := Option.map_eq_some_iff.mp hprior
    cases hpair
    exact ⟨e, he', hdigest⟩
  · have hte : a'.entitlements = te := congrArg Authority.Core.entitlements hcore
    rw [hte]
    exact ⟨_, get_insert_self hi, rfl⟩

/-- The calls of a grant: whatever was heard of them, the Authority holds at most one new
entitlement, the one asked for; an acknowledgement is of an entitlement it holds. -/
theorem Remote.create_spec {r : Remote} {ack : Option EntitlementAck}
    (h : r.create k body a = (a', ack)) :
    Onward k (Asked body) a a' ∧ ∀ x, ack = some x → ∃ en, a'.entitlements.get (body.source, body.sourceId) = some en ∧
      en.licenseId = x.licenseId ∧ en.payloadDigest = some body.payloadDigest := by
  unfold Remote.create at h
  split at h
  · cases h
    exact ⟨.refl k _ a, by intro x hx; cases hx⟩
  · rename_i c hc
    have honward := asked_exec k a c body r.licenseId
    split at h
    · rename_i a₁ x₁ hexec
      have hheld := create_held hexec
      rw [hexec] at honward
      split at h
      · cases h
        exact ⟨honward, by intro x hx; cases hx⟩
      · dsimp only at h
        have hothers : Onward k (Asked body) a (others k a₁ r.meanwhile) :=
          honward.trans ((untouched_others k a₁ r.meanwhile).mono (fun _ _ hf => hf.elim))
        split at h
        · cases h
          exact ⟨hothers, by intro x hx; cases hx⟩
        · rename_i c' hc'
          split at h
          · rename_i x hreply
            cases h
            refine ⟨hothers, ?_⟩
            intro y hy
            split at hy
            · cases hy
              obtain ⟨x', hread, hx⟩ := Authority.answer_read_ok hreply (by intro err; simp)
              cases hx
              obtain ⟨row, hrow, -, hlicense, -⟩ := Authority.readExternalEntitlementAcknowledgement_ok hread
              refine ⟨row, hrow, hlicense.symm, ?_⟩
              obtain ⟨en, hen, hdigest⟩ := hheld
              obtain ⟨en', hen', rfl⟩ := (untouched_others k a₁ r.meanwhile).later.entitlements _ _ hen
              have hsame : some en = some row := hen'.symm.trans hrow
              cases hsame
              exact hdigest
            · cases hy
          · cases h
            exact ⟨hothers, by intro x hx; cases hx⟩
    · rename_i a₁ hnot hexec
      cases h
      rw [hexec] at honward
      exact ⟨honward, by intro x hx; cases hx⟩

/-- The calls of a reversal: no entitlement is new, and an acknowledgement is of a license
that is revoked. -/
theorem Remote.revoke_spec {r : Remote} {body : RevocationRequest} {ack : Option String}
    (hreached : Authority.Reached k a) (h : r.revoke k body a = (a', ack)) :
    Untouched k a a' ∧ ∀ l, ack = some l → Revoked a'.licenses l := by
  unfold Remote.revoke at h
  split at h
  · cases h
    exact ⟨.refl k _ a, by intro l hl; cases hl⟩
  · rename_i c hc
    have honward := untouched_revoke k a c body
    split at h
    · rename_i a₁ x₁ hexec
      rw [hexec] at honward
      split at h
      · cases h
        exact ⟨honward, by intro l hl; cases hl⟩
      · dsimp only at h
        have hothers := honward.trans (untouched_others k a₁ r.meanwhile)
        split at h
        · cases h
          exact ⟨hothers, by intro l hl; cases hl⟩
        · rename_i c' hc'
          split at h
          · rename_i x hreply
            cases h
            refine ⟨hothers, ?_⟩
            intro l hl
            split at hl
            · cases hl
              obtain ⟨x', hread, hx⟩ := Authority.answer_read_ok hreply (by intro err; simp)
              cases hx
              obtain ⟨row, hrow, hlicense⟩ := Authority.readExternalRevocationAcknowledgement_ok hread
              rw [hlicense]
              exact (hothers.reached hreached).owned.revocations _ row hrow
            · cases hl
          · cases h
            exact ⟨hothers, by intro l hl; cases hl⟩
    · rename_i a₁ hnot hexec
      cases h
      rw [hexec] at honward
      exact ⟨honward, by intro l hl; cases hl⟩

/-! An attempt -/

/-- The fulfilment a grant that went through leaves. -/
structure Written (k : Crypto) (e : Event) (tier : Tier) (a : Store) (f : Fulfilment) : Prop where
  payment : f.paymentId = e.paymentId
  source : f.sourceId = sourceId k e.paymentId
  digest : f.payloadDigest = e.payloadSha256
  tier : f.tier = tier
  state : f.state = .granted
  license : ∃ en, a.entitlements.get ("whop", sourceId k e.paymentId) = some en ∧ f.licenseId = some en.licenseId ∧
    en.payloadDigest = some e.payloadSha256

/-- The row is of an event the worker acts on. -/
structure Valid (decode : String → Option Event) (row : InboxRow) (e : Event) (tier : Tier) : Prop where
  parsed : parseEvent decode row = .ok e
  semantics : validateSemantics e = .ok tier

/-- The ways an attempt on `row` in state `s` ends. -/
inductive Processed (k : Crypto) (decode : String → Option Event) (row : InboxRow) (s : State) :
    State → Except Failure Outcome → Prop where
  | idle (f : Failure) : Processed k decode row s s (.error f)
  | ignored (htype : row.eventType = .unsupported) : Processed k decode row s s (.ok .ignored)
  /-- the payment has its fulfilment already -/
  | kept (e : Event) (tier : Tier) (hvalid : Valid decode row e tier) (hpayment : e.eventType = .paymentSucceeded)
      (hrow : (s.fulfilments.get e.paymentId).isSome) : Processed k decode row s s (.ok .granted)
  /-- the calls of a grant, without its commit -/
  | lost (e : Event) (tier : Tier) (a : Store) (f : Failure) (hvalid : Valid decode row e tier)
      (hpayment : e.eventType = .paymentSucceeded) (hnone : s.fulfilments.get e.paymentId = none)
      (hearly : tier = .early → earlyRows s.fulfilments < earlyLimit)
      (honward : Onward k (fun id en => id = sourceId k e.paymentId ∧ en.payloadDigest = some e.payloadSha256) s.authority a) :
      Processed k decode row s { s with authority := a } (.error f)
  | granted (e : Event) (tier : Tier) (a : Store) (f : Fulfilment) (t : Fulfilments) (hvalid : Valid decode row e tier)
      (hpayment : e.eventType = .paymentSucceeded) (hnone : s.fulfilments.get e.paymentId = none)
      (hearly : tier = .early → earlyRows s.fulfilments < earlyLimit)
      (honward : Onward k (fun id en => id = sourceId k e.paymentId ∧ en.payloadDigest = some e.payloadSha256) s.authority a)
      (hwritten : Written k e tier a f) (hi : s.fulfilments.insert f = some t) :
      Processed k decode row s { s with authority := a, fulfilments := t } (.ok .granted)
  /-- the reversal of a fulfilment that is revoked -/
  | reversed (e : Event) (tier : Tier) (linked : Fulfilment) (hvalid : Valid decode row e tier)
      (hreversal : e.eventType ≠ .paymentSucceeded) (hrow : s.fulfilments.get e.paymentId = some linked)
      (hstate : linked.state = .revoked) : Processed k decode row s s (.ok .revoked)
  /-- the calls of a reversal, without its commit -/
  | unheard (a : Store) (f : Failure) (honward : Untouched k s.authority a) :
      Processed k decode row s { s with authority := a } (.error f)
  | revoked (e : Event) (tier : Tier) (linked : Fulfilment) (licenseId : String) (now : Time) (a : Store)
      (hvalid : Valid decode row e tier) (hreversal : e.eventType ≠ .paymentSucceeded)
      (hrow : s.fulfilments.get e.paymentId = some linked) (hlicense : linked.licenseId = some licenseId)
      (honward : Untouched k s.authority a) (hrevoked : Revoked a.licenses licenseId) :
      Processed k decode row s
        { s with authority := a,
                 fulfilments := s.fulfilments.modify e.paymentId (Fulfilment.revoke now) (Fulfilment.revoke_key now) }
        (.ok .revoked)

theorem insertFulfilment_ok {f : Fulfilment} {t' : Fulfilments} (h : insertFulfilment f t = some t') :
    t.insert f = some t' := by
  unfold insertFulfilment at h
  split at h
  · cases h
  · exact h

variable {row : InboxRow} {e : Event} {tier : Tier} {r : Remote} {s s' : State} {out : Except Failure Outcome}

/-- What follows the INSERT of a grant. -/
theorem deliver_processed {user : String} (hvalid : Valid decode row e tier)
    (hpayment : e.eventType = .paymentSucceeded) (hnone : s.fulfilments.get e.paymentId = none)
    (hearly : tier = .early → earlyRows s.fulfilments < earlyLimit)
    (hi : s.fulfilments.insert (newFulfilment k e tier user r) = some t) (h : deliver k e r t s = (s', out)) :
    Processed k decode row s s' out := by
  unfold deliver at h
  split at h
  · cases h
    exact .idle _
  · rename_i identity hidentity
    split at h
    · rename_i a hcreate
      obtain ⟨honward, -⟩ := Remote.create_spec hcreate
      cases h
      exact .lost e tier a _ hvalid hpayment hnone hearly honward
    · rename_i a ack hcreate
      obtain ⟨honward, hack⟩ := Remote.create_spec hcreate
      have hlost : ∀ f, Processed k decode row s { s with authority := a } (.error f) :=
        fun f => .lost e tier a f hvalid hpayment hnone hearly honward
      split at h
      · cases h
        exact hlost _
      · split at h
        · cases h
          exact hlost _
        · split at h
          · cases h
            exact hlost _
          · cases h
            obtain ⟨en, hen, hlicense, hdigest⟩ := hack ack rfl
            have hwritten : Written k e tier a ((newFulfilment k e tier user r).grant ack.licenseId r.now) :=
              ⟨rfl, rfl, rfl, rfl, rfl, en, hen, congrArg some hlicense.symm, hdigest⟩
            exact .granted e tier a _ _ hvalid hpayment hnone hearly honward hwritten
              (insert_modify (Fulfilment.grant_key _ _) hi)

theorem grant_processed (hlive : ∀ p f, s.fulfilments.get p = some f → f.state ≠ .granting)
    (hvalid : Valid decode row e tier) (hpayment : e.eventType = .paymentSucceeded) (h : grant k e tier r s = (s', out)) :
    Processed k decode row s s' out := by
  unfold grant at h
  split at h
  · cases h
    exact .idle _
  · rename_i user huser
    split at h
    · cases h
      exact .idle _
    · split at h
      · rename_i existing hexisting
        split at h
        · cases h
          exact .idle _
        · split at h
          · cases h
            exact .kept e tier hvalid hpayment (by rw [hexisting]; rfl)
          · -- a committed row is never found granting
            rename_i hstate
            exfalso
            have hgranting := hlive _ existing hexisting
            cases hst : existing.state with
            | granting => exact hgranting hst
            | granted => exact hstate (.inl hst)
            | revoked => exact hstate (.inr hst)
      · rename_i hnone
        split at h
        · cases h
          exact .idle _
        · rename_i hcap
          have hearly : tier = .early → earlyRows s.fulfilments < earlyLimit := by
            intro ht
            by_contra hge
            exact hcap ⟨ht, Nat.not_lt.mp hge⟩
          split at h
          · cases h
            exact .idle _
          · rename_i t hins
            exact deliver_processed hvalid hpayment hnone hearly (insertFulfilment_ok hins) h

theorem revoke_processed (hreached : Authority.Reached k s.authority) (hvalid : Valid decode row e tier)
    (hreversal : e.eventType ≠ .paymentSucceeded) (h : revoke k e r s = (s', out)) :
    Processed k decode row s s' out := by
  unfold revoke at h
  split at h
  · cases h
    exact .idle _
  · split at h
    · cases h
      exact .idle _
    · rename_i linked hlinked
      split at h
      · cases h
        exact .idle _
      · cases h
        exact .idle _
      · rename_i state licenseId hlicense hstarted
        split at h
        · cases h
          exact .idle _
        · split at h
          · rename_i hstate
            cases h
            exact .reversed e tier linked hvalid hreversal hlinked hstate
          · split at h
            · cases h
              exact .idle _
            · rename_i identity hidentity
              split at h
              · rename_i a hcall
                obtain ⟨honward, -⟩ := Remote.revoke_spec hreached hcall
                cases h
                exact .unheard a _ honward
              · rename_i a acknowledged hcall
                obtain ⟨honward, hack⟩ := Remote.revoke_spec hreached hcall
                split at h
                · cases h
                  exact .unheard a _ honward
                · rename_i hsame
                  split at h
                  · cases h
                    exact .unheard a _ honward
                  · cases h
                    have hrevoked : Revoked a.licenses licenseId := not_not.mp hsame ▸ hack acknowledged rfl
                    exact .revoked e tier linked licenseId r.now a hvalid hreversal hlinked hlicense honward hrevoked

/-- Every way an attempt ends. -/
theorem processRow_processed (hreached : Authority.Reached k s.authority)
    (hlive : ∀ p f, s.fulfilments.get p = some f → f.state ≠ .granting) (h : processRow k decode row r s = (s', out)) :
    Processed k decode row s s' out := by
  unfold processRow at h
  split at h
  · rename_i htype
    cases h
    exact .ignored htype
  · split at h
    · cases h
      exact .idle _
    · rename_i e hparsed
      split at h
      · cases h
        exact .idle _
      · rename_i tier hsemantics
        split at h
        · rename_i hpayment
          exact grant_processed hlive ⟨hparsed, hsemantics⟩ hpayment h
        · rename_i hreversal
          exact revoke_processed hreached ⟨hparsed, hsemantics⟩ hreversal h

end GrowthMap.Whop
