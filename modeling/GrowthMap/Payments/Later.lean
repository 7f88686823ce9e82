import GrowthMap.Payments.OutboxRefinement

/- Later versions of the outbox rows.

   No row leaves an outbox, and what a move makes of it is a later version: the same
   payload, a fence that never falls, under one fence an owner that only lets go, a
   crossing that is never forgotten, a delivery that is final. Every statement about a
   worker's old copy of a row rests on this. -/
namespace GrowthMap.Payments

open Relational Table

variable {cfg : Config} {P : String → Prop} {c c' c'' : Core}

structure Entitlement.Later (e e' : Entitlement) : Prop where
  payload : e'.payload = e.payload
  fence : e.fencingVersion ≤ e'.fencingVersion
  owner : e'.fencingVersion = e.fencingVersion → e'.leaseOwner = e.leaseOwner ∨ e'.leaseOwner = none
  crossed : e.phase.crossed = true → e'.phase.crossed = true
  delivered : e.state = .delivered → e' = e

theorem Entitlement.Later.refl (e : Entitlement) : e.Later e where
  payload := rfl
  fence := le_refl _
  owner _ := .inl rfl
  crossed := id
  delivered _ := rfl

theorem Entitlement.Later.trans {e₁ e₂ e₃ : Entitlement} (h : e₁.Later e₂) (h' : e₂.Later e₃) :
    e₁.Later e₃ where
  payload := h'.payload.trans h.payload
  fence := le_trans h.fence h'.fence
  owner heq := by
    have h1 := h.fence
    have h2 := h'.fence
    rcases h'.owner (by omega) with ho | ho
    · rw [ho]
      exact h.owner (by omega)
    · exact .inr ho
  crossed hc := h'.crossed (h.crossed hc)
  delivered hd := by
    have he := h.delivered hd
    subst he
    exact h'.delivered hd

theorem Revocation.Later.refl (r : Revocation) : r.Later r :=
  { payload := rfl, fence := le_refl _, owner := fun _ => .inl rfl }

theorem Revocation.Later.trans {r₁ r₂ r₃ : Revocation} (h : r₁.Later r₂) (h' : r₂.Later r₃) :
    r₁.Later r₃ where
  payload := h'.payload.trans h.payload
  fence := le_trans h.fence h'.fence
  owner heq := by
    have h1 := h.fence
    have h2 := h'.fence
    rcases h'.owner (by omega) with ho | ho
    · rw [ho]
      exact h.owner (by omega)
    · exact .inr ho

variable {e e' : Entitlement} {t : Entitlements}

theorem Permitted.crossed (h : Permitted e e') (hc : e.phase.crossed = true) :
    e'.phase.crossed = true := by
  have hp := h.1
  simp only [reconciliationProtocol, Bool.or_eq_false_iff, decide_eq_false_iff_not] at hp
  cases h1 : e.phase <;> rw [h1] at hc <;> cases hc <;> cases h2 : e'.phase <;>
    first | rfl | simp [h1, h2] at hp

theorem Turn.later {st : OrderState} (ht : Turn st e e') (hperm : Permitted e e') :
    e.Later e' := by
  have hcross := hperm.crossed
  cases ht with
  | claim worker expires hs =>
    exact { payload := rfl, fence := Nat.le_succ _, crossed := hcross,
            owner := fun h => absurd h (Nat.succ_ne_self _), delivered := fun hd => absurd hd hs }
  | reset now hs =>
    exact { payload := rfl, fence := Nat.le_succ _, crossed := hcross, owner := fun _ => .inr rfl,
            delivered := fun hd => by rw [hs] at hd; cases hd }
  | prepare worker fence hh =>
    have hs : e.state = .leased := (of_decide_eq_true hh).1
    exact { payload := rfl, fence := le_refl _, crossed := hcross, owner := fun _ => .inl rfl,
            delivered := fun hd => by rw [hs] at hd; cases hd }
  | authorize worker fence hh =>
    have hs : e.state = .leased := (of_decide_eq_true hh).1
    exact { payload := rfl, fence := le_refl _, crossed := hcross, owner := fun _ => .inl rfl,
            delivered := fun hd => by rw [hs] at hd; cases hd }
  | requeue worker fence errorHash now maxAttempts hh =>
    have hs : e.state = .leased := (of_decide_eq_true hh).1
    exact { payload := rfl, fence := le_refl _, crossed := hcross, owner := fun _ => .inr rfl,
            delivered := fun hd => by rw [hs] at hd; cases hd }
  | fail worker fence errorHash now maxAttempts hh =>
    have hs : e.state = .leased := (of_decide_eq_true hh).1
    exact { payload := rfl, fence := le_refl _, crossed := hcross, owner := fun _ => .inr rfl,
            delivered := fun hd => by rw [hs] at hd; cases hd }

theorem deliver_later {a : EntitlementAck} {now : Time} (hs : e.state ≠ .delivered)
    (hperm : Permitted e (e.deliver a now)) : e.Later (e.deliver a now) :=
  { payload := rfl, fence := le_refl _, crossed := hperm.crossed, owner := fun _ => .inr rfl,
    delivered := fun hd => absurd hd hs }

theorem cancel_later {hash : String} {retryAt : Time} (hs : e.state ≠ .delivered)
    (hperm : Permitted e (e.cancel hash retryAt)) : e.Later (e.cancel hash retryAt) :=
  { payload := rfl, fence := Nat.le_succ _, crossed := hperm.crossed, owner := fun _ => .inr rfl,
    delivered := fun hd => absurd hd hs }

/-- Every row of both outboxes is still there, in a later version. -/
structure Core.Later (c c' : Core) : Prop where
  entitlements : ∀ oid e, c.entitlements.get oid = some e →
    ∃ e', c'.entitlements.get oid = some e' ∧ e.Later e'
  revocations : ∀ k r, c.revocations.get k = some r → ∃ r', c'.revocations.get k = some r' ∧ r.Later r'

theorem Core.Later.refl (c : Core) : c.Later c where
  entitlements _ e he := ⟨e, he, .refl e⟩
  revocations _ r hr := ⟨r, hr, .refl r⟩

theorem Core.Later.trans (h : c.Later c') (h' : c'.Later c'') : c.Later c'' where
  entitlements oid e he := by
    obtain ⟨e', he', hl⟩ := h.entitlements oid e he
    obtain ⟨e'', he'', hl'⟩ := h'.entitlements oid e' he'
    exact ⟨e'', he'', hl.trans hl'⟩
  revocations k r hr := by
    obtain ⟨r', hr', hl⟩ := h.revocations k r hr
    obtain ⟨r'', hr'', hl'⟩ := h'.revocations k r' hr'
    exact ⟨r'', hr'', hl.trans hl'⟩

theorem later_modify {k : String} {f : Entitlement → Entitlement}
    (hf : ∀ r, (f r).payload.orderId = r.payload.orderId)
    (he : t.get k = some e) (hl : e.Later (f e)) :
    ∀ oid x, t.get oid = some x → ∃ x', (t.modify k f hf).get oid = some x' ∧ x.Later x' := by
  intro oid x hx
  obtain ⟨x', hx', rfl | ⟨rfl, rfl⟩⟩ := get_modify_exists k f hf hx
  · exact ⟨x', hx', .refl x'⟩
  · rw [he] at hx
    cases hx
    exact ⟨f e, hx', hl⟩

theorem kept_entitlements :
    ∀ oid x, t.get oid = some x → ∃ x', t.get oid = some x' ∧ x.Later x' :=
  fun _ x hx => ⟨x, hx, .refl x⟩

theorem kept_revocations {t : Revocations} :
    ∀ k x, t.get k = some x → ∃ x', t.get k = some x' ∧ x.Later x' :=
  fun _ x hx => ⟨x, hx, .refl x⟩

theorem inserted_revocations {t t' : Revocations} {r : Revocation} (hi : t.insert r = some t') :
    ∀ k x, t.get k = some x → ∃ x', t'.get k = some x' ∧ x.Later x' :=
  fun _ x hx => ⟨x, get_insert_old hi hx, .refl x⟩

theorem move_later (hm : Move cfg P c c') : c.Later c' := by
  cases hm with
  | finalize iid i o tx evidenceHash payer now tp te hi hst htx hev ho hp href he =>
    refine ⟨?_, kept_revocations⟩
    intro oid e hge
    exact ⟨e, get_insert_old he hge, .refl e⟩
  | turn oid o e f hf ho he ht hperm =>
    exact ⟨later_modify hf he (ht.later hperm), kept_revocations⟩
  | issue oid o e a now ho hst he worker fence hh hl hperm =>
    have hs : e.state = .leased := (of_decide_eq_true hh).1
    exact ⟨later_modify Entitlement.deliver_orderId he (deliver_later (by rw [hs]; decide) hperm), kept_revocations⟩
  | compensate oid o e a now r t ho hst he hs hl hperm hr hi =>
    exact ⟨later_modify Entitlement.deliver_orderId he (deliver_later hs hperm), inserted_revocations hi⟩
  | reverseFenced oid st now retryAt errorHash o e ho hlive hst he hs hperm =>
    exact ⟨later_modify Entitlement.cancel_orderId he (cancel_later hs hperm), kept_revocations⟩
  | reverseDelivered oid st now o e license r t ho hlive hst he hs hl hr hi =>
    exact ⟨kept_entitlements, inserted_revocations hi⟩
  | revocation k f hf hlater =>
    refine ⟨kept_entitlements, ?_⟩
    intro k' x hx
    obtain ⟨x', hx', rfl | ⟨rfl, rfl⟩⟩ := get_modify_exists k f hf hx
    · exact ⟨x', hx', .refl x'⟩
    · exact ⟨f x, hx', hlater x hx⟩
  | _ => exact ⟨kept_entitlements, kept_revocations⟩

theorem moves_later (hm : Moves cfg P c c') : c.Later c' := by
  induction hm with
  | refl => exact .refl c
  | tail _ hlast ih => exact ih.trans (move_later hlast)

end GrowthMap.Payments
