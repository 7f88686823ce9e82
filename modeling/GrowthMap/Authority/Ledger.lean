import GrowthMap.Authority.Effects

/- The seat ledger: what holds of licenses, activations and requests in every reachable
   state, and what a later state keeps of an earlier one.

   `Seated` is the invariant of the three tables. `Later` is the preorder of the tables
   along a run: a license keeps its terms and stays revoked, a gift keeps its license and
   its generation only grows, a challenge that is consumed stays as it is, and the rows
   of the external inboxes never change. -/
namespace GrowthMap.Authority

open Relational Runs Table
open Payments (Time Identity Err)

variable {k : Crypto}

/-! The invariant -/

/-- What the tables say of one another. -/
structure Seated (licenses : Licenses) (activations : Activations) (requests : Requests) : Prop where
  seats : ∀ id lic, licenses.get id = some lic → activeSeats activations id ≤ lic.seatLimit
  owned : ∀ key x, activations.get key = some x → (licenses.get x.licenseId).isSome
  /-- A revoked license has no active activation and no request to replay. -/
  inactive : ∀ id lic, licenses.get id = some lic → lic.revokedAt.isSome →
    ∀ key x, activations.get key = some x → x.licenseId = id → x.deactivatedAt.isSome
  consumed : ∀ id lic, licenses.get id = some lic → lic.revokedAt.isSome →
    ∀ d q, requests.get d = some q → q.licenseId = id → q.status = .consumed
  certified : ∀ d q, requests.get d = some q →
    ∃ cert, q.certificate = some cert ∧ cert.licenseId = q.licenseId ∧ cert.deviceId = q.deviceId
  /-- An activation is active exactly as long as the request that made it. -/
  recorded : ∀ key x, activations.get key = some x → ∃ q, requests.get x.nonceDigest = some q ∧
    q.licenseId = x.licenseId ∧ q.deviceId = x.deviceId ∧ q.certificate = some x.certificate ∧
    (q.status = .active ↔ x.deactivatedAt = none)

def seatTaken (id : String) (a : Activation) : Bool := decide (a.licenseId = id) && a.deactivatedAt.isNone

theorem activeSeats_eq (t : Activations) (id : String) : activeSeats t id = t.rows.countP (seatTaken id) := by
  rw [activeSeats, List.countP_eq_length_filter]
  rfl

theorem seatTaken_iff {id : String} {a : Activation} : seatTaken id a = true ↔ a.licenseId = id ∧ a.deactivatedAt = none := by
  simp [seatTaken]

theorem activeSeats_deactivate_le (t : Activations) (q : Activation → Bool) (now : Time) (id : String) :
    activeSeats (t.update q (Activation.deactivate now) Activation.deactivate_key) id ≤ activeSeats t id := by
  rw [activeSeats_eq, activeSeats_eq]
  apply countP_update_le
  intro r _ _ h
  have := (seatTaken_iff.mp h).2
  simp [Activation.deactivate] at this

variable {t t' : Licenses} {l lic : License} {activations : Activations} {requests : Requests} {x : Activation}
  {a b : Core} {r : ActivationRequest} {s : Store} {y : Challenge}

theorem get_insert_license (hi : t.insert l = some t') {id : String}
    (h : t'.get id = some lic) : (id = l.licenseId ∧ lic = l) ∨ t.get id = some lic :=
  get_insert_cases hi h

/-- A new license has no activation. -/
theorem Seated.license {licenses : Licenses}
    (h : Seated licenses activations requests) (hlive : l.revokedAt = none) (hi : licenses.insert l = some t) :
    Seated t activations requests := by
  have hfresh := insert_fresh hi
  constructor
  · intro id lic hlic
    rcases get_insert_license hi hlic with ⟨rfl, rfl⟩ | hold
    · rw [activeSeats_eq, List.countP_eq_zero.mpr]
      · exact Nat.zero_le _
      · intro x hx hseat
        have hown := h.owned _ x (get_of_mem hx)
        rw [(seatTaken_iff.mp hseat).1, hfresh] at hown
        cases hown
    · exact h.seats id lic hold
  · intro key x hx
    obtain ⟨lic, hlic⟩ := Option.isSome_iff_exists.mp (h.owned key x hx)
    rw [get_insert_old hi hlic]
    rfl
  · intro id lic hlic hrev
    rcases get_insert_license hi hlic with ⟨rfl, rfl⟩ | hold
    · rw [hlive] at hrev
      cases hrev
    · exact h.inactive id lic hold hrev
  · intro id lic hlic hrev
    rcases get_insert_license hi hlic with ⟨rfl, rfl⟩ | hold
    · rw [hlive] at hrev
      cases hrev
    · exact h.consumed id lic hold hrev
  · exact h.certified
  · exact h.recorded

theorem get_revoke_cases {id : String} {now : Time} {j : String}
    (h : (t.modify id (License.revoke now) License.revoke_key).get j = some lic) :
    ∃ l₀, t.get j = some l₀ ∧ lic.seatLimit = l₀.seatLimit ∧ (lic = l₀ ∨ j = id) := by
  rcases get_modify_cases License.revoke_key h with ⟨rfl, l₀, hl, rfl⟩ | ⟨-, hl⟩
  · exact ⟨l₀, hl, rfl, .inr rfl⟩
  · exact ⟨lic, hl, rfl, .inl rfl⟩

/-- A row after an UPDATE that deactivates the rows of `p`. -/
theorem get_deactivate_cases {t : Activations} {p : Activation → Bool} {now : Time} {key : String × String}
    (h : (t.update p (Activation.deactivate now) Activation.deactivate_key).get key = some x) :
    ∃ x₀, t.get key = some x₀ ∧ x.licenseId = x₀.licenseId ∧ x.deviceId = x₀.deviceId ∧ x.nonceDigest = x₀.nonceDigest ∧
      x.certificate = x₀.certificate ∧ (p x₀ = true ∧ x.deactivatedAt.isSome ∨ p x₀ = false ∧ x = x₀) := by
  rw [get_update] at h
  obtain ⟨x₀, hx₀, rfl⟩ := Option.map_eq_some_iff.mp h
  refine ⟨x₀, hx₀, ?_⟩
  cases hp : p x₀
  · exact ⟨rfl, rfl, rfl, rfl, .inr ⟨rfl, rfl⟩⟩
  · exact ⟨rfl, rfl, rfl, rfl, .inl ⟨rfl, rfl⟩⟩

/-- A row after an UPDATE that consumes the requests of `p`. -/
theorem get_consume_cases {t : Requests} {p : ActivationRequest → Bool} {d : String} {q : ActivationRequest}
    (h : (t.update p ActivationRequest.consume ActivationRequest.consume_key).get d = some q) :
    ∃ q₀, t.get d = some q₀ ∧ q.licenseId = q₀.licenseId ∧ q.deviceId = q₀.deviceId ∧ q.certificate = q₀.certificate ∧
      (p q₀ = true ∧ q.status = .consumed ∨ p q₀ = false ∧ q = q₀) := by
  rw [get_update] at h
  obtain ⟨q₀, hq₀, rfl⟩ := Option.map_eq_some_iff.mp h
  refine ⟨q₀, hq₀, ?_⟩
  cases hp : p q₀
  · exact ⟨rfl, rfl, rfl, .inr ⟨rfl, rfl⟩⟩
  · exact ⟨rfl, rfl, rfl, .inl ⟨rfl, rfl⟩⟩

/-- Deactivating rows and consuming their requests, where the two WHERE clauses agree
about the activation and the request that made it. -/
theorem Seated.close {licenses : Licenses}
    (h : Seated licenses activations requests) (p : Activation → Bool) (q : ActivationRequest → Bool) (now : Time)
    (hpq : ∀ x r, x.licenseId = r.licenseId → x.deviceId = r.deviceId → r.status = .active → p x = q r) :
    Seated licenses (activations.update p (Activation.deactivate now) Activation.deactivate_key)
      (requests.update q ActivationRequest.consume ActivationRequest.consume_key) := by
  constructor
  · intro id lic hlic
    exact (activeSeats_deactivate_le _ _ _ _).trans (h.seats id lic hlic)
  · intro key x hx
    obtain ⟨x₀, hx₀, hl, -⟩ := get_deactivate_cases hx
    rw [hl]
    exact h.owned key x₀ hx₀
  · intro id lic hlic hrev key x hx hid
    obtain ⟨x₀, hx₀, hl, -, -, -, ⟨-, hoff⟩ | ⟨-, rfl⟩⟩ := get_deactivate_cases hx
    · exact hoff
    · exact h.inactive id lic hlic hrev key x hx₀ hid
  · intro id lic hlic hrev d r hr hid
    obtain ⟨r₀, hr₀, hl, -, -, ⟨-, hoff⟩ | ⟨-, rfl⟩⟩ := get_consume_cases hr
    · exact hoff
    · exact h.consumed id lic hlic hrev d r hr₀ hid
  · intro d r hr
    obtain ⟨r₀, hr₀, hl, hd, hc, -⟩ := get_consume_cases hr
    rw [hl, hd, hc]
    exact h.certified d r₀ hr₀
  · intro key x hx
    obtain ⟨x₀, hx₀, hl, hd, hn, hc, hx'⟩ := get_deactivate_cases hx
    obtain ⟨r₀, hr₀, hrl, hrd, hrc, hactive⟩ := h.recorded key x₀ hx₀
    have hr : (requests.update q ActivationRequest.consume ActivationRequest.consume_key).get x.nonceDigest =
        some (if q r₀ then r₀.consume else r₀) := by
      rw [get_update, hn, hr₀]
      rfl
    refine ⟨_, hr, ?_⟩
    have hsame : r₀.status = .active → p x₀ = q r₀ := hpq x₀ r₀ hrl.symm hrd.symm
    rcases hx' with ⟨hp, hoff⟩ | ⟨hp, rfl⟩
    · -- the row is closed: its request was active only if it is closed too
      have hstatus : (if q r₀ then r₀.consume else r₀).status ≠ .active := by
        split
        · simp [ActivationRequest.consume]
        · rename_i hq
          intro hact
          rw [← hsame hact] at hq
          exact hq hp
      have hnone : x.deactivatedAt ≠ none := by
        intro hx0
        rw [hx0] at hoff
        cases hoff
      refine ⟨?_, ?_, ?_, by simp [hstatus, hnone]⟩
      · split <;> simp [ActivationRequest.consume, hl, hrl]
      · split <;> simp [ActivationRequest.consume, hd, hrd]
      · split <;> simp [ActivationRequest.consume, hc, hrc]
    · refine ⟨?_, ?_, ?_, ?_⟩
      · split <;> simp [ActivationRequest.consume, hrl]
      · split <;> simp [ActivationRequest.consume, hrd]
      · split <;> simp [ActivationRequest.consume, hrc]
      · by_cases hact : r₀.status = .active
        · rw [← hsame hact, hp]
          exact hactive
        · have hnone : x.deactivatedAt ≠ none := fun hx0 => hact (hactive.mpr hx0)
          have hstatus : (if q r₀ then r₀.consume else r₀).status ≠ .active := by
            split
            · simp [ActivationRequest.consume]
            · exact hact
          simp [hstatus, hnone]

/-- A revocation closes everything of its license. -/
theorem Seated.revoke {licenses : Licenses}
    (h : Seated licenses activations requests) (id : String) (now : Time) :
    Seated (licenses.modify id (License.revoke now) License.revoke_key)
      (activations.update (fun x => decide (x.licenseId = id)) (Activation.deactivate now) Activation.deactivate_key)
      (requests.update (fun r => decide (r.licenseId = id)) ActivationRequest.consume ActivationRequest.consume_key) := by
  have hclosed := h.close (fun x => decide (x.licenseId = id)) (fun r => decide (r.licenseId = id)) now
    (fun x r hl _ _ => by simp [hl])
  constructor
  · intro j lic hlic
    obtain ⟨l₀, hl₀, hseats, -⟩ := get_revoke_cases hlic
    rw [hseats]
    exact hclosed.seats j l₀ hl₀
  · intro key x hx
    obtain ⟨l₀, hl₀⟩ := Option.isSome_iff_exists.mp (hclosed.owned key x hx)
    obtain ⟨l', hl', -⟩ := get_modify_exists id (License.revoke now) License.revoke_key hl₀
    rw [hl']
    rfl
  · intro j lic hlic hrev key x hx hid
    obtain ⟨l₀, hl₀, -, rfl | rfl⟩ := get_revoke_cases hlic
    · exact hclosed.inactive j lic hl₀ hrev key x hx hid
    · obtain ⟨x₀, -, hl, -, -, -, ⟨-, hoff⟩ | ⟨hp, rfl⟩⟩ := get_deactivate_cases hx
      · exact hoff
      · simp [hid] at hp
  · intro j lic hlic hrev d r hr hid
    obtain ⟨l₀, hl₀, -, rfl | rfl⟩ := get_revoke_cases hlic
    · exact hclosed.consumed j lic hl₀ hrev d r hr hid
    · obtain ⟨r₀, -, hl, -, -, ⟨-, hoff⟩ | ⟨hp, rfl⟩⟩ := get_consume_cases hr
      · exact hoff
      · simp [hid] at hp
  · exact hclosed.certified
  · exact hclosed.recorded

theorem activation_key {t : Activations} {licenseId deviceId : String}
    (h : t.get (licenseId, deviceId) = some x) : x.licenseId = licenseId ∧ x.deviceId = deviceId := by
  have := get_key h
  exact Prod.mk.inj this

theorem Granted.get_activations (h : Granted k a b lic r x) (key : String × String) :
    b.activations.get key = if key = (x.licenseId, x.deviceId) then some x else a.activations.get key := by
  rcases h.activations with hi | ⟨⟨old, hold⟩, hm⟩
  · exact get_insert hi key
  · rw [hm, get_modify]
    by_cases hk : key = (x.licenseId, x.deviceId)
    · have hold' := activation_key hold
      rw [if_pos hk, if_pos hk, hk, hold, Option.map_some]
      obtain ⟨-, hnone, -⟩ := h.row
      obtain ⟨id, l, d, pk, t, u, cert, n⟩ := x
      simp only at hnone
      subst hnone
      simp only [Activation.renew, Option.some.injEq, Activation.mk.injEq]
      exact ⟨trivial, hold'.1, hold'.2, trivial, trivial, trivial, trivial, trivial⟩
    · rw [if_neg hk, if_neg hk]

theorem Granted.activeSeats_le (h : Granted k a b lic r x) :
    activeSeats b.activations lic.licenseId ≤ activeSeats a.activations lic.licenseId + 1 ∧
    (∀ old, a.activations.get (x.licenseId, x.deviceId) = some old → old.deactivatedAt = none →
      activeSeats b.activations lic.licenseId ≤ activeSeats a.activations lic.licenseId) := by
  simp only [activeSeats_eq]
  rcases h.activations with hi | ⟨-, hm⟩
  · refine ⟨?_, ?_⟩
    · rw [countP_insert hi]
      split <;> omega
    · intro old hold
      rw [insert_fresh hi] at hold
      cases hold
  · rw [hm]
    refine ⟨countP_modify_le_succ _ _, ?_⟩
    intro old hold hactive
    apply countP_modify_le
    intro y hy _
    rw [hold] at hy
    cases hy
    exact seatTaken_iff.mpr ⟨(activation_key hold).1.trans h.row.1, hactive⟩

theorem Granted.activeSeats_other
    (h : Granted k a b lic r x) {id : String} (hid : id ≠ lic.licenseId) :
    activeSeats b.activations id ≤ activeSeats a.activations id := by
  have hx : seatTaken id x = false := by
    rw [Bool.eq_false_iff, ne_eq, seatTaken_iff, not_and_or]
    exact .inl (fun hx => hid (hx.symm.trans h.row.1))
  simp only [activeSeats_eq]
  rcases h.activations with hi | ⟨-, hm⟩
  · rw [countP_insert hi, hx]
    simp
  · rw [hm]
    apply countP_modify_le
    intro y hy hseat
    have hyid : y.licenseId = id := (seatTaken_iff.mp hseat).1
    exact absurd (hyid.symm.trans ((activation_key hy).1.trans h.row.1)) hid

theorem Granted.licenses (h : Granted k a b lic r x) : b.licenses = a.licenses := by
  rw [h.rest]

theorem Seated.granted
    (hs : Seated a.licenses a.activations a.requests) (h : Granted k a b lic r x) :
    Seated b.licenses b.activations b.requests := by
  rw [h.licenses]
  have hnot : ∀ lic', a.licenses.get lic.licenseId = some lic' → lic'.revokedAt.isSome → False := by
    intro lic' hlic' hrev
    rw [h.license] at hlic'
    cases hlic'
    rw [h.live] at hrev
    cases hrev
  constructor
  · intro id lic' hlic'
    by_cases hid : id = lic.licenseId
    · subst hid
      rw [h.license] at hlic'
      cases hlic'
      have hseats := hs.seats _ _ h.license
      rcases h.seat with ⟨old, hold, hactive⟩ | hfree
      · rw [← h.row.1] at hold
        exact (h.activeSeats_le.2 old hold hactive).trans hseats
      · have := h.activeSeats_le.1
        omega
    · exact (h.activeSeats_other hid).trans (hs.seats id lic' hlic')
  · intro key y hy
    rw [h.get_activations] at hy
    split at hy
    · cases hy
      rw [h.row.1, h.license]
      rfl
    · exact hs.owned key y hy
  · intro id lic' hlic' hrev key y hy hid
    rw [h.get_activations] at hy
    split at hy
    · cases hy
      rw [← hid, h.row.1] at hlic'
      exact (hnot lic' hlic' hrev).elim
    · exact hs.inactive id lic' hlic' hrev key y hy hid
  · intro id lic' hlic' hrev d q hq hid
    rcases get_insert_cases h.requests hq with ⟨rfl, rfl⟩ | hold
    · rw [← hid, h.request.1, h.row.1] at hlic'
      exact (hnot lic' hlic' hrev).elim
    · exact hs.consumed id lic' hlic' hrev d q hold hid
  · intro d q hq
    rcases get_insert_cases h.requests hq with ⟨rfl, rfl⟩ | hold
    · obtain ⟨hl, hd, -, -, hc, -⟩ := h.request
      exact ⟨x.certificate, hc, h.certificate.1.trans hl.symm, h.certificate.2.1.trans hd.symm⟩
    · exact hs.certified d q hold
  · intro key y hy
    rw [h.get_activations] at hy
    split at hy
    · cases hy
      obtain ⟨hl, hd, hactive, -, hc, -⟩ := h.request
      refine ⟨r, ?_, hl, hd, hc, by simp [hactive, h.row.2.1]⟩
      rw [h.row.2.2]
      exact get_insert_self h.requests
    · obtain ⟨q, hq, hrest⟩ := hs.recorded key y hy
      exact ⟨q, get_insert_old h.requests hq, hrest⟩

theorem Seated.deactivate {licenses : Licenses}
    (h : Seated licenses activations requests) (licenseId deviceId : String) (now : Time) :
    Seated licenses
      (activations.modify (licenseId, deviceId) (Activation.deactivate now) Activation.deactivate_key)
      (requests.update (fun r => decide (r.licenseId = licenseId ∧ r.deviceId = deviceId ∧ r.status = .active))
        ActivationRequest.consume ActivationRequest.consume_key) := by
  refine h.close (fun x => decide ((x.licenseId, x.deviceId) = (licenseId, deviceId))) _ now ?_
  intro x r hl hd hactive
  simp [hl, hd, hactive]

theorem Change.seated (h : Change k a b) (hs : Seated a.licenses a.activations a.requests) :
    Seated b.licenses b.activations b.requests := by
  cases h with
  | license l t hseats hlive hi => exact hs.license hlive hi
  | revoke id now => exact hs.revoke id now
  | grant b lic r x hg => exact hs.granted hg
  | deactivate licenseId deviceId now => exact hs.deactivate licenseId deviceId now
  | gift | rotate | closeGift | supersede | challenge | entitlement | revocation | complete => exact hs

theorem Seated.empty : Seated .empty .empty .empty where
  seats := by intro id lic h; simp at h
  owned := by intro key x h; simp at h
  inactive := by intro id lic h; simp at h
  consumed := by intro id lic h; simp at h
  certified := by intro d q h; simp at h
  recorded := by intro key x h; simp at h

theorem Reached.seated (h : Reached k s) : Seated s.licenses s.activations s.requests :=
  h.keep (I := fun a => Seated a.licenses a.activations a.requests) Seated.empty (fun _ _ hc hs => hc.seated hs)

/-! Later states -/

/-- The terms of a license are fixed, and it stays revoked. -/
structure License.Later (l l' : License) : Prop where
  id : l'.licenseId = l.licenseId
  terms : l'.edition = l.edition ∧ l'.majorVersion = l.majorVersion ∧ l'.seatLimit = l.seatLimit
  revoked : l.revokedAt.isSome → l'.revokedAt.isSome

/-- A gift keeps its license, its generation grows, and it stays revoked. -/
structure Gift.Later (g g' : Gift) : Prop where
  license : g'.licenseId = g.licenseId
  generation : g.secretGeneration ≤ g'.secretGeneration
  revoked : g.status = .revoked → g'.status = .revoked

/-- A challenge is issued once, and a consumed one keeps the certificate it has or has not. -/
structure Challenge.Later (x x' : Challenge) : Prop where
  issued : x'.licenseId = x.licenseId ∧ x'.deviceId = x.deviceId ∧ x'.devicePublicKey = x.devicePublicKey ∧
    x'.nonce = x.nonce ∧ x'.expiresAt = x.expiresAt
  flow : x'.flowKind = x.flowKind ∧ x'.entitlementGeneration = x.entitlementGeneration
  consumed : x.consumedAt.isSome → x'.consumedAt.isSome ∧ x'.certificate = x.certificate

theorem License.Later.refl (l : License) : l.Later l := ⟨rfl, ⟨rfl, rfl, rfl⟩, fun h => h⟩

theorem License.Later.trans (a b c : License) (h : a.Later b) (h' : b.Later c) : a.Later c where
  id := h'.id.trans h.id
  terms := ⟨h'.terms.1.trans h.terms.1, h'.terms.2.1.trans h.terms.2.1, h'.terms.2.2.trans h.terms.2.2⟩
  revoked := fun hr => h'.revoked (h.revoked hr)

theorem Gift.Later.refl (g : Gift) : g.Later g := ⟨rfl, le_refl _, id⟩

theorem Gift.Later.trans (a b c : Gift) (h : a.Later b) (h' : b.Later c) : a.Later c where
  license := h'.license.trans h.license
  generation := h.generation.trans h'.generation
  revoked := fun hr => h'.revoked (h.revoked hr)

theorem Challenge.Later.refl (x : Challenge) : x.Later x := ⟨⟨rfl, rfl, rfl, rfl, rfl⟩, ⟨rfl, rfl⟩, fun h => ⟨h, rfl⟩⟩

theorem Challenge.Later.trans (a b c : Challenge) (h : a.Later b) (h' : b.Later c) : a.Later c where
  issued := by
    obtain ⟨h1, h2, h3, h4, h5⟩ := h.issued
    obtain ⟨g1, g2, g3, g4, g5⟩ := h'.issued
    exact ⟨g1.trans h1, g2.trans h2, g3.trans h3, g4.trans h4, g5.trans h5⟩
  flow := ⟨h'.flow.1.trans h.flow.1, h'.flow.2.trans h.flow.2⟩
  consumed := by
    intro hc
    obtain ⟨hb, hcert⟩ := h.consumed hc
    obtain ⟨hcc, hcert'⟩ := h'.consumed hb
    exact ⟨hcc, hcert'.trans hcert⟩

theorem Challenge.later_consume (x : Challenge) (now : Time) : x.Later (x.consume now) :=
  ⟨⟨rfl, rfl, rfl, rfl, rfl⟩, ⟨rfl, rfl⟩, fun _ => ⟨rfl, rfl⟩⟩

/-- The tables of a later state. -/
structure Later (a b : Core) : Prop where
  licenses : a.licenses.Grows License.Later b.licenses
  gifts : a.gifts.Grows Gift.Later b.gifts
  challenges : a.challenges.Grows Challenge.Later b.challenges
  entitlements : a.entitlements.Grows Eq b.entitlements
  revocations : a.revocations.Grows Eq b.revocations

theorem Later.refl (a : Core) : Later a a where
  licenses := .refl License.Later.refl _
  gifts := .refl Gift.Later.refl _
  challenges := .refl Challenge.Later.refl _
  entitlements := .refl Eq.refl _
  revocations := .refl Eq.refl _

theorem Later.trans (a b c : Core) (h : Later a b) (h' : Later b c) : Later a c where
  licenses := h.licenses.trans License.Later.trans h'.licenses
  gifts := h.gifts.trans Gift.Later.trans h'.gifts
  challenges := h.challenges.trans Challenge.Later.trans h'.challenges
  entitlements := Table.Grows.trans (fun _ _ _ h₁ h₂ => h₁.trans h₂) h.entitlements h'.entitlements
  revocations := Table.Grows.trans (fun _ _ _ h₁ h₂ => h₁.trans h₂) h.revocations h'.revocations

theorem Change.later (h : Change k a b) : Later a b := by
  cases h with
  | license l t hseats hlive hi => exact { Later.refl a with licenses := .insert License.Later.refl hi }
  | gift g t hactive hone hlicense hi => exact { Later.refl a with gifts := .insert Gift.Later.refl hi }
  | rotate g digest now hg =>
    refine { Later.refl a with gifts := ?_, challenges := ?_ }
    · refine Table.Grows.modify Gift.Later.refl Gift.rotate_key ?_
      intro g' hg'
      rw [hg] at hg'
      cases hg'
      exact ⟨rfl, Nat.le_succ _, id⟩
    · exact .update Challenge.Later.refl Challenge.consume_key (fun x _ _ => x.later_consume now)
  | revoke id now =>
    refine { Later.refl a with licenses := ?_, challenges := ?_ }
    · exact .modify License.Later.refl License.revoke_key (fun l _ => ⟨rfl, ⟨rfl, rfl, rfl⟩, fun _ => rfl⟩)
    · exact .update Challenge.Later.refl Challenge.consume_key (fun x _ _ => x.later_consume now)
  | closeGift =>
    exact { Later.refl a with gifts := .modify Gift.Later.refl Gift.revoke_key (fun _ _ => ⟨rfl, le_refl _, fun _ => rfl⟩) }
  | supersede licenseId deviceId now =>
    exact { Later.refl a with challenges := .update Challenge.Later.refl Challenge.consume_key (fun x _ _ => x.later_consume now) }
  | challenge x t hopen hdevice hgift hi => exact { Later.refl a with challenges := .insert Challenge.Later.refl hi }
  | entitlement e t hone hlicense hi => exact { Later.refl a with entitlements := .insert Eq.refl hi }
  | revocation r t hrevoked hi => exact { Later.refl a with revocations := .insert Eq.refl hi }
  | grant b lic r x hg =>
    rw [hg.rest]
    exact { Later.refl a with }
  | complete x now proofDigest cert hx hopen =>
    refine { Later.refl a with challenges := ?_ }
    refine Table.Grows.modify Challenge.Later.refl Challenge.complete_key ?_
    intro y hy
    rw [hx] at hy
    cases hy
    refine ⟨⟨rfl, rfl, rfl, rfl, rfl⟩, ⟨rfl, rfl⟩, ?_⟩
    intro hc
    rw [hopen] at hc
    cases hc
  | deactivate => exact { Later.refl a with }

theorem run_later (k : Crypto) (s : Store) (es : List Event) : Later s.core (run (step k) s es).core :=
  run_relate Later.refl Later.trans (fun _ _ => Change.later) s es

theorem step_later (k : Crypto) (s : Store) (e : Event) : Later s.core (step k s e).core :=
  run_later k s [e]

/-! Licenses of gifts and inboxes -/

def Revoked (t : Licenses) (id : String) : Prop := ∃ l, t.get id = some l ∧ l.revokedAt.isSome

theorem Revoked.later (h : t.Grows License.Later t') {id : String} (hr : Revoked t id) : Revoked t' id := by
  obtain ⟨l, hl, hrev⟩ := hr
  obtain ⟨l', hl', hlater⟩ := h id l hl
  exact ⟨l', hl', hlater.revoked hrev⟩

theorem isSome_later (h : t.Grows License.Later t') {id : String} (hs : (t.get id).isSome) :
    (t'.get id).isSome := by
  obtain ⟨l, hl⟩ := Option.isSome_iff_exists.mp hs
  obtain ⟨l', hl', -⟩ := h id l hl
  rw [hl']
  rfl

/-- The gifts and the inboxes name licenses that are there; a closed gift's and a recorded
revocation's are revoked. -/
structure Owned (a : Core) : Prop where
  gifts : ∀ id g, a.gifts.get id = some g → (a.licenses.get g.licenseId).isSome
  closed : ∀ id g, a.gifts.get id = some g → g.status = .revoked → Revoked a.licenses g.licenseId
  oneGift : a.gifts.Unique (fun g => some g.licenseId)
  entitlements : ∀ key e, a.entitlements.get key = some e → (a.licenses.get e.licenseId).isSome
  oneEntitlement : a.entitlements.Unique (fun e => some e.licenseId)
  revocations : ∀ key r, a.revocations.get key = some r → Revoked a.licenses r.licenseId

theorem Owned.licenses (h : Owned a) (ht : a.licenses.Grows License.Later t) :
    Owned { a with licenses := t } where
  gifts := fun id g hg => isSome_later ht (h.gifts id g hg)
  closed := fun id g hg hs => (h.closed id g hg hs).later ht
  oneGift := h.oneGift
  entitlements := fun key e he => isSome_later ht (h.entitlements key e he)
  oneEntitlement := h.oneEntitlement
  revocations := fun key r hr => (h.revocations key r hr).later ht

theorem Owned.modifyGift (h : Owned a) {id : String} {f : Gift → Gift} (hf : ∀ g, (f g).giftId = g.giftId)
    (hl : ∀ g, (f g).licenseId = g.licenseId)
    (hs : ∀ g, a.gifts.get id = some g → (f g).status = .revoked → Revoked a.licenses g.licenseId) :
    Owned { a with gifts := a.gifts.modify id f hf } where
  gifts := by
    intro j g hg
    rcases get_modify_cases hf hg with ⟨-, g₀, hg₀, rfl⟩ | ⟨-, hg₀⟩
    · rw [hl]
      exact h.gifts id g₀ hg₀
    · exact h.gifts j g hg₀
  closed := by
    intro j g hg hst
    rcases get_modify_cases hf hg with ⟨-, g₀, hg₀, rfl⟩ | ⟨-, hg₀⟩
    · rw [hl]
      exact hs g₀ hg₀ hst
    · exact h.closed j g hg₀ hst
  oneGift := unique_modify hf h.oneGift (fun g _ => clash_same (by simp [hl]))
  entitlements := h.entitlements
  oneEntitlement := h.oneEntitlement
  revocations := h.revocations

theorem Change.owned (hc : Change k a b) (h : Owned a) : Owned b := by
  have hlater := hc.later
  cases hc with
  | license => exact h.licenses hlater.licenses
  | gift g t hactive hone hlicense hi =>
    refine { h with gifts := ?_, closed := ?_, oneGift := unique_insert h.oneGift hi hone }
    · intro id x hx
      rcases get_insert_cases hi hx with ⟨-, rfl⟩ | hold
      · exact hlicense
      · exact h.gifts id x hold
    · intro id x hx hs
      rcases get_insert_cases hi hx with ⟨-, rfl⟩ | hold
      · rw [hactive] at hs
        cases hs
      · exact h.closed id x hold hs
  | rotate g digest now =>
    have hmodified : Owned { a with
        gifts := a.gifts.modify g.giftId (Gift.rotate digest (g.secretGeneration + 1) now) Gift.rotate_key } :=
      h.modifyGift Gift.rotate_key (fun _ => rfl) (fun x hx hs => h.closed _ x hx hs)
    exact { hmodified with }
  | revoke =>
    have := h.licenses hlater.licenses
    exact { this with }
  | closeGift g now hg hrevoked =>
    refine h.modifyGift Gift.revoke_key (fun _ => rfl) ?_
    intro x hx _
    rw [hg] at hx
    cases hx
    obtain ⟨l, hl⟩ := Option.isSome_iff_exists.mp (h.gifts _ g hg)
    exact ⟨l, hl, hrevoked l hl⟩
  | entitlement e t hone hlicense hi =>
    refine { h with entitlements := ?_, oneEntitlement := unique_insert h.oneEntitlement hi hone }
    intro key x hx
    rcases get_insert_cases hi hx with ⟨-, rfl⟩ | hold
    · exact hlicense
    · exact h.entitlements key x hold
  | revocation r t hrevoked hi =>
    refine { h with revocations := ?_ }
    intro key x hx
    rcases get_insert_cases hi hx with ⟨-, rfl⟩ | hold
    · exact hrevoked
    · exact h.revocations key x hold
  | grant b lic r x hg =>
    rw [hg.rest]
    exact { h with }
  | supersede | challenge | complete | deactivate => exact { h with }

theorem Owned.empty : Owned Store.empty.core where
  gifts := by intro id g h; simp [Store.core, Store.empty] at h
  closed := by intro id g h; simp [Store.core, Store.empty] at h
  oneGift := unique_empty _
  entitlements := by intro key e h; simp [Store.core, Store.empty] at h
  oneEntitlement := unique_empty _
  revocations := by intro key r h; simp [Store.core, Store.empty] at h

theorem Reached.owned (h : Reached k s) : Owned s.core :=
  h.keep Owned.empty (fun _ _ hc ha => hc.owned ha)

/-! Challenges -/

def ForDevice (k : Crypto) (t : Challenges) : Prop :=
  ∀ id x, t.get id = some x → k.deviceIdentifier x.devicePublicKey = .ok x.deviceId

theorem ForDevice.update {t : Challenges} (h : ForDevice k t) {p : Challenge → Bool} {f : Challenge → Challenge}
    (hf : ∀ x, (f x).challengeId = x.challengeId)
    (hsame : ∀ x, (f x).devicePublicKey = x.devicePublicKey ∧ (f x).deviceId = x.deviceId) : ForDevice k (t.update p f hf) := by
  intro id x hx
  rw [get_update] at hx
  obtain ⟨x₀, hx₀, rfl⟩ := Option.map_eq_some_iff.mp hx
  have := h id x₀ hx₀
  split
  · rw [(hsame x₀).1, (hsame x₀).2]
    exact this
  · exact this

theorem Change.forDevice (hc : Change k a b) (h : ForDevice k a.challenges) : ForDevice k b.challenges := by
  cases hc with
  | rotate | revoke | supersede => exact h.update Challenge.consume_key (fun _ => ⟨rfl, rfl⟩)
  | complete => exact h.update Challenge.complete_key (fun _ => ⟨rfl, rfl⟩)
  | challenge x t hopen hdevice hgift hi =>
    intro id y hy
    rcases get_insert_cases hi hy with ⟨-, rfl⟩ | hold
    · exact hdevice
    · exact h id y hold
  | grant b lic r x hg =>
    rw [hg.rest]
    exact h
  | license | gift | closeGift | entitlement | revocation | deactivate => exact h

def OpenBlank (t : Challenges) : Prop := ∀ id x, t.get id = some x → x.consumedAt = none → x.certificate = none

theorem OpenBlank.update {t : Challenges} (h : OpenBlank t) {p : Challenge → Bool} {f : Challenge → Challenge}
    (hf : ∀ x, (f x).challengeId = x.challengeId) (hconsumed : ∀ x, (f x).consumedAt.isSome) : OpenBlank (t.update p f hf) := by
  intro id x hx hopen
  rw [get_update] at hx
  obtain ⟨x₀, hx₀, rfl⟩ := Option.map_eq_some_iff.mp hx
  split at hopen
  · have := hconsumed x₀
    rw [hopen] at this
    cases this
  · rename_i hp
    rw [if_neg hp]
    exact h id x₀ hx₀ hopen

theorem Change.openBlank (hc : Change k a b) (h : OpenBlank a.challenges) : OpenBlank b.challenges := by
  cases hc with
  | rotate | revoke | supersede => exact h.update Challenge.consume_key (fun _ => rfl)
  | complete => exact h.update Challenge.complete_key (fun _ => rfl)
  | challenge x t hopen hdevice hgift hi =>
    intro id y hy
    rcases get_insert_cases hi hy with ⟨-, rfl⟩ | hold
    · exact fun _ => hopen.2
    · exact h id y hold
  | grant b lic r x hg =>
    rw [hg.rest]
    exact h
  | license | gift | closeGift | entitlement | revocation | deactivate => exact h

theorem Reached.openBlank (h : Reached k s) : OpenBlank s.challenges :=
  h.keep (I := fun a => OpenBlank a.challenges) (by intro id x hx; simp [Store.core, Store.empty] at hx)
    (fun _ _ hc ha => hc.openBlank ha)

/-- A gift-flow challenge is of a gift of its license, issued at its generation or an earlier one. -/
def OfGift (a : Core) (x : Challenge) : Prop :=
  ∃ g n, a.gifts.get g.giftId = some g ∧ g.licenseId = x.licenseId ∧ x.entitlementGeneration = some n ∧
    n ≤ g.secretGeneration

theorem OfGift.later {x : Challenge} (h : OfGift a x) (hl : a.gifts.Grows Gift.Later b.gifts)
    (hxy : x.Later y) : OfGift b y := by
  obtain ⟨g, n, hg, hlic, hn, hle⟩ := h
  obtain ⟨g', hg', hlater⟩ := hl _ g hg
  have hkey : g'.giftId = g.giftId := get_key hg'
  refine ⟨g', n, by rw [hkey]; exact hg', ?_, hxy.flow.2.trans hn, hle.trans hlater.generation⟩
  rw [hlater.license, hlic, hxy.issued.1]

def GiftFlow (a : Core) : Prop := ∀ id x, a.challenges.get id = some x → x.flowKind = some .gift → OfGift a x

/-- The row was there before, or the change inserted it. -/
theorem Change.challenge_cases (hc : Change k a b) {id : String} (hy : b.challenges.get id = some y) :
    (∃ x, a.challenges.get id = some x ∧ x.Later y) ∨ (y.flowKind = some .gift → OfGift b y) := by
  by_cases hold : ∃ x, a.challenges.get id = some x
  · obtain ⟨x, hx⟩ := hold
    obtain ⟨y', hy', hlater⟩ := hc.later.challenges id x hx
    rw [hy] at hy'
    cases hy'
    exact .inl ⟨x, hx, hlater⟩
  · have hnone : a.challenges.get id = none := by
      cases hg : a.challenges.get id with
      | none => rfl
      | some x => exact absurd ⟨x, hg⟩ hold
    have hupdate : ∀ {p : Challenge → Bool} {f : Challenge → Challenge} (hf : ∀ x, (f x).challengeId = x.challengeId),
        (a.challenges.update p f hf).get id ≠ some y := by
      intro p f hf hsome
      rw [get_update, hnone] at hsome
      cases hsome
    cases hc with
    | challenge x t hopen hdevice hgift hi =>
      rcases get_insert_cases hi hy with ⟨-, rfl⟩ | h
      · refine .inr fun hkind => ?_
        obtain ⟨g, hg, hlic, hgen⟩ := hgift hkind
        exact ⟨g, g.secretGeneration, hg, hlic, hgen, le_refl _⟩
      · exact absurd ⟨y, h⟩ hold
    | rotate | revoke | supersede => exact absurd hy (hupdate Challenge.consume_key)
    | complete => exact absurd hy (hupdate Challenge.complete_key)
    | grant b lic r x hg =>
      rw [hg.rest] at hy
      exact absurd ⟨y, hy⟩ hold
    | license | gift | closeGift | entitlement | revocation | deactivate => exact absurd ⟨y, hy⟩ hold

theorem Change.giftFlow (hc : Change k a b) (h : GiftFlow a) : GiftFlow b := by
  intro id y hy hkind
  rcases hc.challenge_cases hy with ⟨x, hx, hlater⟩ | hnew
  · exact (h id x hx (hlater.flow.1.symm.trans hkind)).later hc.later.gifts hlater
  · exact hnew hkind

theorem Reached.giftFlow (h : Reached k s) : GiftFlow s.core :=
  h.keep (by intro id x hx; simp [Store.core, Store.empty] at hx) (fun _ _ hc ha => hc.giftFlow ha)

theorem Reached.forDevice (h : Reached k s) : ForDevice k s.challenges :=
  h.keep (I := fun a => ForDevice k a.challenges) (by intro id x hx; simp [Store.core, Store.empty] at hx)
    (fun _ _ hc ha => hc.forDevice ha)

end GrowthMap.Authority
