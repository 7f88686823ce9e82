import GrowthMap.Authority.Ledger

/- Seats, revocation and certificates over whole runs.

   From the invariants of the seat ledger: no license is oversold, a revoked license
   never has an active device and no call returns a certificate for it, and a certificate
   that a call returns is the one of the device's active activation, unless the call
   presents a request again that a later activation of the device has superseded. -/
namespace GrowthMap.Authority

open Relational Runs
open Payments (Time seconds Identity Value Doc Err)

variable {k : Crypto}

/-! Seats -/

def deviceRows (t : Activations) (licenseId deviceId : String) : List Activation :=
  t.rows.filter (fun a => decide (a.licenseId = licenseId ∧ a.deviceId = deviceId))

theorem deviceRows_le_one (t : Activations) (licenseId deviceId : String) : (deviceRows t licenseId deviceId).length ≤ 1 := by
  have hnodup : ((deviceRows t licenseId deviceId).map (fun a => (a.licenseId, a.deviceId))).Nodup :=
    t.distinct.sublist (List.Sublist.map _ List.filter_sublist)
  have hall : ∀ p ∈ (deviceRows t licenseId deviceId).map (fun a => (a.licenseId, a.deviceId)), p = (licenseId, deviceId) := by
    intro p hp
    obtain ⟨a, ha, rfl⟩ := List.mem_map.mp hp
    have := of_decide_eq_true (List.mem_filter.mp ha).2
    rw [this.1, this.2]
  rw [List.eq_replicate_of_mem hall, List.nodup_replicate, List.length_map] at hnodup
  exact hnodup

/-- In every reachable state the active activations of a license are within its seats,
and a device has one row for it. -/
theorem seats_never_oversold (k : Crypto) (es : List Event) (licenseId : String) :
    (∀ lic, (run (step k) Store.empty es).licenses.get licenseId = some lic →
      activeSeats (run (step k) Store.empty es).activations licenseId ≤ lic.seatLimit) ∧
    (∀ deviceId, (deviceRows (run (step k) Store.empty es).activations licenseId deviceId).length ≤ 1) := by
  have hreached : Reached k (run (step k) Store.empty es) := ⟨es, rfl⟩
  refine ⟨?_, ?_⟩
  · intro lic hlic
    exact hreached.seated.seats licenseId lic hlic
  · intro deviceId
    exact deviceRows_le_one _ licenseId deviceId

/-- One seat of two is taken once the device is activated. -/
theorem opened_seats : activeSeats (run (step Demo.crypto) Store.empty Demo.opened).activations "L" ≤ 2 := by
  have hlic : ∃ lic, (run (step Demo.crypto) Store.empty Demo.opened).licenses.get "L" = some lic ∧ lic.seatLimit = 2 :=
    ⟨_, rfl, rfl⟩
  obtain ⟨lic, hget, hseats⟩ := hlic
  have := (seats_never_oversold Demo.crypto Demo.opened "L").1 lic hget
  rw [hseats] at this
  exact this

/-- What the tables say of one another: an activation is active exactly as long as its request,
whose certificate it has; gifts and entitlements name licenses of their own, which a closed gift
or a recorded revocation has revoked. -/
theorem tables_agree (k : Crypto) (es : List Event) :
    let s := run (step k) Store.empty es
    (∀ key x, s.activations.get key = some x → (s.licenses.get x.licenseId).isSome ∧
      ∃ q, s.requests.get x.nonceDigest = some q ∧ q.licenseId = x.licenseId ∧ q.deviceId = x.deviceId ∧
        q.certificate = some x.certificate ∧ (q.status = .active ↔ x.deactivatedAt = none)) ∧
    (∀ id g, s.gifts.get id = some g → (s.licenses.get g.licenseId).isSome ∧
      (g.status = .revoked → Revoked s.licenses g.licenseId)) ∧
    (∀ key e, s.entitlements.get key = some e → (s.licenses.get e.licenseId).isSome) ∧
    (∀ key r, s.revocations.get key = some r → Revoked s.licenses r.licenseId) ∧
    s.gifts.Unique (fun g => some g.licenseId) ∧ s.entitlements.Unique (fun e => some e.licenseId) := by
  intro s
  have hreached : Reached k s := ⟨es, rfl⟩
  have hseated := hreached.seated
  have howned := hreached.owned
  refine ⟨?_, ?_, howned.entitlements, howned.revocations, howned.oneGift, howned.oneEntitlement⟩
  · intro key x hx
    exact ⟨hseated.owned key x hx, hseated.recorded key x hx⟩
  · intro id g hg
    exact ⟨howned.gifts id g hg, howned.closed id g hg⟩

/-! Certificates -/

variable {s s' : Store} {e : Event} {cert : Certificate} {licenseId activationId nonce proof : String}

/-- Only two methods return a certificate. -/
theorem reply_certificate (h : reply k s e = .certificate cert) :
    (∃ licenseId key nonce proof activationId, e.op = .activate licenseId key nonce proof activationId ∧
      activate k e.call licenseId key nonce proof activationId s = .ok (step k s e, cert)) ∨
    (∃ challengeId proof expected activationId, e.op = .activateChallenge challengeId proof expected activationId ∧
      activateChallenge k e.call challengeId proof expected activationId s = .ok (step k s e, cert)) := by
  obtain ⟨c, op⟩ := e
  have hok : ∀ err, Reply.certificate cert ≠ .raised err := nofun
  cases op with
  | activate licenseId key nonce proof activationId =>
    obtain ⟨a, ha, hcert⟩ := answer_ok h hok
    cases hcert
    exact .inl ⟨licenseId, key, nonce, proof, activationId, rfl, ha⟩
  | activateChallenge challengeId proof expected activationId =>
    obtain ⟨a, ha, hcert⟩ := answer_ok h hok
    cases hcert
    exact .inr ⟨challengeId, proof, expected, activationId, rfl, ha⟩
  | createLicense | createGift | recoverGift | revokeGift | issueGiftClaimChallenge | createExternalEntitlement
  | readExternalEntitlementAcknowledgement | issueActivationChallenge | revokeExternalEntitlement
  | readExternalRevocationAcknowledgement | deactivate | deactivateGiftDevice | pinCeremony =>
    -- every other method answers with a reply of another kind
    obtain ⟨a, ha, hcert⟩ := answer_ok h hok
    cases hcert

variable {deviceId key : String}

theorem Obtained.not_revoked {digest : String}
    (hs : Seated s.licenses s.activations s.requests) (h : Obtained k s s' licenseId deviceId key digest activationId cert) :
    ¬ Revoked s.licenses cert.licenseId := by
  rintro ⟨lic, hlic, hrev⟩
  cases h with
  | retrieved r hr hactive hcert =>
    obtain ⟨cert', hcert', hl, -⟩ := hs.certified _ r hr
    rw [hcert] at hcert'
    cases hcert'
    have := hs.consumed _ lic hlic hrev _ r hr hl.symm
    rw [hactive] at this
    cases this
  | granted lic' r x hnew hg hcert =>
    subst hcert
    have hlic' : s.licenses.get lic'.licenseId = some lic' := hg.license
    rw [hg.certificate.1, hg.row.1, hlic'] at hlic
    cases hlic
    rw [hg.live] at hrev
    cases hrev

theorem certificate_not_revoked (hs : Reached k s)
    (h : reply k s e = .certificate cert) : ¬ Revoked s.licenses cert.licenseId := by
  rcases reply_certificate h with ⟨licenseId, key, nonce, proof, activationId, -, hok⟩ | ⟨id, proof, kind, aid, -, hok⟩
  · obtain ⟨deviceId, lic, -, -, -, hobt⟩ := activateInTransaction_ok hok
    exact hobt.not_revoked hs.seated
  · obtain ⟨row, lic, -, -, hlic, hlive, ⟨-, -, hreplay⟩ | ⟨-, -, s₁, h₁, -⟩⟩ := activateChallenge_ok hok
    · obtain ⟨-, hl, -⟩ := replayChallenge_ok hreplay
      rintro ⟨lic', hlic', hrev⟩
      rw [hl, hlic] at hlic'
      cases hlic'
      rw [hlive] at hrev
      cases hrev
    · obtain ⟨deviceId, lic, -, -, -, hobt⟩ := activateInTransaction_ok h₁
      exact hobt.not_revoked hs.seated

/-! Revocation -/

/-- The call commits a revocation of the license, the first or a repeated one. -/
def Revokes (k : Crypto) (s : Store) (e : Event) (licenseId : String) : Prop :=
  (∃ a r, e.op = .revokeExternalEntitlement a ∧ reply k s e = .revocation r ∧ r.licenseId = licenseId) ∨
  (∃ id giftId gift, e.op = .revokeGift id ∧ reply k s e = .done ∧ normalizeUuid id = some giftId ∧
    s.gifts.get giftId = some gift ∧ gift.licenseId = licenseId)

theorem revokeLicense_revoked {now : Time} {l : License}
    (h : s.licenses.get licenseId = some l) : Revoked (revokeLicense licenseId now s).licenses licenseId :=
  ⟨l.revoke now, Table.get_modify_self License.revoke_key h, rfl⟩

theorem Revokes.revoked (hs : Reached k s) (h : Revokes k s e licenseId) :
    Revoked (step k s e).licenses licenseId := by
  obtain ⟨c, op⟩ := e
  rcases h with ⟨a, r, rfl, hreply, hid⟩ | ⟨id, giftId, gift, rfl, hreply, hnorm, hgift, rfl⟩
  · obtain ⟨r', hx, hr'⟩ := answer_ok hreply nofun
    cases hr'
    obtain ⟨-, -, row, hrow, hl, -, ⟨prior, hprior, hsame, hr⟩ | ⟨signature, tv, -, -, -, -, hcore, hr, -⟩⟩ :=
      revokeExternalEntitlement_ok hx
    · have hstep : step k s ⟨c, .revokeExternalEntitlement a⟩ = s := hsame
      rw [hstep, ← hid, hr]
      exact hs.owned.revocations _ prior hprior
    · obtain ⟨l, hlic⟩ := Option.isSome_iff_exists.mp (hs.owned.entitlements _ row hrow)
      have hlicenses : (step k s ⟨c, .revokeExternalEntitlement a⟩).licenses =
          (revokeLicense a.licenseId (c.clk 0) s).licenses := congrArg Core.licenses hcore
      rw [hlicenses, ← hid, hr]
      exact revokeLicense_revoked (hl ▸ hlic)
  · obtain ⟨u, hx, -⟩ := answer_ok hreply nofun
    obtain ⟨row, hrow, hget, hcases⟩ := revokeGift_ok hx
    rw [hnorm] at hrow
    cases hrow
    rw [hgift] at hget
    cases hget
    rcases hcases with ⟨hclosed, hsame⟩ | ⟨-, hcore⟩
    · have hstep : step k s ⟨c, .revokeGift id⟩ = s := hsame
      rw [hstep]
      exact hs.owned.closed _ gift hgift hclosed
    · obtain ⟨l, hlic⟩ := Option.isSome_iff_exists.mp (hs.owned.gifts _ gift hgift)
      have hlicenses : (step k s ⟨c, .revokeGift id⟩).licenses = (revokeLicense gift.licenseId (c.clk 0) s).licenses :=
        congrArg Core.licenses hcore
      rw [hlicenses]
      exact revokeLicense_revoked hlic

def Refused (k : Crypto) (s : Store) (e : Event) : Prop := ∃ err, reply k s e = .raised err ∧ step k s e = s

theorem activateChallenge_refused {challengeId : String} (c : Call) (proof : String) (expected : FlowKind)
    (activationId : String) {row : Challenge} (hrow : s.challenges.get challengeId = some row) (hrev : Revoked s.licenses row.licenseId) :
    Refused k s ⟨c, .activateChallenge challengeId proof expected activationId⟩ := by
  have hnone : ∀ s' cert, activateChallenge k c challengeId proof expected activationId s ≠ .ok (s', cert) := by
    intro s' cert hok
    obtain ⟨row', lic, hrow', -, hlic, hlive, -⟩ := activateChallenge_ok hok
    rw [hrow] at hrow'
    cases hrow'
    obtain ⟨lic', hlic', hrev⟩ := hrev
    rw [hlic] at hlic'
    cases hlic'
    rw [hlive] at hrev
    cases hrev
  obtain ⟨err, herr⟩ := answer_raised (f := Reply.certificate) (s := s) hnone
  exact ⟨err, congrArg Prod.snd herr, congrArg Prod.fst herr⟩

theorem activate_refused {c : Call}
    (hrev : Revoked s.licenses licenseId) : Refused k s ⟨c, .activate licenseId key nonce proof activationId⟩ := by
  have hnone : ∀ s' cert, activate k c licenseId key nonce proof activationId s ≠ .ok (s', cert) := by
    intro s' cert hok
    obtain ⟨deviceId, lic, -, hlic, hlive, -⟩ := activateInTransaction_ok hok
    obtain ⟨lic', hlic', hrev⟩ := hrev
    rw [hlic] at hlic'
    cases hlic'
    rw [hlive] at hrev
    cases hrev
  obtain ⟨err, herr⟩ := answer_raised (f := Reply.certificate) (s := s) hnone
  exact ⟨err, congrArg Prod.snd herr, congrArg Prod.fst herr⟩

/-- After a committed revocation, in every later state: no active activation of the
license, no request of it to replay, every activation and every completion of one of its
challenges is refused, and no call at all returns a certificate for it. -/
theorem revocation_is_final (k : Crypto) (pre post : List Event) (e : Event) (licenseId : String)
    (h : Revokes k (run (step k) Store.empty pre) e licenseId) :
    let s := run (step k) Store.empty (pre ++ e :: post)
    (∀ key x, s.activations.get key = some x → x.licenseId = licenseId → x.deactivatedAt.isSome) ∧
    (∀ digest r, s.requests.get digest = some r → r.licenseId = licenseId → r.status = .consumed) ∧
    (∀ c challengeId row proof expected activationId, s.challenges.get challengeId = some row → row.licenseId = licenseId →
      Refused k s ⟨c, .activateChallenge challengeId proof expected activationId⟩) ∧
    (∀ c key nonce proof activationId, Refused k s ⟨c, .activate licenseId key nonce proof activationId⟩) ∧
    (∀ f cert, reply k s f = .certificate cert → cert.licenseId ≠ licenseId) := by
  intro s
  have hreached : Reached k s := ⟨pre ++ e :: post, rfl⟩
  have hrevoked : Revoked s.licenses licenseId := by
    have hstep := h.revoked ⟨pre, rfl⟩
    have hlater := run_later k (step k (run (step k) Store.empty pre) e) post
    have hs : s = run (step k) (step k (run (step k) Store.empty pre) e) post := by
      show run (step k) Store.empty (pre ++ e :: post) = _
      rw [run_append, run_cons]
    rw [hs]
    exact hstep.later hlater.licenses
  obtain ⟨lic, hlic, hrev⟩ := hrevoked
  refine ⟨hreached.seated.inactive licenseId lic hlic hrev, hreached.seated.consumed licenseId lic hlic hrev, ?_, ?_, ?_⟩
  · intro c challengeId row proof expected activationId hrow hid
    exact activateChallenge_refused c proof expected activationId hrow (hid ▸ ⟨lic, hlic, hrev⟩)
  · intro c key nonce proof activationId
    exact activate_refused ⟨lic, hlic, hrev⟩
  · intro f cert hcert hid
    exact certificate_not_revoked hreached hcert (hid ▸ ⟨lic, hlic, hrev⟩)

/-- The gift of the license `G`, revoked. -/
def Demo.gift : List Event :=
  [Demo.event 0 .pinCeremony,
   Demo.event 1 (.createGift "personal" 1 2 30 "00000000-0000-4000-8000-000000000000" "G"
     "ssssssssssssssssssssssssssssssss")]

theorem revoked_gift_has_no_certificate :
    ¬ ∃ cert, reply Demo.crypto (run (step Demo.crypto) Store.empty
        (Demo.gift ++ Demo.event 2 (.revokeGift "00000000-0000-4000-8000-000000000000") :: []))
      (Demo.event 3 (.activate "G" "D" "AAAAAAAAAAAAAAAA" "P" "1")) = .certificate cert ∧ cert.licenseId = "G" := by
  have hrevokes : Revokes Demo.crypto (run (step Demo.crypto) Store.empty Demo.gift)
      (Demo.event 2 (.revokeGift "00000000-0000-4000-8000-000000000000")) "G" :=
    .inr ⟨_, _, _, rfl, rfl, rfl, rfl, rfl⟩
  rintro ⟨cert, hcert, hlicense⟩
  exact (revocation_is_final Demo.crypto Demo.gift [] _ "G" hrevokes).2.2.2.2 _ cert hcert hlicense

/-! Live certificates -/

/-- The license and the device key a call asks a certificate for. -/
def asked (s : Store) (e : Event) : Option (String × String) :=
  match e.op with
  | .activate licenseId key _ _ _ => some (licenseId, key)
  | .activateChallenge challengeId _ _ _ =>
    (s.challenges.get challengeId).map fun row => (row.licenseId, row.devicePublicKey)
  | _ => none

/-- The certificate is the one of the active activation of the device for the license, when
the call returns. -/
def HandedLive (k : Crypto) (s : Store) (e : Event) (cert : Certificate) : Prop :=
  ∃ licenseId key deviceId a, asked s e = some (licenseId, key) ∧ k.deviceIdentifier key = .ok deviceId ∧
    (step k s e).activations.get (licenseId, deviceId) = some a ∧ a.deactivatedAt = none ∧ a.certificate = cert

/-- The request is there and active, but the activation of the device is another request's. -/
def superseded (k : Crypto) (s : Store) (licenseId key nonce proof : String) : Bool :=
  match k.deviceIdentifier key with
  | .error _ => false
  | .ok deviceId =>
    match s.requests.get (presentedDigest k licenseId deviceId nonce proof) with
    | none => false
    | some r =>
      decide (r.status = .active) &&
        decide ((s.activations.get (licenseId, deviceId)).map Activation.nonceDigest ≠ some r.requestDigest)

/-- The call presents a superseded request: directly, or to complete an open challenge. -/
def replaysSuperseded (k : Crypto) (s : Store) (e : Event) : Bool :=
  match e.op with
  | .activate licenseId key nonce proof _ => superseded k s licenseId key nonce proof
  | .activateChallenge challengeId proof _ _ =>
    match s.challenges.get challengeId with
    | none => false
    | some row => row.consumedAt.isNone && superseded k s row.licenseId row.devicePublicKey row.nonce proof
  | _ => false

/-- What `_activate_in_transaction` returns is live, unless the request was superseded. -/
theorem Obtained.live
    (hs : Seated s.licenses s.activations s.requests) (hdevice : k.deviceIdentifier key = .ok deviceId)
    (h : Obtained k s s' licenseId deviceId key (presentedDigest k licenseId deviceId nonce proof) activationId cert)
    (hnot : superseded k s licenseId key nonce proof = false) :
    ∃ a, s'.activations.get (licenseId, deviceId) = some a ∧ a.deactivatedAt = none ∧ a.certificate = cert := by
  cases h with
  | retrieved r hr hactive hcert hcore =>
    have hactivations : s'.activations = s.activations := congrArg Core.activations hcore
    have hkey := Table.get_key hr
    simp only [superseded, hdevice, hr, hactive, decide_true, Bool.true_and, decide_eq_false_iff_not, not_not] at hnot
    obtain ⟨a, ha, hdigest⟩ := Option.map_eq_some_iff.mp hnot
    -- the activation's own request is the one that was found
    obtain ⟨q, hq, -, -, hqcert, hqactive⟩ := hs.recorded _ a ha
    rw [hdigest, hkey, hr] at hq
    cases hq
    rw [hcert] at hqcert
    refine ⟨a, by rw [hactivations]; exact ha, hqactive.mp hactive, (Option.some.inj hqcert).symm⟩
  | granted lic r x hnew hg hcert hlicense hdev =>
    refine ⟨x, ?_, hg.row.2.1, hcert⟩
    have := hg.get_activations (x.licenseId, x.deviceId)
    rw [if_pos rfl, hlicense, hdev] at this
    exact this

theorem certificate_live (hs : Reached k s)
    (hnot : replaysSuperseded k s e = false) (h : reply k s e = .certificate cert) : HandedLive k s e cert := by
  obtain ⟨c, op⟩ := e
  rcases reply_certificate h with ⟨licenseId, key, nonce, proof, activationId, rfl, hok⟩ |
    ⟨challengeId, proof, expected, activationId, rfl, hok⟩
  · obtain ⟨deviceId, lic, hdevice, -, -, hobt⟩ := activateInTransaction_ok hok
    obtain ⟨a, ha, hlive, hcert⟩ := hobt.live hs.seated hdevice hnot
    exact ⟨licenseId, key, deviceId, a, rfl, hdevice, ha, hlive, hcert⟩
  · obtain ⟨row, lic, hrow, -, -, -, ⟨-, hsame, hreplay⟩ | ⟨hopen, -, s₁, h₁, hs'⟩⟩ := activateChallenge_ok hok
    · obtain ⟨-, -, -, a, ha, hlive, hcert⟩ := replayChallenge_ok hreplay
      refine ⟨row.licenseId, row.devicePublicKey, row.deviceId, a, ?_, hs.forDevice _ row hrow, ?_, hlive, hcert⟩
      · simp only [asked, hrow, Option.map_some]
      · rw [hsame]
        exact ha
    · obtain ⟨deviceId, lic, hdevice, -, -, hobt⟩ := activateInTransaction_ok h₁
      have hnot' : superseded k s row.licenseId row.devicePublicKey row.nonce proof = false := by
        simpa [replaysSuperseded, hrow, hopen] using hnot
      obtain ⟨a, ha, hlive, hcert⟩ := hobt.live hs.seated hdevice hnot'
      refine ⟨row.licenseId, row.devicePublicKey, deviceId, a, ?_, hdevice, ?_, hlive, hcert⟩
      · simp only [asked, hrow, Option.map_some]
      · rw [hs']
        exact ha

/-- In every run that never presents a superseded request again, every certificate that is
returned, first or as a replay, is that of the active activation of the device. -/
theorem certificates_live_unless_superseded (k : Crypto) (es : List Event)
    (h : Along (step k) (fun s e => replaysSuperseded k s e = false) Store.empty es) (pre post : List Event) (e : Event)
    (hes : es = pre ++ e :: post) (cert : Certificate)
    (hcert : reply k (run (step k) Store.empty pre) e = .certificate cert) :
    HandedLive k (run (step k) Store.empty pre) e cert := by
  subst hes
  obtain ⟨-, hnot, -⟩ := along_append.mp h
  exact certificate_live ⟨pre, rfl⟩ hnot hcert

/-- A retry by a device that has not been activated again gets its live certificate. -/
theorem retry_is_live : ∃ cert, HandedLive Demo.crypto (run (step Demo.crypto) Store.empty Demo.opened) Demo.replay cert := by
  have hfine : Along (step Demo.crypto) (fun s e => replaysSuperseded Demo.crypto s e = false) Store.empty
      (Demo.opened ++ Demo.replay :: []) := ⟨rfl, rfl, rfl, rfl, trivial⟩
  have hcert : ∃ cert, reply Demo.crypto (run (step Demo.crypto) Store.empty Demo.opened) Demo.replay = .certificate cert :=
    ⟨_, rfl⟩
  obtain ⟨cert, hcert⟩ := hcert
  exact ⟨cert, certificates_live_unless_superseded Demo.crypto _ hfine Demo.opened [] Demo.replay rfl cert hcert⟩

/-- Activated again under another nonce, the device presents its first request once more
and gets the certificate of the activation it no longer has. -/
theorem superseded_certificate_handed_out :
    ¬ ∀ (k : Crypto) (es : List Event) (e : Event) (cert : Certificate),
      reply k (run (step k) Store.empty es) e = .certificate cert → HandedLive k (run (step k) Store.empty es) e cert := by
  intro hall
  obtain ⟨cert, hcert, hid⟩ : ∃ cert,
      reply Demo.crypto (run (step Demo.crypto) Store.empty
        (Demo.opened ++ [Demo.event 3 (.activate "L" "D" "BBBBBBBBBBBBBBBB" "P" "2")])) Demo.replay = .certificate cert ∧
      cert.activationId = "1" := ⟨_, rfl, rfl⟩
  obtain ⟨licenseId, key, deviceId, a, hasked, hdevice, ha, -, rfl⟩ := hall _ _ _ _ hcert
  cases hasked
  cases hdevice
  obtain ⟨b, hb, hbid⟩ : ∃ b, (step Demo.crypto (run (step Demo.crypto) Store.empty
      (Demo.opened ++ [Demo.event 3 (.activate "L" "D" "BBBBBBBBBBBBBBBB" "P" "2")])) Demo.replay).activations.get
        ("L", "D") = some b ∧ b.certificate.activationId = "2" := ⟨_, rfl, rfl⟩
  rw [hb] at ha
  cases ha
  rw [hbid] at hid
  exact absurd hid (by decide)

end GrowthMap.Authority
