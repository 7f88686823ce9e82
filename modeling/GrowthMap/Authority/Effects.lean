import GrowthMap.Authority.System

/- What each method does to the store when it returns.

   One inversion per method: the guards it passed, what it returns, and the change of the
   tables as a list of `Change`s. `step_changes` puts them together; no later proof
   unfolds a method again to find out what it writes. -/
namespace GrowthMap.Authority

open Relational Runs Table
open Fallible (bind_ok)
open Payments (matchesFixed Time seconds Identity Value Doc Err AckDomain EntitlementAck insertChecked insertChecked_ok
  firstBad firstBad_none)

variable {k : Crypto} {c : Call} {s s' : Store}

/-! Statements -/

@[simp] theorem audit_core (at_ : Time) (event licenseId : String) (deviceId : Option String) (s : Store) :
    (audit at_ event licenseId deviceId s).core = s.core := rfl

variable {l : License} {g : Gift} {x : Challenge} {a : Activation}
  {licenseId edition secret giftId secret' nonce challengeId activationId proof : String}
  {majorVersion checkInDays ttl : Int} {seatLimit : Nat} {u : Unit} {r : ChallengeReply} {cert : Certificate}
  {expected : FlowKind} {α : Type} {f : α → Reply} {R : Core → Core → Prop}

theorem insertLicense_ok (h : insertLicense l s = .ok s') :
    ∃ t, s.licenses.insert l = some t ∧ s' = { s with licenses := t } ∧ 1 ≤ l.seatLimit ∧ l.seatLimit ≤ 2 := by
  obtain ⟨t, ht, h⟩ := bind_ok h
  obtain ⟨hbad, hi⟩ := insertChecked_ok ht
  have hseats := firstBad_none hbad (_, _) (List.mem_cons_self)
  simp only [decide_eq_false_iff_not, not_or, not_lt] at hseats
  cases h
  exact ⟨t, hi, rfl, hseats⟩

theorem insertGift_ok (h : insertGift g s = .ok s') :
    ∃ t, s.gifts.insert g = some t ∧ s' = { s with gifts := t } ∧
      s.gifts.taken g.giftId (fun r => some r.licenseId) (some g.licenseId) = false ∧
      (s.licenses.get g.licenseId).isSome := by
  obtain ⟨t, ht, h⟩ := bind_ok h
  obtain ⟨hbad, hi⟩ := insertChecked_ok ht
  have hone := firstBad_none hbad (_, _) (.tail _ (.tail _ (.tail _ (.head _))))
  have hlicense := firstBad_none hbad (_, _) (.tail _ (.tail _ (.tail _ (.tail _ (.head _)))))
  cases h
  exact ⟨t, hi, rfl, hone, by simpa using hlicense⟩

theorem insertEntitlement_ok {e : ExternalEntitlement} (h : insertEntitlement e s = .ok s') :
    ∃ t, s.entitlements.insert e = some t ∧ s' = { s with entitlements := t } ∧
      s.entitlements.taken (e.source, e.sourceId) (fun r => some r.licenseId) (some e.licenseId) = false ∧
      (s.licenses.get e.licenseId).isSome := by
  obtain ⟨t, ht, h⟩ := bind_ok h
  obtain ⟨hbad, hi⟩ := insertChecked_ok ht
  have hone := firstBad_none hbad (_, _) (.head _)
  have hlicense := firstBad_none hbad (_, _) (.tail _ (.head _))
  cases h
  exact ⟨t, hi, rfl, hone, by simpa using hlicense⟩

theorem insertRevocation_ok {r : ExternalRevocation} (h : insertRevocation r s = .ok s') :
    ∃ t, s.revocations.insert r = some t ∧ s' = { s with revocations := t } ∧
      (s.licenses.get r.licenseId).isSome := by
  obtain ⟨t, ht, h⟩ := bind_ok h
  obtain ⟨hbad, hi⟩ := insertChecked_ok ht
  have hlicense := firstBad_none hbad (_, _) (.tail _ (.head _))
  cases h
  exact ⟨t, hi, rfl, by simpa using hlicense⟩

theorem insertChallenge_ok (h : insertChallenge x s = .ok s') :
    ∃ t, s.challenges.insert x = some t ∧ s' = { s with challenges := t } := by
  obtain ⟨t, ht, h⟩ := bind_ok h
  obtain ⟨-, hi⟩ := insertChecked_ok ht
  cases h
  exact ⟨t, hi, rfl⟩

theorem insertRequest_ok {r : ActivationRequest} (h : insertRequest r s = .ok s') :
    ∃ t, s.requests.insert r = some t ∧ s' = { s with requests := t } := by
  obtain ⟨t, ht, h⟩ := bind_ok h
  obtain ⟨-, hi⟩ := insertChecked_ok ht
  cases h
  exact ⟨t, hi, rfl⟩

theorem insertActivation_ok (h : insertActivation a s = .ok s') :
    ∃ t, s.activations.insert a = some t ∧ s' = { s with activations := t } ∧ activationIdTaken s a = false := by
  obtain ⟨t, ht, h⟩ := bind_ok h
  obtain ⟨hbad, hi⟩ := insertChecked_ok ht
  have hids := firstBad_none hbad (_, _) (.head _)
  cases h
  exact ⟨t, hi, rfl, hids⟩

theorem updateActivation_ok (h : updateActivation a s = .ok s') :
    activationIdTaken s a = false ∧
      s' = { s with activations := s.activations.modify (a.licenseId, a.deviceId) a.renew Activation.renew_key } := by
  unfold updateActivation at h
  split at h
  · cases h
  · rename_i hids
    cases h
    exact ⟨by simpa using hids, rfl⟩

/-! Licenses and gifts -/

theorem createLicense_ok {expiresAt : Expiry} {r : LicenseSummary}
    (h : createLicense c licenseId edition majorVersion seatLimit expiresAt checkInDays s = .ok (s', r)) :
    Changes k s.core s'.core := by
  unfold createLicense at h
  split at h
  · cases h
  · split at h
    · cases h
    · rename_i s₁ h₁
      obtain ⟨t, hi, rfl, hseats⟩ := insertLicense_ok h₁
      cases h
      exact .single (.license _ _ t hseats rfl hi)

theorem checkSecret_ok (h : checkSecret secret = .ok u) : secret.toList.length = 32 := by
  unfold checkSecret at h
  split at h
  · cases h
  · exact not_not.mp ‹_›

theorem createGift_ok
    (h : createGift k c edition majorVersion seatLimit checkInDays giftId licenseId secret s = .ok (s', g, secret')) :
    ∃ tl tg, s'.core = { s.core with licenses := tl, gifts := tg } ∧ s.gifts.insert g = some tg ∧
      secret' = secret ∧ secret.toList.length = 32 ∧ g.giftId = giftId ∧ g.secretDigest = k.sha256 (.text secret) ∧
      Changes k s.core s'.core := by
  unfold createGift at h
  split at h
  · cases h
  · obtain ⟨u, hsecret, h⟩ := bind_ok h
    obtain ⟨s₁, h₁, h⟩ := bind_ok h
    obtain ⟨tl, hl, rfl, hseats⟩ := insertLicense_ok h₁
    obtain ⟨s₂, h₂, h⟩ := bind_ok h
    obtain ⟨tg, hg, rfl, hone, hlicense⟩ := insertGift_ok h₂
    cases h
    refine ⟨tl, tg, rfl, hg, rfl, checkSecret_ok hsecret, rfl, rfl, ?_⟩
    have hlic : Change k s.core { s.core with licenses := tl } := .license _ _ tl hseats rfl hl
    exact .tail (.single hlic) (.gift _ _ tg rfl hone hlicense hg)

/-- A rotated gift: the next generation, the digest of the new secret, and every
challenge of the license consumed. -/
theorem recoverGift_ok (h : recoverGift k c giftId secret s = .ok (s', g, secret')) :
    ∃ row, s.gifts.get row.giftId = some row ∧ row.status = .active ∧ secret' = secret ∧ secret.toList.length = 32 ∧
      g = row.rotate (k.sha256 (.text secret)) (row.secretGeneration + 1) (c.clk 0) ∧
      s'.core = { s.core with
        gifts := s.gifts.modify row.giftId (Gift.rotate (k.sha256 (.text secret)) (row.secretGeneration + 1) (c.clk 0))
          Gift.rotate_key,
        challenges := s.challenges.update (fun x => decide (x.licenseId = row.licenseId)) (Challenge.consume (c.clk 0))
          Challenge.consume_key } := by
  unfold recoverGift at h
  split at h
  · cases h
  · rename_i id hid
    obtain ⟨u, hsecret, h⟩ := bind_ok h
    split at h
    · cases h
    · rename_i row hrow
      split at h
      · cases h
      · rename_i hactive
        have hkey := get_key hrow
        subst hkey
        cases h
        exact ⟨row, hrow, not_not.mp hactive, rfl, checkSecret_ok hsecret, rfl, rfl⟩

theorem recoverGift_changes
    (h : recoverGift k c giftId secret s = .ok (s', g, secret')) : Changes k s.core s'.core := by
  obtain ⟨row, hrow, hactive, -, -, -, hcore⟩ := recoverGift_ok h
  rw [hcore]
  exact .single (.rotate s.core row _ (c.clk 0) hrow hactive)

variable {now : Time} {key deviceId digest : String} {identity : Identity} {row : Challenge}

theorem get_revoke {t : Licenses} {id : String}
    (h : (t.modify id (License.revoke now) License.revoke_key).get id = some l) : l.revokedAt.isSome := by
  rw [get_modify, if_pos rfl] at h
  obtain ⟨l₀, -, rfl⟩ := Option.map_eq_some_iff.mp h
  rfl

/-- A revoked gift; a second call changes nothing. -/
theorem revokeGift_ok (h : revokeGift c giftId s = .ok (s', u)) :
    ∃ row, normalizeUuid giftId = some row.giftId ∧ s.gifts.get row.giftId = some row ∧
      (row.status = .revoked ∧ s' = s ∨ row.status = .active ∧
        s'.core = { (revokeLicense row.licenseId (c.clk 0) s).core with
          gifts := s.gifts.modify row.giftId (Gift.revoke (c.clk 0)) Gift.revoke_key }) := by
  unfold revokeGift at h
  split at h
  · cases h
  · rename_i id hid
    dsimp only at h
    split at h
    · cases h
    · rename_i row hrow
      have hkey := get_key hrow
      subst hkey
      refine ⟨row, hid, hrow, ?_⟩
      split at h
      · rename_i hactive
        cases h
        exact .inr ⟨hactive, rfl⟩
      · rename_i hactive
        cases h
        refine .inl ⟨?_, rfl⟩
        cases hs : row.status
        · exact absurd hs hactive
        · rfl

theorem revokeGift_changes (h : revokeGift c giftId s = .ok (s', u)) :
    Changes k s.core s'.core := by
  obtain ⟨row, -, hrow, ⟨-, rfl⟩ | ⟨-, hcore⟩⟩ := revokeGift_ok h
  · exact .refl
  · rw [hcore]
    have hrev : Change k s.core (revokeLicense row.licenseId (c.clk 0) s).core := .revoke _ row.licenseId (c.clk 0)
    exact .tail (.single hrev) (.closeGift _ row (c.clk 0) hrow (fun _ hl => get_revoke hl))

/-! Challenges -/

theorem issueChallenge_ok (h : issueChallenge x s = .ok (s', r)) :
    ∃ t, (supersedeChallenges x.licenseId x.deviceId x.issuedAt s).challenges.insert x = some t ∧
      s'.core = { s.core with challenges := t } ∧ r.challengeId = x.challengeId := by
  obtain ⟨s₁, h₁, h⟩ := bind_ok h
  obtain ⟨t, ht, rfl⟩ := insertChallenge_ok h₁
  cases h
  exact ⟨t, ht, rfl, rfl⟩

theorem issueChallenge_changes (hopen : x.consumedAt = none ∧ x.certificate = none)
    (hdevice : k.deviceIdentifier x.devicePublicKey = .ok x.deviceId)
    (hgift : x.flowKind = some .gift → ∃ g, s.gifts.get g.giftId = some g ∧ g.licenseId = x.licenseId ∧
      x.entitlementGeneration = some g.secretGeneration) (h : issueChallenge x s = .ok (s', r)) : Changes k s.core s'.core := by
  obtain ⟨t, ht, hcore, -⟩ := issueChallenge_ok h
  rw [hcore]
  have hold : Change k s.core (supersedeChallenges x.licenseId x.deviceId x.issuedAt s).core := .supersede _ _ _ _
  exact .tail (.single hold) (.challenge _ x t hopen hdevice hgift ht)

/-- A gift-flow challenge: the gift is active, and the secret has its digest. -/
theorem issueGiftClaimChallenge_ok
    (h : issueGiftClaimChallenge k c giftId secret key ttl nonce challengeId s = .ok (s', r)) :
    ∃ row deviceId x, s.gifts.get giftId = some row ∧ row.status = .active ∧
      row.stored = k.sha256 (.text secret) ∧
      matchesFixed "" 32 isUrlSafe secret = true ∧
      k.deviceIdentifier key = .ok deviceId ∧
      x = { challengeId, licenseId := row.licenseId, deviceId, devicePublicKey := key, nonce, issuedAt := c.clk 0,
            expiresAt := c.clk 0 + seconds (giftTtl ttl), consumedAt := none, requestDigest := none, certificate := none,
            flowKind := some .gift, entitlementGeneration := some row.secretGeneration } ∧
      issueChallenge x s = .ok (s', r) := by
  unfold issueGiftClaimChallenge at h
  split at h
  · cases h
  · rename_i hshape
    simp only [Bool.or_eq_true, Bool.not_eq_true', not_or, Bool.not_eq_false] at hshape
    obtain ⟨deviceId, hdevice, h⟩ := bind_ok h
    split at h
    · cases h
    · rename_i row hrow
      dsimp only at h
      split at h
      · cases h
      · rename_i hgood
        rw [not_or, not_not, not_not] at hgood
        exact ⟨row, deviceId, _, hrow, hgood.1, hgood.2, hshape.2, hdevice, rfl, h⟩

theorem issueActivationChallenge_ok
    (h : issueActivationChallenge k c licenseId key ttl nonce challengeId s = .ok (s', r)) :
    ∃ lic deviceId x, s.licenses.get licenseId = some lic ∧ lic.revokedAt = none ∧ k.deviceIdentifier key = .ok deviceId ∧
      x = { challengeId, licenseId, deviceId, devicePublicKey := key, nonce, issuedAt := c.clk 0,
            expiresAt := c.clk 0 + seconds ttl, consumedAt := none, requestDigest := none, certificate := none,
            flowKind := some .payment, entitlementGeneration := none } ∧
      issueChallenge x s = .ok (s', r) := by
  obtain ⟨deviceId, hdevice, h⟩ := bind_ok h
  split at h
  · cases h
  · rename_i lic hlic
    dsimp only at h
    split at h
    · cases h
    · rename_i hlive
      exact ⟨lic, deviceId, _, hlic, by simpa using hlive, hdevice, rfl, h⟩

/-! Payment entitlements -/

/-- The fields of a new entitlement that `create_external_entitlement` inserts. -/
def newEntitlement (a : EntitlementRequest) (identity : Identity) (licenseId signature : String) (issued : Time) :
    ExternalEntitlement :=
  ⟨a.source, a.sourceId, licenseId, issued, some a.payloadDigest,
    { storedIdentity identity with authorityId := some a.authorityId }, some signature⟩

def entitlementPayload (a : EntitlementRequest) (identity : Identity) (licenseId receipt : String) : List (String × Value) :=
  [("authority_id", .str a.authorityId), ("delivery_receipt", .str receipt), ("license_id", .str licenseId),
   ("payload_digest", .str a.payloadDigest), ("signer_identity", .identity identity),
   ("source", .str a.source), ("source_id", .str a.sourceId)]

theorem acceptedSignerIdentity_ok {i : Identity} (h : acceptedSignerIdentity k c identity = .ok i) :
    identity = i ∧ i = c.self.ceremony.identity ∧ assertSignerState k c.self.ceremony c.handshake = .ok () := by
  obtain ⟨e, he, h⟩ := bind_ok h
  obtain ⟨u, hu, he⟩ := bind_ok he
  cases he
  split at h
  · cases h
  · rename_i heq
    cases h
    exact ⟨not_not.mp heq, rfl, hu⟩

/-- The replay of an entitlement, or its creation. -/
theorem createExternalEntitlement_ok {a : EntitlementRequest} {r : EntitlementResponse}
    (h : createExternalEntitlement k c a licenseId s = .ok (s', r)) :
    a.authorityId = c.self.ceremony.authorityId ∧ a.signerIdentity = c.self.ceremony.identity ∧
    ((∃ e l signature, priorEntitlement s a.source a.sourceId = some (e, l) ∧ e.payloadDigest = some a.payloadDigest ∧
        e.signer = storedIdentity a.signerIdentity ∧ e.ackSignature = some signature ∧ s' = s ∧
        r = ⟨l.licenseId, l.edition, l.majorVersion, l.seatLimit,
          deliveryReceipt k a.signerIdentity a.source a.sourceId a.payloadDigest l.licenseId, a.authorityId,
          a.signerIdentity, signature⟩) ∨
      (∃ tl te signature, priorEntitlement s a.source a.sourceId = none ∧
        s.licenses.insert ⟨licenseId, a.edition, a.majorVersion, a.seatLimit, c.clk 0, .never, none, 30⟩ = some tl ∧
        signedAck k c { s with licenses := tl } .entitlement (entitlementPayload a a.signerIdentity licenseId
          (deliveryReceipt k a.signerIdentity a.source a.sourceId a.payloadDigest licenseId)) = .ok signature ∧
        s.entitlements.insert (newEntitlement a a.signerIdentity licenseId signature (c.clk 0)) = some te ∧
        s'.core = { s.core with licenses := tl, entitlements := te } ∧
        r = ⟨licenseId, a.edition, a.majorVersion, a.seatLimit,
          deliveryReceipt k a.signerIdentity a.source a.sourceId a.payloadDigest licenseId, a.authorityId,
          a.signerIdentity, signature⟩ ∧ Changes k s.core s'.core)) := by
  unfold createExternalEntitlement at h
  split at h
  · cases h
  · rename_i hauthority
    obtain ⟨identity, hid, h⟩ := bind_ok h
    obtain ⟨hi, hself, -⟩ := acceptedSignerIdentity_ok hid
    subst hi
    refine ⟨not_not.mp hauthority, hself, ?_⟩
    split at h
    · cases h
    · split at h
      · cases h
      · split at h
        · rename_i e l hprior
          split at h
          · cases h
          · rename_i hsame
            rw [not_or, not_not, not_not] at hsame
            split at h
            · cases h
            · rename_i signature hsig
              cases h
              exact .inl ⟨e, l, signature, hprior, hsame.1, hsame.2, hsig, rfl, rfl⟩
        · rename_i hprior
          obtain ⟨s₁, h₁, h⟩ := bind_ok h
          obtain ⟨tl, hl, rfl, hseats⟩ := insertLicense_ok h₁
          obtain ⟨signature, hsig, h⟩ := bind_ok h
          obtain ⟨s₂, h₂, h⟩ := bind_ok h
          obtain ⟨te, he, rfl, hone, hlicense⟩ := insertEntitlement_ok h₂
          cases h
          refine .inr ⟨tl, te, signature, hprior, hl, hsig, he, rfl, rfl, ?_⟩
          have hlic : Change k s.core { s.core with licenses := tl } := .license _ _ tl hseats rfl hl
          exact .tail (.single hlic) (.entitlement _ _ te hone hlicense he)

theorem createExternalEntitlement_changes {a : EntitlementRequest} {r : EntitlementResponse}
    (h : createExternalEntitlement k c a licenseId s = .ok (s', r)) : Changes k s.core s'.core := by
  obtain ⟨-, -, ⟨-, -, -, -, -, -, -, rfl, -⟩ | ⟨-, -, -, -, -, -, -, -, -, hch⟩⟩ := createExternalEntitlement_ok h
  · exact .refl
  · exact hch

/-! Activation -/

/-- A grant: the license has a seat for the device. -/
theorem grant_ok {lic : License} {nonceHash proofHash : String}
    (hlic : s.licenses.get lic.licenseId = some lic) (hlive : lic.revokedAt = none)
    (hdigest : digest = requestDigest k lic.licenseId deviceId nonceHash proofHash)
    (h : grant k c lic deviceId key activationId digest nonceHash proofHash now s = .ok (s', cert)) :
    ∃ r x, Granted k s.core s'.core lic r x ∧ x.certificate = cert ∧ x.deviceId = deviceId ∧ x.activationId = activationId ∧
      r.requestDigest = digest ∧ r.nonceDigest = nonceHash ∧ r.proofDigest = proofHash ∧ x.devicePublicKey = key := by
  unfold grant at h
  dsimp only at h
  split at h
  · cases h
  · rename_i hseat
    obtain ⟨signature, hsig, h⟩ := bind_ok h
    split at h
    · cases h
    · rename_i s₁ h₁
      obtain ⟨tr, hr, rfl⟩ := insertRequest_ok h₁
      -- the certificate is named once, so that the rows below can be written down
      generalize hcert : ({ unsignedCertificate lic deviceId key activationId now with
        signature := base64 signature } : Certificate) = signed at h hr
      have hfields : signed.licenseId = lic.licenseId ∧ signed.deviceId = deviceId ∧ signed.activationId = activationId := by
        subst hcert
        exact ⟨rfl, rfl, rfl⟩
      have hfree : (∃ old, s.activations.get (lic.licenseId, deviceId) = some old ∧ old.deactivatedAt = none) ∨
          activeSeats s.activations lic.licenseId < lic.seatLimit := by
        simp only [Bool.and_eq_true, decide_eq_true_eq, not_and_or, not_le] at hseat
        refine hseat.imp ?_ id
        intro hold
        cases hg : s.activations.get (lic.licenseId, deviceId) with
        | none => simp [hg] at hold
        | some old => exact ⟨old, rfl, by simpa [hg] using hold⟩
      split at h
      · rename_i hold
        obtain ⟨s₂, h₂, h⟩ := bind_ok h
        obtain ⟨hids, rfl⟩ := updateActivation_ok h₂
        cases h
        refine ⟨⟨digest, lic.licenseId, deviceId, nonceHash, proofHash, now, .active, some activationId, some cert⟩,
          ⟨activationId, lic.licenseId, deviceId, key, now, none, cert, digest⟩, ?_, rfl, rfl, rfl, rfl, rfl, rfl, rfl⟩
        exact { license := hlic, live := hlive, seat := hfree, row := ⟨rfl, rfl, rfl⟩, certificate := hfields,
                request := ⟨rfl, rfl, rfl, rfl, rfl, hdigest⟩, ids := hids, requests := hr,
                activations := .inr ⟨Option.isSome_iff_exists.mp hold, rfl⟩, rest := rfl }
      · obtain ⟨s₂, h₂, h⟩ := bind_ok h
        obtain ⟨ta, ha, rfl, hids⟩ := insertActivation_ok h₂
        cases h
        refine ⟨⟨digest, lic.licenseId, deviceId, nonceHash, proofHash, now, .active, some activationId, some cert⟩,
          ⟨activationId, lic.licenseId, deviceId, key, now, none, cert, digest⟩, ?_, rfl, rfl, rfl, rfl, rfl, rfl, rfl⟩
        exact { license := hlic, live := hlive, seat := hfree, row := ⟨rfl, rfl, rfl⟩, certificate := hfields,
                request := ⟨rfl, rfl, rfl, rfl, rfl, hdigest⟩, ids := hids, requests := hr,
                activations := .inl ha, rest := rfl }

/-- The digest `_activate_in_transaction` looks a request up by. -/
def presentedDigest (k : Crypto) (licenseId deviceId nonce proof : String) : String :=
  requestDigest k licenseId deviceId (k.sha256 (.text nonce)) (k.sha256 (.text proof))

/-- How an activation that returns a certificate came by it. -/
inductive Obtained (k : Crypto) (s s' : Store) (licenseId deviceId key digest activationId : String) (cert : Certificate) :
    Prop where
  | retrieved (r : ActivationRequest) (hr : s.requests.get digest = some r) (hactive : r.status = .active)
      (hcert : r.certificate = some cert) (hcore : s'.core = s.core)
  | granted (lic : License) (r : ActivationRequest) (x : Activation) (hnew : s.requests.get digest = none)
      (h : Granted k s.core s'.core lic r x) (hcert : x.certificate = cert) (hlicense : x.licenseId = licenseId)
      (hdevice : x.deviceId = deviceId) (hdigest : r.requestDigest = digest) (hid : x.activationId = activationId)
      (hkey : x.devicePublicKey = key)

theorem activateInTransaction_ok
    (h : activateInTransaction k c licenseId key nonce proof activationId now s = .ok (s', cert)) :
    ∃ deviceId lic, k.deviceIdentifier key = .ok deviceId ∧ s.licenses.get licenseId = some lic ∧ lic.revokedAt = none ∧
      Obtained k s s' licenseId deviceId key (presentedDigest k licenseId deviceId nonce proof) activationId cert := by
  unfold activateInTransaction at h
  obtain ⟨deviceId, hdevice, h⟩ := bind_ok h
  split at h
  · cases h
  · split at h
    · cases h
    · split at h
      · cases h
      · rename_i lic hlic
        split at h
        · cases h
        · rename_i hlive
          have hlive : lic.revokedAt = none := by simpa using hlive
          obtain ⟨b, -, h⟩ := bind_ok h
          refine ⟨deviceId, lic, hdevice, hlic, hlive, ?_⟩
          split at h
          · cases h
          · dsimp only at h
            split at h
            · rename_i hnew
              have hkey := get_key hlic
              subst hkey
              obtain ⟨r, x, hg, hcert, hdev, hid, hdig, -, -, hkey⟩ := grant_ok hlic hlive rfl h
              exact .granted lic r x hnew hg hcert hg.row.1 hdev hdig hid hkey
            · rename_i request hreq
              split at h
              · rename_i hactive hcert
                cases h
                exact .retrieved request hreq hactive hcert rfl
              · cases h

theorem Obtained.changes
    (h : Obtained k s s' licenseId deviceId key digest activationId cert) : Changes k s.core s'.core := by
  cases h with
  | retrieved r hr hactive hcert hcore => exact hcore ▸ .refl
  | granted lic r x hnew hg => exact .single (.grant _ _ lic r x hg)

theorem checkFlow_ok (h : checkFlow expected row s = .ok u) :
    row.flowKind = some expected ∧
      (expected = .gift → ∃ g, giftOf s row.licenseId = some g ∧ g.status = .active ∧
        row.entitlementGeneration = some g.secretGeneration) ∧
      (expected = .payment → row.entitlementGeneration = none) := by
  unfold checkFlow at h
  split at h
  · cases h
  · rename_i hkind
    refine ⟨not_not.mp hkind, ?_, ?_⟩
    · rintro rfl
      dsimp only at h
      split at h
      · cases h
      · rename_i g hg
        split at h
        · cases h
        · rename_i hgood
          rw [not_or, not_not, not_not] at hgood
          exact ⟨g, hg, hgood.1, hgood.2⟩
    · rintro rfl
      dsimp only at h
      split at h
      · cases h
      · rename_i hgen
        simpa using hgen

theorem activeRequest_some {nonceDigest proofDigest : String} {r : ActivationRequest}
    (h : activeRequest row nonceDigest proofDigest s = some (r, a)) :
    s.requests.get r.requestDigest = some r ∧ r.licenseId = row.licenseId ∧ r.deviceId = row.deviceId ∧
      r.status = .active ∧ s.activations.get (row.licenseId, row.deviceId) = some a ∧ a.deactivatedAt = none ∧
      a.nonceDigest = r.requestDigest := by
  unfold activeRequest at h
  obtain ⟨r', hmem, h⟩ := List.exists_of_findSome?_eq_some h
  split at h
  · rename_i hrow
    split at h
    · cases h
    · rename_i a' ha
      split at h
      · rename_i hgood
        cases h
        obtain ⟨hl, hd, -, -, hactive⟩ := hrow
        rw [hl, hd] at ha
        exact ⟨get_of_mem hmem, hl, hd, hactive, ha, hgood.2.2, hgood.2.1⟩
      · cases h
  · cases h

theorem replayChallenge_ok (h : replayChallenge k row proof s = .ok cert) :
    row.certificate = some cert ∧ cert.licenseId = row.licenseId ∧ cert.deviceId = row.deviceId ∧
      ∃ a, s.activations.get (row.licenseId, row.deviceId) = some a ∧ a.deactivatedAt = none ∧ a.certificate = cert := by
  unfold replayChallenge at h
  dsimp only at h
  split at h
  · rename_i r a cert' hreq hcert
    split at h
    · rename_i hgood
      cases h
      obtain ⟨-, -, -, -, ha, hlive, -⟩ := activeRequest_some hreq
      exact ⟨hcert, hgood.2.2.2.2.1, hgood.2.2.2.2.2.1, a, ha, hlive, hgood.2.2.1⟩
    · cases h
  · cases h

/-- A completed challenge: its flow, a license that is not revoked, and either the
replay of a consumed challenge or the first completion of an open one before it expires. -/
theorem activateChallenge_ok
    (h : activateChallenge k c challengeId proof expected activationId s = .ok (s', cert)) :
    ∃ row lic, s.challenges.get challengeId = some row ∧ checkFlow expected row s = .ok () ∧
      s.licenses.get row.licenseId = some lic ∧ lic.revokedAt = none ∧
      ((row.consumedAt.isSome ∧ s' = s ∧ replayChallenge k row proof s = .ok cert) ∨
        (row.consumedAt = none ∧ c.clk 0 < row.expiresAt ∧ ∃ s₁,
          activateInTransaction k c row.licenseId row.devicePublicKey row.nonce proof activationId (c.clk 0) s =
            .ok (s₁, cert) ∧
          s' = completeChallenge challengeId (c.clk 0) (k.sha256 (.text proof)) cert s₁)) := by
  unfold activateChallenge at h
  split at h
  · cases h
  · rename_i row hrow
    obtain ⟨u, hflow, h⟩ := bind_ok h
    split at h
    · cases h
    · rename_i lic hlic
      split at h
      · cases h
      · rename_i hlive
        refine ⟨row, lic, hrow, hflow, hlic, by simpa using hlive, ?_⟩
        split at h
        · rename_i hconsumed
          obtain ⟨cert', hreplay, h⟩ := bind_ok h
          cases h
          exact .inl ⟨hconsumed, rfl, hreplay⟩
        · rename_i hopen
          dsimp only at h
          split at h
          · cases h
          · rename_i hfresh
            obtain ⟨⟨s₁, cert'⟩, h₁, h⟩ := bind_ok h
            cases h
            exact .inr ⟨by simpa using hopen, not_le.mp hfresh, s₁, h₁, rfl⟩

theorem Obtained.challenges
    (h : Obtained k s s' licenseId deviceId key digest activationId cert) : s'.challenges = s.challenges := by
  cases h with
  | retrieved r hr hactive hcert hcore => exact congrArg Core.challenges hcore
  | granted lic r x hnew hg =>
    have := congrArg Core.challenges hg.rest
    exact this

theorem activateChallenge_changes
    (h : activateChallenge k c challengeId proof expected activationId s = .ok (s', cert)) :
    Changes k s.core s'.core := by
  obtain ⟨row, lic, hrow, -, -, -, ⟨-, rfl, -⟩ | ⟨hopen, -, s₁, h₁, rfl⟩⟩ := activateChallenge_ok h
  · exact .refl
  · obtain ⟨deviceId, -, -, -, -, hobt⟩ := activateInTransaction_ok h₁
    have hkey := get_key hrow
    subst hkey
    have hrow₁ : s₁.challenges.get row.challengeId = some row := by rw [hobt.challenges]; exact hrow
    exact .tail hobt.changes (.complete _ row (c.clk 0) _ cert hrow₁ hopen)

/-! Revocation -/

def newRevocation (a : RevocationRequest) (identity : Identity) (licenseId revokedAt digest receipt signature : String) :
    ExternalRevocation :=
  { source := a.source, sourceId := a.sourceId, payloadDigest := a.payloadDigest, licenseId,
    action := a.action, reason := a.reason, paymentProof := a.paymentProof, txHash := a.txHash,
    eventCreatedAt := a.createdAt, revokedAt, requestDigest := digest, receipt,
    signer := { storedIdentity identity with authorityId := some a.authorityId }, ackSignature := some signature }

def revocationPayload (a : RevocationRequest) (identity : Identity) (licenseId revokedAt digest receipt : String) :
    List (String × Value) :=
  [("authority_id", .str a.authorityId), ("license_id", .str licenseId), ("request_digest", .str digest),
   ("revocation_receipt", .str receipt), ("revoked_at", .str revokedAt), ("signer_identity", .identity identity),
   ("source", .str a.source), ("source_id", .str a.sourceId)]

theorem replayRevocation_ok {a : RevocationRequest} {prior : ExternalRevocation}
    {r : RevocationResponse} (h : replayRevocation identity a digest prior = .ok r) :
    prior.requestDigest = digest ∧ ∃ signature, prior.ackSignature = some signature ∧
      r = ⟨prior.licenseId, prior.revokedAt, prior.receipt, a.authorityId, identity, signature⟩ := by
  unfold replayRevocation at h
  split at h
  · cases h
  · rename_i hdigest
    split at h
    · cases h
    · split at h
      · cases h
      · rename_i signature hsig
        cases h
        exact ⟨not_not.mp hdigest, signature, hsig, rfl⟩

/-- The replay of a revocation, or the revocation itself. -/
theorem revokeExternalEntitlement_ok {a : RevocationRequest} {r : RevocationResponse}
    (h : revokeExternalEntitlement k c a s = .ok (s', r)) :
    a.authorityId = c.self.ceremony.authorityId ∧ a.signerIdentity = c.self.ceremony.identity ∧
    ∃ row, s.entitlements.get (a.source, a.sourceId) = some row ∧ row.licenseId = a.licenseId ∧
      row.payloadDigest = some a.payloadDigest ∧
      ((∃ prior, s.revocations.get (a.source, a.sourceId) = some prior ∧ s' = s ∧ r.licenseId = prior.licenseId) ∨
        (∃ signature tv, s.revocations.get (a.source, a.sourceId) = none ∧
          checkFreshness (c.clk 0) a.createdAt = .ok () ∧
          let digest := revocationRequestDigest k a.signerIdentity a
          let receipt := revocationReceipt k a.authorityId digest a.licenseId (utc (c.clk 0))
          signedAck k c s .revocation (revocationPayload a a.signerIdentity a.licenseId (utc (c.clk 0)) digest receipt) =
            .ok signature ∧
          s.revocations.insert
            (newRevocation a a.signerIdentity a.licenseId (utc (c.clk 0)) digest receipt signature) = some tv ∧
          s'.core = { (revokeLicense a.licenseId (c.clk 0) s).core with revocations := tv } ∧
          r = ⟨a.licenseId, utc (c.clk 0), receipt, a.authorityId, a.signerIdentity, signature⟩ ∧
          Changes k s.core s'.core)) := by
  unfold revokeExternalEntitlement at h
  split at h
  · cases h
  · rename_i hauthority
    obtain ⟨identity, hid, h⟩ := bind_ok h
    obtain ⟨hi, hself, -⟩ := acceptedSignerIdentity_ok hid
    subst hi
    obtain ⟨u, hcheck, h⟩ := bind_ok h
    refine ⟨not_not.mp hauthority, hself, ?_⟩
    dsimp only at h
    split at h
    · cases h
    · rename_i row hrow
      split at h
      · cases h
      · rename_i hsame
        rw [not_or, not_not, not_not] at hsame
        refine ⟨row, hrow, hsame.2, hsame.1, ?_⟩
        rw [hsame.2] at h
        split at h
        · rename_i prior hprior
          obtain ⟨r', hreplay, h⟩ := bind_ok h
          cases h
          obtain ⟨-, signature, -, rfl⟩ := replayRevocation_ok hreplay
          exact .inl ⟨prior, hprior, rfl, rfl⟩
        · rename_i hprior
          obtain ⟨u₁, hfresh, h⟩ := bind_ok h
          obtain ⟨signature, hsig, h⟩ := bind_ok h
          obtain ⟨s₁, h₁, h⟩ := bind_ok h
          obtain ⟨tv, hv, rfl, hlicense⟩ := insertRevocation_ok h₁
          cases h
          refine .inr ⟨signature, tv, hprior, hfresh, hsig, hv, rfl, rfl, ?_⟩
          have hrev : Change k s.core (revokeLicense a.licenseId (c.clk 0) s).core := .revoke _ a.licenseId (c.clk 0)
          obtain ⟨l, hl⟩ := Option.isSome_iff_exists.mp hlicense
          exact .tail (.single hrev) (.revocation _ _ tv ⟨l, hl, get_revoke hl⟩ hv)

theorem revokeExternalEntitlement_changes {a : RevocationRequest} {r : RevocationResponse}
    (h : revokeExternalEntitlement k c a s = .ok (s', r)) : Changes k s.core s'.core := by
  obtain ⟨-, -, row, -, -, -, ⟨-, -, rfl, -⟩ | ⟨-, -, -, -, -, -, -, -, hch⟩⟩ := revokeExternalEntitlement_ok h
  · exact .refl
  · exact hch

theorem deactivate_changes {b : Bool} (h : deactivate c licenseId deviceId s = .ok (s', b)) :
    Changes k s.core s'.core := by
  unfold deactivate at h
  split at h
  · cases h
    exact .refl
  · split at h
    · cases h
      exact .refl
    · cases h
      exact .single (.deactivate _ licenseId deviceId (c.clk 0))

theorem deactivateGiftDevice_changes {b : Bool}
    (h : deactivateGiftDevice c giftId deviceId s = .ok (s', b)) : Changes k s.core s'.core := by
  unfold deactivateGiftDevice at h
  split at h
  · cases h
  · exact deactivate_changes h

theorem pinCeremony_core {ceremony : Ceremony} (h : pinCeremony ceremony now s = .ok (s', u)) :
    s'.core = s.core := by
  obtain ⟨b, -, h⟩ := bind_ok h
  split at h
  · obtain ⟨t, -, h⟩ := bind_ok h
    cases h
    rfl
  · cases h
    rfl

/-! One call -/

theorem answer_changes {x : Except Err (Store × α)}
    (h : ∀ s' r, x = .ok (s', r) → Changes k s.core s'.core) : Changes k s.core (answer f s x).1.core := by
  cases x with
  | error => exact .refl
  | ok p => exact h p.1 p.2 rfl

theorem answer_ok {x : Except Err (Store × α)} {r : Reply} (h : (answer f s x).2 = r)
    (hr : ∀ err, r ≠ .raised err) : ∃ a, x = .ok ((answer f s x).1, a) ∧ f a = r := by
  cases x with
  | error e => exact absurd h.symm (hr e)
  | ok p => exact ⟨p.2, rfl, h⟩

theorem answer_raised {x : Except Err (Store × α)} (h : ∀ s' a, x ≠ .ok (s', a)) :
    ∃ err, answer f s x = (s, .raised err) := by
  cases x with
  | error err => exact ⟨err, rfl⟩
  | ok p => exact absurd rfl (h p.1 p.2)

theorem answer_read (x : Except Err α) : (answer f s (x.map (fun a => (s, a)))).1 = s := by
  cases x <;> rfl

/-- What a call does to the tables is a list of changes. -/
theorem step_changes (k : Crypto) (s : Store) (e : Event) : Changes k s.core (step k s e).core := by
  obtain ⟨c, op⟩ := e
  cases op with
  | createLicense => exact answer_changes fun _ _ h => createLicense_ok h
  | createGift =>
    refine answer_changes fun s' r h => ?_
    obtain ⟨-, -, -, -, -, -, -, -, hch⟩ := createGift_ok h
    exact hch
  | recoverGift => exact answer_changes fun _ _ h => recoverGift_changes h
  | revokeGift => exact answer_changes fun _ _ h => revokeGift_changes h
  | issueGiftClaimChallenge =>
    refine answer_changes fun s' r h => ?_
    obtain ⟨row, deviceId, x, hrow, -, -, -, hdevice, rfl, h⟩ := issueGiftClaimChallenge_ok h
    have hkey := get_key hrow
    exact issueChallenge_changes ⟨rfl, rfl⟩ hdevice (fun _ => ⟨row, hkey ▸ hrow, rfl, rfl⟩) h
  | createExternalEntitlement => exact answer_changes fun _ _ h => createExternalEntitlement_changes h
  | readExternalEntitlementAcknowledgement =>
    show Changes k s.core (answer _ s _).1.core
    rw [answer_read]
  | issueActivationChallenge =>
    refine answer_changes fun s' r h => ?_
    obtain ⟨lic, deviceId, x, -, -, hdevice, rfl, h⟩ := issueActivationChallenge_ok h
    exact issueChallenge_changes ⟨rfl, rfl⟩ hdevice (fun hkind => by cases hkind) h
  | activateChallenge => exact answer_changes fun _ _ h => activateChallenge_changes h
  | activate =>
    refine answer_changes fun s' r h => ?_
    obtain ⟨deviceId, lic, -, -, -, hobt⟩ := activateInTransaction_ok h
    exact hobt.changes
  | revokeExternalEntitlement => exact answer_changes fun _ _ h => revokeExternalEntitlement_changes h
  | readExternalRevocationAcknowledgement =>
    show Changes k s.core (answer _ s _).1.core
    rw [answer_read]
  | deactivate => exact answer_changes fun _ _ h => deactivate_changes h
  | deactivateGiftDevice => exact answer_changes fun _ _ h => deactivateGiftDevice_changes h
  | pinCeremony =>
    refine answer_changes fun s' r h => ?_
    rw [pinCeremony_core h]

theorem Changes.keep {I : Core → Prop} (hI : ∀ a b, Change k a b → I a → I b) {a b : Core} (h : Changes k a b)
    (ha : I a) : I b := by
  induction h with
  | refl => exact ha
  | tail _ hc ih => exact hI _ _ hc ih

theorem Changes.relate (hrefl : ∀ a, R a a) (htrans : ∀ a b c, R a b → R b c → R a c)
    (hR : ∀ a b, Change k a b → R a b) {a b : Core} (h : Changes k a b) : R a b := by
  induction h with
  | refl => exact hrefl _
  | tail _ hc ih => exact htrans _ _ _ ih (hR _ _ hc)

theorem Reached.keep {I : Core → Prop} (h0 : I Store.empty.core) (hI : ∀ a b, Change k a b → I a → I b)
    (h : Reached k s) : I s.core :=
  h.invariant (fun s => I s.core) h0 (fun s e hs => (step_changes k s e).keep hI hs)

theorem run_relate (hrefl : ∀ a, R a a) (htrans : ∀ a b c, R a b → R b c → R a c)
    (hR : ∀ a b, Change k a b → R a b) (s : Store) (es : List Event) : R s.core (run (step k) s es).core := by
  induction es generalizing s with
  | nil => exact hrefl _
  | cons e es ih => exact htrans _ _ _ ((step_changes k s e).relate hrefl htrans hR) (ih (step k s e))

end GrowthMap.Authority
