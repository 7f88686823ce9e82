import GrowthMap.Authority.Effects

/- The payment entitlements of the Authority.

   One method adds a row to `external_entitlements` and none changes or deletes one, so
   what another client does leaves the rows of a source it does not write as they were.
   The two acknowledgements are read from the tables as they stand. -/
namespace GrowthMap.Authority

open Relational Runs
open Fallible (bind_ok)
open Payments (Identity Err EntitlementAck)

variable {k : Crypto} {c : Call} {s s' : Store}


/-! What becomes of the entitlements -/

theorem answer_entitlements {α : Type} {f : α → Reply} {x : Except Err (Store × α)}
    (h : ∀ s' r, x = .ok (s', r) → s'.entitlements = s.entitlements) :
    (answer f s x).1.entitlements = s.entitlements := by
  cases x with
  | error => rfl
  | ok p => exact h p.1 p.2 rfl

variable {licenseId : String} {deviceId source : String} {identity : Identity}

theorem Obtained.entitlements {key digest activationId : String} {cert : Certificate}
    (h : Obtained k s s' licenseId deviceId key digest activationId cert) : s'.entitlements = s.entitlements := by
  cases h with
  | retrieved r hr hactive hcert hcore => exact congrArg Core.entitlements hcore
  | granted lic r x hnew hg =>
    have := congrArg Core.entitlements hg.rest
    exact this

theorem issueChallenge_entitlements {x : Challenge} {r : ChallengeReply} (h : issueChallenge x s = .ok (s', r)) :
    s'.entitlements = s.entitlements := by
  obtain ⟨t, -, hcore, -⟩ := issueChallenge_ok h
  exact congrArg Core.entitlements hcore

theorem deactivate_entitlements {b : Bool}
    (h : deactivate c licenseId deviceId s = .ok (s', b)) : s'.entitlements = s.entitlements := by
  unfold deactivate at h
  split at h
  · cases h
    rfl
  · split at h <;> cases h <;> rfl

/-- A call leaves the entitlements alone, or it is a `create_external_entitlement` that
adds the one of its request. -/
theorem step_entitlements (k : Crypto) (s : Store) (e : Event) :
    (step k s e).entitlements = s.entitlements ∨
      ∃ a licenseId signature, e.op = .createExternalEntitlement a licenseId ∧
        s.entitlements.insert (newEntitlement a a.signerIdentity licenseId signature (e.call.clk 0)) =
          some (step k s e).entitlements := by
  obtain ⟨c, op⟩ := e
  cases op with
  | createLicense =>
    refine .inl (answer_entitlements fun s' r h => ?_)
    unfold createLicense at h
    split at h
    · cases h
    · split at h
      · cases h
      · rename_i s₁ h₁
        obtain ⟨t, -, rfl, -⟩ := insertLicense_ok h₁
        cases h
        rfl
  | createGift =>
    refine .inl (answer_entitlements fun s' r h => ?_)
    obtain ⟨tl, tg, hcore, -⟩ := createGift_ok h
    exact congrArg Core.entitlements hcore
  | recoverGift =>
    refine .inl (answer_entitlements fun s' r h => ?_)
    obtain ⟨row, -, -, -, -, -, hcore⟩ := recoverGift_ok h
    exact congrArg Core.entitlements hcore
  | revokeGift =>
    refine .inl (answer_entitlements fun s' r h => ?_)
    obtain ⟨row, -, -, ⟨-, rfl⟩ | ⟨-, hcore⟩⟩ := revokeGift_ok h
    · rfl
    · exact congrArg Core.entitlements hcore
  | issueGiftClaimChallenge =>
    refine .inl (answer_entitlements fun s' r h => ?_)
    obtain ⟨row, deviceId, x, -, -, -, -, -, rfl, h⟩ := issueGiftClaimChallenge_ok h
    exact issueChallenge_entitlements h
  | createExternalEntitlement a licenseId =>
    show (answer _ s _).1.entitlements = _ ∨ _
    cases hx : createExternalEntitlement k c a licenseId s with
    | error => exact .inl rfl
    | ok p =>
      obtain ⟨s', r⟩ := p
      obtain ⟨-, -, ⟨-, -, -, -, -, -, -, rfl, -⟩ | ⟨tl, te, signature, -, -, -, hi, hcore, -, -⟩⟩ := createExternalEntitlement_ok hx
      · exact .inl rfl
      · refine .inr ⟨a, licenseId, signature, rfl, ?_⟩
        have hte : s'.entitlements = te := congrArg Core.entitlements hcore
        show _ = some (answer _ s _).1.entitlements
        rw [hx, hi, ← hte]
        rfl
  | readExternalEntitlementAcknowledgement =>
    refine .inl ?_
    show (answer _ s _).1.entitlements = _
    rw [answer_read]
  | issueActivationChallenge =>
    refine .inl (answer_entitlements fun s' r h => ?_)
    obtain ⟨lic, deviceId, x, -, -, -, rfl, h⟩ := issueActivationChallenge_ok h
    exact issueChallenge_entitlements h
  | activateChallenge =>
    refine .inl (answer_entitlements fun s' r h => ?_)
    obtain ⟨row, lic, -, -, -, -, ⟨-, rfl, -⟩ | ⟨-, -, s₁, h₁, rfl⟩⟩ := activateChallenge_ok h
    · rfl
    · obtain ⟨deviceId, -, -, -, -, hobt⟩ := activateInTransaction_ok h₁
      exact hobt.entitlements
  | activate =>
    refine .inl (answer_entitlements fun s' r h => ?_)
    obtain ⟨deviceId, lic, -, -, -, hobt⟩ := activateInTransaction_ok h
    exact hobt.entitlements
  | revokeExternalEntitlement =>
    refine .inl (answer_entitlements fun s' r h => ?_)
    obtain ⟨-, -, row, -, -, -, ⟨-, -, rfl, -⟩ | ⟨-, tv, -, -, -, -, hcore, -⟩⟩ := revokeExternalEntitlement_ok h
    · rfl
    · exact congrArg Core.entitlements hcore
  | readExternalRevocationAcknowledgement =>
    refine .inl ?_
    show (answer _ s _).1.entitlements = _
    rw [answer_read]
  | deactivate => exact .inl (answer_entitlements fun _ _ h => deactivate_entitlements h)
  | deactivateGiftDevice =>
    refine .inl (answer_entitlements fun s' r h => ?_)
    unfold deactivateGiftDevice at h
    split at h
    · cases h
    · exact deactivate_entitlements h
  | pinCeremony =>
    refine .inl (answer_entitlements fun s' r h => ?_)
    exact congrArg Core.entitlements (pinCeremony_core h)

theorem answer_read_ok {α : Type} {f : α → Reply} {x : Except Err α} {r : Reply}
    (h : (answer f s (x.map (fun a => (s, a)))).2 = r) (hr : ∀ err, r ≠ .raised err) : ∃ a, x = .ok a ∧ f a = r := by
  cases x with
  | error e => exact absurd h.symm (hr e)
  | ok a => exact ⟨a, rfl, h⟩

theorem readExternalEntitlementAcknowledgement_ok {sourceId : String} {ack : EntitlementAck}
    (h : readExternalEntitlementAcknowledgement k c source sourceId identity s = .ok ack) :
    ∃ row, s.entitlements.get (source, sourceId) = some row ∧ ack.sourceId = row.sourceId ∧
      ack.licenseId = row.licenseId ∧ row.payloadDigest = some ack.payloadDigest := by
  obtain ⟨i, -, h⟩ := bind_ok h
  split at h
  · cases h
  · rename_i row hrow
    split at h
    · cases h
    · split at h
      · rename_i signature digest hsig hdigest
        split at h
        · cases h
        · cases h
          exact ⟨row, hrow, rfl, rfl, hdigest⟩
      · cases h
      · cases h

theorem readExternalRevocationAcknowledgement_ok {sourceId : String} {ack : RevocationReply}
    (h : readExternalRevocationAcknowledgement k c source sourceId identity s = .ok ack) :
    ∃ row, s.revocations.get (source, sourceId) = some row ∧ ack.licenseId = row.licenseId := by
  obtain ⟨i, -, h⟩ := bind_ok h
  split at h
  · cases h
  · rename_i row hrow
    split at h
    · cases h
    · split at h
      · cases h
      · split at h
        · cases h
        · cases h
          exact ⟨row, hrow, rfl⟩

end GrowthMap.Authority
