import GrowthMap.Authority.Seats

/- Gift secrets and challenges over whole runs.

   A challenge that is consumed without a certificate is dead, and a gift-flow challenge
   whose generation its gift has passed is retired: neither ever yields a certificate
   again. Superseding, rotating and revoking leave open challenges dead; rotating retires
   every gift-flow challenge there is. -/
namespace GrowthMap.Authority

open Relational Runs Table
open Payments (Time seconds Identity Value Doc Err matchesFixed)

variable {k : Crypto}

/-! Secrets -/

/-- SHA-256 of the 32 characters of a secret: 64 characters, and no two secrets share them. -/
structure SecretHash (k : Crypto) : Prop where
  length : ∀ a : String, a.toList.length = 32 → (k.sha256 (.text a)).toList.length = 64
  injective : ∀ a b : String, a.toList.length = 32 → b.toList.length = 32 → k.sha256 (.text a) = k.sha256 (.text b) → a = b

def issuedSecret (k : Crypto) (giftId : String) (s : Store) (e : Event) : Option String :=
  match reply k s e with
  | .gift g secret => if g.giftId = giftId then some secret else none
  | _ => none

/-- The secret most recently issued for the gift in a run from `s`. -/
def lastSecret (k : Crypto) (giftId : String) : Store → List Event → Option String
  | _, [] => none
  | s, e :: es => (lastSecret k giftId (step k s e) es).or (issuedSecret k giftId s e)

theorem lastSecret_snoc (giftId : String) (s : Store) (es : List Event) (e : Event) :
    lastSecret k giftId s (es ++ [e]) = (issuedSecret k giftId (run (step k) s es) e).or (lastSecret k giftId s es) := by
  induction es generalizing s with
  | nil => simp [lastSecret]
  | cons f es ih =>
    simp only [List.cons_append, lastSecret, ih, run_cons]
    rw [Option.or_assoc]

def Digested (k : Crypto) (g : Gift) (secret : String) : Prop :=
  g.secretDigest = k.sha256 (.text secret) ∧ secret.toList.length = 32

variable {giftId licenseId activationId challengeId : String} {s s' : Store} {e : Event} {g : Gift}
  {cert : Certificate} {c : Call} {t : Challenges}

theorem issuedSecret_other (h : ∀ g secret, reply k s e ≠ .gift g secret) :
    issuedSecret k giftId s e = none := by
  unfold issuedSecret
  split
  · exact absurd ‹_› (h _ _)
  · rfl

theorem gift_untouched (hgifts : (step k s e).gifts = s.gifts)
    (hreply : ∀ g secret, reply k s e ≠ .gift g secret) (h : (step k s e).gifts.get giftId = some g) :
    (∃ secret, issuedSecret k giftId s e = some secret ∧ Digested k g secret) ∨
    (issuedSecret k giftId s e = none ∧ ∃ g₀, s.gifts.get giftId = some g₀ ∧ g.secretDigest = g₀.secretDigest) := by
  rw [hgifts] at h
  exact .inr ⟨issuedSecret_other hreply, g, h, rfl⟩

theorem answer_not_gift {α : Type} {f : α → Reply} {x : Except Err (Store × α)}
    (hf : ∀ a g secret, f a ≠ .gift g secret) (g : Gift) (secret : String) : (answer f s x).2 ≠ .gift g secret := by
  intro h
  obtain ⟨a, -, ha⟩ := answer_ok h nofun
  exact hf a g secret ha

theorem answer_gifts {α : Type} {f : α → Reply} {x : Except Err (Store × α)}
    (h : ∀ s' r, x = .ok (s', r) → s'.gifts = s.gifts) : (answer f s x).1.gifts = s.gifts := by
  cases x with
  | error => rfl
  | ok p => exact h p.1 p.2 rfl

variable {deviceId key id : String} {row : Challenge}

theorem Obtained.gifts {digest : String}
    (h : Obtained k s s' licenseId deviceId key digest activationId cert) : s'.gifts = s.gifts := by
  cases h with
  | retrieved r hr hactive hcert hcore => exact congrArg Core.gifts hcore
  | granted lic r x hnew hg =>
    have := congrArg Core.gifts hg.rest
    exact this

theorem deactivate_gifts {b : Bool}
    (h : deactivate c licenseId deviceId s = .ok (s', b)) : s'.gifts = s.gifts := by
  unfold deactivate at h
  split at h
  · cases h
    rfl
  · split at h
    · cases h
      rfl
    · cases h
      rfl

/-- After a call, a gift has the digest of the secret the call returned for it, or the
digest it had and no secret was returned. -/
theorem step_secret (h : (step k s e).gifts.get giftId = some g) :
    (∃ secret, issuedSecret k giftId s e = some secret ∧ Digested k g secret) ∨
    (issuedSecret k giftId s e = none ∧ ∃ g₀, s.gifts.get giftId = some g₀ ∧ g.secretDigest = g₀.secretDigest) := by
  obtain ⟨c, op⟩ := e
  cases op with
  | createGift edition majorVersion seatLimit checkInDays id licenseId secret =>
    cases hx : createGift k c edition majorVersion seatLimit checkInDays id licenseId secret s with
    | error err =>
      have hexec : exec k s ⟨c, .createGift edition majorVersion seatLimit checkInDays id licenseId secret⟩ =
          (s, .raised err) := by simp only [exec, hx, answer]
      exact gift_untouched (by simp only [step, hexec]) (by simp only [reply, hexec]; rintro _ _ ⟨⟩) h
    | ok p =>
      obtain ⟨s', g', secret'⟩ := p
      have hexec : exec k s ⟨c, .createGift edition majorVersion seatLimit checkInDays id licenseId secret⟩ =
          (s', .gift g' secret') := by simp only [exec, hx, answer]
      obtain ⟨tl, tg, hcore, hi, rfl, hlen, hid, hdigest, -⟩ := createGift_ok hx
      have hgifts : s'.gifts = tg := congrArg Core.gifts hcore
      simp only [step, hexec, hgifts] at h
      simp only [issuedSecret, reply, hexec]
      rcases get_insert_cases hi h with ⟨hk, rfl⟩ | hold
      · rw [if_pos hk.symm]
        exact .inl ⟨secret', rfl, hdigest, hlen⟩
      · rw [if_neg]
        · exact .inr ⟨rfl, g, hold, rfl⟩
        · rintro rfl
          rw [insert_fresh hi] at hold
          cases hold
  | recoverGift id secret =>
    cases hx : recoverGift k c id secret s with
    | error err =>
      have hexec : exec k s ⟨c, .recoverGift id secret⟩ = (s, .raised err) := by simp only [exec, hx, answer]
      exact gift_untouched (by simp only [step, hexec]) (by simp only [reply, hexec]; rintro _ _ ⟨⟩) h
    | ok p =>
      obtain ⟨s', g', secret'⟩ := p
      have hexec : exec k s ⟨c, .recoverGift id secret⟩ = (s', .gift g' secret') := by simp only [exec, hx, answer]
      obtain ⟨row, hrow, -, rfl, hlen, rfl, hcore⟩ := recoverGift_ok hx
      have hgifts := congrArg Core.gifts hcore
      have hstep : (step k s ⟨c, .recoverGift id secret'⟩).gifts = s.gifts.modify row.giftId
          (Gift.rotate (k.sha256 (.text secret')) (row.secretGeneration + 1) (c.clk 0)) Gift.rotate_key := by
        simp only [step, hexec]
        exact hgifts
      rw [hstep] at h
      simp only [issuedSecret, reply, hexec]
      rcases get_modify_cases Gift.rotate_key h with ⟨rfl, g₀, hg₀, rfl⟩ | ⟨hne, hold⟩
      · exact .inl ⟨secret', if_pos rfl, rfl, hlen⟩
      · exact .inr ⟨if_neg (fun hk => hne hk.symm), g, hold, rfl⟩
  | revokeGift id =>
    have hreply : ∀ g secret, reply k s ⟨c, .revokeGift id⟩ ≠ .gift g secret := answer_not_gift (by rintro _ _ _ ⟨⟩)
    cases hx : revokeGift c id s with
    | error err =>
      have hexec : exec k s ⟨c, .revokeGift id⟩ = (s, .raised err) := by simp only [exec, hx, answer]
      exact gift_untouched (by simp only [step, hexec]) hreply h
    | ok p =>
      obtain ⟨s', u⟩ := p
      have hstep : step k s ⟨c, .revokeGift id⟩ = s' := by simp only [step, exec, hx, answer]
      obtain ⟨row, -, hrow, ⟨-, rfl⟩ | ⟨-, hcore⟩⟩ := revokeGift_ok hx
      · exact gift_untouched (by rw [hstep]) hreply h
      · have hgifts : s'.gifts = s.gifts.modify row.giftId (Gift.revoke (c.clk 0)) Gift.revoke_key := congrArg Core.gifts hcore
        rw [hstep, hgifts] at h
        refine .inr ⟨issuedSecret_other hreply, ?_⟩
        rcases get_modify_cases Gift.revoke_key h with ⟨rfl, g₀, hg₀, rfl⟩ | ⟨-, hold⟩
        · exact ⟨g₀, hg₀, rfl⟩
        · exact ⟨g, hold, rfl⟩
  | createLicense =>
    refine gift_untouched (answer_gifts fun s' r hok => ?_) (answer_not_gift (by rintro _ _ _ ⟨⟩)) h
    unfold createLicense at hok
    split at hok
    · cases hok
    · split at hok
      · cases hok
      · rename_i s₁ h₁
        obtain ⟨t, -, rfl, -⟩ := insertLicense_ok h₁
        cases hok
        rfl
  | issueGiftClaimChallenge =>
    refine gift_untouched (answer_gifts fun s' r hok => ?_) (answer_not_gift (by rintro _ _ _ ⟨⟩)) h
    obtain ⟨-, -, x, -, -, -, -, -, -, hissue⟩ := issueGiftClaimChallenge_ok hok
    obtain ⟨t, -, hcore, -⟩ := issueChallenge_ok hissue
    exact congrArg Core.gifts hcore
  | issueActivationChallenge =>
    refine gift_untouched (answer_gifts fun s' r hok => ?_) (answer_not_gift (by rintro _ _ _ ⟨⟩)) h
    obtain ⟨-, -, x, -, -, -, -, hissue⟩ := issueActivationChallenge_ok hok
    obtain ⟨t, -, hcore, -⟩ := issueChallenge_ok hissue
    exact congrArg Core.gifts hcore
  | createExternalEntitlement =>
    refine gift_untouched (answer_gifts fun s' r hok => ?_) (answer_not_gift (by rintro _ _ _ ⟨⟩)) h
    obtain ⟨-, -, ⟨-, -, -, -, -, -, -, rfl, -⟩ | ⟨tl, te, -, -, -, -, -, hcore, -⟩⟩ := createExternalEntitlement_ok hok
    · rfl
    · exact congrArg Core.gifts hcore
  | readExternalEntitlementAcknowledgement =>
    exact gift_untouched (congrArg Store.gifts (answer_read _)) (answer_not_gift (by rintro _ _ _ ⟨⟩)) h
  | activateChallenge =>
    refine gift_untouched (answer_gifts fun s' r hok => ?_) (answer_not_gift (by rintro _ _ _ ⟨⟩)) h
    obtain ⟨row, lic, -, -, -, -, ⟨-, rfl, -⟩ | ⟨-, -, s₁, h₁, rfl⟩⟩ := activateChallenge_ok hok
    · rfl
    · obtain ⟨deviceId, lic', -, -, -, hobt⟩ := activateInTransaction_ok h₁
      exact hobt.gifts
  | activate =>
    refine gift_untouched (answer_gifts fun s' r hok => ?_) (answer_not_gift (by rintro _ _ _ ⟨⟩)) h
    obtain ⟨deviceId, lic, -, -, -, hobt⟩ := activateInTransaction_ok hok
    exact hobt.gifts
  | revokeExternalEntitlement =>
    refine gift_untouched (answer_gifts fun s' r hok => ?_) (answer_not_gift (by rintro _ _ _ ⟨⟩)) h
    obtain ⟨-, -, row, -, -, -, ⟨-, -, rfl, -⟩ | ⟨-, tv, -, -, -, -, hcore, -⟩⟩ := revokeExternalEntitlement_ok hok
    · rfl
    · exact congrArg Core.gifts hcore
  | readExternalRevocationAcknowledgement =>
    exact gift_untouched (congrArg Store.gifts (answer_read _)) (answer_not_gift (by rintro _ _ _ ⟨⟩)) h
  | deactivate =>
    exact gift_untouched (answer_gifts fun s' r hok => deactivate_gifts hok) (answer_not_gift (by rintro _ _ _ ⟨⟩)) h
  | deactivateGiftDevice =>
    refine gift_untouched (answer_gifts fun s' r hok => ?_) (answer_not_gift (by rintro _ _ _ ⟨⟩)) h
    unfold deactivateGiftDevice at hok
    split at hok
    · cases hok
    · exact deactivate_gifts hok
  | pinCeremony =>
    refine gift_untouched (answer_gifts fun s' r hok => ?_) (answer_not_gift (by rintro _ _ _ ⟨⟩)) h
    exact congrArg Core.gifts (pinCeremony_core hok)

theorem run_secret (k : Crypto) (es : List Event)
    (h : (run (step k) Store.empty es).gifts.get giftId = some g) :
    ∃ secret, lastSecret k giftId Store.empty es = some secret ∧ Digested k g secret := by
  induction es using List.reverseRecOn generalizing g with
  | nil => simp [Store.empty] at h
  | append_singleton es e ih =>
    rw [run_snoc] at h
    rw [lastSecret_snoc]
    rcases step_secret h with ⟨secret, hissued, hdig⟩ | ⟨hnone, g₀, hg₀, hsame⟩
    · exact ⟨secret, by rw [hissued]; rfl, hdig⟩
    · obtain ⟨secret, hlast, hdig⟩ := ih hg₀
      refine ⟨secret, by rw [hnone, hlast]; rfl, ?_⟩
      exact ⟨hsame.trans hdig.1, hdig.2⟩

theorem matchesFixed_length {n : Nat} {cls : Char → Bool} {s : String} (h : matchesFixed "" n cls s = true) :
    s.toList.length = n := by
  simp only [matchesFixed, String.toList_empty] at h
  split at h
  · cases h
  · rename_i rest hrest
    have : s.toList = rest := by simpa using hrest
    rw [← this] at h
    simp only [Bool.and_eq_true, decide_eq_true_eq] at h
    exact h.1

theorem giftChallenge_secret (hk : SecretHash k) (es : List Event) {secret nonce : String}
    {ttl : Int} {r : ChallengeReply}
    (h : issueGiftClaimChallenge k c giftId secret key ttl nonce challengeId (run (step k) Store.empty es) = .ok (s', r)) :
    (∃ g, (run (step k) Store.empty es).gifts.get giftId = some g ∧ g.status = .active) ∧
      lastSecret k giftId Store.empty es = some secret := by
  obtain ⟨g, deviceId, x, hg, hactive, hstored, hshape, -⟩ := issueGiftClaimChallenge_ok h
  obtain ⟨latest, hlast, hdigest, hlen⟩ := run_secret k es hg
  refine ⟨⟨g, hg, hactive⟩, ?_⟩
  have h64 : g.secretDigest.toList.length = 64 := by rw [hdigest]; exact hk.length latest hlen
  rw [Gift.stored, if_pos h64, hdigest] at hstored
  rw [hlast, hk.injective latest secret hlen (matchesFixed_length hshape) hstored]

/-! Challenges -/

/-- The call completes the challenge, for the first time or again, and returns a certificate. -/
def Yields (k : Crypto) (s : Store) (e : Event) (challengeId : String) (cert : Certificate) : Prop :=
  ∃ proof expected activationId, e.op = .activateChallenge challengeId proof expected activationId ∧
    reply k s e = .certificate cert

/-- The call issues the challenge `x`. -/
def Issues (k : Crypto) (s : Store) (e : Event) (x : Challenge) : Prop :=
  (∃ r, reply k s e = .challenge r ∧ r.challengeId = x.challengeId) ∧ (step k s e).challenges.get x.challengeId = some x

/-- The call issues a newer challenge for the device and the license of `row`. -/
def Supersedes (k : Crypto) (s : Store) (e : Event) (row : Challenge) : Prop :=
  ∃ x, Issues k s e x ∧ x.licenseId = row.licenseId ∧ x.deviceId = row.deviceId

def Rotates (k : Crypto) (s : Store) (e : Event) (licenseId : String) : Prop :=
  ∃ id secret g secret', e.op = .recoverGift id secret ∧ reply k s e = .gift g secret' ∧ g.licenseId = licenseId

theorem Yields.ok (h : Yields k s e challengeId cert) :
    ∃ proof expected activationId, e.op = .activateChallenge challengeId proof expected activationId ∧
      activateChallenge k e.call challengeId proof expected activationId s = .ok (step k s e, cert) := by
  obtain ⟨c, op⟩ := e
  obtain ⟨proof, expected, activationId, rfl, hreply⟩ := h
  obtain ⟨a, ha, hcert⟩ := answer_ok hreply nofun
  cases hcert
  exact ⟨proof, expected, activationId, rfl, ha⟩

def Dead (t : Challenges) (id : String) : Prop := ∃ x, t.get id = some x ∧ x.consumedAt.isSome ∧ x.certificate = none

theorem Dead.later {t' : Challenges} (h : Dead t id) (hl : t.Grows Challenge.Later t') : Dead t' id := by
  obtain ⟨x, hx, hc, hn⟩ := h
  obtain ⟨x', hx', hlater⟩ := hl id x hx
  obtain ⟨hc', hn'⟩ := hlater.consumed hc
  exact ⟨x', hx', hc', hn'.trans hn⟩

theorem Dead.not_yields (h : Dead s.challenges id) :
    ¬ Yields k s e id cert := by
  intro hy
  obtain ⟨x, hx, hc, hn⟩ := h
  obtain ⟨proof, expected, activationId, -, hok⟩ := hy.ok
  obtain ⟨row, lic, hrow, -, -, -, ⟨-, -, hreplay⟩ | ⟨hopen, -⟩⟩ := activateChallenge_ok hok
  · rw [hx] at hrow
    cases hrow
    rw [(replayChallenge_ok hreplay).1] at hn
    cases hn
  · rw [hx] at hrow
    cases hrow
    rw [hopen] at hc
    cases hc

theorem giftOf_eq (hone : s.gifts.Unique (fun g => some g.licenseId))
    (hg : s.gifts.get g.giftId = some g) (hl : g.licenseId = licenseId) : giftOf s licenseId = some g := by
  cases hf : giftOf s licenseId with
  | none =>
    have := List.find?_eq_none.mp hf g (get_mem hg)
    simp [hl] at this
  | some g' =>
    have hmem := List.mem_of_find?_eq_some hf
    have hl' : g'.licenseId = licenseId := by simpa using List.find?_some hf
    rw [hone.rows_eq hmem (get_mem hg) (congrArg some hl') (congrArg some hl)]

/-- A gift-flow challenge whose generation the gift has passed. -/
def Retired (a : Core) (id : String) : Prop :=
  ∃ x g n, a.challenges.get id = some x ∧ x.flowKind = some .gift ∧ a.gifts.get g.giftId = some g ∧
    g.licenseId = x.licenseId ∧ x.entitlementGeneration = some n ∧ n < g.secretGeneration

theorem Retired.later {a b : Core} (h : Retired a id) (hl : Later a b) : Retired b id := by
  obtain ⟨x, g, n, hx, hkind, hg, hlic, hn, hlt⟩ := h
  obtain ⟨x', hx', hxl⟩ := hl.challenges id x hx
  obtain ⟨g', hg', hgl⟩ := hl.gifts _ g hg
  have hkey : g'.giftId = g.giftId := get_key hg'
  refine ⟨x', g', n, hx', hxl.flow.1.trans hkind, by rw [hkey]; exact hg', ?_, hxl.flow.2.trans hn, ?_⟩
  · rw [hgl.license, hlic, hxl.issued.1]
  · exact lt_of_lt_of_le hlt hgl.generation

theorem Retired.not_yields (hs : Reached k s) (h : Retired s.core id) : ¬ Yields k s e id cert := by
  intro hy
  obtain ⟨x, g, n, hx, hkind, hg, hlic, hn, hlt⟩ := h
  obtain ⟨proof, expected, activationId, -, hok⟩ := hy.ok
  obtain ⟨row, lic, hrow, hflow, -⟩ := activateChallenge_ok hok
  have hx : s.challenges.get id = some x := hx
  rw [hx] at hrow
  cases hrow
  obtain ⟨hexpected, hgift, -⟩ := checkFlow_ok hflow
  rw [hkind] at hexpected
  obtain ⟨g', hg', -, hgen⟩ := hgift (Option.some.inj hexpected).symm
  rw [giftOf_eq hs.owned.oneGift hg hlic] at hg'
  cases hg'
  rw [hn] at hgen
  have : n = g.secretGeneration := Option.some.inj hgen
  omega

/-- How a challenge is issued. -/
theorem Issues.ok {x : Challenge} (h : Issues k s e x) :
    ∃ r, issueChallenge x s = .ok (step k s e, r) ∧
      (x.flowKind = some .gift → ∃ g, s.gifts.get g.giftId = some g ∧ g.status = .active ∧ g.licenseId = x.licenseId ∧
        x.entitlementGeneration = some g.secretGeneration) := by
  obtain ⟨c, op⟩ := e
  obtain ⟨⟨r, hreply, hid⟩, hx⟩ := h
  -- the challenge inserted is the one found under the identifier that was returned
  have hsame : ∀ y s', issueChallenge y s = .ok (s', r) → s'.challenges.get x.challengeId = some x → y = x := by
    intro y s' hissue hget
    obtain ⟨t, ht, hcore, hrid⟩ := issueChallenge_ok hissue
    have hchallenges : s'.challenges = t := congrArg Core.challenges hcore
    rw [hchallenges, ← hid, hrid, get_insert_self ht] at hget
    exact Option.some.inj hget
  cases op with
  | issueGiftClaimChallenge =>
    obtain ⟨r', hok, hr'⟩ := answer_ok hreply nofun
    cases hr'
    obtain ⟨g, deviceId, y, hg, hactive, -, -, -, hy, hissue⟩ := issueGiftClaimChallenge_ok hok
    have hyx := hsame y _ hissue hx
    have hkey := get_key hg
    subst hkey
    rw [← hyx]
    exact ⟨r, hissue, fun _ => ⟨g, hg, hactive, by rw [hy], by rw [hy]⟩⟩
  | issueActivationChallenge =>
    obtain ⟨r', hok, hr'⟩ := answer_ok hreply nofun
    cases hr'
    obtain ⟨lic, deviceId, y, -, -, -, hy, hissue⟩ := issueActivationChallenge_ok hok
    have hyx := hsame y _ hissue hx
    rw [← hyx]
    refine ⟨r, hissue, fun hkind => ?_⟩
    rw [hy] at hkind
    cases hkind
  | createLicense | createGift | recoverGift | revokeGift | createExternalEntitlement
  | readExternalEntitlementAcknowledgement | activateChallenge | activate | revokeExternalEntitlement
  | readExternalRevocationAcknowledgement | deactivate | deactivateGiftDevice | pinCeremony =>
    obtain ⟨r', -, hr'⟩ := answer_ok hreply nofun
    cases hr'

theorem consumed_dead {p : Challenge → Bool} {now : Time}
    (hrow : t.get row.challengeId = some row) (hp : p row = true) (hblank : row.certificate = none) :
    Dead (t.update p (Challenge.consume now) Challenge.consume_key) row.challengeId := by
  refine ⟨row.consume now, ?_, rfl, hblank⟩
  rw [get_update, hrow, Option.map_some, if_pos hp]

theorem Supersedes.dead (hs : Reached k s)
    (hrow : s.challenges.get row.challengeId = some row) (hopen : row.consumedAt = none) (h : Supersedes k s e row) :
    Dead (step k s e).challenges row.challengeId := by
  obtain ⟨x, hissues, hl, hd⟩ := h
  obtain ⟨r, hissue, -⟩ := hissues.ok
  obtain ⟨t, ht, hcore, -⟩ := issueChallenge_ok hissue
  have hchallenges : (step k s e).challenges = t := congrArg Core.challenges hcore
  rw [hchallenges]
  have hblank := hs.openBlank _ row hrow hopen
  have hdead : Dead (supersedeChallenges x.licenseId x.deviceId x.issuedAt s).challenges row.challengeId :=
    consumed_dead hrow (by simp [hl, hd, hopen]) hblank
  exact hdead.later (.insert Challenge.Later.refl ht)

theorem Rotates.ok (h : Rotates k s e licenseId) :
    ∃ row digest, s.gifts.get row.giftId = some row ∧ row.licenseId = licenseId ∧
      (step k s e).gifts = s.gifts.modify row.giftId (Gift.rotate digest (row.secretGeneration + 1) (e.call.clk 0))
        Gift.rotate_key ∧
      (step k s e).challenges = s.challenges.update (fun x => decide (x.licenseId = licenseId))
        (Challenge.consume (e.call.clk 0)) Challenge.consume_key := by
  obtain ⟨c, op⟩ := e
  obtain ⟨id, secret, g, secret', rfl, hreply, hl⟩ := h
  obtain ⟨⟨g', sec⟩, hok, hr'⟩ := answer_ok hreply nofun
  cases hr'
  obtain ⟨row, hrow, -, -, -, rfl, hcore⟩ := recoverGift_ok hok
  have hl : row.licenseId = licenseId := hl
  refine ⟨row, k.sha256 (.text secret), hrow, hl, congrArg Core.gifts hcore, ?_⟩
  rw [← hl]
  exact congrArg Core.challenges hcore

theorem Rotates.dead (hs : Reached k s)
    (hrow : s.challenges.get row.challengeId = some row) (hopen : row.consumedAt = none)
    (h : Rotates k s e row.licenseId) : Dead (step k s e).challenges row.challengeId := by
  obtain ⟨g, digest, -, -, -, hchallenges⟩ := h.ok
  rw [hchallenges]
  exact consumed_dead hrow (by simp) (hs.openBlank _ row hrow hopen)

theorem Rotates.retired (hs : Reached k s)
    (hrow : s.challenges.get row.challengeId = some row) (hkind : row.flowKind = some .gift)
    (h : Rotates k s e row.licenseId) : Retired (step k s e).core row.challengeId := by
  obtain ⟨g₀, n, hg₀, hl₀, hn, hle⟩ := hs.giftFlow _ row hrow hkind
  obtain ⟨g, digest, hg, hl, hgifts, -⟩ := h.ok
  -- the gift of the license is one
  have hsame : g₀ = g := hs.owned.oneGift.rows_eq (get_mem hg₀) (get_mem hg) (congrArg some hl₀) (congrArg some hl)
  subst hsame
  obtain ⟨row', hrow', hlater⟩ := (step_later k s e).challenges _ row hrow
  refine ⟨row', g₀.rotate digest (g₀.secretGeneration + 1) (e.call.clk 0), n, hrow', hlater.flow.1.trans hkind, ?_, ?_,
    hlater.flow.2.trans hn, Nat.lt_succ_of_le hle⟩
  · show (step k s e).gifts.get g₀.giftId = _
    rw [hgifts]
    exact get_modify_self Gift.rotate_key hg₀
  · rw [hlater.issued.1]
    exact hl₀

theorem Revoked.not_yields
    (hrow : s.challenges.get row.challengeId = some row) (h : Revoked s.licenses row.licenseId) :
    ¬ Yields k s e row.challengeId cert := by
  intro hy
  obtain ⟨c, op⟩ := e
  obtain ⟨proof, expected, activationId, rfl, hreply⟩ := hy
  obtain ⟨err, hraised, -⟩ := activateChallenge_refused (k := k) c proof expected activationId hrow h
  rw [hreply] at hraised
  cases hraised

/-- What a completion finds and does: an open challenge before it expires, or a consumed
one whose own certificate is the device's live one. -/
theorem Yields.cases (hs : Reached k s) (h : Yields k s e id cert) :
    ∃ row, s.challenges.get id = some row ∧
      (row.consumedAt = none → e.call.clk 0 < row.expiresAt) ∧
      (row.consumedAt.isSome → step k s e = s ∧ row.certificate = some cert ∧ HandedLive k s e cert) ∧
      ∃ row', (step k s e).challenges.get id = some row' ∧ row'.consumedAt.isSome ∧ row'.certificate = some cert := by
  obtain ⟨proof, expected, activationId, hop, hok⟩ := h.ok
  obtain ⟨row, lic, hrow, -, -, -, hcases⟩ := activateChallenge_ok hok
  refine ⟨row, hrow, ?_⟩
  rcases hcases with ⟨hconsumed, hsame, hreplay⟩ | ⟨hopen, htime, s₁, h₁, hs'⟩
  · obtain ⟨hcert, -, -, a, ha, hlive, hacert⟩ := replayChallenge_ok hreplay
    refine ⟨?_, ?_, row, by rw [hsame]; exact hrow, hconsumed, hcert⟩
    · intro hopen
      rw [hopen] at hconsumed
      cases hconsumed
    · intro _
      refine ⟨hsame, hcert, row.licenseId, row.devicePublicKey, row.deviceId, a, ?_, hs.forDevice _ row hrow, ?_, hlive, hacert⟩
      · simp only [asked, hop, hrow, Option.map_some]
      · rw [hsame]
        exact ha
  · obtain ⟨deviceId, lic', -, -, -, hobt⟩ := activateInTransaction_ok h₁
    have hrow₁ : s₁.challenges.get id = some row := by rw [hobt.challenges]; exact hrow
    refine ⟨fun _ => htime, ?_, row.complete (e.call.clk 0) (k.sha256 (.text proof)) cert, ?_, rfl, rfl⟩
    · intro hconsumed
      rw [hopen] at hconsumed
      cases hconsumed
    · rw [hs']
      exact get_modify_self Challenge.complete_key hrow₁

/-! The guarantees -/

section

variable (k)

/-- The state after a run. -/
abbrev after (es : List Event) : Store := run (step k) Store.empty es

theorem after_split (pre mid : List Event) (e : Event) :
    run (step k) Store.empty (pre ++ e :: mid) = run (step k) (step k (run (step k) Store.empty pre) e) mid := by
  rw [run_append, run_cons]

/-- What gift secrets and challenges guarantee over every run. -/
structure GenerationsObeyed : Prop where
  /-- Only the most recently issued secret of an active gift obtains a challenge. -/
  secret : ∀ es e giftId secret key ttl nonce challengeId r,
    e.op = .issueGiftClaimChallenge giftId secret key ttl nonce challengeId → reply k (after k es) e = .challenge r →
    (∃ g, (after k es).gifts.get giftId = some g ∧ g.status = .active) ∧ lastSecret k giftId Store.empty es = some secret
  /-- A gift-flow challenge yields only under the generation it was issued under, the gift active. -/
  generation : ∀ pre mid e f x cert, Issues k (after k pre) e x → x.flowKind = some .gift →
    Yields k (after k (pre ++ e :: mid)) f x.challengeId cert →
    ∃ g₀ g, (after k pre).gifts.get g₀.giftId = some g₀ ∧ g₀.licenseId = x.licenseId ∧
      (after k (pre ++ e :: mid)).gifts.get g₀.giftId = some g ∧ g.status = .active ∧
      g.secretGeneration = g₀.secretGeneration
  /-- The first completion happens before the expiry; a later one changes nothing and gives
  the challenge's own certificate, which is then the live one. -/
  completion : ∀ es f id cert, Yields k (after k es) f id cert → ∃ row, (after k es).challenges.get id = some row ∧
    (row.consumedAt = none → f.call.clk 0 < row.expiresAt) ∧
    (row.consumedAt.isSome → step k (after k es) f = after k es ∧ row.certificate = some cert ∧
      HandedLive k (after k es) f cert)
  /-- One activation: after a first yield every further one leaves the store and repeats the certificate. -/
  once : ∀ pre mid f f' id cert cert', Yields k (after k pre) f id cert →
    Yields k (after k (pre ++ f :: mid)) f' id cert' →
    step k (after k (pre ++ f :: mid)) f' = after k (pre ++ f :: mid) ∧ cert' = cert
  /-- An open challenge is finished by a newer one for its device and by a rotation. -/
  finished : ∀ pre mid e f row cert, (after k pre).challenges.get row.challengeId = some row → row.consumedAt = none →
    Supersedes k (after k pre) e row ∨ Rotates k (after k pre) e row.licenseId →
    ¬ Yields k (after k (pre ++ e :: mid)) f row.challengeId cert
  /-- A gift-flow challenge, completed or not, is finished by a rotation. -/
  rotated : ∀ pre mid e f row cert, (after k pre).challenges.get row.challengeId = some row → row.flowKind = some .gift →
    Rotates k (after k pre) e row.licenseId → ¬ Yields k (after k (pre ++ e :: mid)) f row.challengeId cert
  /-- Every challenge, completed or not, is finished by a revocation. -/
  revoked : ∀ pre mid e f row cert, (after k pre).challenges.get row.challengeId = some row →
    Revokes k (after k pre) e row.licenseId → ¬ Yields k (after k (pre ++ e :: mid)) f row.challengeId cert
  /-- No challenge is completed under the other flow kind. -/
  flow : ∀ es c id row proof expected activationId, (after k es).challenges.get id = some row →
    row.flowKind ≠ some expected → Refused k (after k es) ⟨c, .activateChallenge id proof expected activationId⟩

end

theorem flow_refused {proof : String} {expected : FlowKind}
    (hrow : s.challenges.get id = some row) (hkind : row.flowKind ≠ some expected) :
    Refused k s ⟨c, .activateChallenge id proof expected activationId⟩ := by
  have hnone : ∀ s' cert, activateChallenge k c id proof expected activationId s ≠ .ok (s', cert) := by
    intro s' cert hok
    obtain ⟨row', lic, hrow', hflow, -⟩ := activateChallenge_ok hok
    rw [hrow] at hrow'
    cases hrow'
    exact hkind (checkFlow_ok hflow).1
  obtain ⟨err, herr⟩ := answer_raised (f := Reply.certificate) (s := s) hnone
  exact ⟨err, congrArg Prod.snd herr, congrArg Prod.fst herr⟩

/-- Gift secrets and challenges obey their generation in every run. -/
theorem gift_challenges_obey_generation (k : Crypto) (hk : SecretHash k) : GenerationsObeyed k where
  secret := by
    intro es e giftId secret key ttl nonce challengeId r hop hreply
    obtain ⟨c, op⟩ := e
    subst hop
    obtain ⟨r', hok, -⟩ := answer_ok hreply nofun
    exact giftChallenge_secret hk es hok
  generation := by
    intro pre mid e f x cert hissues hkind hy
    obtain ⟨r, hissue, hgift⟩ := hissues.ok
    obtain ⟨g₀, hg₀, -, hl₀, hgen₀⟩ := hgift hkind
    have hlater := run_later k (run (step k) Store.empty pre) (e :: mid)
    rw [← run_append] at hlater
    obtain ⟨g, hg, hgl⟩ := hlater.gifts _ g₀ hg₀
    have hkey : g.giftId = g₀.giftId := Table.get_key hg
    -- the row the completion finds is a later version of the one issued
    obtain ⟨row, hrow, hrl⟩ := (run_later k _ mid).challenges _ x hissues.2
    rw [← after_split] at hrow
    obtain ⟨proof, expected, activationId, -, hok⟩ := hy.ok
    obtain ⟨row', lic, hrow', hflow, -⟩ := activateChallenge_ok hok
    have hsame : row' = row := Option.some.inj (hrow'.symm.trans hrow)
    subst hsame
    obtain ⟨hexpected, hactive, -⟩ := checkFlow_ok hflow
    rw [hrl.flow.1, hkind] at hexpected
    obtain ⟨g', hg', hstatus, hgen⟩ := hactive (Option.some.inj hexpected).symm
    have hone := (Reached.owned (k := k) ⟨pre ++ e :: mid, rfl⟩).oneGift
    have hof : giftOf _ row'.licenseId = some g :=
      giftOf_eq hone (by rw [hkey]; exact hg) (by rw [hgl.license, hl₀, hrl.issued.1])
    rw [hof] at hg'
    cases hg'
    rw [hrl.flow.2, hgen₀] at hgen
    exact ⟨g₀, g, hg₀, hl₀, hg, hstatus, (Option.some.inj hgen).symm⟩
  completion := by
    intro es f id cert hy
    obtain ⟨row, hrow, hopen, hconsumed, -⟩ := hy.cases ⟨es, rfl⟩
    exact ⟨row, hrow, hopen, hconsumed⟩
  once := by
    intro pre mid f f' id cert cert' hy hy'
    obtain ⟨-, -, -, -, row', hrow', hconsumed, hcert⟩ := hy.cases ⟨pre, rfl⟩
    obtain ⟨row₁, hrow₁, hlater⟩ := (run_later k _ mid).challenges _ row' hrow'
    rw [← after_split] at hrow₁
    obtain ⟨hcons₁, hcert₁⟩ := hlater.consumed hconsumed
    obtain ⟨row₂, hrow₂, -, hreplay, -⟩ := hy'.cases ⟨pre ++ f :: mid, rfl⟩
    have hsame : row₂ = row₁ := Option.some.inj (hrow₂.symm.trans hrow₁)
    subst hsame
    obtain ⟨hstep, hcert₂, -⟩ := hreplay hcons₁
    rw [hcert₁, hcert] at hcert₂
    exact ⟨hstep, (Option.some.inj hcert₂).symm⟩
  finished := by
    intro pre mid e f row cert hrow hopen hends
    have hreached : Reached k (run (step k) Store.empty pre) := ⟨pre, rfl⟩
    have hdead : Dead (step k (run (step k) Store.empty pre) e).challenges row.challengeId := by
      rcases hends with h | h
      · exact h.dead hreached hrow hopen
      · exact h.dead hreached hrow hopen
    apply Dead.not_yields
    have := hdead.later (run_later k _ mid).challenges
    rw [← after_split] at this
    exact this
  rotated := by
    intro pre mid e f row cert hrow hkind hrot
    have hretired := (hrot.retired ⟨pre, rfl⟩ hrow hkind).later (run_later k _ mid)
    rw [← after_split] at hretired
    exact hretired.not_yields ⟨pre ++ e :: mid, rfl⟩
  revoked := by
    intro pre mid e f row cert hrow hrev
    have hrevoked := (hrev.revoked ⟨pre, rfl⟩).later (run_later k _ mid).licenses
    rw [← after_split] at hrevoked
    have hlater := run_later k (run (step k) Store.empty pre) (e :: mid)
    rw [← run_append] at hlater
    obtain ⟨row', hrow', hrl⟩ := hlater.challenges _ row hrow
    have hid : row'.challengeId = row.challengeId := Table.get_key hrow'
    rw [← hrl.issued.1] at hrevoked
    rw [← hid]
    exact Revoked.not_yields (by rw [hid]; exact hrow') hrevoked
  flow := by
    intro es c id row proof expected activationId hrow hkind
    exact flow_refused hrow hkind

/-! A completed challenge -/

namespace Demo

theorem hash_length (a : String) (h : a.toList.length = 32) : (hash a).toList.length = 64 := by
  rw [hash, if_pos h, String.toList_append, List.length_append, h]

theorem secretHash : SecretHash crypto where
  length := hash_length
  injective := by
    intro a b ha hb h
    have h : hash a = hash b := h
    simp only [hash, if_pos ha, if_pos hb] at h
    have hlists : a.toList ++ a.toList = b.toList ++ b.toList := by
      rw [← String.toList_append, ← String.toList_append, h]
    exact String.toList_injective (List.append_inj hlists (ha.trans hb.symm)).1

/-- A challenge of the payment flow for the gift's license, completed by the device `D`. -/
def completed : List Event :=
  gift ++ [event 2 (.issueActivationChallenge "G" "D" 300 "AAAAAAAAAAAAAAAA" "c"),
           event 3 (.activateChallenge "c" "P" .payment "1")]

def again : Event := event 5 (.activateChallenge "c" "P" .payment "2")

end Demo

/-- The guarantees at a concrete Authority: a rotation is one, the secret before it opens nothing. -/
theorem old_secret_opens_nothing : ¬ ∃ r,
    reply Demo.crypto (after Demo.crypto (Demo.gift ++ [Demo.event 2 (.recoverGift "00000000-0000-4000-8000-000000000000"
        "tttttttttttttttttttttttttttttttt")]))
      (Demo.event 3 (.issueGiftClaimChallenge "00000000-0000-4000-8000-000000000000" "ssssssssssssssssssssssssssssssss" "D" 300
        "AAAAAAAAAAAAAAAA" "c")) = .challenge r := by
  rintro ⟨r, hr⟩
  have h := (gift_challenges_obey_generation Demo.crypto Demo.secretHash).secret _ _ _ _ _ _ _ _ r rfl hr
  exact absurd h.2 (by decide +kernel)

/-- A completed challenge still yields its certificate after a newer one was issued for the
device, and after the gift of its license was rotated. -/
theorem completed_challenge_yields_again :
    (¬ ∀ (k : Crypto) (pre mid : List Event) (e f : Event) (row : Challenge) (cert : Certificate),
      (after k pre).challenges.get row.challengeId = some row → Supersedes k (after k pre) e row →
      ¬ Yields k (after k (pre ++ e :: mid)) f row.challengeId cert) ∧
    (¬ ∀ (k : Crypto) (pre mid : List Event) (e f : Event) (row : Challenge) (cert : Certificate),
      (after k pre).challenges.get row.challengeId = some row → Rotates k (after k pre) e row.licenseId →
      ¬ Yields k (after k (pre ++ e :: mid)) f row.challengeId cert) := by
  obtain ⟨row, hrow, hid, hl, hd⟩ : ∃ row, (after Demo.crypto Demo.completed).challenges.get "c" = some row ∧
      row.challengeId = "c" ∧ row.licenseId = "G" ∧ row.deviceId = "D" := ⟨_, rfl, rfl, rfl, rfl⟩
  refine ⟨?_, ?_⟩
  · intro hall
    obtain ⟨x, hx, hxid, hxl, hxd⟩ : ∃ x, (step Demo.crypto (after Demo.crypto Demo.completed)
        (Demo.event 4 (.issueActivationChallenge "G" "D" 300 "BBBBBBBBBBBBBBBB" "d"))).challenges.get "d" = some x ∧
        x.challengeId = "d" ∧ x.licenseId = "G" ∧ x.deviceId = "D" := ⟨_, rfl, rfl, rfl, rfl⟩
    have hnewer : Supersedes Demo.crypto (after Demo.crypto Demo.completed)
        (Demo.event 4 (.issueActivationChallenge "G" "D" 300 "BBBBBBBBBBBBBBBB" "d")) row :=
      ⟨x, ⟨⟨_, rfl, hxid.symm⟩, by rw [hxid]; exact hx⟩, hxl.trans hl.symm, hxd.trans hd.symm⟩
    obtain ⟨cert, hy⟩ : ∃ cert, Yields Demo.crypto (after Demo.crypto (Demo.completed ++
        [Demo.event 4 (.issueActivationChallenge "G" "D" 300 "BBBBBBBBBBBBBBBB" "d")])) Demo.again "c" cert :=
      ⟨_, "P", .payment, "2", rfl, rfl⟩
    refine hall Demo.crypto Demo.completed [] _ Demo.again row cert (by rw [hid]; exact hrow) hnewer ?_
    rw [hid]
    exact hy
  · intro hall
    have hrotates : Rotates Demo.crypto (after Demo.crypto Demo.completed)
        (Demo.event 4 (.recoverGift "00000000-0000-4000-8000-000000000000" "tttttttttttttttttttttttttttttttt"))
        row.licenseId := ⟨_, _, _, _, rfl, rfl, hl.symm⟩
    obtain ⟨cert, hy⟩ : ∃ cert, Yields Demo.crypto (after Demo.crypto (Demo.completed ++
        [Demo.event 4 (.recoverGift "00000000-0000-4000-8000-000000000000" "tttttttttttttttttttttttttttttttt")]))
        Demo.again "c" cert := ⟨_, "P", .payment, "2", rfl, rfl⟩
    refine hall Demo.crypto Demo.completed [] _ Demo.again row cert (by rw [hid]; exact hrow) hrotates ?_
    rw [hid]
    exact hy

end GrowthMap.Authority
