import GrowthMap.Authority.Seats

/- The inbox of payment entitlements: created exactly once.

   `Acked` says that the inbox holds the entitlement a response was given for. Every
   successful call leaves it so, nothing later changes it, and a call that finds it
   answers with that response or is refused. -/
namespace GrowthMap.Authority

open Relational Runs Table
open Fallible (bind_ok)
open Payments (Time seconds Identity Value Doc Err AckDomain)

variable {k : Crypto}

/-- The inbox holds the entitlement of the request, and `r` is the response to it. -/
def Acked (k : Crypto) (s : Store) (a : EntitlementRequest) (r : EntitlementResponse) : Prop :=
  ∃ e l signature, priorEntitlement s a.source a.sourceId = some (e, l) ∧ e.payloadDigest = some a.payloadDigest ∧
    e.signer = storedIdentity a.signerIdentity ∧ e.ackSignature = some signature ∧
    r = ⟨l.licenseId, l.edition, l.majorVersion, l.seatLimit,
      deliveryReceipt k a.signerIdentity a.source a.sourceId a.payloadDigest l.licenseId, a.signerIdentity.authorityId,
      a.signerIdentity, signature⟩

variable {s s' : Store} {e : ExternalEntitlement} {l : License} {a : EntitlementRequest} {r : EntitlementResponse}
  {c : Call} {licenseId : String} {source : String} {domain : SignDomain}

theorem priorEntitlement_some {sourceId : String} :
    priorEntitlement s source sourceId = some (e, l) ↔
      s.entitlements.get (source, sourceId) = some e ∧ s.licenses.get e.licenseId = some l := by
  simp only [priorEntitlement, Option.bind_eq_some_iff, Option.map_eq_some_iff, Prod.mk.injEq]
  constructor
  · rintro ⟨e', he, l', hl, rfl, rfl⟩
    exact ⟨he, hl⟩
  · rintro ⟨he, hl⟩
    exact ⟨e, he, l, hl, rfl, rfl⟩

theorem storedIdentity_inj {i j : Identity} (h : storedIdentity i = storedIdentity j) : i = j := by
  obtain ⟨a, b, c, d, e⟩ := i
  obtain ⟨a', b', c', d', e'⟩ := j
  simp only [storedIdentity, StoredIdentity.mk.injEq, Option.some.injEq] at h
  simp only [Identity.mk.injEq]
  exact h

theorem Acked.later (h : Acked k s a r) (hlater : Later s.core s'.core) : Acked k s' a r := by
  obtain ⟨e, l, signature, hprior, hdigest, hsigner, hsig, rfl⟩ := h
  obtain ⟨he, hl⟩ := priorEntitlement_some.mp hprior
  obtain ⟨e', he', rfl⟩ := hlater.entitlements _ e he
  obtain ⟨l', hl', hll⟩ := hlater.licenses _ l hl
  obtain ⟨hid, ⟨hed, hmv, hseats⟩, -⟩ := hll
  refine ⟨e, l', signature, priorEntitlement_some.mpr ⟨he', hl'⟩, hdigest, hsigner, hsig, ?_⟩
  rw [hid, hed, hmv, hseats]

theorem createExternalEntitlement_acked
    (h : createExternalEntitlement k c a licenseId s = .ok (s', r)) : Acked k s' a r := by
  obtain ⟨hauthority, hidentity, hcases⟩ := createExternalEntitlement_ok h
  have hid : a.authorityId = a.signerIdentity.authorityId := by rw [hauthority, hidentity]; rfl
  rcases hcases with ⟨e, l, signature, hprior, hdigest, hsigner, hsig, rfl, rfl⟩ |
    ⟨tl, te, signature, -, hl, -, he, hcore, rfl, -⟩
  · exact ⟨e, l, signature, hprior, hdigest, hsigner, hsig, by rw [hid]⟩
  · have hlicenses : s'.licenses = tl := congrArg Core.licenses hcore
    have hentitlements : s'.entitlements = te := congrArg Core.entitlements hcore
    refine ⟨newEntitlement a a.signerIdentity licenseId signature (c.clk 0),
      ⟨licenseId, a.edition, a.majorVersion, a.seatLimit, c.clk 0, .never, none, 30⟩, signature, ?_, rfl, ?_, rfl, ?_⟩
    · rw [priorEntitlement_some, hentitlements, hlicenses]
      exact ⟨get_insert_self he, get_insert_self hl⟩
    · simp only [newEntitlement, storedIdentity, hid]
    · simp only [hid]

theorem Acked.answers {b : EntitlementRequest} {r' : EntitlementResponse}
    (h : Acked k s a r) (hsource : b.source = a.source) (hid : b.sourceId = a.sourceId)
    (hok : createExternalEntitlement k c b licenseId s = .ok (s', r')) :
    b.payloadDigest = a.payloadDigest ∧ b.signerIdentity = a.signerIdentity ∧ r' = r ∧ s' = s := by
  obtain ⟨e, l, signature, hprior, hdigest, hsigner, hsig, rfl⟩ := h
  obtain ⟨hauthority, hidentity, hcases⟩ := createExternalEntitlement_ok hok
  have hbid : b.authorityId = b.signerIdentity.authorityId := by rw [hauthority, hidentity]; rfl
  rw [hsource, hid, hprior] at hcases
  rcases hcases with ⟨e', l', signature', hprior', hdigest', hsigner', hsig', rfl, rfl⟩ | ⟨-, -, -, hnone, -⟩
  · cases hprior'
    rw [hdigest] at hdigest'
    rw [hsigner] at hsigner'
    rw [hsig] at hsig'
    have hsame : a.payloadDigest = b.payloadDigest := Option.some.inj hdigest'
    have hident : a.signerIdentity = b.signerIdentity := storedIdentity_inj hsigner'
    cases hsig'
    exact ⟨hsame.symm, hident.symm, by rw [hbid, hsame, hident], rfl⟩
  · cases hnone

/-! Signing -/

/-- The ways a signature for a document is not obtained: the anchor or the pinned ceremony
is not the instance's, the signer raises, or what it returns has the wrong length or
does not verify. -/
inductive SigningFails (k : Crypto) (c : Call) (s : Store) (domain : SignDomain) (doc : Doc) : Prop where
  | anchorUnavailable (h : c.anchor = none)
  | anchorConflict (claim : AnchorClaim) (h : c.anchor = some claim) (hc : claim ≠ c.self.ceremony.claim k)
  | ceremonyConflict (h : (latestCeremony s.ceremonies).all (fun row => decide (row.descriptor ≠ c.self.ceremony)))
  | signerError (h : c.sign domain doc = none)
  | wrongLength (signature : List UInt8) (h : c.sign domain doc = some signature) (hl : signature.length ≠ 64)
  | unverified (signature : List UInt8) (h : c.sign domain doc = some signature)
      (hv : k.verify c.self.publicKey domain doc signature = false)

theorem validateAnchorClaim_eq {allowZero : Bool} {a b : AnchorClaim} (h : validateAnchorClaim allowZero a = some b) : b = a := by
  unfold validateAnchorClaim at h
  split at h
  all_goals
    split at h
    · exact (Option.some.inj h).symm
    · cases h

theorem assertSignerState_ok {ceremony : Ceremony} {v : SignerView} {u : Unit}
    (h : assertSignerState k ceremony v = .ok u) :
    v.anchor = some (ceremony.claim k) ∧ ∃ row, v.latest = some row ∧ row.generation = ceremony.generation ∧
      row.descriptor = ceremony := by
  unfold assertSignerState at h
  split at h
  · cases h
  · rename_i anchored hanchor
    split at h
    · cases h
    · rename_i hclaim
      rw [not_not] at hclaim
      split at h
      · cases h
      · rename_i row hrow
        split at h
        · cases h
        · rename_i hsame
          rw [not_or, not_not, not_not] at hsame
          obtain ⟨a, ha, hv⟩ := Option.bind_eq_some_iff.mp hanchor
          have := validateAnchorClaim_eq hv
          exact ⟨by rw [ha, ← this, hclaim], row, hrow, hsame.1, hsame.2⟩

theorem signVerified_ok {doc : Doc} {signature : List UInt8}
    (h : signVerified k c s domain doc = .ok signature) :
    assertSignerState k c.self.ceremony ⟨c.anchor, latestCeremony s.ceremonies⟩ = .ok () ∧
      c.sign domain doc = some signature ∧ signature.length = 64 ∧
      k.verify c.self.publicKey domain doc signature = true := by
  obtain ⟨u, hu, h⟩ := bind_ok h
  split at h
  · cases h
  · rename_i σ hσ
    split at h
    · cases h
    · rename_i hlen
      split at h
      · cases h
      · rename_i hverify
        cases h
        exact ⟨hu, hσ, not_not.mp hlen, by simpa using hverify⟩

theorem SigningFails.not_ok {doc : Doc} (h : SigningFails k c s domain doc)
    (signature : List UInt8) : signVerified k c s domain doc ≠ .ok signature := by
  intro hok
  obtain ⟨hstate, hsign, hlen, hverify⟩ := signVerified_ok hok
  obtain ⟨hanchor, row, hrow, -, hdesc⟩ := assertSignerState_ok hstate
  dsimp only at hanchor hrow
  cases h with
  | anchorUnavailable h => simp [h] at hanchor
  | anchorConflict claim h hc =>
    rw [h] at hanchor
    exact hc (Option.some.inj hanchor)
  | ceremonyConflict h =>
    rw [hrow] at h
    simp [hdesc] at h
  | signerError h => simp [h] at hsign
  | wrongLength σ h hl =>
    rw [h] at hsign
    cases hsign
    exact hl hlen
  | unverified σ h hv =>
    rw [h] at hsign
    cases hsign
    rw [hv] at hverify
    cases hverify

def entitlementDocument (k : Crypto) (a : EntitlementRequest) (licenseId : String) : Doc :=
  canonical (entitlementPayload a a.signerIdentity licenseId
    (deliveryReceipt k a.signerIdentity a.source a.sourceId a.payloadDigest licenseId))

theorem createExternalEntitlement_refused
    (h : ∀ s' r, createExternalEntitlement k c a licenseId s ≠ .ok (s', r)) :
    Refused k s ⟨c, .createExternalEntitlement a licenseId⟩ := by
  obtain ⟨err, herr⟩ := answer_raised (f := Reply.entitlement) (s := s) h
  exact ⟨err, congrArg Prod.snd herr, congrArg Prod.fst herr⟩

/-! Exactly once -/

/-- The licenses of a source reference: those the inbox names for it. -/
def licensesOf (s : Store) (source sourceId : String) : List License :=
  s.licenses.rows.filter fun l =>
    s.entitlements.rows.any fun e => decide (e.source = source ∧ e.sourceId = sourceId ∧ e.licenseId = l.licenseId)

theorem licensesOf_eq {sourceId : String}
    (h : priorEntitlement s source sourceId = some (e, l)) : licensesOf s source sourceId = [l] := by
  obtain ⟨he, hl⟩ := priorEntitlement_some.mp h
  have hkey : l.licenseId = e.licenseId := get_key hl
  have hiff : ∀ x ∈ s.licenses.rows, (s.entitlements.rows.any fun e' =>
      decide (e'.source = source ∧ e'.sourceId = sourceId ∧ e'.licenseId = x.licenseId)) = (x == l) := by
    intro x hx
    rw [Bool.eq_iff_iff, List.any_eq_true, beq_iff_eq]
    constructor
    · rintro ⟨e', he', hsame⟩
      obtain ⟨h1, h2, h3⟩ := of_decide_eq_true hsame
      have hget : s.entitlements.get (source, sourceId) = some e' := by
        rw [← h1, ← h2]
        exact get_of_mem he'
      rw [he] at hget
      cases hget
      have := get_of_mem hx
      rw [← h3, hl] at this
      exact (Option.some.inj this).symm
    · rintro rfl
      have hk := get_key he
      have hsource : e.source = source := congrArg Prod.fst hk
      have hid : e.sourceId = sourceId := congrArg Prod.snd hk
      exact ⟨e, get_mem he, by simp [hsource, hid, hkey]⟩
  have hnodup : s.licenses.rows.Nodup := List.Nodup.of_map _ s.licenses.distinct
  rw [licensesOf, List.filter_congr hiff, List.filter_beq, List.count_eq_one_of_mem hnodup (get_mem hl)]
  rfl

/-- For every source reference: once a call for it has succeeded, in every later state it
has exactly one license, every further call that succeeds gives the same response and
changes nothing, and one with another payload digest or under another signer identity is
refused. In any state, a call under an identity that is not the instance's, and a new one
whose signing fails, are refused. -/
theorem external_entitlement_created_once (k : Crypto) :
    (∀ (pre mid : List Event) (e : Event) (a : EntitlementRequest) (id : String) (r : EntitlementResponse),
      e.op = .createExternalEntitlement a id → reply k (run (step k) Store.empty pre) e = .entitlement r →
      let s := run (step k) Store.empty (pre ++ e :: mid)
      (∃ l, licensesOf s a.source a.sourceId = [l] ∧ l.licenseId = r.licenseId) ∧
      ∀ (f : Event) (b : EntitlementRequest) (id' : String), f.op = .createExternalEntitlement b id' →
        b.source = a.source → b.sourceId = a.sourceId →
        (∀ r', reply k s f = .entitlement r' → r' = r ∧ step k s f = s) ∧
        (b.payloadDigest ≠ a.payloadDigest ∨ b.signerIdentity ≠ a.signerIdentity → Refused k s f)) ∧
    (∀ (es : List Event) (e : Event) (a : EntitlementRequest) (id : String), e.op = .createExternalEntitlement a id →
      let s := run (step k) Store.empty es
      (a.signerIdentity ≠ e.call.self.ceremony.identity → Refused k s e) ∧
      (priorEntitlement s a.source a.sourceId = none →
        SigningFails k e.call s (.ack .entitlement) (entitlementDocument k a id) → Refused k s e)) := by
  refine ⟨?_, ?_⟩
  · intro pre mid e a id r hop hreply s
    obtain ⟨c, op⟩ := e
    subst hop
    obtain ⟨r₀, hok, hr₀⟩ := answer_ok hreply nofun
    cases hr₀
    have hs : s = run (step k) (step k (run (step k) Store.empty pre) ⟨c, .createExternalEntitlement a id⟩) mid := by
      show run (step k) Store.empty (pre ++ _ :: mid) = _
      rw [run_append, run_cons]
    have hacked : Acked k s a r := by
      rw [hs]
      exact (createExternalEntitlement_acked hok).later (run_later k _ mid)
    refine ⟨?_, ?_⟩
    · obtain ⟨e, l, signature, hprior, -, -, -, rfl⟩ := hacked
      exact ⟨l, licensesOf_eq hprior, rfl⟩
    · intro f b id' hop' hsource hid
      obtain ⟨c', op'⟩ := f
      subst hop'
      refine ⟨?_, ?_⟩
      · intro r' hreply'
        obtain ⟨r₁, hok', hr₁⟩ := answer_ok hreply' nofun
        cases hr₁
        obtain ⟨-, -, hr, hsame⟩ := hacked.answers hsource hid hok'
        exact ⟨hr, hsame⟩
      · intro hdiff
        apply createExternalEntitlement_refused
        intro s' r' hok'
        obtain ⟨hdigest, hidentity, -, -⟩ := hacked.answers hsource hid hok'
        rcases hdiff with h | h
        · exact h hdigest
        · exact h hidentity
  · intro es e a id hop s
    obtain ⟨c, op⟩ := e
    subst hop
    refine ⟨?_, ?_⟩
    · intro hother
      apply createExternalEntitlement_refused
      intro s' r hok
      exact hother (createExternalEntitlement_ok hok).2.1
    · intro hnew hfails
      apply createExternalEntitlement_refused
      intro s' r hok
      obtain ⟨-, -, ⟨e, l, signature, hprior, -⟩ | ⟨tl, te, signature, -, -, hsigned, -⟩⟩ := createExternalEntitlement_ok hok
      · rw [hnew] at hprior
        cases hprior
      · -- the license inserted before signing does not enter into the signer state
        obtain ⟨σ, hσ, -⟩ := bind_ok hsigned
        exact hfails.not_ok σ hσ

def Demo.purchase (payloadDigest : String) : EntitlementRequest :=
  ⟨"x402", Demo.zeros, payloadDigest, "g", Demo.ceremony.identity, "personal", 1, 2⟩

/-- Reported again under another payload digest it is refused, and before that a signer
that fails leaves nothing behind. -/
theorem purchase_created_once :
    (∃ r, Refused Demo.crypto (run (step Demo.crypto) Store.empty ([Demo.event 0 .pinCeremony] ++
        Demo.event 1 (.createExternalEntitlement (Demo.purchase Demo.zeros) "L") :: []))
      (Demo.event 2 (.createExternalEntitlement (Demo.purchase r) "M"))) ∧
    Refused Demo.crypto (run (step Demo.crypto) Store.empty [Demo.event 0 .pinCeremony])
      { Demo.event 1 (.createExternalEntitlement (Demo.purchase Demo.zeros) "L") with
        call := { (Demo.event 1 .pinCeremony).call with sign := fun _ _ => none } } := by
  have hboth := external_entitlement_created_once Demo.crypto
  refine ⟨⟨"", ?_⟩, ?_⟩
  · obtain ⟨r, hr⟩ : ∃ r, reply Demo.crypto (run (step Demo.crypto) Store.empty [Demo.event 0 .pinCeremony])
        (Demo.event 1 (.createExternalEntitlement (Demo.purchase Demo.zeros) "L")) = .entitlement r := ⟨_, rfl⟩
    have hlater := (hboth.1 [Demo.event 0 .pinCeremony] [] _ (Demo.purchase Demo.zeros) "L" r rfl hr).2
    exact (hlater (Demo.event 2 (.createExternalEntitlement (Demo.purchase "") "M")) (Demo.purchase "") "M" rfl rfl rfl).2
      (.inl (by decide))
  · exact (hboth.2 [Demo.event 0 .pinCeremony] _ (Demo.purchase Demo.zeros) "L" rfl).2 rfl (.signerError rfl)

end GrowthMap.Authority
