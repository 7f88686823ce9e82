import GrowthMap.Payments.ReviewManifest

/- What an accepted review manifest says.

   Each function of the model is taken apart once (`…_ok`). The loop over the approvals of a
   dependency keeps that what it has seen is what it has collected, and that nothing was seen
   twice (`Tallied`); the loop over the dependencies keeps it of the signatures (`Unrepeated`).
   What a reviewer signs tells the statement (`statement_injective`), and the text of a policy
   tells its identities (`identities_of_text`). -/
namespace GrowthMap.ReviewManifest
open JsonGrammar StrictJson PyJson Fallible Ordered

/-! The snapshot of the inputs -/

/-- The caller's digests of a dependency, and what was copied of them. -/
structure Pinned (expected : List (Text × Argument)) (name : Text) (pins : List (Text × Text)) : Prop where
  keys : pins.map Prod.fst = pinKeys
  digests : ∃ item, expected.lookup name = some (.dict item) ∧
    ∀ pin ∈ pins, item.lookup pin.1 = some (.str pin.2) ∧ isSha256 pin.2 = true

/-- An identity as the caller's policy has it. -/
structure Trusted (P : Primitives) (source : List (Text × Argument)) (id : Text) (i : Identity) : Prop where
  identity : isIdentity id = true
  fingerprint : i.fingerprint = P.sha256 i.key
  role : i.role ∈ roleNames
  organization : isIdentity i.organization = true
  entry : ∃ fields, (id, .dict fields) ∈ source ∧ fields.lookup (units "public_key") = some (.bytes i.key) ∧
    fields.lookup (units "roles") = some (.list [.str i.role]) ∧
    fields.lookup (units "organization") = some (.str i.organization)

/-- What a snapshot says of the arguments it was taken of. -/
structure Snapped (P : Primitives) (i : Inputs) (snap : Snapshot) : Prop where
  release : i.expectedReleaseCommit = .str snap.release ∧ isCommit snap.release = true
  publicDigest : i.expectedPublicConfigSha256 = .str snap.publicDigest ∧ isSha256 snap.publicDigest = true
  context : i.expectedCeremonyContextId = .str snap.context ∧ isContext snap.context = true
  pins : ∃ expected, i.expectedDependencies = .dict expected ∧ snap.pins.map Prod.fst = dependencyNames ∧
    ∀ row ∈ snap.pins, Pinned expected row.1 row.2
  policy : ∃ policy source, i.trustedPolicy = .dict policy ∧ policy.lookup (units "policy_id") = some (.str snap.policyId) ∧
    policy.lookup (units "identities") = some (.dict source) ∧ ∀ row ∈ snap.identities.items, Trusted P source row.1 row.2
  policyId : isIdentity snap.policyId = true
  policyDigest : ∃ text, canonicalPolicy P.floats snap.policyId snap.identities = some text ∧ snap.policyDigest = P.sha256 text

theorem rows_of_forall₂ {α : Type} {R : Text → α → Prop} {keys : List Text} {rows : List (Text × α)}
    (h : List.Forall₂ (fun key row => row.1 = key ∧ R key row.2) keys rows) :
    rows.map Prod.fst = keys ∧ ∀ row ∈ rows, R row.1 row.2 := by
  induction h with
  | nil => simp
  | cons hrow _ ih =>
    obtain ⟨rfl, hR⟩ := hrow
    exact ⟨by rw [List.map_cons, ih.1], List.forall_mem_cons.mpr ⟨hR, ih.2⟩⟩

variable {key name id : Text} {source : List (Text × Argument)} {pins : List (Text × Text)} {message : Bytes}

theorem copyPin_ok {item : List (Text × Argument)} {s s' : List (Text × Text) × List Text}
    (h : copyPin item key s = .ok s') :
    ∃ pin, s'.1 = s.1 ++ [pin] ∧ pin.1 = key ∧ item.lookup key = some (.str pin.2) ∧ isSha256 pin.2 = true := by
  unfold copyPin at h
  split at h
  · next digest hlookup =>
    obtain ⟨_, hcheck, h⟩ := bind_ok h
    cases h
    exact ⟨(key, digest), rfl, rfl, hlookup, (require_ok.mp hcheck).1⟩
  · exact absurd h refuse_ne

theorem snapshotPins_ok {expected : List (Text × Argument)} {s s' : List (Text × List (Text × Text)) × List Text}
    (h : snapshotPins expected name s = .ok s') : ∃ row, s'.1 = s.1 ++ [row] ∧ row.1 = name ∧ Pinned expected name row.2 := by
  unfold snapshotPins at h
  split at h
  · next item hlookup =>
    obtain ⟨_, -, h⟩ := bind_ok h
    obtain ⟨⟨copied, all⟩, hcopy, h⟩ := bind_ok h
    cases h
    obtain ⟨pins, hpins, hrows⟩ := each_appends (f := Prod.fst) (fun _ _ _ _ hstep => copyPin_ok hstep) hcopy
    obtain ⟨hkeys, hall⟩ := @rows_of_forall₂ _ (fun key digest => item.lookup key = some (.str digest) ∧ isSha256 digest = true)
      _ _ hrows
    change copied = [] ++ pins at hpins
    rw [List.nil_append] at hpins
    exact ⟨(name, copied), rfl, rfl, ⟨hpins ▸ hkeys, item, hlookup, hpins ▸ hall⟩⟩
  · exact absurd h refuse_ne

theorem snapshotIdentity_ok {P : Primitives} {row : Text × Argument} (hrow : row ∈ source)
    {s s' : Dict Text Identity × List Text} (hs : ∀ e ∈ s.1.items, Trusted P source e.1 e.2)
    (h : snapshotIdentity P row s = .ok s') : ∀ e ∈ s'.1.items, Trusted P source e.1 e.2 := by
  unfold snapshotIdentity at h
  split at h
  · next fields hfields =>
    obtain ⟨_, hid, h⟩ := bind_ok h
    split at h
    · next key role organization hkey hrole horganization =>
      obtain ⟨_, hcheck, h⟩ := bind_ok h
      obtain ⟨_, -, h⟩ := bind_ok h
      cases h
      obtain ⟨-, hrolename, horgname, -⟩ := require_ok.mp hcheck
      intro e he
      rcases List.mem_append.mp he with he | he
      · exact hs e (List.mem_filter.mp he).1
      · obtain rfl := List.mem_singleton.mp he
        exact ⟨(require_ok.mp hid).1, rfl, hrolename, horgname, fields, hfields ▸ hrow, hkey, hrole, horganization⟩
    · exact absurd h refuse_ne
  · exact absurd h refuse_ne

theorem snapshotPolicy_ok {P : Primitives} {argument : Argument} {policyId policyDigest : Text} {identities : Dict Text Identity}
    (h : snapshotPolicy P argument = .ok (policyId, policyDigest, identities)) :
    (∃ policy source, argument = .dict policy ∧ policy.lookup (units "policy_id") = some (.str policyId) ∧
      policy.lookup (units "identities") = some (.dict source) ∧ ∀ row ∈ identities.items, Trusted P source row.1 row.2) ∧
    isIdentity policyId = true ∧ ∃ text, canonicalPolicy P.floats policyId identities = some text ∧ policyDigest = P.sha256 text := by
  unfold snapshotPolicy at h
  split at h
  · next policy =>
    obtain ⟨_, -, h⟩ := bind_ok h
    split at h
    · next id source hid hsource =>
      obtain ⟨_, hcheck, h⟩ := bind_ok h
      obtain ⟨⟨found, fingerprints⟩, heach, h⟩ := bind_ok h
      obtain ⟨_, -, h⟩ := bind_ok h
      obtain ⟨text, htext, h⟩ := bind_ok h
      cases h
      have htrusted : ∀ row ∈ identities.items, Trusted P source row.1 row.2 :=
        each_invariant (I := fun s => ∀ row ∈ s.1.items, Trusted P source row.1 row.2)
          (fun row hrow s s' hs hstep => snapshotIdentity_ok hrow hs hstep) (fun _ he => absurd he List.not_mem_nil) heach
      exact ⟨⟨policy, source, rfl, hid, hsource, htrusted⟩, (require_ok.mp hcheck).1, text, given_ok.mp htext, rfl⟩
    · exact absurd h refuse_ne
  · exact absurd h refuse_ne

theorem snapshotInputs_ok {P : Primitives} {i : Inputs} {snap : Snapshot} (h : snapshotInputs P i = .ok snap) : Snapped P i snap := by
  unfold snapshotInputs at h
  split at h
  · next release publicDigest context expected hrelease hpublic hcontext hexpected =>
    obtain ⟨_, hcheck, h⟩ := bind_ok h
    obtain ⟨_, -, h⟩ := bind_ok h
    obtain ⟨⟨pins, digests⟩, hpins, h⟩ := bind_ok h
    obtain ⟨⟨policyId, policyDigest, identities⟩, hpolicy, h⟩ := bind_ok h
    cases h
    obtain ⟨hcommit, hdigest, hcontextok⟩ := require_ok.mp hcheck
    obtain ⟨htrusted, hid, htext⟩ := snapshotPolicy_ok hpolicy
    obtain ⟨rows, hrows, hall⟩ := each_appends (f := Prod.fst) (fun _ _ _ _ hstep => snapshotPins_ok hstep) hpins
    obtain ⟨hnames, hpinned⟩ := @rows_of_forall₂ _ (Pinned expected) _ _ hall
    change pins = [] ++ rows at hrows
    rw [List.nil_append] at hrows
    exact ⟨⟨hrelease, hcommit⟩, ⟨hpublic, hdigest⟩, ⟨hcontext, hcontextok⟩, ⟨expected, hexpected, hrows ▸ hnames, hrows ▸ hpinned⟩,
      htrusted, hid, htext⟩
  · exact absurd h refuse_ne

variable {r : Identity} {approvals : List PyValue} {s s' : Statement}

theorem Snapped.trusted {P : Primitives} {i : Inputs} {snap : Snapshot} (h : Snapped P i snap)
    (hr : snap.identities.get id = some r) : isIdentity id = true ∧ r.fingerprint = P.sha256 r.key ∧ r.role ∈ roleNames := by
  obtain ⟨-, source, -, -, -, htrusted⟩ := h.policy
  have hrow := htrusted (id, r) (Dict.get_eq_some hr)
  exact ⟨hrow.identity, hrow.fingerprint, hrow.role⟩

/-! Approvals -/

section Verdict

variable {Signed : Bytes → Bytes → Prop} {P : Primitives} {c : Case} {name : Text} {pins : List (Text × Text)}

/-- An approval of the file by a reviewer of the policy, and what the code makes of it: the
reviewer has another key and another organization than the producer, and the key has signed
this case. -/
structure Approved (Signed : Bytes → Bytes → Prop) (P : Primitives) (c : Case) (name : Text) (pins : List (Text × Text))
    (approval : PyValue) (v : VerifiedReviewerApproval) (r : Identity) : Prop where
  content : ∃ fields, approval = .dict fields ∧ exact fields approvalKeys = true ∧
    fields.lookup (units "reviewer_id") = some (.str v.reviewerId) ∧
    fields.lookup (units "reviewer_key_sha256") = some (.str v.reviewerKeySha256) ∧
    fields.lookup (units "reviewer_role") = some (.str v.reviewerRole) ∧
    fields.lookup (units "signature") = some (.str v.signature)
  reviewer : c.snapshot.identities.get v.reviewerId = some r
  described : r.role = v.reviewerRole ∧ r.fingerprint = v.reviewerKeySha256 ∧ r.organization = v.reviewerOrganization
  role : v.reviewerRole ∈ reviewerRoles
  key_ne : r.key ≠ c.producer.key
  organization_ne : r.organization ≠ c.producer.organization
  signed : ∃ signature message, signature.length = 64 ∧ b64encode signature = v.signature ∧
    approvalStatement P.floats (c.statement name pins v.reviewerId v.reviewerKeySha256 v.reviewerRole) = some message ∧
    Signed r.key message

/-- What the loop has seen is what it has collected, and nothing was seen twice. -/
structure Tallied (prior : List Text) (s : Collected) : Prop where
  keys : s.reviewerKeys = s.values.map VerifiedReviewerApproval.reviewerKeySha256
  ids : s.reviewerIds = s.values.map VerifiedReviewerApproval.reviewerId
  orgs : s.reviewerOrgs = s.values.map VerifiedReviewerApproval.reviewerOrganization
  roles : s.selectedRoles = s.values.map VerifiedReviewerApproval.reviewerRole
  signatures : s.seenSignatures.map b64encode = prior ++ s.values.map VerifiedReviewerApproval.signature
  keys_nodup : s.reviewerKeys.Nodup
  ids_nodup : s.reviewerIds.Nodup
  orgs_nodup : s.reviewerOrgs.Nodup
  signatures_nodup : s.seenSignatures.Nodup

theorem nodup_snoc {α : Type} {l : List α} {a : α} (h : l.Nodup) (ha : a ∉ l) : (l ++ [a]).Nodup :=
  List.nodup_append.mpr ⟨h, List.nodup_singleton a, fun b hb d hd heq => ha (List.mem_singleton.mp hd ▸ heq ▸ hb)⟩

/-- A signature that verifies is one of the key's owner. -/
def Sound (Signed : Bytes → Bytes → Prop) (P : Primitives) : Prop :=
  ∀ key signature message, P.verify key signature message = true → Signed key message

theorem verifyApproval_ok (hsigned : Sound Signed P) {approval : PyValue} {s s' : Collected}
    (h : verifyApproval P c name pins approval s = .ok s') :
    (∃ v, s'.values = s.values ++ [v] ∧ ∃ r, Approved Signed P c name pins approval v r) ∧
      ∀ prior, Tallied prior s → Tallied prior s' := by
  unfold verifyApproval at h
  split at h
  · next fields =>
    obtain ⟨_, hkeys, h⟩ := bind_ok h
    split at h
    · next reviewerId fingerprint role encoded hid hfingerprint hrole hencoded =>
      obtain ⟨_, -, h⟩ := bind_ok h
      obtain ⟨r, hr, h⟩ := bind_ok h
      obtain ⟨_, hcheck, h⟩ := bind_ok h
      obtain ⟨signature, -, h⟩ := bind_ok h
      obtain ⟨_, hsignature, h⟩ := bind_ok h
      obtain ⟨message, hmessage, h⟩ := bind_ok h
      obtain ⟨_, hverify, h⟩ := bind_ok h
      cases h
      obtain ⟨hreviewer, rfl, rfl, hkey, horg, hnewkey, hnewid, hneworg⟩ := require_ok.mp hcheck
      obtain ⟨hlength, rfl, hnew⟩ := require_ok.mp hsignature
      constructor
      · refine ⟨_, rfl, r, ⟨fields, rfl, require_ok.mp hkeys, hid, hfingerprint, hrole, hencoded⟩, given_ok.mp hr,
          ⟨rfl, rfl, rfl⟩, hreviewer, hkey, horg, signature, message, hlength, rfl, given_ok.mp hmessage, ?_⟩
        exact hsigned r.key signature message (require_ok.mp hverify)
      · intro prior ht
        exact
          { keys := by simp [ht.keys], ids := by simp [ht.ids], orgs := by simp [ht.orgs], roles := by simp [ht.roles],
            signatures := by simp [ht.signatures], keys_nodup := nodup_snoc ht.keys_nodup hnewkey,
            ids_nodup := nodup_snoc ht.ids_nodup hnewid, orgs_nodup := nodup_snoc ht.orgs_nodup hneworg,
            signatures_nodup := nodup_snoc ht.signatures_nodup hnew }
    · exact absurd h refuse_ne
  · exact absurd h refuse_ne

/-- The two approvals of a dependency: two people, two keys, two organizations, and one of
each role. -/
def Dual (Signed : Bytes → Bytes → Prop) (P : Primitives) (c : Case) (name : Text) (pins : List (Text × Text))
    (approvals : List PyValue) (values : List VerifiedReviewerApproval) : Prop :=
  ∃ a b v w r q, approvals = [a, b] ∧ values = [v, w] ∧ Approved Signed P c name pins a v r ∧ Approved Signed P c name pins b w q ∧
    v.reviewerId ≠ w.reviewerId ∧ r.key ≠ q.key ∧ r.organization ≠ q.organization ∧
    ((r.role = securityReviewer ∧ q.role = releaseReviewer) ∨ (r.role = releaseReviewer ∧ q.role = securityReviewer))

theorem roles_ne : securityReviewer ≠ releaseReviewer := by
  decide

def Fingerprinted (P : Primitives) (snap : Snapshot) : Prop :=
  ∀ id r, snap.identities.get id = some r → r.fingerprint = P.sha256 r.key

theorem verifyApprovals_ok (hsigned : Sound Signed P) (hprint : Fingerprinted P c.snapshot)
    {seen : List Bytes} {t : Collected} (hlength : approvals.length = 2) (hseen : seen.Nodup)
    (h : each (verifyApproval P c name pins) approvals ⟨[], [], [], [], [], seen⟩ = .ok t)
    (hroles : ∀ role ∈ reviewerRoles, role ∈ t.selectedRoles) :
    Dual Signed P c name pins approvals t.values ∧ t.seenSignatures.Nodup ∧
      t.seenSignatures.map b64encode = seen.map b64encode ++ t.values.map VerifiedReviewerApproval.signature := by
  obtain ⟨values, hvalues, hall⟩ := each_appends (f := Collected.values)
    (R := fun approval v => ∃ r, Approved Signed P c name pins approval v r)
    (fun _ _ _ _ hstep => (verifyApproval_ok hsigned hstep).1) h
  have htallied : Tallied (seen.map b64encode) t := by
    refine each_invariant (I := Tallied (seen.map b64encode)) (fun _ _ _ _ hs hstep => (verifyApproval_ok hsigned hstep).2 _ hs) ?_ h
    exact ⟨rfl, rfl, rfl, rfl, by simp, List.nodup_nil, List.nodup_nil, List.nodup_nil, hseen⟩
  refine ⟨?_, htallied.signatures_nodup, htallied.signatures⟩
  change t.values = [] ++ values at hvalues
  rw [List.nil_append] at hvalues
  subst hvalues
  obtain ⟨a, b, rfl⟩ := List.length_eq_two.mp hlength
  generalize hvs : t.values = vs at hall
  obtain ⟨v, vs, ⟨r, ha⟩, htail, rfl⟩ := List.forall₂_cons_left_iff.mp hall
  obtain ⟨w, ws, ⟨q, hb⟩, hnil, rfl⟩ := List.forall₂_cons_left_iff.mp htail
  obtain rfl := List.forall₂_nil_left_iff.mp hnil
  have hids := htallied.ids_nodup
  have hkeys := htallied.keys_nodup
  have horgs := htallied.orgs_nodup
  rw [htallied.ids, hvs] at hids
  rw [htallied.keys, hvs] at hkeys
  rw [htallied.orgs, hvs] at horgs
  rw [htallied.roles, hvs] at hroles
  obtain ⟨hrole, hfingerprint, horganization⟩ := ha.described
  obtain ⟨hrole', hfingerprint', horganization'⟩ := hb.described
  have hid : v.reviewerId ≠ w.reviewerId := by simpa using hids
  have hkey : r.key ≠ q.key := by
    intro heq
    have hsame : v.reviewerKeySha256 = w.reviewerKeySha256 := by
      rw [← hfingerprint, ← hfingerprint', hprint _ r ha.reviewer, hprint _ q hb.reviewer, heq]
    simp [hsame] at hkeys
  have horg : r.organization ≠ q.organization := by
    rw [horganization, horganization']
    simpa using horgs
  refine ⟨a, b, v, w, r, q, rfl, rfl, ha, hb, hid, hkey, horg, ?_⟩
  -- both roles are there, and an approval has one of them
  have hsecurity := hroles securityReviewer (by simp [reviewerRoles])
  have hrelease := hroles releaseReviewer (by simp [reviewerRoles])
  simp only [List.map_cons, List.map_nil, List.mem_cons, List.not_mem_nil, or_false, ← hrole, ← hrole'] at hsecurity hrelease
  rcases hsecurity with hs | hs
  · rcases hrelease with hr | hr
    · exact absurd (hs.trans hr.symm) roles_ne
    · exact .inl ⟨hs.symm, hr.symm⟩
  · rcases hrelease with hr | hr
    · exact .inr ⟨hr.symm, hs.symm⟩
    · exact absurd (hs.trans hr.symm) roles_ne

/-! Dependencies -/

theorem verifyDigest_ok {item : List (Text × PyValue)} {s s' : List Text} (h : verifyDigest pins item key s = .ok s') :
    ∃ digest, pins.lookup key = some digest ∧ item.lookup key = some (.str digest) := by
  unfold verifyDigest at h
  split at h
  · next digest hlookup =>
    obtain ⟨_, hcheck, h⟩ := bind_ok h
    cases h
    exact ⟨digest, (require_ok.mp hcheck).1, hlookup⟩
  · exact absurd h refuse_ne

/-- A dependency of the file, and the evidence made of it. -/
structure Reviewed (Signed : Bytes → Bytes → Prop) (P : Primitives) (c : Case) (name : Text) (pins : List (Text × Text))
    (item : List (Text × PyValue)) (d : DependencyEvidence) : Prop where
  keys : exact item (pinKeys ++ [units "approvals"]) = true
  digests : ∀ key ∈ pinKeys, ∃ digest, pins.lookup key = some digest ∧ item.lookup key = some (.str digest)
  evidence : item.lookup (units "artifact_sha256") = some (.str d.artifactSha256) ∧
    item.lookup (units "config_sha256") = some (.str d.configSha256) ∧
    item.lookup (units "evidence_sha256") = some (.str d.evidenceSha256)
  approvals : ∃ approvals, item.lookup (units "approvals") = some (.list approvals) ∧
    Dual Signed P c name pins approvals d.approvals

def signaturesOf (dependencies : List (Text × DependencyEvidence)) : List Text :=
  dependencies.flatMap (fun d => d.2.approvals.map VerifiedReviewerApproval.signature)

/-- The signatures seen are those of the dependencies, each seen once. -/
def Unrepeated (s : Progress) : Prop := s.seenSignatures.Nodup ∧ s.seenSignatures.map b64encode = signaturesOf s.validated

def RowReviewed (Signed : Bytes → Bytes → Prop) (P : Primitives) (c : Case) (dependencies : List (Text × PyValue)) (name : Text)
    (d : DependencyEvidence) : Prop :=
  ∃ item pins, dependencies.lookup name = some (.dict item) ∧ c.snapshot.pins.lookup name = some pins ∧
    Reviewed Signed P c name pins item d

theorem verifyDependency_ok (hsigned : Sound Signed P) (hprint : Fingerprinted P c.snapshot) {dependencies : List (Text × PyValue)}
    {s s' : Progress} (hs : Unrepeated s) (h : verifyDependency P c dependencies name s = .ok s') :
    Unrepeated s' ∧ ∃ row, s'.validated = s.validated ++ [row] ∧ row.1 = name ∧
      RowReviewed Signed P c dependencies name row.2 := by
  obtain ⟨hnodup, hsignatures⟩ := hs
  unfold verifyDependency at h
  split at h
  · next item pins hitem hpins =>
    obtain ⟨_, hkeys, h⟩ := bind_ok h
    obtain ⟨seenDigests, hdigests, h⟩ := bind_ok h
    split at h
    · next approvals happrovals =>
      obtain ⟨_, hlength, h⟩ := bind_ok h
      obtain ⟨r, hr, h⟩ := bind_ok h
      obtain ⟨_, hroles, h⟩ := bind_ok h
      split at h
      · next artifact config evidence hartifact hconfig hevidence =>
        cases h
        obtain ⟨hdual, hnodup', hsignatures'⟩ := verifyApprovals_ok hsigned hprint (require_ok.mp hlength)
          hnodup hr (require_ok.mp hroles).2
        have hpinned : ∀ key ∈ pinKeys, ∃ digest, pins.lookup key = some digest ∧ item.lookup key = some (.str digest) := by
          intro key hkey
          obtain ⟨t, t', hstep⟩ := each_passed hdigests key hkey
          exact verifyDigest_ok hstep
        refine ⟨⟨hnodup', ?_⟩, _, rfl, rfl, item, pins, hitem, hpins,
          ⟨require_ok.mp hkeys, hpinned, ⟨hartifact, hconfig, hevidence⟩, approvals, happrovals, hdual⟩⟩
        simp [hsignatures', hsignatures, signaturesOf]
      · exact absurd h refuse_ne
    · exact absurd h refuse_ne
  · exact absurd h refuse_ne

end Verdict

/-! What a signature binds -/

theorem isHexOf_visible {k : Nat} {s : Text} (h : isHexOf k s = true) : Visible s := by
  obtain ⟨hall, -⟩ := Bool.and_eq_true_iff.mp h
  intro n hn
  have hhex := List.all_eq_true.mp hall n hn
  simp only [isLowerHex, Bool.or_eq_true, isDigit_iff, Bool.and_eq_true, decide_eq_true_eq, unit, Char.reduceToNat] at hhex
  omega

theorem isLowerAlnum_lt {n : Nat} (h : isLowerAlnum n = true) : n < 127 := by
  simp only [isLowerAlnum, Bool.or_eq_true, isDigit_iff, Bool.and_eq_true, decide_eq_true_eq, unit, Char.reduceToNat] at h
  omega

theorem isWord_visible {marks : Text} {k : Nat} (hmarks : Visible marks) {s : Text} (h : isWord marks k s = true) : Visible s := by
  cases s with
  | nil => exact visible_nil
  | cons c rest =>
    simp only [isWord, Bool.and_eq_true, Bool.or_eq_true, List.isEmpty_iff, List.all_eq_true] at h
    obtain ⟨hc, hrest⟩ := h
    refine visible_cons.mpr ⟨isLowerAlnum_lt hc, ?_⟩
    rcases hrest with rfl | ⟨⟨hinner, -⟩, hlast⟩
    · exact visible_nil
    · rcases List.eq_nil_or_concat rest with rfl | ⟨front, d, rfl⟩
      · exact visible_nil
      · rw [List.concat_eq_append, List.dropLast_concat] at hinner
        rw [List.concat_eq_append, List.getLast?_concat, Option.any_some] at hlast
        rw [List.concat_eq_append]
        refine Visible.append ?_ (visible_cons.mpr ⟨isLowerAlnum_lt hlast, visible_nil⟩)
        intro n hn
        rcases hinner n hn with hn | hn
        · exact isLowerAlnum_lt hn
        · exact hmarks n (List.contains_iff_mem.mp hn)

theorem isIdentity_visible {s : Text} (h : isIdentity s = true) : Visible s := isWord_visible (by decide) h

theorem isContext_visible {s : Text} (h : isContext s = true) : Visible s := isWord_visible (by decide) h

theorem b64encode_visible (bytes : Bytes) : Visible (b64encode bytes) := by
  intro n hn
  obtain ⟨c, hc, rfl⟩ := List.mem_map.mp hn
  exact Base64.encode_visible bytes c hc

theorem b64encode_injective : Function.Injective b64encode := by
  intro bytes bytes' h
  exact Base64.encode_injective (List.map_injective_iff.mpr (fun _ _ => Char.toNat_inj.mp) h)

theorem roleNames_visible : ∀ role ∈ roleNames, Visible role := by decide

theorem dependencyNames_visible : ∀ name ∈ dependencyNames, Visible name := by decide

section Policy

variable {P : Primitives}

theorem identityFields_ordinary (h : Trusted P source id r) :
    Ordinary (.dict (identityFields r)) :=
  ⟨⟨by decide, b64encode_visible r.key⟩, ⟨by decide, roleNames_visible r.role h.role, trivial⟩,
    ⟨by decide, isIdentity_visible h.organization⟩, trivial⟩

theorem identity_of_tree {r' : Identity} (hr : r.fingerprint = P.sha256 r.key) (hr' : r'.fingerprint = P.sha256 r'.key)
    (h : treeOf (.dict (identityFields r)) = treeOf (.dict (identityFields r'))) : r = r' := by
  have hnodup : ((identityFields r).map Prod.fst).Nodup := by
    show [units "public_key", units "roles", units "organization"].Nodup
    decide
  have hvalues := values_of_tree hnodup h rfl
  simp only [identityFields, List.map_cons, List.map_nil, treeOf, treeItems, List.cons.injEq, Tree.str.injEq, Tree.arr.injEq, and_true] at hvalues
  obtain ⟨hkey, hrole, horganization⟩ := hvalues
  have hkey := b64encode_injective hkey
  rw [← hkey] at hr'
  cases r
  cases r'
  simp_all

theorem perm_sortedItems (identities : Dict Text Identity) : (sortedItems identities).Perm identities.items :=
  List.perm_insertionSort _ _

theorem sortedItems_nodup (identities : Dict Text Identity) : ((sortedItems identities).map Prod.fst).Nodup :=
  ((perm_sortedItems identities).map Prod.fst).nodup_iff.mpr identities.distinct

variable {i : Inputs} {snap : Snapshot}

theorem policyFields_ordinary (h : Snapped P i snap) :
    Ordinary (.dict (policyFields snap.policyId snap.identities)) := by
  obtain ⟨-, source, -, -, -, htrusted⟩ := h.policy
  refine ⟨⟨by decide, isIdentity_visible h.policyId⟩, ⟨by decide, ?_⟩, trivial⟩
  refine ordinaryMembers_iff.mpr fun item hitem => ?_
  obtain ⟨row, hrow, rfl⟩ := List.mem_map.mp hitem
  have hentry := htrusted row ((perm_sortedItems snap.identities).mem_iff.mp hrow)
  exact ⟨isIdentity_visible hentry.identity, identityFields_ordinary hentry⟩

theorem lookup_items (identities : Dict Text Identity) (id : Text) : identities.items.lookup id = identities.get id := by
  cases h : identities.get id with
  | none =>
    refine List.lookup_eq_none_iff.mpr fun e he => ?_
    simpa using (Dict.get_eq_none h e he).symm
  | some => exact (lookup_eq_some_of_nodup identities.distinct).mpr (Dict.get_eq_some h)

/-- Policies of one text have the same identities. -/
theorem identities_of_text {i' : Inputs} {snap' : Snapshot} (h : Snapped P i snap) (h' : Snapped P i' snap') {text : Bytes}
    (ht : canonicalPolicy P.floats snap.policyId snap.identities = some text)
    (ht' : canonicalPolicy P.floats snap'.policyId snap'.identities = some text) (id : Text) :
    snap.identities.get id = snap'.identities.get id := by
  have htree := tree_of_canonicalAscii (policyFields_ordinary h) (policyFields_ordinary h') ht ht'
  have hkeys : ((policyFields snap.policyId snap.identities).map Prod.fst).Nodup := by
    show [units "policy_id", units "identities"].Nodup
    decide
  have hvalues := values_of_tree hkeys htree rfl
  simp only [policyFields, List.map_cons, List.map_nil, List.cons.injEq, and_true] at hvalues
  have hnodup : (((sortedItems snap.identities).map (fun e => (e.1, PyValue.dict (identityFields e.2)))).map Prod.fst).Nodup := by
    rw [List.map_map]
    exact sortedItems_nodup snap.identities
  have hlookup := lookup_of_tree hnodup hvalues.2 id
  rw [lookup_map (fun r => PyValue.dict (identityFields r)), lookup_map (fun r => PyValue.dict (identityFields r)),
    lookup_perm (sortedItems_nodup _) (perm_sortedItems snap.identities),
    lookup_perm (sortedItems_nodup _) (perm_sortedItems snap'.identities)] at hlookup
  rw [lookup_items, lookup_items] at hlookup
  cases hr : snap.identities.get id with
  | none =>
    cases hr' : snap'.identities.get id with
    | none => rfl
    | some =>
      rw [hr, hr'] at hlookup
      cases hlookup
  | some =>
    cases hr' : snap'.identities.get id with
    | none =>
      rw [hr, hr'] at hlookup
      cases hlookup
    | some =>
      rw [hr, hr'] at hlookup
      exact congrArg some (identity_of_tree (h.trusted hr).2.1 (h'.trusted hr').2.1 (Option.some.inj hlookup))

end Policy

def statementKeys : List Text :=
  [units "schema", units "version", units "environment", units "release_commit", units "ceremony_context_id",
   units "public_config_sha256", units "policy_id", units "policy_sha256", units "producer_id", units "producer_key_sha256",
   units "dependency_name"] ++ pinKeys ++ [units "reviewer_id", units "reviewer_key_sha256", units "reviewer_role"]

theorem statementKeys_nodup : statementKeys.Nodup := by decide

theorem statementKeys_visible : ∀ key ∈ statementKeys, Visible key := by decide

theorem fields_keys (h : s.pins.map Prod.fst = pinKeys) : s.fields.map Prod.fst = statementKeys := by
  have hpins : (s.pins.map (fun pin => (pin.1, PyValue.str pin.2))).map Prod.fst = pinKeys := by
    rw [List.map_map]
    exact h
  rw [Statement.fields, List.map_append, List.map_append, hpins]
  rfl

theorem pins_shape (h : pins.map Prod.fst = pinKeys) : ∃ artifact config evidence,
    pins = [(units "artifact_sha256", artifact), (units "config_sha256", config), (units "evidence_sha256", evidence)] := by
  obtain ⟨⟨_, artifact⟩, rest, rfl, rfl, hrest⟩ := List.map_eq_cons_iff.mp h
  obtain ⟨⟨_, config⟩, last, rfl, rfl, hlast⟩ := List.map_eq_cons_iff.mp hrest
  obtain ⟨⟨_, evidence⟩, none, rfl, rfl, hnone⟩ := List.map_eq_cons_iff.mp hlast
  obtain rfl := List.map_eq_nil_iff.mp hnone
  exact ⟨artifact, config, evidence, rfl⟩

/-- The strings of a statement are visible ASCII, and its pins are those of the snapshot. -/
structure Statement.Proper (s : Statement) : Prop where
  pins : s.pins.map Prod.fst = pinKeys
  digests : ∀ pin ∈ s.pins, Visible pin.2
  texts : ∀ t ∈ [s.releaseCommit, s.ceremonyContextId, s.publicConfigSha256, s.policyId, s.policySha256, s.producerId,
    s.producerKeySha256, s.dependencyName, s.reviewerId, s.reviewerKeySha256, s.reviewerRole], Visible t

theorem Statement.Proper.ordinary (h : s.Proper) : Ordinary (.dict s.fields) := by
  have htexts := h.texts
  simp only [List.forall_mem_cons, List.not_mem_nil, false_implies, implies_true, and_true] at htexts
  obtain ⟨hrelease, hcontext, hpublic, hpolicy, hpolicyDigest, hproducer, hproducerKey, hname, hreviewer, hkey, hrole⟩ := htexts
  have hvalues : ∀ item ∈ s.fields, Ordinary item.2 := by
    have hschema : Visible schema := by decide
    have hversion : Ordinary (.int version) := by decide
    have hproduction : Visible production := by decide
    simp only [Statement.fields, List.forall_mem_append, List.forall_mem_cons, List.forall_mem_map, List.not_mem_nil,
      false_implies, implies_true, and_true, Ordinary]
    exact ⟨⟨⟨hschema, hversion, hproduction, hrelease, hcontext, hpublic, hpolicy, hpolicyDigest, hproducer, hproducerKey, hname⟩, h.digests⟩,
      hreviewer, hkey, hrole⟩
  refine ordinaryMembers_iff.mpr fun item hitem => ⟨statementKeys_visible item.1 ?_, hvalues item hitem⟩
  rw [← fields_keys h.pins]
  exact List.mem_map_of_mem hitem

theorem statement_injective {floats : Floats} (h : s.Proper) (h' : s'.Proper)
    (hm : approvalStatement floats s = some message) (hm' : approvalStatement floats s' = some message) : s = s' := by
  obtain ⟨bytes, hbytes, rfl⟩ := Option.map_eq_some_iff.mp hm
  obtain ⟨bytes', hbytes', heq⟩ := Option.map_eq_some_iff.mp hm'
  rw [List.append_cancel_left heq] at hbytes'
  have htree := tree_of_canonicalAscii h.ordinary h'.ordinary hbytes hbytes'
  have hkeys := fields_keys h.pins
  have hvalues := values_of_tree (hkeys ▸ statementKeys_nodup) htree (hkeys.trans (fields_keys h'.pins).symm)
  obtain ⟨artifact, config, evidence, hpins⟩ := pins_shape h.pins
  obtain ⟨artifact', config', evidence', hpins'⟩ := pins_shape h'.pins
  cases s
  cases s'
  simp only at hpins hpins'
  subst hpins hpins'
  simp only [Statement.fields, List.map_cons, List.map_nil, List.cons_append, List.nil_append, treeOf,
    List.cons.injEq, Tree.str.injEq, and_true, true_and] at hvalues
  obtain ⟨rfl, rfl, rfl, rfl, rfl, rfl, rfl, rfl, rfl, rfl, rfl, rfl, rfl, rfl⟩ := hvalues
  rfl

/-! Separation of duties -/

def Case.of (snap : Snapshot) (e : ValidatedProductionEvidence) (producer : Identity) : Case := ⟨snap, e.producerId, producer⟩

/-- An accepted document shows that its dependencies were reviewed by others than their producer. -/
structure Separated (Signed : Bytes → Bytes → Prop) (P : Primitives) (snap : Snapshot) (data : PyValue)
    (e : ValidatedProductionEvidence) (producer : Identity) : Prop where
  identity : snap.identities.get e.producerId = some producer ∧ producer.role = producerRole ∧
    producer.fingerprint = e.producerKeySha256 ∧ producer.organization = e.producerOrganization
  bound : e.releaseCommit = snap.release ∧ e.ceremonyContextId = snap.context ∧ e.publicConfigSha256 = snap.publicDigest ∧
    e.policyId = snap.policyId ∧ e.policySha256 = snap.policyDigest
  names : e.dependencies.map Prod.fst = dependencyNames
  reviewed : ∃ fields dependencies, data = .dict fields ∧ fields.lookup (units "dependencies") = some (.dict dependencies) ∧
    exact dependencies dependencyNames = true ∧
    ∀ row ∈ e.dependencies, RowReviewed Signed P (Case.of snap e producer) dependencies row.1 row.2
  signatures : (signaturesOf e.dependencies).Nodup

/-- What a call read: the snapshot of its arguments, the bytes and what they say. -/
structure Read (P : Primitives) (i : Inputs) (file : Reading) (snap : Snapshot) (raw : Bytes) (data : PyValue) : Prop where
  snapshot : snapshotInputs P i = .ok snap
  snapped : Snapped P i snap
  bytes : load file = .ok raw
  content : loads P raw = .ok data
  canonical : canonical P.floats data = some raw

variable {Signed : Bytes → Bytes → Prop} {P : Primitives} {i i' : Inputs} {file file' : Reading} {snap snap' : Snapshot}
  {raw raw' : Bytes} {data data' : PyValue} {e e' : ValidatedProductionEvidence} {producer producer' : Identity}

theorem Snapped.fingerprinted (h : Snapped P i snap) : Fingerprinted P snap := fun _ _ hr => (h.trusted hr).2.1

theorem verifyManifest_ok (hsigned : Sound Signed P) (hprint : Fingerprinted P snap) (h : verifyManifest P snap raw data = .ok e) :
    ∃ producer, Separated Signed P snap data e producer := by
  unfold verifyManifest at h
  split at h
  · next fields =>
    obtain ⟨_, -, h⟩ := bind_ok h
    obtain ⟨_, -, h⟩ := bind_ok h
    split at h
    · next producerId dependencies hid hdependencies =>
      obtain ⟨_, -, h⟩ := bind_ok h
      obtain ⟨producer, hproducer, h⟩ := bind_ok h
      obtain ⟨_, hrole, h⟩ := bind_ok h
      obtain ⟨_, hexact, h⟩ := bind_ok h
      obtain ⟨r, hr, h⟩ := bind_ok h
      cases h
      have hstart : Unrepeated ⟨[], [], []⟩ := ⟨List.nodup_nil, rfl⟩
      obtain ⟨⟨hnodup, hsignatures⟩, rows, hrows, hall⟩ := each_appends_kept (f := Progress.validated) (I := Unrepeated)
        (R := fun name row => row.1 = name ∧ RowReviewed Signed P ⟨snap, producerId, producer⟩ dependencies name row.2)
        (fun _ _ _ _ hs hstep => verifyDependency_ok hsigned hprint hs hstep) hstart hr
      obtain ⟨hnames, hreviewed⟩ := rows_of_forall₂ hall
      change r.validated = [] ++ rows at hrows
      rw [List.nil_append] at hrows
      subst hrows
      refine ⟨producer, ⟨given_ok.mp hproducer, (require_ok.mp hrole).1, rfl, rfl⟩, ⟨rfl, rfl, rfl, rfl, rfl⟩, hnames,
        ⟨fields, dependencies, rfl, hdependencies, require_ok.mp hexact, hreviewed⟩, ?_⟩
      show (signaturesOf r.validated).Nodup
      rw [← hsignatures]
      exact hnodup.map b64encode_injective
    · exact absurd h refuse_ne
  · exact absurd h refuse_ne

theorem load_ok (hsigned : Sound Signed P) (h : loadProductionReviewManifest P i file = .ok e) :
    ∃ snap raw data producer, Read P i file snap raw data ∧ Separated Signed P snap data e producer := by
  obtain ⟨snap, hsnap, h⟩ := bind_ok h
  obtain ⟨raw, hraw, h⟩ := bind_ok h
  obtain ⟨data, hdata, h⟩ := bind_ok h
  obtain ⟨_, -, h⟩ := bind_ok h
  obtain ⟨_, hcanonical, h⟩ := bind_ok h
  have hsnapped := snapshotInputs_ok hsnap
  obtain ⟨producer, hseparated⟩ := verifyManifest_ok hsigned hsnapped.fingerprinted h
  exact ⟨snap, raw, data, producer, ⟨hsnap, hsnapped, hraw, hdata, require_ok.mp hcanonical⟩, hseparated⟩

def Stated (snap : Snapshot) (e : ValidatedProductionEvidence) (producer : Identity) (s : Statement) : Prop :=
  ∃ row ∈ e.dependencies, ∃ pins v, snap.pins.lookup row.1 = some pins ∧ v ∈ row.2.approvals ∧
    s = (Case.of snap e producer).statement row.1 pins v.reviewerId v.reviewerKeySha256 v.reviewerRole

theorem Dual.approved {c : Case}
    {values : List VerifiedReviewerApproval} (h : Dual Signed P c name pins approvals values) {v : VerifiedReviewerApproval}
    (hv : v ∈ values) : ∃ a r, Approved Signed P c name pins a v r := by
  obtain ⟨a, b, v₁, v₂, r, q, -, rfl, ha, hb, -⟩ := h
  rcases List.mem_cons.mp hv with rfl | hv
  · exact ⟨a, r, ha⟩
  · obtain rfl := List.mem_singleton.mp hv
    exact ⟨b, q, hb⟩

theorem Snapped.pins_of_lookup (h : Snapped P i snap)
    (hpins : snap.pins.lookup name = some pins) : pins.map Prod.fst = pinKeys ∧ ∀ pin ∈ pins, isSha256 pin.2 = true := by
  obtain ⟨expected, -, -, hpinned⟩ := h.pins
  obtain ⟨pre, post, heq, -⟩ := List.lookup_eq_some_iff.mp hpins
  have hrow := hpinned (name, pins) (by rw [heq]; exact List.mem_append_right _ List.mem_cons_self)
  obtain ⟨item, -, hdigests⟩ := hrow.digests
  exact ⟨hrow.keys, fun pin hpin => (hdigests pin hpin).2⟩

theorem Snapped.statement_proper {c : Case} (h : Snapped P i c.snapshot) (hproducer : c.snapshot.identities.get c.producerId = some c.producer)
    {reviewerId : Text} (hname : name ∈ dependencyNames)
    (hpins : c.snapshot.pins.lookup name = some pins) (hr : c.snapshot.identities.get reviewerId = some r) :
    (c.statement name pins reviewerId r.fingerprint r.role).Proper := by
  obtain ⟨hkeys, hdigests⟩ := h.pins_of_lookup hpins
  obtain ⟨hid, hkey, -⟩ := h.trusted hproducer
  obtain ⟨hreviewer, hreviewerKey, hrole⟩ := h.trusted hr
  obtain ⟨text, -, hdigest⟩ := h.policyDigest
  have hsha : ∀ b, Visible (P.sha256 b) := fun b => isHexOf_visible (P.sha256_digest b)
  refine ⟨hkeys, fun pin hpin => isHexOf_visible (hdigests pin hpin), ?_⟩
  simp only [Case.statement, List.forall_mem_cons, List.not_mem_nil, false_implies, implies_true, and_true]
  exact ⟨isHexOf_visible h.release.2, isContext_visible h.context.2, isHexOf_visible h.publicDigest.2,
    isIdentity_visible h.policyId, hdigest ▸ hsha text, isIdentity_visible hid, hkey ▸ hsha _,
    dependencyNames_visible _ hname, isIdentity_visible hreviewer, hreviewerKey ▸ hsha _, roleNames_visible _ hrole⟩

theorem Stated.proper (hsnap : Snapped P i snap) (hseparated : Separated Signed P snap data e producer)
    (h : Stated snap e producer s) : s.Proper := by
  obtain ⟨row, hrow, pins, v, hpins, hv, rfl⟩ := h
  obtain ⟨fields, dependencies, -, -, -, hreviewed⟩ := hseparated.reviewed
  obtain ⟨item, pins', -, -, hreview⟩ := hreviewed row hrow
  obtain ⟨approvals, -, hdual⟩ := hreview.approvals
  obtain ⟨a, r, ha⟩ := hdual.approved hv
  have hname : row.1 ∈ dependencyNames := by
    rw [← hseparated.names]
    exact List.mem_map_of_mem hrow
  obtain ⟨hrole, hfingerprint, -⟩ := ha.described
  rw [← hrole, ← hfingerprint]
  exact Snapped.statement_proper (c := Case.of snap e producer) hsnap hseparated.identity.1 hname hpins ha.reviewer

theorem stated_alike (hsnap : Snapped P i snap) (hsnap' : Snapped P i' snap') (hsep : Separated Signed P snap data e producer)
    (hsep' : Separated Signed P snap' data' e' producer')
    (hfree : ∀ text text', canonicalPolicy P.floats snap.policyId snap.identities = some text →
      canonicalPolicy P.floats snap'.policyId snap'.identities = some text' → P.sha256 text = P.sha256 text' → text = text')
    (hs : Stated snap e producer s) (hs' : Stated snap' e' producer' s')
    (hm : approvalStatement P.floats s = some message) (hm' : approvalStatement P.floats s' = some message) :
    s = s' ∧ ∀ id, snap.identities.get id = snap'.identities.get id := by
  have heq := statement_injective (hs.proper hsnap hsep) (hs'.proper hsnap' hsep') hm hm'
  obtain ⟨text, htext, hdigest⟩ := hsnap.policyDigest
  obtain ⟨text', htext', hdigest'⟩ := hsnap'.policyDigest
  have hpolicy : snap.policyDigest = snap'.policyDigest := by
    obtain ⟨_, -, _, _, -, -, rfl⟩ := hs
    obtain ⟨_, -, _, _, -, -, rfl⟩ := hs'
    exact congrArg Statement.policySha256 heq
  have hsame : text = text' := hfree text text' htext htext' (by rw [← hdigest, ← hdigest', hpolicy])
  exact ⟨heq, identities_of_text hsnap hsnap' htext (hsame ▸ htext')⟩

theorem Read.same (h : Read P i file snap raw data) (h' : Read P i' file' snap' raw' data') (hsame : Same data data') : raw = raw' := by
  have hkeyed : ∀ {b : Bytes} {v : PyValue}, loads P b = .ok v → Keyed v := by
    intro b v hv
    obtain ⟨text, htext, hv⟩ := bind_ok hv
    refine @loads_keyed P.fold b text v (given_ok.mp htext) ?_
    cases hloads : strictJsonLoads P.fold text with
    | error => simp [hloads, given, refuse, Except.toOption] at hv
    | ok => simpa [hloads, given, Except.toOption] using hv
  obtain ⟨text, htext, hraw⟩ := Option.bind_eq_some_iff.mp h.canonical
  obtain ⟨text', htext', hraw'⟩ := Option.bind_eq_some_iff.mp h'.canonical
  have heq := dumps_same data hsame (hkeyed h.content) (hkeyed h'.content) htext htext'
  rw [heq] at hraw
  exact Option.some.inj (hraw.symm.trans hraw')

end GrowthMap.ReviewManifest
