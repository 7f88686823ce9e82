import GrowthMap.Payments.ReviewVerdict

/- Separation of duties.

   A manifest that reviewers of the policy have signed is accepted
   (`signed_manifest_accepted`), and one that is accepted was signed so
   (`accepted_manifest_separates`). The sample is a release with keys and signatures of
   Ed25519 and digests of SHA-256. -/
namespace GrowthMap.ReviewManifest
open JsonGrammar StrictJson PyJson Fallible Ordered

/-! What reviewers sign is accepted -/

theorem require_of {c : Prop} [Decidable c] (h : c) : require c = .ok () := require_ok.mpr h

theorem exact_of_keys {α : Type} {items : List (Text × α)} {keys : List Text} (h : (items.map Prod.fst).Perm keys) :
    exact items keys = true := by
  refine Bool.and_eq_true_iff.mpr ⟨List.all_eq_true.mpr fun item hitem => ?_, List.all_eq_true.mpr fun key hkey => ?_⟩
  · exact decide_eq_true (h.mem_iff.mp (List.mem_map_of_mem hitem))
  · exact decide_eq_true (h.mem_iff.mpr hkey)

/-- A reviewer, and the signature. -/
structure Review where
  reviewerId : Text
  reviewer : Identity
  signature : Bytes

def Review.approvalFields (r : Review) : List (Text × PyValue) :=
  [(units "reviewer_id", .str r.reviewerId), (units "reviewer_key_sha256", .str r.reviewer.fingerprint),
   (units "reviewer_role", .str r.reviewer.role), (units "signature", .str (b64encode r.signature))]

def Review.verified (r : Review) : VerifiedReviewerApproval :=
  ⟨r.reviewerId, r.reviewer.fingerprint, r.reviewer.role, r.reviewer.organization, b64encode r.signature⟩

/-- The pins of a dependency, and its two reviews. -/
structure ReviewedPins where
  name : Text
  pins : List (Text × Text)
  security : Review
  release : Review

def ReviewedPins.fields (d : ReviewedPins) : List (Text × PyValue) :=
  (units "approvals", .list [.dict d.security.approvalFields, .dict d.release.approvalFields]) ::
    d.pins.map (fun pin => (pin.1, .str pin.2))

def ReviewedPins.signatures (d : ReviewedPins) : List Bytes := [d.security.signature, d.release.signature]

def ReviewedPins.digests (d : ReviewedPins) : List Text := d.pins.map Prod.snd

section Accepted

variable {P : Primitives} {c : Case}

/-- The producer of a case is one of its policy. -/
structure Case.Proper (c : Case) : Prop where
  identity : isIdentity c.producerId = true
  known : c.snapshot.identities.get c.producerId = some c.producer
  role : c.producer.role = producerRole

/-- The reviewer may review this, and the key has signed it. -/
structure Review.Valid (P : Primitives) (c : Case) (name : Text) (pins : List (Text × Text)) (role : Text) (r : Review) : Prop where
  identity : isIdentity r.reviewerId = true
  known : c.snapshot.identities.get r.reviewerId = some r.reviewer
  role : r.reviewer.role = role
  key_ne : r.reviewer.key ≠ c.producer.key
  organization_ne : r.reviewer.organization ≠ c.producer.organization
  length : r.signature.length = 64
  signed : ∀ message, approvalStatement P.floats (c.statement name pins r.reviewerId r.reviewer.fingerprint r.reviewer.role) =
    some message → P.verify r.reviewer.key r.signature message = true

theorem b64decode_encode (bytes : Bytes) : b64decode (b64encode bytes) = some bytes := by
  have hchars : (b64encode bytes).map Char.ofNat = Base64.encode bytes := by
    rw [b64encode, List.map_map]
    conv_rhs => rw [← List.map_id (Base64.encode bytes)]
    exact List.map_congr_left fun ch _ => Char.ofNat_toNat ch
  rw [b64decode, hchars, Base64.decode_encode]

theorem Statement.Proper.message {s : Statement} (h : s.Proper) (floats : Floats) : ∃ message, approvalStatement floats s = some message := by
  obtain ⟨t, -, -, -, -, hbytes⟩ := canonical_fits floats h.ordinary
  exact ⟨domain ++ t.map Nat.toUInt8, by rw [approvalStatement, hbytes, Option.map_some]⟩

theorem verifyApproval_of {name role : Text} {pins : List (Text × Text)} {r : Review} {s : Collected} (hr : r.Valid P c name pins role)
    (hproper : (c.statement name pins r.reviewerId r.reviewer.fingerprint r.reviewer.role).Proper) (hrole : role ∈ reviewerRoles) (hkey : r.reviewer.fingerprint ∉ s.reviewerKeys) (hid : r.reviewerId ∉ s.reviewerIds)
    (horg : r.reviewer.organization ∉ s.reviewerOrgs) (hsignature : r.signature ∉ s.seenSignatures) :
    verifyApproval P c name pins (.dict r.approvalFields) s = .ok
      { values := s.values ++ [r.verified], reviewerKeys := s.reviewerKeys ++ [r.reviewer.fingerprint],
        reviewerIds := s.reviewerIds ++ [r.reviewerId], reviewerOrgs := s.reviewerOrgs ++ [r.reviewer.organization],
        selectedRoles := s.selectedRoles ++ [role], seenSignatures := s.seenSignatures ++ [r.signature] } := by
  obtain ⟨message, hmessage⟩ := hproper.message P.floats
  have hverify := hr.signed message hmessage
  obtain rfl := hr.role
  have hkeys : exact r.approvalFields approvalKeys = true := exact_of_keys (.refl _)
  have hnodup : (r.approvalFields.map Prod.fst).Nodup := by
    show approvalKeys.Nodup
    decide
  have hlookup : ∀ key v, (key, v) ∈ r.approvalFields → r.approvalFields.lookup key = some v :=
    fun _ _ => (lookup_eq_some_of_nodup hnodup).mpr
  have hcheck : r.reviewer.role ∈ reviewerRoles ∧ r.reviewer.role = r.reviewer.role ∧
      r.reviewer.fingerprint = r.reviewer.fingerprint ∧ r.reviewer.key ≠ c.producer.key ∧
      r.reviewer.organization ≠ c.producer.organization ∧ r.reviewer.fingerprint ∉ s.reviewerKeys ∧
      r.reviewerId ∉ s.reviewerIds ∧ r.reviewer.organization ∉ s.reviewerOrgs :=
    ⟨hrole, rfl, rfl, hr.key_ne, hr.organization_ne, hkey, hid, horg⟩
  rw [verifyApproval, require_of hkeys, ok_bind, hlookup _ _ (.head _), hlookup _ _ (.tail _ (.head _)),
    hlookup _ _ (.tail _ (.tail _ (.head _))), hlookup _ _ (.tail _ (.tail _ (.tail _ (.head _))))]
  refine (bind_of_ok (require_of hr.identity)).trans ?_
  refine (bind_of_ok (given_ok.mpr hr.known)).trans ?_
  refine (bind_of_ok (require_of hcheck)).trans ?_
  refine (bind_of_ok (given_ok.mpr (b64decode_encode r.signature))).trans ?_
  refine (bind_of_ok (require_of ⟨hr.length, rfl, hsignature⟩)).trans ?_
  refine (bind_of_ok (given_ok.mpr hmessage)).trans ?_
  exact (bind_of_ok (require_of hverify)).trans rfl

/-- The pins are those of the snapshot, and two reviewers who differ have signed them. -/
structure ReviewedPins.Valid (P : Primitives) (c : Case) (d : ReviewedPins) : Prop where
  name : d.name ∈ dependencyNames
  pinned : c.snapshot.pins.lookup d.name = some d.pins
  keys : d.pins.map Prod.fst = pinKeys
  digests : ∀ pin ∈ d.pins, isSha256 pin.2 = true
  security : d.security.Valid P c d.name d.pins securityReviewer
  release : d.release.Valid P c d.name d.pins releaseReviewer
  ids_ne : d.security.reviewerId ≠ d.release.reviewerId
  keys_ne : d.security.reviewer.fingerprint ≠ d.release.reviewer.fingerprint
  organizations_ne : d.security.reviewer.organization ≠ d.release.reviewer.organization

variable {i : Inputs} {d : ReviewedPins}

theorem verifyApprovals_of (hsnap : Snapped P i c.snapshot) (hc : c.Proper) (hd : d.Valid P c) {seen : List Bytes} (hseen : (seen ++ d.signatures).Nodup) :
    each (verifyApproval P c d.name d.pins) [.dict d.security.approvalFields, .dict d.release.approvalFields]
      ⟨[], [], [], [], [], seen⟩ = .ok
        { values := [d.security.verified, d.release.verified],
          reviewerKeys := [d.security.reviewer.fingerprint, d.release.reviewer.fingerprint],
          reviewerIds := [d.security.reviewerId, d.release.reviewerId],
          reviewerOrgs := [d.security.reviewer.organization, d.release.reviewer.organization],
          selectedRoles := reviewerRoles, seenSignatures := seen ++ d.signatures } := by
  have hproper : ∀ r : Review, c.snapshot.identities.get r.reviewerId = some r.reviewer →
      (c.statement d.name d.pins r.reviewerId r.reviewer.fingerprint r.reviewer.role).Proper :=
    fun _ hr => hsnap.statement_proper hc.known hd.name hd.pinned hr
  have hsecurity : d.security.signature ∉ seen := fun h =>
    (List.nodup_append.mp hseen).2.2 _ h _ List.mem_cons_self rfl
  have hsignatures : seen ++ d.signatures = seen ++ [d.security.signature] ++ [d.release.signature] := List.append_cons _ _ _
  have hrelease : d.release.signature ∉ seen ++ [d.security.signature] := by
    rw [hsignatures] at hseen
    exact fun h => (List.nodup_append.mp hseen).2.2 _ h _ List.mem_cons_self rfl
  have hother : ∀ {a b : Text}, a ≠ b → b ∉ [a] := fun hne h => hne (List.mem_singleton.mp h).symm
  rw [hsignatures, each_cons, verifyApproval_of hd.security (hproper _ hd.security.known) (.head _) List.not_mem_nil
      List.not_mem_nil List.not_mem_nil hsecurity, ok_bind,
    each_cons, verifyApproval_of hd.release (hproper _ hd.release.known) (.tail _ (.head _)) (hother hd.keys_ne) (hother hd.ids_ne)
      (hother hd.organizations_ne) hrelease, ok_bind, each_nil]
  rfl

theorem verifyDigests_of {pins : List (Text × Text)} {item : List (Text × PyValue)} {l : List (Text × Text)} {seen : List Text}
    (hl : ∀ pin ∈ l, pins.lookup pin.1 = some pin.2 ∧ item.lookup pin.1 = some (.str pin.2) ∧ isSha256 pin.2 = true)
    (hseen : (seen ++ l.map Prod.snd).Nodup) :
    each (verifyDigest pins item) (l.map Prod.fst) seen = .ok (seen ++ l.map Prod.snd) := by
  induction l generalizing seen with
  | nil => simp
  | cons pin l ih =>
    obtain ⟨⟨hpins, hitem, hdigest⟩, hrest⟩ := List.forall_mem_cons.mp hl
    have hnew : pin.2 ∉ seen := fun h => (List.nodup_append.mp hseen).2.2 _ h _ List.mem_cons_self rfl
    have hstep : verifyDigest pins item pin.1 seen = .ok (seen ++ [pin.2]) := by
      rw [verifyDigest, hitem]
      exact (bind_of_ok (require_of ⟨hpins, hdigest, hnew⟩)).trans rfl
    rw [List.map_cons, List.append_cons] at hseen
    rw [List.map_cons, each_cons, hstep, ok_bind, ih hrest hseen, List.map_cons,
      List.append_cons seen pin.2 (l.map Prod.snd)]

theorem ReviewedPins.Valid.keys_nodup (hd : d.Valid P c) : (d.fields.map Prod.fst).Nodup := by
  have hpins : (d.pins.map (fun pin => (pin.1, PyValue.str pin.2))).map Prod.fst = pinKeys := by
    rw [List.map_map]
    exact hd.keys
  rw [ReviewedPins.fields, List.map_cons, hpins]
  show (units "approvals" :: pinKeys).Nodup
  decide

variable {s : Progress} {ds : List ReviewedPins}

theorem verifyDependency_of (hsnap : Snapped P i c.snapshot) (hc : c.Proper) (hd : d.Valid P c) {dependencies : List (Text × PyValue)}
    (hitem : dependencies.lookup d.name = some (.dict d.fields)) (hsignatures : (s.seenSignatures ++ d.signatures).Nodup)
    (hdigests : (s.seenDigests ++ d.digests).Nodup) : ∃ row, verifyDependency P c dependencies d.name s =
      .ok ⟨s.validated ++ [row], s.seenSignatures ++ d.signatures, s.seenDigests ++ d.digests⟩ := by
  have hlookup : ∀ key v, (key, v) ∈ d.fields → d.fields.lookup key = some v := fun _ _ => (lookup_eq_some_of_nodup hd.keys_nodup).mpr
  have hpins : ∀ pin ∈ d.pins, (pin.1, PyValue.str pin.2) ∈ d.fields := fun pin hpin =>
    List.mem_cons_of_mem _ (List.mem_map_of_mem (f := fun p => (p.1, PyValue.str p.2)) hpin)
  have hnodup : (d.pins.map Prod.fst).Nodup := by
    rw [hd.keys]
    decide
  have hkeys : exact d.fields (pinKeys ++ [units "approvals"]) = true := by
    refine exact_of_keys ?_
    rw [ReviewedPins.fields, List.map_cons, List.map_map, ← hd.keys]
    exact (List.perm_append_singleton _ _).symm
  have heach := verifyDigests_of (fun pin hpin => ⟨(lookup_eq_some_of_nodup hnodup).mpr hpin, hlookup _ _ (hpins pin hpin),
    hd.digests pin hpin⟩) hdigests
  rw [hd.keys] at heach
  obtain ⟨artifact, config, evidence, heq⟩ := pins_shape hd.keys
  rw [heq] at hpins
  refine ⟨(d.name, ⟨artifact, config, evidence, [d.security.verified, d.release.verified]⟩), ?_⟩
  rw [verifyDependency, hitem, hd.pinned]
  refine (bind_of_ok (require_of hkeys)).trans ?_
  refine (bind_of_ok heach).trans ?_
  rw [hlookup _ _ (.head _)]
  refine (bind_of_ok (require_of rfl)).trans ?_
  refine (bind_of_ok (verifyApprovals_of hsnap hc hd hsignatures)).trans ?_
  refine (bind_of_ok (require_of ⟨fun _ h => h, fun _ h => h⟩)).trans ?_
  rw [hlookup _ _ (hpins _ (.head _)), hlookup _ _ (hpins _ (.tail _ (.head _))),
    hlookup _ _ (hpins _ (.tail _ (.tail _ (.head _))))]
  rfl

theorem verifyDependencies_of (hsnap : Snapped P i c.snapshot) (hc : c.Proper) {dependencies : List (Text × PyValue)}
    (hds : ∀ d ∈ ds, d.Valid P c ∧ dependencies.lookup d.name = some (.dict d.fields))
    (hsignatures : (s.seenSignatures ++ ds.flatMap ReviewedPins.signatures).Nodup)
    (hdigests : (s.seenDigests ++ ds.flatMap ReviewedPins.digests).Nodup) :
    ∃ t, each (verifyDependency P c dependencies) (ds.map ReviewedPins.name) s = .ok t := by
  induction ds generalizing s with
  | nil => exact ⟨s, rfl⟩
  | cons d ds ih =>
    obtain ⟨⟨hd, hitem⟩, hrest⟩ := List.forall_mem_cons.mp hds
    rw [List.flatMap_cons, ← List.append_assoc] at hsignatures hdigests
    obtain ⟨row, hstep⟩ := verifyDependency_of hsnap hc hd hitem (List.nodup_append.mp hsignatures).1 (List.nodup_append.mp hdigests).1
    rw [List.map_cons, each_cons, hstep, ok_bind]
    exact ih hrest hsignatures hdigests

def dependenciesOf (ds : List ReviewedPins) : List (Text × PyValue) := ds.map (fun d => (d.name, .dict d.fields))

def manifestFields (c : Case) (ds : List ReviewedPins) : List (Text × PyValue) :=
  [(units "ceremony_context_id", .str c.snapshot.context), (units "dependencies", .dict (dependenciesOf ds)),
   (units "environment", .str production), (units "policy_id", .str c.snapshot.policyId),
   (units "policy_sha256", .str c.snapshot.policyDigest), (units "producer_id", .str c.producerId),
   (units "producer_key_sha256", .str c.producer.fingerprint), (units "public_config_sha256", .str c.snapshot.publicDigest),
   (units "release_commit", .str c.snapshot.release), (units "schema", .str schema), (units "version", .int version)]

def sortedManifestKeys : List Text :=
  [units "ceremony_context_id", units "dependencies", units "environment", units "policy_id", units "policy_sha256",
   units "producer_id", units "producer_key_sha256", units "public_config_sha256", units "release_commit", units "schema",
   units "version"]

theorem sortedManifestKeys_perm : sortedManifestKeys.Perm manifestKeys := by decide

theorem sortedManifestKeys_nodup : sortedManifestKeys.Nodup := by decide

theorem isStr_str (s : Text) : isStr (some (.str s)) s = true := isStr_iff.mpr rfl

/-- The dependencies of the manifest may stand in another order than they are looked up in. -/
theorem verifyManifest_of {sorted : List ReviewedPins} (hsnap : Snapped P i c.snapshot) (hc : c.Proper) (hds : ∀ d ∈ ds, d.Valid P c)
    (hnames : ds.map ReviewedPins.name = dependencyNames) (hsorted : sorted.Perm ds)
    (hsignatures : (ds.flatMap ReviewedPins.signatures).Nodup) (hdigests : (ds.flatMap ReviewedPins.digests).Nodup) (raw : Bytes) :
    ∃ e, verifyManifest P c.snapshot raw (.dict (manifestFields c sorted)) = .ok e := by
  have hfields : ∀ key v, (key, v) ∈ manifestFields c sorted → (manifestFields c sorted).lookup key = some v :=
    fun _ _ => (lookup_eq_some_of_nodup (by exact sortedManifestKeys_nodup)).mpr
  have hkeys : exact (manifestFields c sorted) manifestKeys = true := exact_of_keys sortedManifestKeys_perm
  have hsortedNames : ((dependenciesOf sorted).map Prod.fst).Perm dependencyNames := by
    rw [dependenciesOf, List.map_map, ← hnames]
    exact hsorted.map ReviewedPins.name
  have hnodup : ((dependenciesOf sorted).map Prod.fst).Nodup := hsortedNames.nodup_iff.mpr (by decide)
  have hlookup : ∀ d ∈ ds, (dependenciesOf sorted).lookup d.name = some (.dict d.fields) := fun d hd =>
    (lookup_eq_some_of_nodup hnodup).mpr (List.mem_map_of_mem (f := fun d => (d.name, PyValue.dict d.fields)) (hsorted.mem_iff.mpr hd))
  obtain ⟨t, ht⟩ := verifyDependencies_of hsnap hc (s := ⟨[], [], []⟩) (fun d hd => ⟨hds d hd, hlookup d hd⟩) hsignatures hdigests
  rw [hnames] at ht
  have hversion : isInt (some (.int version)) version = true := by decide
  rw [verifyManifest, require_of hkeys, ok_bind]
  rw [hfields (units "schema") (.str schema) (by simp [manifestFields]), hfields (units "version") (.int version) (by simp [manifestFields]),
    hfields (units "environment") (.str production) (by simp [manifestFields]),
    hfields (units "release_commit") (.str c.snapshot.release) (by simp [manifestFields]),
    hfields (units "ceremony_context_id") (.str c.snapshot.context) (.head _),
    hfields (units "public_config_sha256") (.str c.snapshot.publicDigest) (by simp [manifestFields]),
    hfields (units "policy_id") (.str c.snapshot.policyId) (by simp [manifestFields]),
    hfields (units "policy_sha256") (.str c.snapshot.policyDigest) (by simp [manifestFields]),
    hfields (units "producer_id") (.str c.producerId) (by simp [manifestFields]),
    hfields (units "dependencies") (.dict (dependenciesOf sorted)) (.tail _ (.head _)),
    hfields (units "producer_key_sha256") (.str c.producer.fingerprint) (by simp [manifestFields])]
  refine ⟨⟨schema, version, production, c.snapshot.release, c.snapshot.context, c.snapshot.publicDigest, c.snapshot.policyId,
    c.snapshot.policyDigest, c.producerId, c.producer.fingerprint, c.producer.organization, t.validated, P.sha256 raw⟩, ?_⟩
  refine (bind_of_ok (require_of ⟨isStr_str _, hversion, isStr_str _, isStr_str _, isStr_str _, isStr_str _, isStr_str _,
    isStr_str _⟩)).trans ?_
  refine (bind_of_ok (require_of hc.identity)).trans ?_
  refine (bind_of_ok (given_ok.mpr hc.known)).trans ?_
  refine (bind_of_ok (require_of ⟨hc.role, isStr_str _⟩)).trans ?_
  refine (bind_of_ok (require_of (exact_of_keys hsortedNames))).trans ?_
  exact (bind_of_ok ht).trans rfl

/-- A manifest that was signed is accepted, where what the file holds is written in ASCII, in
order and within the bounds. -/
theorem signed_manifest_accepted {sorted : List ReviewedPins} (hsnap : snapshotInputs P i = .ok c.snapshot)
    (hc : c.Proper) (hds : ∀ d ∈ ds, d.Valid P c) (hnames : ds.map ReviewedPins.name = dependencyNames) (hsorted : sorted.Perm ds)
    (hsignatures : (ds.flatMap ReviewedPins.signatures).Nodup) (hdigests : (ds.flatMap ReviewedPins.digests).Nodup)
    (hordinary : Ordinary (.dict (manifestFields c sorted))) (hbounded : bounded 1 (.dict (manifestFields c sorted)) = true)
    (hbuild : build P.fold (treeOf (.dict (manifestFields c sorted))) = .ok (.dict (manifestFields c sorted))) :
    ∃ raw, canonical P.floats (.dict (manifestFields c sorted)) = some raw ∧ raw ≠ [] ∧
      raw.length ≤ room (.dict (manifestFields c sorted)) ∧
      ∀ file, load file = .ok raw → ∃ e, loadProductionReviewManifest P i file = .ok e := by
  obtain ⟨t, ht, hvisible, hroom, hcanonical, -⟩ := canonical_fits P.floats hordinary
  have hne : t ≠ [] := by
    rw [dumps] at ht
    obtain ⟨texts, -, htext⟩ := Option.bind_eq_some_iff.mp ht
    cases htext
    exact List.cons_ne_nil _ _
  refine ⟨t.map Nat.toUInt8, hcanonical, fun h => hne (List.map_eq_nil_iff.mp h), by rwa [List.length_map], fun file hfile => ?_⟩
  have hloads : loads P (t.map Nat.toUInt8) = .ok (.dict (manifestFields c sorted)) := by
    rw [loads, decode_visible hvisible, given, ok_bind, loads_dumps hordinary ht, hbuild]
    rfl
  obtain ⟨e, he⟩ := verifyManifest_of (snapshotInputs_ok hsnap) hc hds hnames hsorted hsignatures hdigests (t.map Nat.toUInt8)
  refine ⟨e, ?_⟩
  rw [loadProductionReviewManifest, hsnap, ok_bind, hfile, ok_bind, hloads, ok_bind, require_of hbounded, ok_bind,
    require_of hcanonical, ok_bind, he]

/-! Reading a file that nobody touches -/

def plainStat (size : Nat) : Stat :=
  { dev := 0, ino := 1, mode := 0o100600, uid := 0, gid := 0, nlink := 1, size := size, mtimeNs := 0, ctimeNs := 0 }

/-- A file of the caller's own, read at once. -/
def plainFile (raw : Bytes) : Reading :=
  { posix := true, euid := 0, open_ := true, opened := some (plainStat raw.length), linked := some (plainStat raw.length),
    chunks := [some raw], reopened := some (plainStat raw.length), relinked := some (plainStat raw.length), closed := true }

theorem plainStat_secure {size : Nat} (h : 1 ≤ size ∧ size ≤ maxBytes) :
    ¬ isLink (plainStat size) ∧ secure 0 (plainStat size) = true := by
  refine ⟨fun hlink => absurd (show isLink (plainStat 0) = true from hlink) (by decide), ?_⟩
  simp [secure, isRegular, plainStat, h]

theorem load_plainFile {raw : Bytes} (hne : raw ≠ []) (h : raw.length ≤ maxBytes) : load (plainFile raw) = .ok raw := by
  have hsize : 1 ≤ raw.length ∧ raw.length ≤ maxBytes := ⟨List.length_pos_iff.mpr hne, h⟩
  obtain ⟨hlink, hsecure⟩ := plainStat_secure hsize
  have hread : readAll [] [some raw] = some raw := by
    cases raw with
    | nil => exact absurd rfl hne
    | cons =>
      rw [readAll, List.length_nil, if_neg (Nat.not_lt_zero maxBytes), List.nil_append, Nat.sub_zero,
        List.take_of_length_le (Nat.le_succ_of_le h), readAll]
  refine (bind_of_ok (require_of ⟨rfl, rfl⟩)).trans ?_
  refine (bind_of_ok rfl).trans ?_
  refine (bind_of_ok rfl).trans ?_
  refine (bind_of_ok (require_of ⟨hlink, hsecure, hsecure, rfl⟩)).trans ?_
  refine (bind_of_ok (given_ok.mpr hread)).trans ?_
  refine (bind_of_ok rfl).trans ?_
  refine (bind_of_ok rfl).trans ?_
  refine (bind_of_ok (require_of ⟨rfl, h, hlink, hsecure, hsecure, rfl, rfl⟩)).trans ?_
  exact (bind_of_ok (require_of rfl)).trans rfl

end Accepted

/-! A release -/

namespace Sample

/-- The last digits of a number to a base, each written in one way, before what follows. -/
def digits {α : Type} (base : Nat) (write : Nat → α) : Nat → Nat → List α → List α
  | 0, _, rest => rest
  | k + 1, n, rest => digits base write k (n / base) (write (n % base) :: rest)

def hexDigit (d : Nat) : Nat := if d < 10 then 48 + d else 87 + d

def hex (k n : Nat) : Text := digits 16 hexDigit k n []

def bytes (k n : Nat) : Bytes := digits 256 Nat.toUInt8 k n []

def builder : Text := units "release-builder"
def security : Text := units "security-a"
def release : Text := units "release-b"

def commit : Text := hex 40 0x05e1375449d504eae9d50a5a32705058810f67ca
def publicDigest : Text := hex 64 0x4e47a521153046ef8c9e9eeed59dd6aed7dd11a5c6e1ec9c57adc3028e75fac7
def context : Text := units "release-2026-08-03/r2"
def policyId : Text := units "growthmap-r2"
def policyDigest : Text := hex 64 0x6f423a2a9c82814c7444311f7dbb54feec59be5ea17e23514c8dbff1e688d38d
def manifestDigest : Text := hex 64 0x4e9c069ad2f6e809394ba8083deb42b30be92a1827ed204e238e2e826fea5ff3

def producer : Identity where
  key := bytes 32 0xdbf8e5df51cedde16adf03b70206625fef8e7161fe2ebff2302d5454fa7708a2
  fingerprint := hex 64 0x025764d74ff194eb5864469402552eaf1b127c884afae92ef671ac025e5d952b
  role := producerRole
  organization := units "build-org"

def securityIdentity : Identity where
  key := bytes 32 0xe3e60f4d05782663cd4b19474160f6ec52b61d66b4cf5d00529dc87b85eb1e10
  fingerprint := hex 64 0xc3f227940bf622a081681a4b58b2cd57e1d360bc0a32746472696ce037376b63
  role := securityReviewer
  organization := units "security-org"

def releaseIdentity : Identity where
  key := bytes 32 0x05f93ef5337aabb0f97e2568fde211183acd3a78098cbecc749d0847e675776c
  fingerprint := hex 64 0x12f1ff90936700187955cd8b4b3e59885b2375ca2eb82a0528caec780890e72a
  role := releaseReviewer
  organization := units "release-org"

def pins (k : Nat) : List (Text × Text) :=
  [(units "artifact_sha256", List.replicate 64 (hexDigit (3 * k + 1))), (units "config_sha256", List.replicate 64 (hexDigit (3 * k + 2))),
   (units "evidence_sha256", List.replicate 64 (hexDigit (3 * k + 3)))]

def signatures : List (Text × Nat × Nat × Nat) :=
  [(units "facilitator", 0,
    0x1e3138e8962a6b1500ec8ad676cca92aa178c4d9d5049312d96ba5a2d55dedbd666ae3c2ad33db3c9d7aef1515b8d87192807ec9a6dea45498f7b59073c7d601,
    0xfc1dd55d58252dd5fa7c9d48a167828943723cfc25d68e9c3fd3dc41220bd652787393329420059117fc8e9f3a79338270b1c50bc1006094e01df45b601e0b07),
   (units "finality", 1,
    0xba0dd73657c181bb445964a68d0d3740b3753d957ff83982e45284579f58e9a2f7b5f81b2ce0ce9bf6f5ca2fad2b033c6c0decd0699b036d212f1991c9dde30b,
    0x411e8eef616375615d7660561d19bf0993030d2c9184d0ba3eb878033d162613ae4ad942cdb5c59e8891d208cf13df0e0d0e9c03c2ad6f9f74240c9088fcad0c),
   (units "authority_transport", 2,
    0x4305c8a2d45d8aa2cdaea815a0944a39e6b790b63a7305cdaab03669469ee6e1fc56664bf7c5d997cd9df5cb8391a512553aee6ec4d084064be39f7fefb28508,
    0xa9994c8fd01bbd7de5b1e21a2a4e7541a87538963bf0bb0a8bd0900957ba8434f83fb165d56147b4aff5dd62ca9079e719d2c2b97e38b2288bdc12cfa2771a07),
   (units "session_boundary", 3,
    0xc3d9147d312e83b3ed51af36eef2ccaec81cee27880f1fb50d11f16cf94871a13ecab29b90bb50bdebd2ed436aaeca9b06f06bf1b748c65ba032cc02d544050f,
    0x3f455dfdd549a379909946ee5485d684ade52756e9af6a1fb1e57ea27a3d4760841107f451c89330c2793fb235aa5f4f16fc661297e014526ec41f44690b680a),
   (units "monitoring_backup_gate", 4,
    0xaf89580aefbe941772304a3743e3d47e1a5f081104ca1c9f632982195631feb45773eff31c920eb90a5c4dd5aee4d4b0a97a1331ad11e356b3699ca7eb53680b,
    0x744bc33395b1c891669a002a888efbbe2478f5c5e2335067f12d9364f82e899ef02cdfc7c745119b7dd7b60f69bf46660f3b1cc64c556bf3ed27844a348e6f0b)]

def reviewed (d : Text × Nat × Nat × Nat) : ReviewedPins where
  name := d.1
  pins := pins d.2.1
  security := ⟨security, securityIdentity, bytes 64 d.2.2.1⟩
  release := ⟨release, releaseIdentity, bytes 64 d.2.2.2⟩

def dependencies : List ReviewedPins := signatures.map reviewed

def sorted : List ReviewedPins := ([2, 0, 1, 4, 3].filterMap (fun k => signatures[k]?)).map reviewed

def snapshot : Snapshot where
  release := commit
  publicDigest := publicDigest
  context := context
  pins := dependencies.map (fun d => (d.name, d.pins))
  policyId := policyId
  policyDigest := policyDigest
  identities := ⟨[(builder, producer), (security, securityIdentity), (release, releaseIdentity)], by decide⟩

def case : Case := ⟨snapshot, builder, producer⟩

def statement (d : ReviewedPins) (r : Review) : Statement :=
  case.statement d.name d.pins r.reviewerId r.reviewer.fingerprint r.reviewer.role

def signed : List (Review × Statement) := dependencies.flatMap (fun d => [(d.security, statement d d.security), (d.release, statement d d.release)])

def floats : Floats := ⟨id, fun _ => false⟩

def sha256 (b : Bytes) : Text :=
  if b = producer.key then producer.fingerprint
  else if b = securityIdentity.key then securityIdentity.fingerprint
  else if b = releaseIdentity.key then releaseIdentity.fingerprint
  else if b.length < 1000 then policyDigest
  else manifestDigest

theorem sha256_digest (b : Bytes) : isSha256 (sha256 b) = true := by
  unfold sha256
  split_ifs <;> decide

def primitives : Primitives where
  fold := lowerSample
  floats := floats
  sha256 := sha256
  sha256_digest := sha256_digest
  isPublicKey key := decide (key.length = 32)
  verify key signature message := signed.any (fun s =>
    decide (s.1.reviewer.key = key) && decide (s.1.signature = signature) && decide (approvalStatement floats s.2 = some message))

def identityArgument (i : Identity) : Argument :=
  .dict [(units "public_key", .bytes i.key), (units "roles", .list [.str i.role]), (units "organization", .str i.organization)]

def inputs : Inputs where
  expectedReleaseCommit := .str commit
  expectedPublicConfigSha256 := .str publicDigest
  expectedCeremonyContextId := .str context
  expectedDependencies := .dict (dependencies.map (fun d => (d.name, .dict (d.pins.map (fun pin => (pin.1, .str pin.2))))))
  trustedPolicy := .dict [(units "policy_id", .str policyId), (units "identities", .dict
    [(builder, identityArgument producer), (security, identityArgument securityIdentity), (release, identityArgument releaseIdentity)])]

def document : PyValue := .dict (manifestFields case sorted)

set_option maxRecDepth 100000

/-- What is evaluated of the sample. -/
theorem evaluated :
    snapshotInputs primitives inputs = .ok snapshot ∧
    (Ordinary document ∧ bounded 1 document = true ∧ room document ≤ maxBytes) ∧
    ((dependencies.flatMap ReviewedPins.signatures).Nodup ∧ (dependencies.flatMap ReviewedPins.digests).Nodup) ∧
    (∀ d ∈ dependencies, ∀ pin ∈ d.pins, isSha256 pin.2 = true) ∧
    (isIdentity security = true ∧ snapshot.identities.get security = some securityIdentity ∧ securityIdentity.key ≠ producer.key ∧
      securityIdentity.organization ≠ producer.organization) ∧
    (isIdentity release = true ∧ snapshot.identities.get release = some releaseIdentity ∧ releaseIdentity.key ≠ producer.key ∧
      releaseIdentity.organization ≠ producer.organization) ∧
    security ≠ release ∧ securityIdentity.fingerprint ≠ releaseIdentity.fingerprint ∧
    securityIdentity.organization ≠ releaseIdentity.organization := by decide +kernel

theorem document_built : build primitives.fold (treeOf document) = .ok document := (rfl)

theorem bytes_length (k n : Nat) : (bytes k n).length = k := by
  have hdigits : ∀ k n (rest : Bytes), (digits 256 Nat.toUInt8 k n rest).length = k + rest.length := by
    intro k
    induction k with
    | zero => simp [digits]
    | succ k ih =>
      intro n rest
      rw [digits, ih, List.length_cons]
      omega
  exact hdigits k n []

theorem reviewed_valid : ∀ d ∈ dependencies, d.Valid primitives case := by
  intro d hd
  have hnodup : (snapshot.pins.map Prod.fst).Nodup := by
    show dependencyNames.Nodup
    decide
  have hname : d.name ∈ dependencyNames := by
    show d.name ∈ dependencies.map ReviewedPins.name
    exact List.mem_map_of_mem hd
  have hpinned : snapshot.pins.lookup d.name = some d.pins :=
    (lookup_eq_some_of_nodup hnodup).mpr (List.mem_map_of_mem (f := fun d => (d.name, d.pins)) hd)
  have hsigned : ∀ r, (r, statement d r) ∈ signed → ∀ message, approvalStatement floats (statement d r) = some message →
      primitives.verify r.reviewer.key r.signature message = true := by
    intro r hr message hmessage
    exact List.any_eq_true.mpr ⟨_, hr, by simp [hmessage]⟩
  have hmem : (d.security, statement d d.security) ∈ signed ∧ (d.release, statement d d.release) ∈ signed :=
    ⟨List.mem_flatMap.mpr ⟨d, hd, .head _⟩, List.mem_flatMap.mpr ⟨d, hd, .tail _ (.head _)⟩⟩
  obtain ⟨s, -, rfl⟩ := List.mem_map.mp hd
  obtain ⟨-, -, -, hdigests, ⟨hid, hknown, hkey, horganization⟩, ⟨hid', hknown', hkey', horganization'⟩, hids, hkeys,
    horganizations⟩ := evaluated
  exact
    { name := hname, pinned := hpinned, keys := rfl, digests := hdigests _ hd,
      security := ⟨hid, hknown, rfl, hkey, horganization, bytes_length 64 _, hsigned _ hmem.1⟩,
      release := ⟨hid', hknown', rfl, hkey', horganization', bytes_length 64 _, hsigned _ hmem.2⟩,
      ids_ne := hids, keys_ne := hkeys, organizations_ne := horganizations }

theorem sorted_perm : sorted.Perm dependencies := List.Perm.map reviewed (by decide)

/-- `document`, as it is stored. -/
def file : Reading := plainFile ((canonical floats document).getD [])

theorem accepted : ∃ e, loadProductionReviewManifest primitives inputs file = .ok e := by
  obtain ⟨hsnapshot, ⟨hordinary, hbounded, hroom⟩, ⟨hsignatures, hdigests⟩, -⟩ := evaluated
  obtain ⟨raw, hraw, hne, hlength, hload⟩ := signed_manifest_accepted hsnapshot ⟨by decide, by decide, rfl⟩ reviewed_valid rfl
    sorted_perm hsignatures hdigests hordinary hbounded document_built
  refine hload file ?_
  have hbytes : (canonical floats document).getD [] = raw := by
    rw [show canonical floats document = some raw from hraw, Option.getD_some]
  rw [file, hbytes]
  exact load_plainFile hne (Nat.le_trans hlength hroom)

def Signed (key message : Bytes) : Prop := ∃ s ∈ signed, s.1.reviewer.key = key ∧ approvalStatement floats s.2 = some message

theorem sound : Sound Signed primitives := by
  intro key signature message h
  obtain ⟨s, hs, h⟩ := List.any_eq_true.mp h
  obtain ⟨hkeys, hmessage⟩ := Bool.and_eq_true_iff.mp h
  exact ⟨s, hs, of_decide_eq_true (Bool.and_eq_true_iff.mp hkeys).1, of_decide_eq_true hmessage⟩

end Sample

/-! The theorem -/

/-- SHA-256 tells the texts of the two policies apart. -/
def CollisionFree (P : Primitives) (i i' : Inputs) : Prop :=
  ∀ snap snap' text text', snapshotInputs P i = .ok snap → snapshotInputs P i' = .ok snap' →
    canonicalPolicy P.floats snap.policyId snap.identities = some text → canonicalPolicy P.floats snap'.policyId snap'.identities = some text' →
    P.sha256 text = P.sha256 text' → text = text'

/-- **An accepted manifest proves separation of duties.** Each of the five dependencies has the
pinned digests and two approvals, which two reviewers of the policy have signed, one of each role
and no two of one key or organization, the producer's included; no signature stands twice. A
message that was signed for one statement is that of no other, be it of another manifest. And the
file is the canonical text of its content: files of the same content are the same. -/
theorem accepted_manifest_separates (Signed : Bytes → Bytes → Prop) (P : Primitives) (i i' : Inputs) (file file' : Reading)
    (e e' : ValidatedProductionEvidence) (hsigned : Sound Signed P) (hfree : CollisionFree P i i')
    (h : loadProductionReviewManifest P i file = .ok e) (h' : loadProductionReviewManifest P i' file' = .ok e') :
    ∃ snap raw data producer snap' raw' data' producer',
      Read P i file snap raw data ∧ Separated Signed P snap data e producer ∧
      Read P i' file' snap' raw' data' ∧ Separated Signed P snap' data' e' producer' ∧
      (∀ s s' message, Stated snap e producer s → Stated snap' e' producer' s' → approvalStatement P.floats s = some message →
        approvalStatement P.floats s' = some message → s = s' ∧ ∀ id, snap.identities.get id = snap'.identities.get id) ∧
      (Same data data' → raw = raw') := by
  obtain ⟨snap, raw, data, producer, hread, hsep⟩ := load_ok hsigned h
  obtain ⟨snap', raw', data', producer', hread', hsep'⟩ := load_ok hsigned h'
  refine ⟨snap, raw, data, producer, snap', raw', data', producer', hread, hsep, hread', hsep', ?_, hread.same hread'⟩
  intro s s' message hs hs' hm hm'
  exact stated_alike hread.snapped hread'.snapped hsep hsep'
    (fun text text' => hfree snap snap' text text' hread.snapshot hread'.snapshot) hs hs' hm hm'


/-- The release of the sample is separated. -/
theorem sample_separated : ∃ e snap raw data producer, loadProductionReviewManifest Sample.primitives Sample.inputs Sample.file = .ok e ∧
    Read Sample.primitives Sample.inputs Sample.file snap raw data ∧ Separated Sample.Signed Sample.primitives snap data e producer := by
  obtain ⟨e, he⟩ := Sample.accepted
  have hfree : CollisionFree Sample.primitives Sample.inputs Sample.inputs := by
    intro snap snap' text text' hsnap hsnap' htext htext' _
    obtain rfl := Except.ok.inj (hsnap.symm.trans hsnap')
    exact Option.some.inj (htext.symm.trans htext')
  obtain ⟨snap, raw, data, producer, _, _, _, _, hread, hseparated, -⟩ := accepted_manifest_separates Sample.Signed Sample.primitives
    Sample.inputs Sample.inputs Sample.file Sample.file e e Sample.sound hfree he he
  exact ⟨e, snap, raw, data, producer, he, hread, hseparated⟩

end GrowthMap.ReviewManifest
