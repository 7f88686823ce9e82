import GrowthMap.Lib.Runs
import GrowthMap.Desktop.Platform
import GrowthMap.Desktop.SoundEntitlement

/- License freshness over time.

   What a checkpoint has written is read back (`freshnessRead_record`), so the
   store's mark is the last accepted reading and not the largest one. A reading
   that is behind the mark by no more than the tolerance moves the mark back, and
   the next one may fall behind that: the tolerances add up. `Behind` names the
   readings that do this; without them the mark only rises. -/
namespace GrowthMap.Desktop

variable {P : Primitives} {S : Platform} {u : UserData}

/-! What is written is read back -/

theorem tidy_state (hS : S.Lawful) (id first last : String) : Tidy S (Freshness.state ⟨.str id, .str first, .str last⟩) := by
  refine tidy_obj hS ?_ freshnessKeys rfl (by decide +kernel)
  simp [isSimple]

theorem tidy_receipt (hS : S.Lawful) (id first last : String) :
    Tidy S (Freshness.receipt P S ⟨.str id, .str first, .str last⟩) := by
  refine tidy_obj hS ?_ (freshnessKeys ++ ["sha256"]) rfl (by decide +kernel)
  simp [isSimple]

/-! The history -/

variable {kinds : List String} {last : Int}

theorem kindsOf_texts (hne : kinds ≠ []) (hknown : ∀ k ∈ kinds, k ∈ ["paid", "revocation"])
    (hnodup : kinds.Nodup) : kindsOf (.arr (kinds.map .str)) = some kinds := by
  have htexts : (kinds.map Json.str).filterMap textOf = kinds := by
    rw [List.filterMap_map]
    exact List.filterMap_some
  have hpos : 1 ≤ (kinds.map Json.str).length := by
    rw [List.length_map]
    exact List.length_pos_iff.mpr hne
  have hall : ∀ j ∈ kinds.map Json.str, (textOf j).any (fun k => decide (k ∈ ["paid", "revocation"])) = true := by
    intro j hj
    obtain ⟨k, hk, rfl⟩ := List.mem_map.mp hj
    exact decide_eq_true (hknown k hk)
  simp only [kindsOf, htexts]
  rw [if_pos ⟨hpos, hall, hnodup⟩]

theorem addKind_facts (prior : List String) :
    addKind "paid" prior ≠ [] ∧ (∀ k ∈ addKind "paid" prior, k ∈ ["paid", "revocation"]) ∧ (addKind "paid" prior).Nodup := by
  have hmem : "paid" ∈ addKind "paid" prior := by simp [addKind]
  refine ⟨List.ne_nil_of_mem hmem, ?_, ?_⟩
  · intro k hk
    exact List.mem_of_mem_filter hk
  · exact List.Nodup.filter _ (by decide)

def HistoryIs (S : Platform) (u : UserData) (kinds : List String) : Prop :=
  u.presence = presenceFile S ∧ u.history = historyFile S kinds

theorem historyRead_written (hS : S.Lawful) (h : HistoryIs S u kinds) (hne : kinds ≠ [])
    (hknown : ∀ k ∈ kinds, k ∈ ["paid", "revocation"]) (hnodup : kinds.Nodup) : historyRead S u = some kinds := by
  have htidy : Tidy S (.obj [("schemaVersion", .int 1), ("kinds", .arr (kinds.map .str))]) := by
    refine tidy_obj hS ?_ ["schemaVersion", "kinds"] rfl (by decide +kernel)
    simp [isSimple, textOf]
  have hpresent : Tidy S (.obj [("schemaVersion", .int 1), ("kind", .str presenceKind)]) := by
    refine tidy_obj hS ?_ ["schemaVersion", "kind"] rfl (by decide +kernel)
    simp [isSimple]
  have hx : decryptJson S u.history = some (.obj [("schemaVersion", .int 1), ("kinds", .arr (kinds.map .str))]) := by
    rw [h.2, historyFile, decryptJson_encryptJson hS htidy]
  have hp : decryptJson S u.presence = some (.obj [("schemaVersion", .int 1), ("kind", .str presenceKind)]) := by
    rw [h.1, presenceFile, decryptJson_encryptJson hS hpresent]
  have hexists : u.history.exists_ = true ∧ u.presence.exists_ = true := by
    rw [h.1, h.2]
    exact ⟨rfl, rfl⟩
  simp only [historyRead, hexists.1, hexists.2, hx, hp, Bool.true_eq_false, and_self, or_self, if_false]
  exact kindsOf_texts hne hknown hnodup

/-! One checkpoint -/

def stateFile (S : Platform) (x : Freshness) : Stored := .content (S.toBytes (jsonStringify x.state))

def receiptFile (P : Primitives) (S : Platform) (x : Freshness) : Stored := encryptJson S (x.receipt P S)

theorem exact_of {fields : List (String × Json)} {keys : List String} (h : exactKeys fields keys = true) :
    exact keys (.obj fields) = some fields := by
  rw [exact, if_pos h]

theorem freshnessAgrees_written (id first last : String) :
    freshnessAgrees P S (Freshness.state ⟨.str id, .str first, .str last⟩)
      (Freshness.receipt P S ⟨.str id, .str first, .str last⟩) = some ⟨.str id, .str first, .str last⟩ := by
  have hstate : exact freshnessKeys (Freshness.state ⟨.str id, .str first, .str last⟩) =
      some [("schemaVersion", .int 1), ("licenseId", .str id), ("firstSeenAt", .str first), ("lastSeenAt", .str last)] :=
    exact_of (by simp [exactKeys, freshnessKeys])
  have hreceipt : exact (freshnessKeys ++ ["sha256"]) (Freshness.receipt P S ⟨.str id, .str first, .str last⟩) =
      some [("schemaVersion", .int 1), ("licenseId", .str id), ("firstSeenAt", .str first), ("lastSeenAt", .str last),
        ("sha256", .str (digest P S (jsonStringify (Freshness.state ⟨.str id, .str first, .str last⟩))))] :=
    exact_of (by simp [exactKeys, freshnessKeys])
  simp only [freshnessAgrees, hstate, hreceipt, Option.bind_eq_bind, Option.bind_some]
  simp [at_, strictEq, Json.is, List.lookup_cons]

variable {id first : String}

theorem freshnessRead_written (hS : S.Lawful) {last : String}
    (hhistory : historyRead S u = some kinds) (hpaid : "paid" ∈ kinds)
    (hstate : u.freshness = stateFile S ⟨.str id, .str first, .str last⟩)
    (hreceipt : u.freshnessReceipt = receiptFile P S ⟨.str id, .str first, .str last⟩) :
    freshnessRead P S u = .seen ⟨.str id, .str first, .str last⟩ := by
  have hexists : u.freshness.exists_ = true ∧ u.freshnessReceipt.exists_ = true := by
    rw [hstate, hreceipt]
    exact ⟨rfl, rfl⟩
  have hx : readStrict S u.freshness = some (Freshness.state ⟨.str id, .str first, .str last⟩) := by
    rw [hstate, stateFile, readStrict_written hS (tidy_state hS id first last)]
  have hy : decryptJson S u.freshnessReceipt = some (Freshness.receipt P S ⟨.str id, .str first, .str last⟩) := by
    rw [hreceipt, receiptFile, decryptJson_encryptJson hS (tidy_receipt hS id first last)]
  simp only [freshnessRead, hhistory, hexists.1, hexists.2, hpaid, hx, hy, freshnessAgrees_written, Bool.true_eq_false,
    and_self, or_self, not_true_eq_false, if_false]

/-- The evidence as `checkpoint` last wrote it: for this license, first seen and
last seen at these texts. -/
structure Recorded (P : Primitives) (S : Platform) (u : UserData) (id first last : String) : Prop where
  read : freshnessRead P S u = .seen ⟨.str id, .str first, .str last⟩
  history : ∃ kinds, historyRead S u = some kinds

def checkpointWrites (P : Primitives) (S : Platform) (kinds : List String) (x : Freshness) : List Write :=
  [.freshness (stateFile S x), .freshnessReceipt (receiptFile P S x), .presence (presenceFile S),
    .history (historyFile S (addKind "paid" kinds))]

theorem recordFreshness_eq (h : historyRead S u = some kinds) (x : Freshness) :
    recordFreshness P S u x = (checkpointWrites P S kinds x, .ok x) := by
  simp only [recordFreshness, historyMark, h, List.cons_append, List.nil_append]
  rfl

theorem recorded_after (hS : S.Lawful) (id first last : String) (kinds : List String) :
    Recorded P S (u.after (checkpointWrites P S kinds ⟨.str id, .str first, .str last⟩)) id first last := by
  obtain ⟨hne, hknown, hnodup⟩ := addKind_facts kinds
  have hhistory : historyRead S (u.after (checkpointWrites P S kinds ⟨.str id, .str first, .str last⟩)) =
      some (addKind "paid" kinds) :=
    historyRead_written hS ⟨rfl, rfl⟩ hne hknown hnodup
  have hpaid : "paid" ∈ addKind "paid" kinds := by simp [addKind]
  exact ⟨freshnessRead_written hS hhistory hpaid rfl rfl, addKind "paid" kinds, hhistory⟩

theorem history_of_read (h : freshnessRead P S u ≠ .invalid) : ∃ kinds, historyRead S u = some kinds := by
  cases hk : historyRead S u with
  | some kinds => exact ⟨kinds, rfl⟩
  | none =>
    refine absurd ?_ h
    simp only [freshnessRead, hk]

theorem toISOString_ne (hS : S.Lawful) {t : Int} (ht : IsDate t) : S.toISOString t ≠ "" := by
  intro h
  have hnone := hS.dateParse_empty
  rw [← h, hS.dateParse_toISOString t ht] at hnone
  cases hnone

theorem checkpoint_first (now : Int) (id : String) (h : freshnessRead P S u = .none) :
    ∃ kinds, historyRead S u = some kinds ∧
      checkpoint P S u now id = (checkpointWrites P S kinds ⟨.str id, .str (S.toISOString now), .str (S.toISOString now)⟩,
        .ok ⟨.str id, .str (S.toISOString now), .str (S.toISOString now)⟩) := by
  obtain ⟨kinds, hkinds⟩ := history_of_read (P := P) (S := S) (u := u) (by rw [h]; intro hc; cases hc)
  refine ⟨kinds, hkinds, ?_⟩
  simp only [checkpoint, h]
  exact recordFreshness_eq hkinds _

theorem checkpoint_later {now : Int} (hS : S.Lawful) (hlast : IsDate last) (hfirst : first ≠ "")
    (h : Recorded P S u id first (S.toISOString last)) (hnow : last ≤ now + rollbackTolerance) :
    ∃ kinds, historyRead S u = some kinds ∧
      checkpoint P S u now id = (checkpointWrites P S kinds ⟨.str id, .str first, .str (S.toISOString now)⟩,
        .ok ⟨.str id, .str first, .str (S.toISOString now)⟩) := by
  obtain ⟨kinds, hkinds⟩ := h.history
  refine ⟨kinds, hkinds, ?_⟩
  have hback : rolledBack S now ⟨.str id, .str first, .str (S.toISOString last)⟩ = false := by
    rw [rolledBack, toStringJs, hS.dateParse_toISOString last hlast, Option.any_some]
    exact decide_eq_false (by omega)
  simp only [checkpoint, h.read, hback, Json.is, decide_true, Bool.true_eq_false, Bool.false_eq_true, if_false,
    Freshness.next, isTruthy, ne_eq, hfirst, not_false_eq_true, if_true]
  exact recordFreshness_eq hkinds _

theorem checkpoint_refused {now : Int} {other : String} (hS : S.Lawful) (hlast : IsDate last)
    (h : Recorded P S u id first (S.toISOString last)) (hno : other ≠ id ∨ now + rollbackTolerance < last) :
    ∃ reason, checkpoint P S u now other = ([], .error reason) := by
  by_cases hid : other = id
  · obtain hback | hback := hno
    · exact absurd hid hback
    · refine ⟨"System clock rollback detected", ?_⟩
      have hrolled : rolledBack S now ⟨.str id, .str first, .str (S.toISOString last)⟩ = true := by
        rw [rolledBack, toStringJs, hS.dateParse_toISOString last hlast, Option.any_some]
        exact decide_eq_true hback
      simp only [checkpoint, h.read, hid, hrolled, Json.is, decide_true, Bool.true_eq_false, if_false, if_true]
  · refine ⟨"License freshness identity mismatch", ?_⟩
    have hne : ¬ id = other := fun hc => hid hc.symm
    simp only [checkpoint, h.read, Json.is, hne, decide_false, if_true]

/-! Runs of checkpoints -/

/-- A call of `checkpoint`: the license and the reading of the clock. -/
structure Reading where
  licenseId : String
  now : Int
  date : IsDate now

def takeReading (P : Primitives) (S : Platform) (u : UserData) (r : Reading) : UserData :=
  u.after (checkpoint P S u r.now r.licenseId).1

def isAccepted (P : Primitives) (S : Platform) (u : UserData) (r : Reading) : Bool :=
  match (checkpoint P S u r.now r.licenseId).2 with
  | .ok _ => true
  | .error _ => false

def accepted (P : Primitives) (S : Platform) : UserData → List Reading → List Int
  | _, [] => []
  | u, r :: rs =>
    if isAccepted P S u r then r.now :: accepted P S (takeReading P S u r) rs else accepted P S (takeReading P S u r) rs

def mark (P : Primitives) (S : Platform) (u : UserData) : Option Int :=
  match freshnessRead P S u with
  | .seen x => S.dateParse (toStringJs x.lastSeenAt)
  | _ => none

/-- The call leaves the mark where it is or moves it forward. -/
def MarkKept (P : Primitives) (S : Platform) (u : UserData) (r : Reading) : Prop :=
  ∀ m, mark P S u = some m → ∃ m', mark P S (takeReading P S u r) = some m' ∧ m ≤ m'

/-- The mark never moves back, and no accepted reading is more than the tolerance
behind one that was accepted before it. -/
def HighWater (P : Primitives) (S : Platform) (u : UserData) (rs : List Reading) : Prop :=
  Runs.Along (takeReading P S) (MarkKept P S) u rs ∧ (accepted P S u rs).Pairwise (fun a b => a - rollbackTolerance ≤ b)

/-- The reading is for the stored license and behind the mark, but within the
tolerance. -/
def Behind (P : Primitives) (S : Platform) (u : UserData) (r : Reading) : Prop :=
  ∃ x m, freshnessRead P S u = .seen x ∧ x.licenseId.is r.licenseId ∧ mark P S u = some m ∧
    r.now < m ∧ m ≤ r.now + rollbackTolerance

/-- No checkpoint yet, or the last one can be read. -/
def Resumable (P : Primitives) (S : Platform) (u : UserData) : Prop :=
  freshnessRead P S u = .none ∨
    ∃ id first last, IsDate last ∧ first ≠ "" ∧ Recorded P S u id first (S.toISOString last)

theorem mark_recorded (hS : S.Lawful) (hlast : IsDate last)
    (h : Recorded P S u id first (S.toISOString last)) : mark P S u = some last := by
  rw [mark, h.read]
  exact hS.dateParse_toISOString last hlast

theorem takeReading_first (hS : S.Lawful) (h : freshnessRead P S u = .none) (r : Reading) :
    isAccepted P S u r = true ∧ Recorded P S (takeReading P S u r) r.licenseId (S.toISOString r.now) (S.toISOString r.now) := by
  obtain ⟨kinds, -, hcall⟩ := checkpoint_first r.now r.licenseId h
  refine ⟨?_, ?_⟩
  · rw [isAccepted, hcall]
  · rw [takeReading, hcall]
    exact recorded_after hS _ _ _ kinds

theorem takeReading_later (hS : S.Lawful) (r : Reading) (hlast : IsDate last) (hfirst : first ≠ "")
    (h : Recorded P S u r.licenseId first (S.toISOString last)) (hnow : last ≤ r.now + rollbackTolerance) :
    isAccepted P S u r = true ∧ Recorded P S (takeReading P S u r) r.licenseId first (S.toISOString r.now) := by
  obtain ⟨kinds, -, hcall⟩ := checkpoint_later hS hlast hfirst h hnow
  refine ⟨?_, ?_⟩
  · rw [isAccepted, hcall]
  · rw [takeReading, hcall]
    exact recorded_after hS _ _ _ kinds

/-- What a call does to a store that can be read. -/
inductive ReadingCase (P : Primitives) (S : Platform) (u : UserData) (r : Reading) : Prop where
  | refused (hrefused : isAccepted P S u r = false) (hsame : takeReading P S u r = u) (hbehind : ¬ Behind P S u r)
  | accepted (first : String) (haccepted : isAccepted P S u r = true) (hfirst : first ≠ "")
      (hrecorded : Recorded P S (takeReading P S u r) r.licenseId first (S.toISOString r.now))
      (hmark : ∀ m, mark P S u = some m → m ≤ r.now + rollbackTolerance)
      (hbehind : Behind P S u r ↔ ∃ m, mark P S u = some m ∧ r.now < m)

theorem reading_cases (hS : S.Lawful) (h : Resumable P S u) (r : Reading) : ReadingCase P S u r := by
  obtain hnone | ⟨id, first, last, hlast, hfirst, hrec⟩ := h
  · obtain ⟨hyes, hnext⟩ := takeReading_first hS hnone r
    have hmark : mark P S u = none := by rw [mark, hnone]
    refine .accepted (S.toISOString r.now) hyes (toISOString_ne hS r.date) hnext ?_ ?_
    · intro m hm
      rw [hmark] at hm
      cases hm
    · constructor
      · rintro ⟨x, m, hread, -⟩
        rw [hnone] at hread
        cases hread
      · rintro ⟨m, hm, -⟩
        rw [hmark] at hm
        cases hm
  · have hmark := mark_recorded hS hlast hrec
    by_cases hgo : r.licenseId = id ∧ last ≤ r.now + rollbackTolerance
    · obtain ⟨hid, hnow⟩ := hgo
      subst hid
      obtain ⟨hyes, hnext⟩ := takeReading_later hS r hlast hfirst hrec hnow
      refine .accepted first hyes hfirst hnext ?_ ?_
      · intro m hm
        rw [hmark] at hm
        cases hm
        exact hnow
      · constructor
        · rintro ⟨x, m, -, -, hm, hlt, -⟩
          exact ⟨m, hm, hlt⟩
        · rintro ⟨m, hm, hlt⟩
          rw [hmark] at hm
          cases hm
          exact ⟨_, _, hrec.read, by simp [Json.is], hmark, hlt, hnow⟩
    · have hno : r.licenseId ≠ id ∨ r.now + rollbackTolerance < last := by
        by_cases hid : r.licenseId = id
        · exact .inr (not_le.mp (fun hle => hgo ⟨hid, hle⟩))
        · exact .inl hid
      obtain ⟨reason, hcall⟩ := checkpoint_refused hS hlast hrec hno
      refine .refused ?_ ?_ ?_
      · rw [isAccepted, hcall]
      · rw [takeReading, hcall]
        rfl
      · rintro ⟨x, m, hread, hid, hm, -, hle⟩
        rw [hrec.read] at hread
        cases hread
        rw [hmark] at hm
        cases hm
        refine hgo ⟨?_, hle⟩
        simpa [Json.is, eq_comm] using hid

theorem ReadingCase.resumable {r : Reading} (h : Resumable P S u) (ho : ReadingCase P S u r) : Resumable P S (takeReading P S u r) := by
  cases ho with
  | refused _ hsame =>
    rw [hsame]
    exact h
  | accepted first _ hfirst hrec _ _ => exact .inr ⟨_, _, _, r.date, hfirst, hrec⟩

theorem markKept_iff (hS : S.Lawful) (h : Resumable P S u) (r : Reading) : MarkKept P S u r ↔ ¬ Behind P S u r := by
  cases reading_cases hS h r with
  | refused _ hsame hbehind =>
    refine ⟨fun _ => hbehind, fun _ m hm => ⟨m, ?_, le_refl m⟩⟩
    rw [hsame]
    exact hm
  | accepted first _ hfirst hrec hmark hbehind =>
    have hnew := mark_recorded hS r.date hrec
    rw [hbehind]
    constructor
    · rintro hresumable ⟨m, hm, hlt⟩
      obtain ⟨m', hm', hle⟩ := hresumable m hm
      rw [hnew] at hm'
      cases hm'
      omega
    · intro hno m hm
      refine ⟨r.now, hnew, ?_⟩
      by_contra hlt
      exact hno ⟨m, hm, not_le.mp hlt⟩

theorem marksKept_iff (hS : S.Lawful) (h : Resumable P S u) (rs : List Reading) :
    Runs.Along (takeReading P S) (MarkKept P S) u rs ↔ Runs.Along (takeReading P S) (fun v r => ¬ Behind P S v r) u rs := by
  induction rs generalizing u with
  | nil => exact Iff.rfl
  | cons r rs ih =>
    have hnext := (reading_cases hS h r).resumable h
    exact and_congr (markKept_iff hS h r) (ih hnext)

/-- While the mark is kept, no accepted reading is behind it. -/
theorem accepted_above (hS : S.Lawful) (h : Resumable P S u) {rs : List Reading}
    (hresumable : Runs.Along (takeReading P S) (MarkKept P S) u rs) :
    (∀ m, mark P S u = some m → ∀ t ∈ accepted P S u rs, m ≤ t) ∧ (accepted P S u rs).Pairwise (fun a b => a ≤ b) := by
  induction rs generalizing u with
  | nil =>
    refine ⟨?_, List.Pairwise.nil⟩
    intro m _ t ht
    cases ht
  | cons r rs ih =>
    have ho := reading_cases hS h r
    obtain ⟨habove, hsorted⟩ := ih (ho.resumable h) hresumable.2
    cases ho with
    | refused hno hsame =>
      rw [accepted, hno, if_neg (by decide), hsame]
      rw [hsame] at habove hsorted
      exact ⟨habove, hsorted⟩
    | accepted first hyes hfirst hrec _ _ =>
      have hnew := mark_recorded hS r.date hrec
      rw [accepted, hyes, if_pos rfl]
      refine ⟨?_, List.pairwise_cons.mpr ⟨habove _ hnew, hsorted⟩⟩
      intro m hm t ht
      obtain ⟨m', hm', hle⟩ := hresumable.1 m hm
      rw [hnew] at hm'
      cases hm'
      cases ht with
      | head => exact hle
      | tail _ ht => exact le_trans hle (habove _ hnew t ht)

/-- The high-water mark holds over a run of checkpoints exactly when no reading is
behind it by no more than the tolerance. -/
theorem high_water (P : Primitives) (S : Platform) (hS : S.Lawful) (u : UserData) (hnew : freshnessRead P S u = .none)
    (rs : List Reading) :
    HighWater P S u rs ↔ Runs.Along (takeReading P S) (fun v r => ¬ Behind P S v r) u rs := by
  have hresumable : Resumable P S u := .inl hnew
  rw [← marksKept_iff hS hresumable rs]
  refine ⟨fun h => h.1, fun h => ⟨h, ?_⟩⟩
  refine (accepted_above hS hresumable h).2.imp ?_
  intro a b hab
  unfold rollbackTolerance
  omega

def tenMinutesBack : List Reading :=
  [⟨"license-1", 1767312600000, by decide⟩, ⟨"license-1", 1767312300000, by decide⟩, ⟨"license-1", 1767312000000, by decide⟩]

theorem high_water_new :
    HighWater freshPrimitives plainPlatform {} tenMinutesBack ↔
      Runs.Along (takeReading freshPrimitives plainPlatform) (fun v r => ¬ Behind freshPrimitives plainPlatform v r) {}
        tenMinutesBack :=
  high_water freshPrimitives plainPlatform plainPlatform_lawful {} rfl tenMinutesBack

/-- A new store accepts all three, and the last one is ten minutes behind the first. -/
theorem tenMinutesBack_accepted : ¬ ∃ P : Primitives, HighWater P plainPlatform {} tenMinutesBack := by
  rintro ⟨P, -, hbounded⟩
  have hS := plainPlatform_lawful
  have hdate : IsDate 1767312600000 := by decide
  obtain ⟨hyes0, hrec0⟩ := takeReading_first (P := P) (u := {}) hS rfl ⟨"license-1", 1767312600000, by decide⟩
  have hfirst := toISOString_ne hS hdate
  obtain ⟨hyes1, hrec1⟩ := takeReading_later hS ⟨"license-1", 1767312300000, by decide⟩ hdate hfirst hrec0 (by decide)
  obtain ⟨hyes2, -⟩ := takeReading_later hS ⟨"license-1", 1767312000000, by decide⟩ (by decide) hfirst hrec1 (by decide)
  have haccepted : accepted P plainPlatform {} tenMinutesBack = [1767312600000, 1767312300000, 1767312000000] := by
    simp only [tenMinutesBack, accepted, hyes0, hyes1, hyes2, if_true]
  rw [haccepted] at hbounded
  exact absurd hbounded (by decide)

end GrowthMap.Desktop
