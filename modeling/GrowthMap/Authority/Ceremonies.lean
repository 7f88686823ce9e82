import GrowthMap.Authority.Inbox

/- The signer ceremony protocol: two stores and any number of processes.

   A construction checks the pinned ceremonies, reads the predecessor's digest, advances
   the external anchor, pins its ceremony and confirms; each of these is a step of its
   own, another process may move in between, and a process may crash after any of them.
   An instance that was constructed signs inside a write transaction: SQLite lets one
   process at a time hold the write lock, from BEGIN IMMEDIATE to COMMIT or ROLLBACK. -/
namespace GrowthMap.Authority

open Relational Runs Table
open Fallible (bind_ok)
open Payments (Time Err insertChecked insertChecked_ok firstBad firstBad_none firstBad_eq_none uniqueFailed checkFailed)

/-! validate -/

def isAuthorityId (s : String) : Bool :=
  matchesHead isLowerAlnum 63 (fun c => isLowerAlnum c || c == '_' || c == '-') s && decide (3 ≤ s.toList.length)

def isKeyId (s : String) : Bool :=
  matchesHead isLowerAlnum 63 (fun c => isLowerAlnum c || c == '.' || c == '_' || c == '-') s && decide (3 ≤ s.toList.length)

def isAttestation (s : String) : Bool :=
  matchesHead isAlnum 127 (fun c => isAlnum c || c == '.' || c == '_' || c == ':' || c == '/' || c == '-') s

/-- `validate(descriptor,reviewed_public_key,now)`, with the digest of the reviewed key. -/
def Ceremony.validate (reviewed : String) (now : Time) (c : Ceremony) : Bool :=
  isAuthorityId c.authorityId && isKeyId c.keyId && decide (1 ≤ c.generation) &&
    decide (c.predecessorGeneration = if c.generation = 1 then none else some (c.generation - 1)) &&
    (match IsoTime.parse c.activatedAt with
     | none => false
     | some activated => decide (activated.zulu = c.activatedAt) && decide (activated.instant ≤ now)) &&
    isDigest c.publicKeySha256 && decide (c.publicKeySha256 = reviewed) && isAttestation c.providerAttestationId

variable {c : Ceremony} {t : Ceremonies} {n m p q : Nat} {db : Store} {expected a : AnchorClaim} {reviewed : String}
  {now : Time}

theorem Ceremony.validate_generation (h : c.validate reviewed now = true) :
    1 ≤ c.generation ∧ c.predecessorGeneration = if c.generation = 1 then none else some (c.generation - 1) := by
  simp only [Ceremony.validate, Bool.and_eq_true, decide_eq_true_eq] at h
  obtain ⟨⟨⟨⟨⟨⟨-, h1⟩, h2⟩, -⟩, -⟩, -⟩, -⟩ := h
  exact ⟨h1, h2⟩

theorem Ceremony.validate_later {now' : Time} (h : c.validate reviewed now = true)
    (hle : now ≤ now') : c.validate reviewed now' = true := by
  unfold Ceremony.validate at h ⊢
  cases hp : IsoTime.parse c.activatedAt with
  | none => simp [hp] at h
  | some =>
    simp only [hp, Bool.and_eq_true, decide_eq_true_eq] at h ⊢
    obtain ⟨⟨⟨⟨h1, h2, h3⟩, h4⟩, h5⟩, h6⟩ := h
    exact ⟨⟨⟨⟨h1, h2, h3.trans hle⟩, h4⟩, h5⟩, h6⟩

/-! The anchor -/

/-- `compare_and_advance`; none where it raises a conflict. -/
def compareAndAdvance (current expected new : AnchorClaim) : Option AnchorClaim :=
  match validateAnchorClaim true expected, validateAnchorClaim false new with
  | some expected, some new =>
    if current = new then some current
    else if current ≠ expected ∨ new.generation ≠ expected.generation + 1 then none
    else some new
  | _, _ => none

/-- How a call of the anchor ends: it raises before it did anything, it does what it does
but the answer is lost, or it answers. -/
inductive AnchorAnswer where
  | unavailable | lost | answered
  deriving DecidableEq, Repr

/-! Processes -/

/-- Where a process is. -/
inductive Phase where
  | idle
  /-- `_check_ceremony_transition` passed -/
  | checked (c : Ceremony)
  /-- the claim expected of the anchor is known -/
  | expecting (c : Ceremony) (expected : AnchorClaim)
  | anchored (c : Ceremony)
  | pinned (c : Ceremony)
  /-- constructed -/
  | live (c : Ceremony)
  /-- in a transaction of a method that signs -/
  | writing (c : Ceremony)
  /-- `_sign_verified` has returned, the transaction is open -/
  | signed (c : Ceremony)
  deriving DecidableEq, Repr

structure World where
  db : Store
  anchor : AnchorClaim
  writer : Option Nat
  phase : Nat → Phase
  /-- the ceremonies whose signatures were committed -/
  signatures : List Ceremony

/-- Nothing pinned, the anchor at zero. -/
def World.initial : World := ⟨.empty, ⟨0, none⟩, none, fun _ => .idle, []⟩

def World.enter (w : World) (p : Nat) (x : Phase) : World :=
  { w with phase := fun q => if q = p then x else w.phase q }

inductive Move where
  | start (c : Ceremony) (reviewed : String) (now : Time)
  | readPredecessor
  | advance (answer : AnchorAnswer)
  | pin (now : Time)
  | confirm (readable : Bool)
  | begin
  | sign (readable : Bool) (signs : Bool)
  | commit
  | crash
  deriving DecidableEq, Repr

/-- `expected`, from the row of the predecessor. -/
def expectedClaim (k : Crypto) (t : Ceremonies) (c : Ceremony) : Option AnchorClaim :=
  if 1 < c.generation then
    (t.get (c.generation - 1)).map fun row => ⟨c.generation - 1, some (k.sha256 row.descriptor.document)⟩
  else some ⟨c.generation - 1, none⟩

def World.view (w : World) (readable : Bool) : SignerView :=
  ⟨if readable then some w.anchor else none, latestCeremony w.db.ceremonies⟩

/-- One step of process `p`. A construction that raises leaves the process idle; a write
transaction waits while another process holds the lock. -/
def World.step (k : Crypto) (w : World) (e : Nat × Move) : World :=
  let p := e.1
  match e.2, w.phase p with
  | .start c reviewed now, .idle =>
    if c.validate reviewed now then
      match checkCeremonyTransition c (latestCeremony w.db.ceremonies) with
      | .error _ => w
      | .ok _ => w.enter p (.checked c)
    else w
  | .readPredecessor, .checked c =>
    match expectedClaim k w.db.ceremonies c with
    | none => w.enter p .idle
    | some expected => w.enter p (.expecting c expected)
  | .advance answer, .expecting c expected =>
    match answer with
    | .unavailable => w.enter p .idle
    | .lost => { w with anchor := (compareAndAdvance w.anchor expected (c.claim k)).getD w.anchor }.enter p .idle
    | .answered =>
      match compareAndAdvance w.anchor expected (c.claim k) with
      | none => w.enter p .idle
      | some anchor => { w with anchor }.enter p (if anchor = c.claim k then .anchored c else .idle)
  | .pin now, .anchored c =>
    if w.writer.isSome then w
    else match pinCeremony c now w.db with
      | .error _ => w.enter p .idle
      | .ok (db, _) => { w with db }.enter p (.pinned c)
  | .confirm readable, .pinned c =>
    match assertSignerState k c (w.view readable) with
    | .error _ => w.enter p .idle
    | .ok _ => w.enter p (.live c)
  | .begin, .live c => if w.writer.isSome then w else { w with writer := some p }.enter p (.writing c)
  | .sign readable signs, .writing c =>
    match assertSignerState k c (w.view readable), signs with
    | .ok _, true => w.enter p (.signed c)
    | _, _ => { w with writer := none }.enter p (.live c)
  | .commit, .signed c => { w with writer := none, signatures := w.signatures ++ [c] }.enter p (.live c)
  | .crash, _ => { w with writer := if w.writer = some p then none else w.writer }.enter p .idle
  | _, _ => w

variable {k : Crypto}

/-! The latest ceremony -/

theorem newer_spec (best : Option CeremonyRow) (r : CeremonyRow) :
    ∃ b, newer best r = some b ∧ (b = r ∨ best = some b) ∧ r.generation ≤ b.generation ∧
      (∀ x, best = some x → x.generation ≤ b.generation) := by
  cases best with
  | none => exact ⟨r, rfl, .inl rfl, le_refl _, by simp⟩
  | some x =>
    by_cases hlt : x.generation < r.generation
    · exact ⟨r, by simp [newer, hlt], .inl rfl, le_refl _, by intro y hy; cases hy; exact hlt.le⟩
    · exact ⟨x, by simp [newer, hlt], .inr rfl, not_lt.mp hlt, by intro y hy; cases hy; exact le_refl _⟩

theorem foldl_newer (rows : List CeremonyRow) (b : CeremonyRow) :
    ∃ m, rows.foldl newer (some b) = some m ∧ (m ∈ rows ∨ m = b) ∧ (∀ r ∈ rows, r.generation ≤ m.generation) ∧
      b.generation ≤ m.generation := by
  induction rows generalizing b with
  | nil => exact ⟨b, rfl, .inr rfl, by simp, le_refl _⟩
  | cons r rows ih =>
    obtain ⟨b', hb', hmem, hr, hb⟩ := newer_spec (some b) r
    obtain ⟨m, hm, hin, hall, hle⟩ := ih b'
    refine ⟨m, by rw [List.foldl_cons, hb']; exact hm, ?_, ?_, (hb b rfl).trans hle⟩
    · rcases hin with hin | rfl
      · exact .inl (List.mem_cons_of_mem _ hin)
      · rcases hmem with rfl | hmem
        · exact .inl List.mem_cons_self
        · exact .inr (Option.some.inj hmem).symm
    · intro x hx
      rcases List.mem_cons.mp hx with rfl | hx
      · exact hr.trans hle
      · exact hall x hx

theorem latestCeremony_spec (t : Ceremonies) :
    (t.rows = [] ∧ latestCeremony t = none) ∨
    ∃ m, latestCeremony t = some m ∧ m ∈ t.rows ∧ ∀ r ∈ t.rows, r.generation ≤ m.generation := by
  unfold latestCeremony
  cases hrows : t.rows with
  | nil => exact .inl ⟨rfl, rfl⟩
  | cons r rows =>
    right
    obtain ⟨m, hm, hin, hall, hle⟩ := foldl_newer rows r
    refine ⟨m, hm, ?_, ?_⟩
    · rcases hin with hin | rfl
      · exact List.mem_cons_of_mem _ hin
      · exact List.mem_cons_self
    · intro x hx
      rcases List.mem_cons.mp hx with rfl | hx
      · exact hle
      · exact hall x hx

/-- The pinned generations are exactly `1..n`. -/
def PinnedTo (t : Ceremonies) (n : Nat) : Prop := ∀ g, (t.get g).isSome ↔ 1 ≤ g ∧ g ≤ n

theorem PinnedTo.unique (hn : PinnedTo t n) (hm : PinnedTo t m) : n = m := by
  have hiff : ∀ g, (1 ≤ g ∧ g ≤ n) ↔ (1 ≤ g ∧ g ≤ m) := fun g => (hn g).symm.trans (hm g)
  have h1 := hiff n
  have h2 := hiff m
  omega

theorem latestCeremony_eq (h : PinnedTo t n) :
    (n = 0 ∧ latestCeremony t = none) ∨ (1 ≤ n ∧ ∃ row, latestCeremony t = some row ∧ row.generation = n ∧ t.get n = some row) := by
  rcases latestCeremony_spec t with ⟨hrows, hnone⟩ | ⟨m, hm, hmem, hall⟩
  · left
    refine ⟨?_, hnone⟩
    by_contra hn
    have := (h n).mpr ⟨by omega, le_refl _⟩
    obtain ⟨row, hrow⟩ := Option.isSome_iff_exists.mp this
    have := get_mem hrow
    rw [hrows] at this
    cases this
  · right
    have hget := get_of_mem hmem
    have hm1 := (h m.generation).mp (by rw [hget]; rfl)
    obtain ⟨row, hrow⟩ := Option.isSome_iff_exists.mp ((h n).mpr ⟨by omega, le_refl _⟩)
    have hkey : row.generation = n := get_key hrow
    have hle := hall row (get_mem hrow)
    have hmn : m.generation = n := by omega
    exact ⟨by omega, m, hm, hmn, hmn ▸ hget⟩

/-! The invariant -/

/-- What a process knows of the two stores, with `n` generations pinned. -/
def Phase.Holds (k : Crypto) (w : World) (n : Nat) (p : Nat) : Phase → Prop
  | .idle | .pinned _ | .live _ => True
  | .checked c => 1 ≤ c.generation
  | .expecting c expected => c.generation = expected.generation + 1 ∧
      (expected.generation = 0 ∨ (w.db.ceremonies.get expected.generation).isSome)
  | .anchored c => 1 ≤ c.generation ∧ c.generation ≤ w.anchor.generation ∧
      (c.generation = w.anchor.generation → w.anchor = c.claim k)
  | .writing _ => w.writer = some p
  | .signed c => w.writer = some p ∧ c.generation = n

/-- The database and the anchor agree. -/
structure Agreed (k : Crypto) (w : World) (n : Nat) : Prop where
  pinned : PinnedTo w.db.ceremonies n
  rows : ∀ g row, w.db.ceremonies.get g = some row → row.descriptor.generation = g
  ahead : w.anchor.generation = n ∨ w.anchor.generation = n + 1
  same : w.anchor.generation = n → ∀ row, w.db.ceremonies.get n = some row → w.anchor = row.descriptor.claim k
  phases : ∀ p, (w.phase p).Holds k w n p

theorem Agreed.initial : Agreed k World.initial 0 where
  pinned := by
    intro g
    constructor
    · intro h
      simp [World.initial, Store.empty] at h
    · rintro ⟨h1, h2⟩
      omega
  rows := by
    intro g row h
    simp [World.initial, Store.empty] at h
  ahead := .inl rfl
  same := by
    intro _ row h
    simp [World.initial, Store.empty] at h
  phases := fun _ => trivial

variable {w w' : World} {x : Phase} {e : Nat × Move}

theorem Phase.Holds.mono (h : x.Holds k w n p)
    (hdb : ∀ g, (w.db.ceremonies.get g).isSome → (w'.db.ceremonies.get g).isSome)
    (hanchor : w'.anchor = w.anchor ∨ w.anchor.generation < w'.anchor.generation)
    (hlock : w.writer = some p → w'.writer = some p) : x.Holds k w' n p := by
  cases x with
  | idle | pinned | live => trivial
  | checked => exact h
  | expecting => exact ⟨h.1, h.2.imp id (hdb _)⟩
  | anchored =>
    obtain ⟨h1, hle, heq⟩ := h
    rcases hanchor with hsame | hlt
    · rw [Phase.Holds, hsame]
      exact ⟨h1, hle, heq⟩
    · exact ⟨h1, by omega, fun hg => by omega⟩
  | writing => exact hlock h
  | signed => exact ⟨hlock h.1, h.2⟩

@[simp] theorem World.enter_db (w : World) (p : Nat) (x : Phase) : (w.enter p x).db = w.db := rfl
@[simp] theorem World.enter_anchor (w : World) (p : Nat) (x : Phase) : (w.enter p x).anchor = w.anchor := rfl
@[simp] theorem World.enter_writer (w : World) (p : Nat) (x : Phase) : (w.enter p x).writer = w.writer := rfl

/-- A process enters a phase it is entitled to; the stores may have moved before. -/
theorem Agreed.enter (h : Agreed k w n) (hdb : w'.db = w.db) (hphase : w'.phase = w.phase)
    (hanchor : w'.anchor = w.anchor ∨ w'.anchor.generation = n + 1 ∧ w.anchor.generation = n)
    (hlock : ∀ q, q ≠ p → w.writer = some q → w'.writer = some q)
    (hx : x.Holds k w' n p) : Agreed k (w'.enter p x) n where
  pinned := by rw [World.enter_db, hdb]; exact h.pinned
  rows := by rw [World.enter_db, hdb]; exact h.rows
  ahead := by
    rw [World.enter_anchor]
    rcases hanchor with hsame | ⟨hnew, -⟩
    · rw [hsame]
      exact h.ahead
    · exact .inr hnew
  same := by
    rw [World.enter_anchor, World.enter_db, hdb]
    rcases hanchor with hsame | ⟨hnew, -⟩
    · rw [hsame]
      exact h.same
    · intro hn
      omega
  phases := by
    intro q
    simp only [World.enter]
    by_cases hq : q = p
    · rw [if_pos hq, hq]
      cases x <;> exact hx
    · rw [if_neg hq, hphase]
      have hold := h.phases q
      have hmono : (w.phase q).Holds k w' n q := by
        refine hold.mono (by rw [hdb]; exact fun _ => id) ?_ (hlock q hq)
        rcases hanchor with hsame | ⟨hnew, hold⟩
        · exact .inl hsame
        · exact .inr (by omega)
      revert hmono
      cases w.phase q <;> exact id

/-! Steps -/

/-- The ceremony is the one pinned last, or the next. -/
theorem checkCeremonyTransition_ok {b : Bool} (hn : PinnedTo t n)
    (h : checkCeremonyTransition c (latestCeremony t) = .ok b) :
    (b = false ∧ c.generation = n ∧ ∃ row, t.get n = some row ∧ row.descriptor = c) ∨ (b = true ∧ c.generation = n + 1) := by
  rcases latestCeremony_eq hn with ⟨h0, hnone⟩ | ⟨-, row, hrow, hgen, hget⟩
  · rw [hnone] at h
    simp only [checkCeremonyTransition] at h
    split at h
    · cases h
    · rename_i h1
      cases h
      exact .inr ⟨rfl, by omega⟩
  · rw [hrow] at h
    simp only [checkCeremonyTransition] at h
    split at h
    · cases h
    · rename_i hrange
      split at h
      · rename_i heq
        split at h
        · cases h
        · rename_i hsame
          cases h
          exact .inl ⟨rfl, heq.trans hgen, row, hget, not_not.mp hsame⟩
      · rename_i hne
        split at h
        · cases h
        · cases h
          exact .inr ⟨rfl, by omega⟩

theorem pinCeremony_ok {db' : Store} {u : Unit} (hn : PinnedTo db.ceremonies n)
    (h : pinCeremony c now db = .ok (db', u)) :
    (db' = db ∧ c.generation = n) ∨
    (c.generation = n + 1 ∧ ∃ t, db.ceremonies.insert ⟨c.generation, c.keyId, c, c.publicKeySha256, c.providerAttestationId, now⟩ =
      some t ∧ db' = { db with ceremonies := t }) := by
  obtain ⟨b, hb, h⟩ := bind_ok h
  rcases checkCeremonyTransition_ok hn hb with ⟨rfl, hgen, -⟩ | ⟨rfl, hgen⟩
  · cases h
    exact .inl ⟨rfl, hgen⟩
  · obtain ⟨t, ht, h⟩ := bind_ok h
    obtain ⟨-, hi⟩ := insertChecked_ok ht
    cases h
    exact .inr ⟨hgen, t, hi, rfl⟩

theorem compareAndAdvance_some {current new : AnchorClaim} (h : compareAndAdvance current expected new = some a) :
    a = new ∧ (current = new ∨ current = expected ∧ new.generation = expected.generation + 1) := by
  unfold compareAndAdvance at h
  split at h
  · rename_i e n he hn
    have he := validateAnchorClaim_eq he
    have hn := validateAnchorClaim_eq hn
    subst he hn
    split at h
    · rename_i hsame
      cases h
      exact ⟨hsame, .inl hsame⟩
    · split at h
      · cases h
      · rename_i hgood
        rw [not_or, not_not, not_not] at hgood
        cases h
        exact ⟨rfl, .inr hgood⟩
  · cases h

/-- The anchor moves only to the generation after the last one pinned. -/
theorem Agreed.advanced (h : Agreed k w n)
    (hphase : w.phase p = .expecting c expected) (ha : compareAndAdvance w.anchor expected (c.claim k) = some a) :
    a = c.claim k ∧ (a = w.anchor ∨ a.generation = n + 1 ∧ w.anchor.generation = n) := by
  have hp := h.phases p
  rw [hphase] at hp
  obtain ⟨hgen, hprev⟩ := hp
  obtain ⟨rfl, hcur⟩ := compareAndAdvance_some ha
  refine ⟨rfl, ?_⟩
  rcases hcur with hsame | ⟨hexp, -⟩
  · exact .inl hsame.symm
  · right
    have hclaim : (c.claim k).generation = c.generation := rfl
    have hn : w.anchor.generation = n := by
      rcases h.ahead with hn | hn
      · exact hn
      · -- the predecessor's row would be beyond the last one pinned
        rcases hprev with h0 | hrow
        · rw [hexp] at hn
          omega
        · have := ((h.pinned expected.generation).mp hrow).2
          rw [hexp] at hn
          omega
    rw [hexp] at hn ⊢
    omega

theorem expectedClaim_some {e : AnchorClaim} (h1 : 1 ≤ c.generation)
    (h : expectedClaim k t c = some e) :
    c.generation = e.generation + 1 ∧ (e.generation = 0 ∨ (t.get e.generation).isSome) := by
  unfold expectedClaim at h
  split at h
  · rename_i hlt
    obtain ⟨row, hrow, rfl⟩ := Option.map_eq_some_iff.mp h
    exact ⟨by show _ = c.generation - 1 + 1; omega, .inr (by show (t.get (c.generation - 1)).isSome = true; rw [hrow]; rfl)⟩
  · cases h
    exact ⟨by show _ = c.generation - 1 + 1; omega, .inl (by show c.generation - 1 = 0; omega)⟩

/-- A new row is pinned under the lock: no process has signed and not committed. -/
theorem Agreed.pin (h : Agreed k w n)
    (hphase : w.phase p = .anchored c) (hfree : w.writer = none) (hgen : c.generation = n + 1)
    (hi : w.db.ceremonies.insert ⟨c.generation, c.keyId, c, c.publicKeySha256, c.providerAttestationId, now⟩ = some t) :
    Agreed k ({ w with db := { w.db with ceremonies := t } }.enter p (.pinned c)) (n + 1) where
  pinned := by
    intro g
    show (t.get g).isSome ↔ _
    rw [get_insert hi]
    by_cases hg : g = c.generation
    · simp [hg]
      omega
    · rw [if_neg hg, h.pinned g]
      omega
  rows := by
    intro g row hrow
    rcases get_insert_cases hi hrow with ⟨hg, rfl⟩ | hold
    · exact hg.symm
    · exact h.rows g row hold
  ahead := by
    have hp := h.phases p
    rw [hphase] at hp
    obtain ⟨-, hle, -⟩ := hp
    show w.anchor.generation = n + 1 ∨ _
    rcases h.ahead with hn | hn
    · omega
    · exact .inl hn
  same := by
    intro han row hrow
    have hp := h.phases p
    rw [hphase] at hp
    have han : w.anchor.generation = n + 1 := han
    have hself := get_insert_self hi
    have hrow : t.get (n + 1) = some row := hrow
    rw [hgen] at hself
    rw [hself] at hrow
    cases hrow
    exact hp.2.2 (hgen.trans han.symm)
  phases := by
    intro q
    have hgrow : ∀ g, (w.db.ceremonies.get g).isSome → (t.get g).isSome := by
      intro g hg
      obtain ⟨row, hrow⟩ := Option.isSome_iff_exists.mp hg
      rw [get_insert_old hi hrow]
      rfl
    have hold := h.phases q
    simp only [World.enter]
    by_cases hq : q = p
    · rw [if_pos hq]
      trivial
    · rw [if_neg hq]
      cases hx : w.phase q with
      | idle | pinned | live => trivial
      | checked => rw [hx] at hold; exact hold
      | expecting => rw [hx] at hold; exact ⟨hold.1, hold.2.imp id (hgrow _)⟩
      | anchored => rw [hx] at hold; exact hold
      | writing => rw [hx] at hold; exact hold
      | signed =>
        rw [hx] at hold
        have hlock : w.writer = some q := hold.1
        rw [hfree] at hlock
        cases hlock

/-- Every step keeps the two stores in agreement. -/
theorem World.step_agreed (h : Agreed k w n) (e : Nat × Move) :
    ∃ m, n ≤ m ∧ Agreed k (w.step k e) m := by
  obtain ⟨p, move⟩ := e
  have hkeep : ∀ x : Phase, x.Holds k w n p → Agreed k (w.enter p x) n :=
    fun x hx => h.enter rfl rfl (.inl rfl) (fun _ _ hq => hq) hx
  have hp := h.phases p
  unfold World.step
  dsimp only
  split
  · -- start
    rename_i c reviewed now hphase
    split
    · rename_i hvalid
      split
      · exact ⟨n, le_refl _, h⟩
      · exact ⟨n, le_refl _, hkeep _ (Ceremony.validate_generation hvalid).1⟩
    · exact ⟨n, le_refl _, h⟩
  · -- readPredecessor
    rename_i c hphase
    rw [hphase] at hp
    split
    · exact ⟨n, le_refl _, hkeep _ trivial⟩
    · rename_i e he
      exact ⟨n, le_refl _, hkeep _ (expectedClaim_some hp he)⟩
  · -- advance
    rename_i answer c expected hphase
    split
    · exact ⟨n, le_refl _, hkeep _ trivial⟩
    · refine ⟨n, le_refl _, h.enter rfl rfl ?_ (fun _ _ hq => hq) trivial⟩
      cases ha : compareAndAdvance w.anchor expected (c.claim k) with
      | none => exact .inl rfl
      | some => exact (h.advanced hphase ha).2
    · split
      · exact ⟨n, le_refl _, hkeep _ trivial⟩
      · rename_i a ha
        obtain ⟨hclaim, hmoved⟩ := h.advanced hphase ha
        refine ⟨n, le_refl _, h.enter rfl rfl hmoved (fun _ _ hq => hq) ?_⟩
        rw [if_pos hclaim]
        rw [hphase] at hp
        refine ⟨by have := hp.1; omega, ?_, fun _ => hclaim⟩
        rw [hclaim]
        exact le_refl _
  · -- pin
    rename_i now c hphase
    split
    · exact ⟨n, le_refl _, h⟩
    · rename_i hlock
      split
      · exact ⟨n, le_refl _, hkeep _ trivial⟩
      · rename_i db u hdb
        rcases pinCeremony_ok h.pinned hdb with ⟨rfl, -⟩ | ⟨hgen, t, hi, rfl⟩
        · exact ⟨n, le_refl _, hkeep _ trivial⟩
        · exact ⟨n + 1, Nat.le_succ n, h.pin hphase (by simpa using hlock) hgen hi⟩
  · -- confirm
    split
    · exact ⟨n, le_refl _, hkeep _ trivial⟩
    · exact ⟨n, le_refl _, hkeep _ trivial⟩
  · -- begin
    split
    · exact ⟨n, le_refl _, h⟩
    · rename_i hlock
      refine ⟨n, le_refl _, h.enter rfl rfl (.inl rfl) ?_ rfl⟩
      intro q _ hq
      rw [hq] at hlock
      simp at hlock
  · -- sign
    rename_i readable signs c hphase
    rw [hphase] at hp
    split
    · rename_i u hstate
      obtain ⟨-, row, hrow, hgen, -⟩ := assertSignerState_ok hstate
      refine ⟨n, le_refl _, hkeep _ ⟨hp, ?_⟩⟩
      have hrow : latestCeremony w.db.ceremonies = some row := hrow
      rcases latestCeremony_eq h.pinned with ⟨-, hnone⟩ | ⟨-, row', hrow', hn, -⟩
      · rw [hnone] at hrow
        cases hrow
      · rw [hrow'] at hrow
        cases hrow
        exact hgen.symm.trans hn
    · refine ⟨n, le_refl _, h.enter rfl rfl (.inl rfl) ?_ trivial⟩
      intro q hq hlock
      rw [hp] at hlock
      exact absurd (Option.some.inj hlock).symm hq
  · -- commit
    rename_i c hphase
    rw [hphase] at hp
    refine ⟨n, le_refl _, h.enter rfl rfl (.inl rfl) ?_ trivial⟩
    intro q hq hlock
    rw [hp.1] at hlock
    exact absurd (Option.some.inj hlock).symm hq
  · -- crash
    refine ⟨n, le_refl _, h.enter rfl rfl (.inl rfl) ?_ trivial⟩
    intro q hq hlock
    have hne : w.writer ≠ some p := by
      rw [hlock]
      exact fun he => hq (Option.some.inj he)
    show (if w.writer = some p then none else w.writer) = some q
    rw [if_neg hne, hlock]
  · exact ⟨n, le_refl _, h⟩

theorem World.run_agreed (h : Agreed k w n) (es : List (Nat × Move)) :
    ∃ m, n ≤ m ∧ Agreed k (run (World.step k) w es) m := by
  induction es generalizing w n with
  | nil => exact ⟨n, le_refl _, h⟩
  | cons e es ih =>
    obtain ⟨m, hm, hstep⟩ := World.step_agreed h e
    obtain ⟨m', hm', hrun⟩ := ih hstep
    exact ⟨m', hm.trans hm', hrun⟩

/-! Signatures -/

/-- A committed signature is of the generation pinned last. -/
theorem World.committed_signature (h : Agreed k w n)
    (hsig : (w.step k e).signatures = w.signatures ++ [c]) : c.generation = n := by
  obtain ⟨p, move⟩ := e
  have hother : w.signatures ≠ w.signatures ++ [c] := by simp
  have hp := h.phases p
  unfold World.step at hsig
  dsimp only at hsig
  split at hsig
  case h_8 c' hphase =>
    rw [hphase] at hp
    have hsig : w.signatures ++ [c'] = w.signatures ++ [c] := hsig
    have hc : c' = c := by simpa using hsig
    rw [← hc]
    exact hp.2
  -- no other step adds to the signatures
  all_goals
    exfalso
    first
    | exact hother hsig
    | (split at hsig <;> first
        | exact hother hsig
        | (split at hsig <;> exact hother hsig))

/-! Restarts -/

/-- The steps of others that do not move a store, and the steps of the attempt of `p`. -/
def quiet (p : Nat) (e : Nat × Move) : Bool :=
  match e.2 with
  | .advance _ | .pin _ => decide (e.1 = p)
  | .start _ _ _ => decide (e.1 ≠ p)
  | _ => true

/-- The anchor admits the ceremony: it holds its claim, or that of its predecessor. -/
def Admits (k : Crypto) (w : World) (c : Ceremony) : Prop :=
  w.anchor = c.claim k ∨ expectedClaim k w.db.ceremonies c = some w.anchor

/-- The process is somewhere in an attempt with `c`, or in none. -/
def Phase.Of (k : Crypto) (w : World) (c : Ceremony) : Phase → Prop
  | .idle => True
  | .checked c' | .anchored c' | .pinned c' | .live c' | .writing c' | .signed c' => c' = c
  | .expecting c' e => c' = c ∧ expectedClaim k w.db.ceremonies c = some e

/-- An attempt with `c` that is not finished can be made again. -/
structure Resumable (k : Crypto) (w : World) (c : Ceremony) (p : Nat) : Prop where
  agreed : ∃ n, Agreed k w n ∧ ((c.generation = n ∧ (∃ row, w.db.ceremonies.get n = some row ∧ row.descriptor = c)) ∨
    c.generation = n + 1)
  admits : Admits k w c
  phase : (w.phase p).Of k w c

theorem World.enter_self (w : World) (p : Nat) (x : Phase) : (w.enter p x).phase p = x := if_pos rfl

theorem World.enter_other (w : World) (x : Phase) (h : q ≠ p) : (w.enter p x).phase q = w.phase q := if_neg h

/-- Only `advance` and `pin` move a store. -/
theorem World.step_still (w : World) (h : ∀ a, e.2 ≠ .advance a) (h' : ∀ t, e.2 ≠ .pin t) :
    (w.step k e).db = w.db ∧ (w.step k e).anchor = w.anchor := by
  obtain ⟨p, move⟩ := e
  unfold World.step
  dsimp only
  split
  case h_3 => exact absurd rfl (h _)
  case h_4 => exact absurd rfl (h' _)
  all_goals
    first
    | exact ⟨rfl, rfl⟩
    | (split <;> first
        | exact ⟨rfl, rfl⟩
        | (split <;> exact ⟨rfl, rfl⟩))

theorem World.step_other (w : World) (h : q ≠ e.1) : (w.step k e).phase q = w.phase q := by
  obtain ⟨p, move⟩ := e
  have hq : ∀ (v : World) (x : Phase), v.phase = w.phase → (v.enter p x).phase q = w.phase q := by
    intro v x hv
    rw [World.enter_other v x h, hv]
  unfold World.step
  dsimp only
  split
  all_goals
    first
    | rfl
    | exact hq _ _ rfl
    | (split <;> first
        | rfl
        | exact hq _ _ rfl
        | (split <;> first
            | rfl
            | exact hq _ _ rfl))

/-- What the steps of `p` itself, apart from `start`, make of its phase. -/
theorem World.step_of (move : Move) (hstart : ∀ c r t, move ≠ .start c r t)
    (h : (w.phase p).Of k w c) : ((w.step k (p, move)).phase p).Of k w c := by
  unfold World.step
  dsimp only
  split
  case h_1 => exact absurd rfl (hstart _ _ _)
  case h_2 c' hphase =>
    rw [hphase] at h
    have hc : c' = c := h
    subst hc
    split
    · rw [World.enter_self]
      trivial
    · rename_i e he
      rw [World.enter_self]
      exact ⟨rfl, he⟩
  case h_3 answer c' expected hphase =>
    rw [hphase] at h
    obtain ⟨rfl, -⟩ := h
    split
    · rw [World.enter_self]
      trivial
    · rw [World.enter_self]
      trivial
    · split
      · rw [World.enter_self]
        trivial
      · rw [World.enter_self]
        split
        · rfl
        · trivial
  case h_4 now c' hphase =>
    rw [hphase] at h
    have hc : c' = c := h
    split
    · rw [hphase]
      exact h
    · split
      · rw [World.enter_self]
        trivial
      · rw [World.enter_self]
        exact hc
  case h_5 readable c' hphase =>
    rw [hphase] at h
    split
    · rw [World.enter_self]
      trivial
    · rw [World.enter_self]
      exact h
  case h_6 c' hphase =>
    split
    · exact h
    · rw [World.enter_self]
      rw [hphase] at h
      exact h
  case h_7 readable signs c' hphase =>
    rw [hphase] at h
    split
    · rw [World.enter_self]
      exact h
    · rw [World.enter_self]
      exact h
  case h_8 c' hphase =>
    rw [World.enter_self]
    rw [hphase] at h
    exact h
  case h_9 =>
    rw [World.enter_self]
    trivial
  case h_10 => exact h

theorem expectedClaim_grows {t' : Ceremonies} {e : AnchorClaim}
    (h : ∀ g row, t.get g = some row → t'.get g = some row) (he : expectedClaim k t c = some e) : expectedClaim k t' c = some e := by
  unfold expectedClaim at he ⊢
  split at he
  · rename_i hlt
    obtain ⟨row, hrow, rfl⟩ := Option.map_eq_some_iff.mp he
    rw [if_pos hlt, h _ row hrow]
    rfl
  · rename_i hlt
    rw [if_neg hlt]
    exact he

theorem Phase.Of.grows (hx : x.Of k w c)
    (h : ∀ g row, w.db.ceremonies.get g = some row → w'.db.ceremonies.get g = some row) : x.Of k w' c := by
  cases x with
  | expecting => exact ⟨hx.1, expectedClaim_grows h hx.2⟩
  | idle | checked | anchored | pinned | live | writing | signed => exact hx

theorem Resumable.still (h : Resumable k w c p) (hdb : w'.db = w.db)
    (hanchor : w'.anchor = w.anchor) (hagreed : Agreed k w' m) (hphase : (w'.phase p).Of k w c) : Resumable k w' c p where
  agreed := by
    obtain ⟨n, hn, hgen⟩ := h.agreed
    have hnm : n = m := hn.pinned.unique (hdb ▸ hagreed.pinned)
    subst hnm
    rw [hdb]
    exact ⟨n, hagreed, hgen⟩
  admits := by
    unfold Admits
    rw [hdb, hanchor]
    exact h.admits
  phase := hphase.grows (by rw [hdb]; exact fun _ _ => id)

/-- An `advance` leaves the anchor, or takes it where `compare_and_advance` does. -/
theorem World.step_advance (w : World) (p : Nat) (answer : AnchorAnswer) :
    (w.step k (p, .advance answer)).db = w.db ∧
    ((w.step k (p, .advance answer)).anchor = w.anchor ∨ ∃ c expected, w.phase p = .expecting c expected ∧
      compareAndAdvance w.anchor expected (c.claim k) = some (w.step k (p, .advance answer)).anchor) := by
  cases hx : w.phase p with
  | expecting c expected =>
    simp only [World.step, hx]
    cases answer with
    | unavailable => exact ⟨rfl, .inl rfl⟩
    | lost =>
      refine ⟨rfl, ?_⟩
      cases ha : compareAndAdvance w.anchor expected (c.claim k) with
      | none => exact .inl rfl
      | some => exact .inr ⟨c, expected, rfl, ha⟩
    | answered =>
      dsimp only
      cases ha : compareAndAdvance w.anchor expected (c.claim k) with
      | none => exact ⟨rfl, .inl rfl⟩
      | some => exact ⟨rfl, .inr ⟨c, expected, rfl, ha⟩⟩
  | idle | checked | anchored | pinned | live | writing | signed =>
    have hstep : w.step k (p, .advance answer) = w := by simp only [World.step, hx]
    rw [hstep]
    exact ⟨rfl, .inl rfl⟩

/-- A `pin` leaves the ceremonies, or inserts under a free lock. -/
theorem World.step_pin (w : World) (p : Nat) (now : Time) :
    (w.step k (p, .pin now)).anchor = w.anchor ∧
    ((w.step k (p, .pin now)).db = w.db ∨ ∃ c db u, w.phase p = .anchored c ∧ w.writer = none ∧
      pinCeremony c now w.db = .ok (db, u) ∧ w.step k (p, .pin now) = { w with db }.enter p (.pinned c)) := by
  cases hx : w.phase p with
  | anchored c =>
    simp only [World.step, hx]
    cases hlock : w.writer with
    | some => exact ⟨rfl, .inl rfl⟩
    | none =>
      simp only [Option.isSome_none, Bool.false_eq_true, if_false]
      cases hpin : pinCeremony c now w.db with
      | error => exact ⟨rfl, .inl rfl⟩
      | ok r => exact ⟨rfl, .inr ⟨c, r.1, r.2, rfl, trivial, hpin, rfl⟩⟩
  | idle | checked | expecting | pinned | live | writing | signed =>
    have hstep : w.step k (p, .pin now) = w := by simp only [World.step, hx]
    rw [hstep]
    exact ⟨rfl, .inl rfl⟩

theorem Resumable.advance (h : Resumable k w c p) (answer : AnchorAnswer) :
    Resumable k (w.step k (p, .advance answer)) c p := by
  obtain ⟨n, hn, hgen⟩ := h.agreed
  obtain ⟨m, -, hm⟩ := World.step_agreed hn (p, .advance answer)
  have hof := World.step_of (k := k) (.advance answer) nofun h.phase
  obtain ⟨hdb, hsame | ⟨c', expected, hphase, ha⟩⟩ := World.step_advance (k := k) w p answer
  · exact h.still hdb hsame hm hof
  · have hp := h.phase
    rw [hphase] at hp
    obtain ⟨rfl, -⟩ := hp
    have hnm : n = m := hn.pinned.unique (hdb ▸ hm.pinned)
    subst hnm
    exact ⟨⟨n, hm, by rw [hdb]; exact hgen⟩, .inl (compareAndAdvance_some ha).1,
      hof.grows (by rw [hdb]; exact fun _ _ => id)⟩

theorem Resumable.pin (h : Resumable k w c p) (now : Time) :
    Resumable k (w.step k (p, .pin now)) c p := by
  obtain ⟨n, hn, hgen⟩ := h.agreed
  obtain ⟨m, -, hm⟩ := World.step_agreed hn (p, .pin now)
  have hof := World.step_of (k := k) (.pin now) nofun h.phase
  obtain ⟨hanchor, hsame | ⟨c', db, u, hphase, hfree, hpin, hstep⟩⟩ := World.step_pin (k := k) w p now
  · exact h.still hsame hanchor hm hof
  · have hp := h.phase
    rw [hphase] at hp
    have hc : c' = c := hp
    subst hc
    have hholds := hn.phases p
    rw [hphase] at hholds
    obtain ⟨-, hle, hclaim⟩ := hholds
    rcases pinCeremony_ok hn.pinned hpin with ⟨rfl, -⟩ | ⟨hnext, t, hi, rfl⟩
    · refine h.still (by rw [hstep]; rfl) hanchor hm hof
    · rw [hstep]
      have hself := get_insert_self hi
      refine ⟨⟨n + 1, hn.pin hphase hfree hnext hi, .inl ⟨hnext, _, hnext ▸ hself, rfl⟩⟩, .inl ?_, ?_⟩
      · have : c'.generation = w.anchor.generation := by
          rcases hn.ahead with ha | ha <;> omega
        exact hclaim this
      · rw [World.enter_self]
        rfl

theorem Resumable.step (h : Resumable k w c p) (hq : quiet p e = true) :
    Resumable k (w.step k e) c p := by
  obtain ⟨q, move⟩ := e
  obtain ⟨n, hn, -⟩ := h.agreed
  obtain ⟨m, -, hm⟩ := World.step_agreed hn (q, move)
  by_cases hmoves : (∃ a, move = .advance a) ∨ (∃ t, move = .pin t)
  · rcases hmoves with ⟨a, rfl⟩ | ⟨t, rfl⟩
    · have hqp : q = p := of_decide_eq_true hq
      subst hqp
      exact h.advance a
    · have hqp : q = p := of_decide_eq_true hq
      subst hqp
      exact h.pin t
  · rw [not_or, not_exists, not_exists] at hmoves
    obtain ⟨hdb, hanchor⟩ := World.step_still (k := k) w (e := (q, move)) hmoves.1 hmoves.2
    refine h.still hdb hanchor hm ?_
    by_cases hqp : p = q
    · subst hqp
      refine World.step_of move ?_ h.phase
      intro c' r t hstart
      subst hstart
      exact of_decide_eq_true hq rfl
    · rw [World.step_other w hqp]
      exact h.phase

theorem Resumable.run (h : Resumable k w c p) {es : List (Nat × Move)}
    (hq : ∀ e ∈ es, quiet p e = true) : Resumable k (run (World.step k) w es) c p := by
  induction es generalizing w with
  | nil => exact h
  | cons e es ih =>
    exact ih (h.step (hq e List.mem_cons_self)) (fun f hf => hq f (List.mem_cons_of_mem _ hf))

/-- A construction that is not interrupted: the anchor answers and can be read. -/
def construction (q : Nat) (c : Ceremony) (reviewed : String) (now pinnedAt : Time) : List (Nat × Move) :=
  [(q, .start c reviewed now), (q, .readPredecessor), (q, .advance .answered), (q, .pin pinnedAt), (q, .confirm true)]

theorem checkCeremonyTransition_succeeds (hn : PinnedTo t n)
    (hpred : c.predecessorGeneration = if c.generation = 1 then none else some (c.generation - 1))
    (h : (c.generation = n ∧ ∃ row, t.get n = some row ∧ row.descriptor = c) ∨ c.generation = n + 1) :
    checkCeremonyTransition c (latestCeremony t) = .ok (decide (c.generation = n + 1)) := by
  rcases latestCeremony_eq hn with ⟨h0, hnone⟩ | ⟨h1, row, hrow, hgen, hget⟩
  · rw [hnone]
    rcases h with ⟨hg, row, hrow, -⟩ | hg
    · have := ((hn n).mp (by rw [hrow]; rfl)).1
      omega
    · have h1 : c.generation = 1 := by omega
      have h2 : c.generation = n + 1 := hg
      simp [checkCeremonyTransition, h0, h1]
  · rw [hrow]
    simp only [checkCeremonyTransition, hgen]
    rcases h with ⟨hg, row', hrow', hdesc⟩ | hg
    · rw [hget] at hrow'
      cases hrow'
      have hnot : ¬ (c.generation < n ∨ n + 1 < c.generation) := by omega
      have hne : ¬ c.generation = n + 1 := by omega
      rw [if_neg hnot, if_pos hg, if_neg (not_not.mpr hdesc)]
      simp [hne]
    · have hnot : ¬ (c.generation < n ∨ n + 1 < c.generation) := by omega
      have hne : ¬ c.generation = n := by omega
      have hp : c.predecessorGeneration = some n := by
        rw [hpred, if_neg (by omega), hg]
        rfl
      rw [if_neg hnot, if_neg hne, if_neg (by rw [hp]; exact not_not.mpr rfl)]
      simp [hg]

theorem validateAnchorClaim_claim (hk : ∀ c : Ceremony, isDigest (k.sha256 c.document) = true) (b : Bool)
    (h1 : 1 ≤ c.generation) : validateAnchorClaim b (c.claim k) = some (c.claim k) := by
  simp only [validateAnchorClaim, Ceremony.claim, hk c]
  rw [if_pos ⟨by omega, trivial⟩]

theorem expectedClaim_isSome (hn : PinnedTo t n) (h1 : 1 ≤ c.generation)
    (hle : c.generation ≤ n + 1) (hk : ∀ c : Ceremony, isDigest (k.sha256 c.document) = true) :
    ∃ e, expectedClaim k t c = some e ∧ validateAnchorClaim true e = some e := by
  unfold expectedClaim
  by_cases hlt : 1 < c.generation
  · rw [if_pos hlt]
    obtain ⟨row, hrow⟩ := Option.isSome_iff_exists.mp ((hn (c.generation - 1)).mpr ⟨by omega, by omega⟩)
    refine ⟨_, by rw [hrow]; rfl, ?_⟩
    simp only [validateAnchorClaim, hk row.descriptor]
    rw [if_pos ⟨by omega, trivial⟩]
  · rw [if_neg hlt]
    refine ⟨_, rfl, ?_⟩
    simp only [validateAnchorClaim]
    rw [if_pos ⟨by omega, trivial⟩]

/-- A ceremony that is the last one pinned or the next is pinned by `_pin_ceremony`, and is
then the latest. -/
theorem pinCeremony_succeeds (now : Time) (hn : PinnedTo db.ceremonies n)
    (hrows : ∀ g row, db.ceremonies.get g = some row → row.descriptor.generation = g)
    (hpred : c.predecessorGeneration = if c.generation = 1 then none else some (c.generation - 1))
    (h : (c.generation = n ∧ ∃ row, db.ceremonies.get n = some row ∧ row.descriptor = c) ∨ c.generation = n + 1) :
    ∃ db' row, pinCeremony c now db = .ok (db', ()) ∧ latestCeremony db'.ceremonies = some row ∧
      row.generation = c.generation ∧ row.descriptor = c := by
  have hcheck := checkCeremonyTransition_succeeds hn hpred h
  by_cases hnext : c.generation = n + 1
  · -- nothing has this generation, nor this descriptor
    have hfree : db.ceremonies.get c.generation = none := by
      cases hg : db.ceremonies.get c.generation with
      | none => rfl
      | some =>
        have := ((hn c.generation).mp (by rw [hg]; rfl)).2
        omega
    have htaken : db.ceremonies.taken c.generation (fun r => some r.descriptor) (some c) = false := by
      rw [taken_eq_false]
      intro g row x hg hx hc
      cases hx
      have := hrows g row hg
      rw [Option.some.inj hc] at this
      exact this.symm
    obtain ⟨t, hi⟩ := insert_isSome (t := db.ceremonies)
      (r := ⟨c.generation, c.keyId, c, c.publicKeySha256, c.providerAttestationId, now⟩) hfree
    have hpinned : PinnedTo t (n + 1) := by
      intro g
      rw [get_insert hi]
      by_cases hg : g = c.generation
      · simp [hg]
        omega
      · rw [if_neg hg, hn g]
        omega
    have hbad : firstBad [(decide (c.generation = 0), checkFailed),
        (db.ceremonies.taken c.generation (fun r => some r.descriptor) (some c), uniqueFailed)] = none := by
      apply firstBad_eq_none
      intro x hx
      rcases List.mem_cons.mp hx with rfl | hx
      · simp only [decide_eq_false_iff_not]
        omega
      · rw [List.mem_singleton.mp hx]
        exact htaken
    rcases latestCeremony_eq hpinned with ⟨h0, -⟩ | ⟨-, row, hrow, hgen, hget⟩
    · omega
    · have hself : t.get c.generation = some row := by rw [hnext]; exact hget
      have hsame : row = ⟨c.generation, c.keyId, c, c.publicKeySha256, c.providerAttestationId, now⟩ :=
        Option.some.inj (hself.symm.trans (get_insert_self hi))
      refine ⟨{ db with ceremonies := t }, row, ?_, hrow, by rw [hsame], by rw [hsame]⟩
      unfold pinCeremony
      rw [hcheck, decide_eq_true hnext]
      show (insertChecked db.ceremonies _ _ >>= _) = _
      rw [hbad]
      simp only [insertChecked, hi]
      rfl
  · rcases h with ⟨hg, row, hrow, hdesc⟩ | hg
    · rcases latestCeremony_eq hn with ⟨h0, -⟩ | ⟨-, row', hrow', hgen, hget⟩
      · have := ((hn n).mp (by rw [hrow]; rfl)).1
        omega
      · rw [hrow] at hget
        cases hget
        refine ⟨db, row, ?_, hrow', by omega, hdesc⟩
        unfold pinCeremony
        rw [hcheck, decide_eq_false hnext]
        rfl
    · exact absurd hg hnext

theorem compareAndAdvance_succeeds {current e : AnchorClaim}
    (hk : ∀ c : Ceremony, isDigest (k.sha256 c.document) = true) (h1 : 1 ≤ c.generation)
    (he : validateAnchorClaim true e = some e) (hgen : c.generation = e.generation + 1)
    (h : current = c.claim k ∨ current = e) : compareAndAdvance current e (c.claim k) = some (c.claim k) := by
  unfold compareAndAdvance
  rw [he, validateAnchorClaim_claim hk false h1]
  dsimp only
  by_cases hsame : current = c.claim k
  · rw [if_pos hsame, hsame]
  · have hexp : current = e := h.resolve_left hsame
    rw [if_neg hsame, if_neg]
    rw [not_or, not_not, not_not]
    exact ⟨hexp, hgen⟩

theorem assertSignerState_succeeds {v : SignerView} {row : CeremonyRow}
    (hk : ∀ c : Ceremony, isDigest (k.sha256 c.document) = true) (h1 : 1 ≤ c.generation)
    (hanchor : v.anchor = some (c.claim k)) (hrow : v.latest = some row) (hgen : row.generation = c.generation)
    (hdesc : row.descriptor = c) : assertSignerState k c v = .ok () := by
  unfold assertSignerState
  rw [hanchor, Option.bind_some, validateAnchorClaim_claim hk false h1]
  dsimp only
  rw [if_neg (not_not.mpr rfl), hrow]
  dsimp only
  rw [if_neg]
  rw [not_or, not_not, not_not]
  exact ⟨hgen, hdesc⟩

/-- An attempt that can be made again completes when nothing interrupts it. -/
theorem Resumable.completes {pinnedAt : Time}
    (h : Resumable k w c p) (hk : ∀ c : Ceremony, isDigest (k.sha256 c.document) = true)
    (hvalid : c.validate reviewed now = true) (hidle : w.phase q = .idle) (hfree : w.writer = none) :
    (Runs.run (World.step k) w (construction q c reviewed now pinnedAt)).phase q = .live c := by
  obtain ⟨n, hn, hgen⟩ := h.agreed
  obtain ⟨h1, hpred⟩ := Ceremony.validate_generation hvalid
  have hle : c.generation ≤ n + 1 := by
    rcases hgen with ⟨hg, -⟩ | hg <;> omega
  have hcheck := checkCeremonyTransition_succeeds hn.pinned hpred hgen
  obtain ⟨e, he, hevalid⟩ := expectedClaim_isSome hn.pinned h1 hle hk
  have hadmits : w.anchor = c.claim k ∨ w.anchor = e := by
    rcases h.admits with ha | ha
    · exact .inl ha
    · rw [he] at ha
      exact .inr (Option.some.inj ha).symm
  have hcas := compareAndAdvance_succeeds hk h1 hevalid (expectedClaim_some h1 he).1 hadmits
  obtain ⟨db, row, hpin, hrow, hrgen, hrdesc⟩ := pinCeremony_succeeds pinnedAt hn.pinned hn.rows hpred hgen
  have s1 : w.step k (q, .start c reviewed now) = w.enter q (.checked c) := by
    simp only [World.step, hidle, hvalid, if_true, hcheck]
  have s2 : (w.enter q (.checked c)).step k (q, .readPredecessor) = (w.enter q (.checked c)).enter q (.expecting c e) := by
    simp only [World.step, World.enter_self, World.enter_db, he]
  have s3 : ((w.enter q (.checked c)).enter q (.expecting c e)).step k (q, .advance .answered) =
      { (w.enter q (.checked c)).enter q (.expecting c e) with anchor := c.claim k }.enter q (.anchored c) := by
    simp only [World.step, World.enter_self, World.enter_anchor, hcas, if_true]
  -- from here on only the database and the anchor matter
  generalize hw : { (w.enter q (.checked c)).enter q (.expecting c e) with anchor := c.claim k }.enter q (.anchored c) = v at s3
  have hv : v.phase q = .anchored c ∧ v.writer = none ∧ v.db = w.db ∧ v.anchor = c.claim k := by
    subst hw
    exact ⟨World.enter_self _ _ _, hfree, rfl, rfl⟩
  obtain ⟨hvp, hvw, hvdb, hva⟩ := hv
  have s4 : v.step k (q, .pin pinnedAt) = { v with db }.enter q (.pinned c) := by
    simp only [World.step, hvp, hvw, hvdb, hpin, Option.isSome_none, Bool.false_eq_true, if_false]
  have hstate : assertSignerState k c (({ v with db }.enter q (.pinned c)).view true) = .ok () :=
    assertSignerState_succeeds hk h1 (by simp [World.view, hva]) hrow hrgen hrdesc
  have s5 : ({ v with db }.enter q (.pinned c)).step k (q, .confirm true) =
      ({ v with db }.enter q (.pinned c)).enter q (.live c) := by
    simp only [World.step, World.enter_self, hstate]
  simp only [construction, run_cons, run_nil, s1, s2, s3, s4, s5]
  exact World.enter_self _ _ _

/-- An anchor at generation zero holds no digest. -/
theorem World.run_anchor_zero (es : List (Nat × Move)) :
    (run (World.step k) World.initial es).anchor.generation = 0 →
      (run (World.step k) World.initial es).anchor = ⟨0, none⟩ := by
  induction es using List.reverseRecOn with
  | nil =>
    intro _
    rfl
  | append_singleton es e ih =>
    rw [run_snoc]
    obtain ⟨n, -, h⟩ := World.run_agreed (Agreed.initial (k := k)) es
    obtain ⟨p, move⟩ := e
    by_cases hadvance : ∃ a, move = .advance a
    · obtain ⟨a, rfl⟩ := hadvance
      obtain ⟨-, hsame | ⟨c, expected, hphase, ha⟩⟩ := World.step_advance (k := k) _ p a
      · rw [hsame]
        exact ih
      · intro hzero
        have hholds := h.phases p
        rw [hphase] at hholds
        have hgen : c.generation = 0 := by
          rw [(compareAndAdvance_some ha).1] at hzero
          exact hzero
        have := hholds.1
        omega
    · by_cases hpin : ∃ t, move = .pin t
      · obtain ⟨t, rfl⟩ := hpin
        rw [(World.step_pin (k := k) _ p t).1]
        exact ih
      · rw [(World.step_still _ (fun a ha => hadvance ⟨a, ha⟩) (fun t ht => hpin ⟨t, ht⟩)).2]
        exact ih

theorem admits_same_or_next {b : Bool} (h : Agreed k w n)
    (hzero : w.anchor.generation = 0 → w.anchor = ⟨0, none⟩)
    (hcheck : checkCeremonyTransition c (latestCeremony w.db.ceremonies) = .ok b)
    (hc : w.anchor = c.claim k ∨ c.generation = w.anchor.generation + 1) : Admits k w c := by
  rcases hc with hsame | hnext
  · exact .inl hsame
  · right
    have hn : w.anchor.generation = n := by
      have := h.ahead
      rcases checkCeremonyTransition_ok h.pinned hcheck with ⟨-, hg, -⟩ | ⟨-, hg⟩ <;> omega
    unfold expectedClaim
    by_cases hlt : 1 < c.generation
    · obtain ⟨row, hrow⟩ := Option.isSome_iff_exists.mp ((h.pinned n).mpr ⟨by omega, le_refl _⟩)
      have hpred : c.generation - 1 = n := by omega
      rw [if_pos hlt, hpred, hrow, h.same hn row hrow, Ceremony.claim, h.rows n row hrow]
      rfl
    · have h0 : w.anchor.generation = 0 := by omega
      rw [if_neg hlt, hzero h0, hnext, h0]

/-- The check at the start makes an attempt with the same or the next ceremony resumable. -/
theorem Resumable.start (h : Agreed k w n) (hzero : w.anchor.generation = 0 → w.anchor = ⟨0, none⟩)
    (hc : w.anchor = c.claim k ∨ c.generation = w.anchor.generation + 1) (hidle : w.phase p = .idle)
    (hstart : (w.step k (p, .start c reviewed now)).phase p = .checked c) :
    c.validate reviewed now = true ∧ Resumable k (w.step k (p, .start c reviewed now)) c p := by
  simp only [World.step, hidle] at hstart ⊢
  split at hstart
  · rename_i hvalid
    split at hstart
    · rw [hidle] at hstart
      cases hstart
    · rename_i b hcheck
      simp only [hvalid, if_true, hcheck]
      have hagreed : Agreed k (w.enter p (.checked c)) n :=
        h.enter rfl rfl (.inl rfl) (fun _ _ hq => hq) (Ceremony.validate_generation hvalid).1
      have hadmits : Admits k w c := admits_same_or_next h hzero hcheck hc
      refine ⟨trivial, ⟨n, hagreed, ?_⟩, hadmits, ?_⟩
      · rcases checkCeremonyTransition_ok h.pinned hcheck with ⟨-, hg, hrow⟩ | ⟨-, hg⟩
        · exact .inl ⟨hg, hrow⟩
        · exact .inr hg
      · rw [World.enter_self]
        rfl
  · rw [hidle] at hstart
    cases hstart

/-- In every run of any number of processes, with crashes anywhere: the generations pinned
are `1..n`, the anchor is at `n` with the digest pinned there or at `n + 1`; an attempt
with the ceremony the anchor stands at or the next one, which no other process overtakes,
completes when its ceremony is started again, wherever it crashed; and once a generation is
pinned no signature of the one before it is committed. -/
theorem ceremonies_survive_crashes (k : Crypto) (hk : ∀ c : Ceremony, isDigest (k.sha256 c.document) = true) :
    (∀ es, ∃ n, PinnedTo (run (World.step k) World.initial es).db.ceremonies n ∧
      ((run (World.step k) World.initial es).anchor.generation = n ∨
        (run (World.step k) World.initial es).anchor.generation = n + 1) ∧
      ((run (World.step k) World.initial es).anchor.generation = n →
        ∀ row, (run (World.step k) World.initial es).db.ceremonies.get n = some row →
          (run (World.step k) World.initial es).anchor = ⟨n, some (k.sha256 row.descriptor.document)⟩)) ∧
    (∀ pre mid p q c reviewed now now' pinnedAt,
      (run (World.step k) World.initial pre).phase p = .idle →
      ((run (World.step k) World.initial pre).anchor = c.claim k ∨
        c.generation = (run (World.step k) World.initial pre).anchor.generation + 1) →
      (run (World.step k) World.initial (pre ++ [(p, .start c reviewed now)])).phase p = .checked c →
      (∀ e ∈ mid, quiet p e = true) → now ≤ now' →
      let crashed := run (World.step k) World.initial (pre ++ [(p, .start c reviewed now)] ++ mid ++ [(p, .crash)])
      crashed.phase q = .idle → crashed.writer = none →
      (run (World.step k) crashed (construction q c reviewed now' pinnedAt)).phase q = .live c) ∧
    (∀ pre mid e g c, ((run (World.step k) World.initial pre).db.ceremonies.get (g + 1)).isSome →
      ((run (World.step k) World.initial (pre ++ mid)).step k e).signatures =
        (run (World.step k) World.initial (pre ++ mid)).signatures ++ [c] → c.generation ≠ g) := by
  refine ⟨?_, ?_, ?_⟩
  · intro es
    obtain ⟨n, -, h⟩ := World.run_agreed (Agreed.initial (k := k)) es
    refine ⟨n, h.pinned, h.ahead, ?_⟩
    intro hsame row hrow
    rw [h.same hsame row hrow, Ceremony.claim, h.rows n row hrow]
  · intro pre mid p q c reviewed now now' pinnedAt hidle hc hstart hquiet hle crashed hq hfree
    obtain ⟨n, -, h⟩ := World.run_agreed (Agreed.initial (k := k)) pre
    rw [run_snoc] at hstart
    obtain ⟨hvalid, hres⟩ := Resumable.start h (World.run_anchor_zero pre) hc hidle hstart
    have hcrashed : Resumable k crashed c p := by
      show Resumable k (run _ _ (pre ++ [(p, .start c reviewed now)] ++ mid ++ [(p, .crash)])) c p
      rw [run_snoc, run_append, run_snoc]
      exact (hres.run hquiet).step rfl
    exact hcrashed.completes hk (Ceremony.validate_later hvalid hle) hq hfree
  · intro pre mid e g c hpinned hsig hg
    obtain ⟨n, -, h⟩ := World.run_agreed (Agreed.initial (k := k)) pre
    obtain ⟨m, hnm, hm⟩ := World.run_agreed h mid
    rw [run_append] at hsig
    have hc := World.committed_signature hm hsig
    have := ((h.pinned (g + 1)).mp hpinned).2
    omega

namespace Demo

def attested : Ceremony := ⟨"growthmap", "key-1", 1, "2026-01-01T00:00:00Z", none, zeros, "attestation"⟩

theorem isDigest_zeros : isDigest zeros = true := by decide +kernel

end Demo

/-- Generation 1 advances the anchor and crashes before it is pinned; the restart completes. -/
theorem crashed_ceremony_completes :
    (run (World.step Demo.crypto)
      (run (World.step Demo.crypto) World.initial
        ([] ++ [(0, .start Demo.attested Demo.zeros (10 ^ 17))] ++ [(0, .readPredecessor), (0, .advance .answered)] ++ [(0, .crash)]))
      (construction 1 Demo.attested Demo.zeros (10 ^ 17) (10 ^ 17))).phase 1 = .live Demo.attested :=
  (ceremonies_survive_crashes Demo.crypto (fun _ => Demo.isDigest_zeros)).2.1 [] [(0, .readPredecessor), (0, .advance .answered)]
    0 1 Demo.attested Demo.zeros (10 ^ 17) (10 ^ 17) (10 ^ 17) rfl (.inr rfl) (by decide +kernel) (by decide +kernel)
    (le_refl _) (by decide +kernel) (by decide +kernel)

end GrowthMap.Authority
