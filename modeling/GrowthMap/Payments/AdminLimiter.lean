import GrowthMap.Lib.Mutex
import GrowthMap.Lib.Runs
import Mathlib.Algebra.Order.Field.Rat
import Mathlib.Data.List.DropRight
import Mathlib.Data.List.Nodup
import Mathlib.Data.List.Perm.Subperm
import Mathlib.Logic.Function.Basic
import Mathlib.Tactic.Linarith

/- The rate limit before the verifier of admin sessions (api.py, `Limiter` and `admin`).

   A request reserves a slot in three buckets at once, calls the verifier without the
   lock, and gives back the slots that its outcome does not keep: a failure keeps one in
   the bucket of the failures of its address, an admission one in that of the actions.
   So while a request is under way it counts as both, and what it turns out to be was
   counted from its reservation on (`Inv.held`). A slot carries the number of its
   reservation, and giving back takes out no other (`retain_others`). A refused
   reservation has pruned the buckets it looked at (`refusal_prunes`), of slots that are
   over a minute old and that no later reservation would have counted.

   Each of the three steps of a request is one under the lock or without it; other
   requests and the other endpoints' calls of `check` come in between in any order.
   Readings of the clock are rationals, and a run is in the order of the lock. -/
namespace GrowthMap.Payments.Api

/-- `(bucket, key)` -/
abbrev Key := String × String

local instance lawfulKey : LawfulBEq Key := inferInstance

/-- `(now, owner)`, or the bare `now` that `check` leaves. -/
structure Slot where
  stamp : Rat
  owner : Option Nat
  deriving DecidableEq

/-- `defaultdict(deque)` -/
abbrev Rows := Key → List Slot

/-! The limiter -/

/-- `_prune` -/
def prune (now : Rat) (q : List Slot) : List Slot := q.dropWhile (fun slot => decide (slot.stamp < now - 60))

section Limiter

variable (limit : Nat)

/-- `check`: the rows after it, and if it raises no 429. -/
def check (now : Rat) (key : Key) (rows : Rows) : Rows × Bool :=
  let q := prune now (rows key)
  if limit ≤ q.length then (Function.update rows key q, false)
  else (Function.update rows key (q ++ [⟨now, none⟩]), true)

/-- The first loop of `reserve`: prunes each bucket, up to the first that is full. -/
def hasRoom (now : Rat) : List Key → Rows → Rows × Bool
  | [], rows => (rows, true)
  | key :: keys, rows =>
    let q := prune now (rows key)
    if limit ≤ q.length then (Function.update rows key q, false)
    else hasRoom now keys (Function.update rows key q)

def append (slot : Slot) (keys : List Key) (rows : Rows) : Rows :=
  keys.foldl (fun rows key => Function.update rows key (rows key ++ [slot])) rows

/-- `retain`: takes the slot out of the buckets that are not retained. -/
def retain (reservation : List (Key × Slot)) (retained : List Key) (rows : Rows) : Rows :=
  reservation.foldl (fun rows (key, slot) =>
    if key ∈ retained then rows else Function.update rows key ((rows key).erase slot)) rows

end Limiter

/-! `admin`, with a verifier that the caller supplied -/

def coarse (ip : String) : Key := ("admin-ip-failed", ip)
def finger (ip fingerprint : String) : Key := ("admin-auth", ip ++ ":" ++ fingerprint)
def action (ip : String) : Key := ("admin-action", ip)

inductive Outcome where
  | tokenRefused
  /-- The origin or the token against forged requests is not the configured one. -/
  | originRefused
  /-- Something else was raised: the `finally` clause. -/
  | raised
  | admitted
  deriving DecidableEq

inductive Phase where
  | reserved
  | verified (outcome : Outcome)
  | done (outcome : Outcome)
  deriving DecidableEq

/-- A request that got its reservation. -/
structure Request where
  ip : String
  fingerprint : String
  slot : Slot
  phase : Phase

def Request.keys (r : Request) : List Key := [coarse r.ip, finger r.ip r.fingerprint, action r.ip]

def Request.reservation (r : Request) : List (Key × Slot) := r.keys.map (fun key => (key, r.slot))

/-- The keys that `finalize` is given. -/
def Request.retained (r : Request) : Outcome → List Key
  | .tokenRefused => [coarse r.ip, finger r.ip r.fingerprint]
  | .originRefused => [coarse r.ip]
  | .raised => [coarse r.ip]
  | .admitted => [action r.ip]

/-! Runs -/

/-- The limiter, the requests that got a reservation, and the last reading of the clock. -/
structure State where
  rows : Rows
  sequence : Nat
  requests : List Request
  clock : Rat

def init (clock : Rat) : State := ⟨fun _ => [], 0, [], clock⟩

inductive Event where
  /-- A request comes and reserves. -/
  | reserve (now : Rat) (ip fingerprint : String)
  /-- The verifier and the checks after it give the request at `i` its outcome. -/
  | verify (i : Nat) (outcome : Outcome)
  | finalize (i : Nat)
  /-- Another endpoint's `check`. -/
  | check (now : Rat) (bucket : String) (ip : String)

def otherBuckets : List String := ["orders", "activation"]

section Step

variable (limit : Nat)

/-- `reserve`, for one request. -/
def State.reserve (s : State) (now : Rat) (ip fingerprint : String) : State :=
  let keys := [coarse ip, finger ip fingerprint, action ip]
  let (rows, ok) := hasRoom limit now keys s.rows
  if ok then
    let slot := ⟨now, some (s.sequence + 1)⟩
    ⟨append slot keys rows, s.sequence + 1, s.requests ++ [⟨ip, fingerprint, slot, .reserved⟩], now⟩
  else { s with rows, clock := now }

def State.verify (s : State) (i : Nat) (outcome : Outcome) : State :=
  match s.requests[i]? with
  | some r => if r.phase = .reserved then { s with requests := s.requests.set i { r with phase := .verified outcome } } else s
  | none => s

def State.finalize (s : State) (i : Nat) : State :=
  match s.requests[i]? with
  | some r => match r.phase with
    | .verified outcome =>
      { s with
        rows := retain r.reservation (r.retained outcome) s.rows
        requests := s.requests.set i { r with phase := .done outcome } }
    | _ => s
  | none => s

def step (s : State) : Event → State
  | .reserve now ip fingerprint => s.reserve limit now ip fingerprint
  | .verify i outcome => s.verify i outcome
  | .finalize i => s.finalize i
  | .check now bucket ip =>
    if bucket ∈ otherBuckets then { s with rows := (check limit now (bucket, ip) s.rows).1, clock := now } else s

end Step

/-- The clock does not go back from one reading under the lock to the next. -/
def InOrder (s : State) : Event → Prop
  | .reserve now _ _ => s.clock ≤ now
  | .check now _ _ => s.clock ≤ now
  | _ => True

instance : ∀ (s : State) (e : Event), Decidable (InOrder s e)
  | s, .reserve now _ _ => inferInstanceAs (Decidable (s.clock ≤ now))
  | s, .check now _ _ => inferInstanceAs (Decidable (s.clock ≤ now))
  | _, .verify _ _ => isTrue trivial
  | _, .finalize _ => isTrue trivial

/-- The request holds its slot of the bucket: until it is finalized, then if its outcome keeps it. -/
def Request.keeps (r : Request) (key : Key) : Bool :=
  match r.phase with
  | .done outcome => key ∈ r.retained outcome
  | _ => key ∈ r.keys

/-- The reading of the reservation is in the minute from `t` on, both ends included. -/
def Request.within (r : Request) (t : Rat) : Bool := decide (t ≤ r.slot.stamp ∧ r.slot.stamp ≤ t + 60)

/-! The operations -/

variable {q : List Slot} {r : Request} {now : Rat}

theorem mem_prune {slot : Slot} (h : slot ∈ q) (hnow : now - 60 ≤ slot.stamp) : slot ∈ prune now q := by
  induction q with
  | nil => cases h
  | cons first q ih =>
    rw [prune, List.dropWhile_cons]
    split
    · rename_i hold
      have hold := of_decide_eq_true hold
      cases h with
      | head => linarith
      | tail _ h => exact ih h
    · exact h

theorem prune_prune (now : Rat) (q : List Slot) : prune now (prune now q) = prune now q := List.dropWhile_idempotent _ _

theorem filter_prune (now : Rat) (q : List Slot) :
    (prune now q).filter (fun slot => decide (now - 60 ≤ slot.stamp)) = q.filter (fun slot => decide (now - 60 ≤ slot.stamp)) := by
  induction q with
  | nil => rfl
  | cons slot q ih =>
    rw [prune, List.dropWhile_cons]
    split
    · rename_i hold
      have hold := of_decide_eq_true hold
      rw [List.filter_cons_of_neg (by rw [decide_eq_true_eq, not_le]; exact hold)]
      exact ih
    · rfl

section Operations

variable {limit : Nat} {now : Rat} {keys retained : List Key} {rows : Rows} {slot : Slot} {key : Key}

variable (limit now) in
/-- `reserve` does nothing to a bucket but to prune it, until all are pruned. -/
theorem hasRoom_rows (keys : List Key) (rows : Rows) (key : Key) :
    (hasRoom limit now keys rows).1 key = rows key ∨ (hasRoom limit now keys rows).1 key = prune now (rows key) := by
  induction keys generalizing rows with
  | nil => exact .inl rfl
  | cons k keys ih =>
    have hupdate : Function.update rows k (prune now (rows k)) key = rows key ∨
        Function.update rows k (prune now (rows k)) key = prune now (rows key) := by
      by_cases hk : key = k
      · rw [hk, Function.update_self]
        exact .inr rfl
      · rw [Function.update_of_ne hk]
        exact .inl rfl
    rw [hasRoom]
    split
    · exact hupdate
    · cases ih (Function.update rows k (prune now (rows k))) with
      | inl h =>
        rw [h]
        exact hupdate
      | inr h =>
        rw [h]
        right
        cases hupdate with
        | inl hu => rw [hu]
        | inr hu => rw [hu, prune_prune]

/-- A reservation that is granted found each of its buckets with room. -/
theorem hasRoom_lt (h : (hasRoom limit now keys rows).2 = true) :
    ∀ key ∈ keys, ((hasRoom limit now keys rows).1 key).length < limit := by
  induction keys generalizing rows with
  | nil =>
    intro key hkey
    cases hkey
  | cons k keys ih =>
    intro key hkey
    rw [hasRoom] at h ⊢
    split at h
    · cases h
    · rename_i hroom
      rw [if_neg hroom]
      cases hkey with
      | head =>
        -- what the rest of the loop does to this bucket is to prune it again
        have hself := hasRoom_rows limit now keys (Function.update rows k (prune now (rows k))) k
        rw [Function.update_self, prune_prune, or_self] at hself
        rw [hself]
        exact Nat.lt_of_not_le hroom
      | tail _ hkey => exact ih h key hkey

theorem mem_hasRoom (h : slot ∈ rows key) (hnow : now - 60 ≤ slot.stamp) (keys : List Key) :
    slot ∈ (hasRoom limit now keys rows).1 key := by
  cases hasRoom_rows limit now keys rows key with
  | inl hrows => rwa [hrows]
  | inr hrows =>
    rw [hrows]
    exact mem_prune h hnow

theorem append_cons (k : Key) (keys : List Key) (rows : Rows) :
    append slot (k :: keys) rows = append slot keys (Function.update rows k (rows k ++ [slot])) := rfl

variable {other : Slot}

theorem mem_append (keys : List Key) (rows : Rows) (h : other ∈ rows key) : other ∈ append slot keys rows key := by
  induction keys generalizing rows with
  | nil => exact h
  | cons k keys ih =>
    rw [append_cons]
    refine ih _ ?_
    by_cases hk : key = k
    · rw [hk, Function.update_self]
      exact List.mem_append_left _ (hk ▸ h)
    · rwa [Function.update_of_ne hk]

theorem append_own (rows : Rows) (h : key ∈ keys) : slot ∈ append slot keys rows key := by
  induction keys generalizing rows with
  | nil => cases h
  | cons k keys ih =>
    rw [append_cons]
    cases h with
    | head =>
      refine mem_append keys _ ?_
      rw [Function.update_self]
      exact List.mem_append_right _ (List.mem_singleton_self _)
    | tail _ h => exact ih _ h

theorem retain_cons (k : Key) (keys : List Key) (rows : Rows) :
    retain ((k :: keys).map (fun key => (key, slot))) retained rows = retain (keys.map (fun key => (key, slot))) retained
      (if k ∈ retained then rows else Function.update rows k ((rows k).erase slot)) := rfl

theorem retain_retained (keys : List Key) (rows : Rows) (h : key ∈ retained) :
    retain (keys.map (fun key => (key, slot))) retained rows key = rows key := by
  induction keys generalizing rows with
  | nil => rfl
  | cons k keys ih =>
    rw [retain_cons, ih]
    split
    · rfl
    · rename_i hk
      rw [Function.update_of_ne]
      rintro rfl
      exact hk h

theorem filter_erase_self (q : List Slot) (slot : Slot) :
    (q.erase slot).filter (fun other => other ≠ slot) = q.filter (fun other => other ≠ slot) := by
  induction q with
  | nil => rfl
  | cons first q ih =>
    by_cases hfirst : first = slot
    · rw [hfirst, List.erase_cons_head, List.filter_cons_of_neg (by simp)]
    · rw [List.erase_cons_tail (by simpa using hfirst), List.filter_cons_of_pos (by simpa using hfirst), ih,
        List.filter_cons_of_pos (by simpa using hfirst)]

variable (retained) in
theorem retain_others (keys : List Key) (rows : Rows) (key : Key) :
    (retain (keys.map (fun key => (key, slot))) retained rows key).filter (fun other => other ≠ slot) =
      (rows key).filter (fun other => other ≠ slot) := by
  induction keys generalizing rows with
  | nil => rfl
  | cons k keys ih =>
    rw [retain_cons, ih]
    split
    · rfl
    · by_cases hk : key = k
      · rw [hk, Function.update_self, filter_erase_self]
      · rw [Function.update_of_ne hk]

theorem mem_retain (h : other ∈ rows key) (hne : other ≠ slot) :
    other ∈ retain (keys.map (fun key => (key, slot))) retained rows key := by
  have hmem : other ∈ (rows key).filter (fun other => other ≠ slot) := List.mem_filter.mpr ⟨h, decide_eq_true hne⟩
  rw [← retain_others retained keys] at hmem
  exact List.mem_of_mem_filter hmem

end Operations

/-! What every run keeps -/

structure Inv (limit : Nat) (s : State) : Prop where
  /-- No two requests have one owner. -/
  owners : (s.requests.map (fun r => r.slot.owner)).Nodup
  issued : ∀ r ∈ s.requests, ∃ n, r.slot.owner = some n ∧ n ≤ s.sequence
  /-- What a request keeps is in the bucket for a minute. -/
  held : ∀ r ∈ s.requests, ∀ key, r.keeps key = true → s.clock - 60 ≤ r.slot.stamp → r.slot ∈ s.rows key
  /-- What is kept in a bucket of the slots of one minute is within the limit. -/
  bound : ∀ key t, s.requests.countP (fun r => r.keeps key && r.within t) ≤ limit

theorem inv_init (limit : Nat) (clock : Rat) : Inv limit (init clock) where
  owners := List.nodup_nil
  issued := fun _ h => absurd h List.not_mem_nil
  held := fun _ h => absurd h List.not_mem_nil
  bound := fun _ _ => Nat.zero_le _

section Preserved

variable {limit : Nat} {s : State}

theorem Inv.pruned (h : Inv limit s) {rows : Rows} (hnow : s.clock ≤ now)
    (hrows : ∀ key slot, slot ∈ s.rows key → now - 60 ≤ slot.stamp → slot ∈ rows key) :
    Inv limit { s with rows, clock := now } where
  owners := h.owners
  issued := h.issued
  held := fun r hr key hkeep hstamp => hrows key r.slot (h.held r hr key hkeep (by linarith [show now - 60 ≤ r.slot.stamp from hstamp])) hstamp
  bound := h.bound

theorem Inv.check (h : Inv limit s) (hnow : s.clock ≤ now) (key : Key) :
    Inv limit { s with rows := (check limit now key s.rows).1, clock := now } := by
  refine h.pruned hnow ?_
  intro k slot hslot hstamp
  by_cases hk : k = key
  · rw [hk] at hslot ⊢
    rw [Api.check]
    split
    · simp only [Function.update_self]
      exact mem_prune hslot hstamp
    · simp only [Function.update_self]
      exact List.mem_append_left _ (mem_prune hslot hstamp)
  · rw [Api.check]
    split
    · simpa only [Function.update_of_ne hk] using hslot
    · simpa only [Function.update_of_ne hk] using hslot

theorem Inv.count_le (h : Inv limit s) {p : Request → Bool}
    (hmem : ∀ r ∈ s.requests, p r = true → r.slot ∈ q) : s.requests.countP p ≤ q.length := by
  have hslots : (s.requests.map Request.slot).Nodup := by
    have howners := h.owners
    rw [← Function.comp_def Slot.owner Request.slot, ← List.map_map] at howners
    exact howners.of_map
  have hnodup : ((s.requests.filter p).map Request.slot).Nodup := hslots.sublist (List.filter_sublist.map _)
  have hsub : (s.requests.filter p).map Request.slot ⊆ q := by
    intro slot hslot
    obtain ⟨r, hr, rfl⟩ := List.mem_map.mp hslot
    obtain ⟨hr, hp⟩ := List.mem_filter.mp hr
    exact hmem r hr hp
  rw [List.countP_eq_length_filter, ← List.length_map (f := Request.slot)]
  exact (List.subperm_of_subset hnodup hsub).length_le

theorem Inv.reserve (h : Inv limit s) (hnow : s.clock ≤ now) (ip fingerprint : String) :
    Inv limit (s.reserve limit now ip fingerprint) := by
  have hlive : ∀ key slot, slot ∈ s.rows key → now - 60 ≤ slot.stamp →
      slot ∈ (hasRoom limit now [coarse ip, finger ip fingerprint, action ip] s.rows).1 key :=
    fun key slot hslot hstamp => mem_hasRoom hslot hstamp _
  rw [State.reserve]
  dsimp only
  split
  · rename_i hok
    have hroom := hasRoom_lt hok
    refine ⟨?_, ?_, ?_, ?_⟩
    · rw [List.map_append, List.nodup_append]
      refine ⟨h.owners, List.nodup_singleton _, ?_⟩
      intro a ha b hb
      obtain ⟨r, hr, rfl⟩ := List.mem_map.mp ha
      obtain ⟨n, hn, hle⟩ := h.issued r hr
      rw [List.map_singleton, List.mem_singleton] at hb
      rw [hb, hn]
      intro heq
      have := Option.some.inj heq
      omega
    · intro r hr
      cases List.mem_append.mp hr with
      | inl hr =>
        obtain ⟨n, hn, hle⟩ := h.issued r hr
        exact ⟨n, hn, Nat.le_succ_of_le hle⟩
      | inr hr =>
        rw [List.mem_singleton.mp hr]
        exact ⟨s.sequence + 1, rfl, Nat.le_refl _⟩
    · intro r hr key hkeep hstamp
      cases List.mem_append.mp hr with
      | inl hr => exact mem_append _ _ (hlive key _ (h.held r hr key hkeep (by linarith [show now - 60 ≤ r.slot.stamp from hstamp])) hstamp)
      | inr hr =>
        rw [List.mem_singleton.mp hr] at hkeep ⊢
        exact append_own _ (of_decide_eq_true hkeep)
    · intro key t
      rw [List.countP_append, List.countP_singleton]
      split
      · -- the new request is in the minute: the others' slots are in the bucket that it found with room
        rename_i hnew
        obtain ⟨hkey, hin⟩ := Bool.and_eq_true_iff.mp hnew
        have hkey := hroom key (of_decide_eq_true hkey)
        have hin := of_decide_eq_true hin
        have hcount := h.count_le (p := fun r => r.keeps key && r.within t)
          (q := (hasRoom limit now [coarse ip, finger ip fingerprint, action ip] s.rows).1 key) (by
            intro r hr hp
            obtain ⟨hkeep, hwithin⟩ := Bool.and_eq_true_iff.mp hp
            have hwithin := of_decide_eq_true hwithin
            have hlater : now ≤ t + 60 := hin.2
            exact hlive key _ (h.held r hr key hkeep (by linarith [hwithin.1])) (by linarith [hwithin.1]))
        omega
      · exact h.bound key t
  · exact h.pruned hnow hlive

variable {i : Nat}

theorem countP_set_le {α : Type} {p : α → Bool} {l : List α} {old new : α} (hi : l[i]? = some old)
    (hp : p new = true → p old = true) : (l.set i new).countP p ≤ l.countP p := by
  induction l generalizing i with
  | nil => simp at hi
  | cons a l ih =>
    cases i with
    | zero =>
      rw [List.getElem?_cons_zero] at hi
      rw [List.set_cons_zero, List.countP_cons, List.countP_cons, Option.some.inj hi]
      split
      · rw [if_pos (hp ‹_›)]
      · split <;> omega
    | succ =>
      rw [List.getElem?_cons_succ] at hi
      rw [List.set_cons_succ, List.countP_cons, List.countP_cons]
      exact Nat.add_le_add_right (ih hi) _

theorem map_set_same {α β : Type} (f : α → β) {l : List α} {old : α} (new : α) (hi : l[i]? = some old)
    (hf : f new = f old) : (l.set i new).map f = l.map f := by
  induction l generalizing i with
  | nil => simp at hi
  | cons a l ih =>
    cases i with
    | zero =>
      rw [List.getElem?_cons_zero] at hi
      rw [List.set_cons_zero, List.map_cons, List.map_cons, hf, Option.some.inj hi]
    | succ =>
      rw [List.getElem?_cons_succ] at hi
      rw [List.set_cons_succ, List.map_cons, List.map_cons, ih hi]

theorem Inv.slot_ne (h : Inv limit s) {j : Nat} {other : Request} (hi : s.requests[i]? = some r)
    (hj : s.requests[j]? = some other) (hne : j ≠ i) : other.slot ≠ r.slot := by
  intro hslot
  apply hne
  have hmap : ∀ {k : Nat} {x : Request}, s.requests[k]? = some x → (s.requests.map (fun r => r.slot.owner))[k]? = some x.slot.owner := by
    intro k x hk
    rw [List.getElem?_map, hk, Option.map_some]
  obtain ⟨hilt, hiv⟩ := List.getElem?_eq_some_iff.mp (hmap hi)
  obtain ⟨hjlt, hjv⟩ := List.getElem?_eq_some_iff.mp (hmap hj)
  exact (h.owners.getElem_inj_iff).mp (by rw [hjv, hiv, hslot])

/-- A request goes on: it keeps no more than before, and its change of the buckets leaves
    the others' slots and what it keeps itself. -/
theorem Inv.goes_on (h : Inv limit s) (hi : s.requests[i]? = some r) (phase : Phase) (rows : Rows)
    (hkeeps : ∀ key, Request.keeps { r with phase := phase } key = true → r.keeps key = true ∧ rows key = s.rows key)
    (hothers : ∀ key slot, slot ≠ r.slot → slot ∈ s.rows key → slot ∈ rows key) :
    Inv limit { s with rows, requests := s.requests.set i { r with phase := phase } } where
  owners := by
    have hmap := map_set_same (fun r : Request => r.slot.owner) { r with phase := phase } hi rfl
    exact hmap ▸ h.owners
  issued := by
    intro x hx
    cases List.mem_or_eq_of_mem_set hx with
    | inl hx => exact h.issued x hx
    | inr hx =>
      rw [hx]
      exact h.issued r (List.mem_of_getElem? hi)
  held := by
    intro x hx key hkeep hstamp
    obtain ⟨j, hj⟩ := List.mem_iff_getElem?.mp hx
    rcases Mutex.get_set_cases hj with ⟨-, rfl⟩ | ⟨hne, hj⟩
    · obtain ⟨hold, hsame⟩ := hkeeps key hkeep
      have hheld := h.held r (List.mem_of_getElem? hi) key hold hstamp
      rwa [← hsame] at hheld
    · exact hothers key _ (h.slot_ne hi hj hne) (h.held x (List.mem_of_getElem? hj) key hkeep hstamp)
  bound := by
    intro key t
    refine (countP_set_le hi ?_).trans (h.bound key t)
    intro hp
    obtain ⟨hkeep, hwithin⟩ := Bool.and_eq_true_iff.mp hp
    exact Bool.and_eq_true_iff.mpr ⟨(hkeeps key hkeep).1, hwithin⟩

theorem Inv.verify (h : Inv limit s) (i : Nat) (outcome : Outcome) : Inv limit (s.verify i outcome) := by
  rw [State.verify]
  split
  · rename_i r hi
    split
    · rename_i hphase
      refine h.goes_on hi (.verified outcome) s.rows ?_ (fun _ _ _ hslot => hslot)
      intro key hkeep
      rw [Request.keeps, hphase]
      exact ⟨hkeep, rfl⟩
    · exact h
  · exact h

theorem retained_subset (r : Request) (outcome : Outcome) : r.retained outcome ⊆ r.keys := by
  cases outcome with
  | tokenRefused => simp [Request.retained, Request.keys]
  | originRefused => simp [Request.retained, Request.keys]
  | raised => simp [Request.retained, Request.keys]
  | admitted => simp [Request.retained, Request.keys]

theorem Inv.finalize (h : Inv limit s) (i : Nat) : Inv limit (s.finalize i) := by
  rw [State.finalize]
  split
  · rename_i r hi
    split
    · rename_i outcome hphase
      refine h.goes_on hi (.done outcome) _ ?_ (fun _ _ hne hslot => mem_retain hslot hne)
      intro key hkeep
      have hkept := of_decide_eq_true hkeep
      refine ⟨?_, retain_retained r.keys s.rows hkept⟩
      rw [Request.keeps, hphase]
      exact decide_eq_true (retained_subset r outcome hkept)
    · exact h
  · exact h

theorem Inv.step (h : Inv limit s) (e : Event) (he : InOrder s e) : Inv limit (step limit s e) := by
  cases e with
  | reserve now ip fingerprint => exact h.reserve he ip fingerprint
  | verify i outcome => exact h.verify i outcome
  | finalize i => exact h.finalize i
  | check now bucket ip =>
    rw [Api.step]
    split
    · exact h.check he (bucket, ip)
    · exact h

theorem inv_run {clock : Rat} {es : List Event} (h : Runs.Along (step limit) InOrder (init clock) es) :
    Inv limit (Runs.run (step limit) (init clock) es) :=
  h.invariant (Inv limit) (fun _ e hs he => hs.step e he) (inv_init limit clock)

end Preserved

/-! The bound -/

def Request.failed (r : Request) : Bool :=
  match r.phase with
  | .reserved => false
  | .verified outcome => outcome ≠ .admitted
  | .done outcome => outcome ≠ .admitted

def Request.isAdmitted (r : Request) : Bool :=
  match r.phase with
  | .reserved => false
  | .verified outcome => outcome = .admitted
  | .done outcome => outcome = .admitted

theorem Request.failed_keeps (h : r.failed = true) : r.keeps (coarse r.ip) = true := by
  have hall : coarse r.ip ∈ r.keys := by simp [Request.keys]
  rw [Request.failed] at h
  rw [Request.keeps]
  split at h
  · cases h
  · rename_i outcome hphase
    rw [hphase]
    exact decide_eq_true hall
  · rename_i outcome hphase
    rw [hphase]
    cases outcome with
    | tokenRefused => simp [Request.retained]
    | originRefused => simp [Request.retained]
    | raised => simp [Request.retained]
    | admitted => simp at h

theorem Request.isAdmitted_keeps (h : r.isAdmitted = true) : r.keeps (action r.ip) = true := by
  have hall : action r.ip ∈ r.keys := by simp [Request.keys]
  rw [Request.isAdmitted] at h
  rw [Request.keeps]
  split at h
  · cases h
  · rename_i outcome hphase
    rw [hphase]
    exact decide_eq_true hall
  · rename_i outcome hphase
    rw [hphase, of_decide_eq_true h]
    simp [Request.retained]

def State.refuses (limit : Nat) (s : State) (now : Rat) (ip fingerprint : String) : Bool :=
  !(hasRoom limit now [coarse ip, finger ip fingerprint, action ip] s.rows).2

/-- Over every interleaving and every minute of the clock, the failures of an address are
    within the limit, and so are its admissions. A refusal leaves the slots of the last
    minute where they are and comes to no request; a finalization takes out no slot but
    the request's own, and a failure's slot is in its bucket for a minute. -/
theorem admin_bounded (limit : Nat) (clock : Rat) (es : List Event) (h : Runs.Along (step limit) InOrder (init clock) es) :
    let s := Runs.run (step limit) (init clock) es
    (∀ ip t, s.requests.countP (fun r => r.failed && decide (r.ip = ip) && r.within t) ≤ limit) ∧
    (∀ ip t, s.requests.countP (fun r => r.isAdmitted && decide (r.ip = ip) && r.within t) ≤ limit) ∧
    (∀ now ip fingerprint, s.refuses limit now ip fingerprint = true →
      (s.reserve limit now ip fingerprint).requests = s.requests ∧
      ∀ key, ((s.reserve limit now ip fingerprint).rows key).filter (fun slot => decide (now - 60 ≤ slot.stamp)) =
        (s.rows key).filter (fun slot => decide (now - 60 ≤ slot.stamp))) ∧
    (∀ i r, s.requests[i]? = some r →
      (∀ key, ((s.finalize i).rows key).filter (fun slot => slot ≠ r.slot) = (s.rows key).filter (fun slot => slot ≠ r.slot)) ∧
      ∀ j other, s.requests[j]? = some other → j ≠ i → other.slot ≠ r.slot) ∧
    ∀ r ∈ s.requests, r.failed = true → s.clock - 60 ≤ r.slot.stamp → r.slot ∈ s.rows (coarse r.ip) := by
  intro s
  have hinv : Inv limit s := inv_run h
  -- a kind of request that keeps its slot of the address's bucket is bounded by what the bucket keeps
  have hcount : ∀ (p : Request → Bool) (bucket : String → Key), (∀ r, p r = true → r.keeps (bucket r.ip) = true) →
      ∀ ip t, s.requests.countP (fun r => p r && decide (r.ip = ip) && r.within t) ≤ limit := by
    intro p bucket hp ip t
    refine (List.countP_mono_left ?_).trans (hinv.bound (bucket ip) t)
    intro r _ hr
    simp only [Bool.and_eq_true, decide_eq_true_eq] at hr ⊢
    obtain ⟨⟨hpr, rfl⟩, hwithin⟩ := hr
    exact ⟨hp r hpr, hwithin⟩
  refine ⟨hcount _ coarse fun _ => Request.failed_keeps, hcount _ action fun _ => Request.isAdmitted_keeps, ?_, ?_, ?_⟩
  · intro now ip fingerprint hrefused
    have hno : (hasRoom limit now [coarse ip, finger ip fingerprint, action ip] s.rows).2 = false := by simpa [State.refuses] using hrefused
    have hstate : s.reserve limit now ip fingerprint =
        { s with rows := (hasRoom limit now [coarse ip, finger ip fingerprint, action ip] s.rows).1, clock := now } := by
      rw [State.reserve]
      dsimp only
      rw [hno, if_neg Bool.false_ne_true]
    rw [hstate]
    refine ⟨rfl, ?_⟩
    intro key
    cases hasRoom_rows limit now [coarse ip, finger ip fingerprint, action ip] s.rows key with
    | inl hrows => exact congrArg _ hrows
    | inr hrows => exact (congrArg _ hrows).trans (filter_prune now _)
  · intro i r hi
    refine ⟨?_, fun j other hj hne => hinv.slot_ne hi hj hne⟩
    intro key
    rw [State.finalize, hi]
    dsimp only
    split
    · exact retain_others _ r.keys s.rows key
    · rfl
  · intro r hr hfailed hstamp
    exact hinv.held r hr _ (Request.failed_keeps hfailed) hstamp

/-- Two addresses, a failure of the one and an admission of the other. -/
def busy : List Event :=
  [.reserve 0 "a" "f", .reserve 10 "b" "f", .verify 0 .tokenRefused, .verify 1 .admitted, .finalize 1, .finalize 0, .check 11 "orders" "a"]

theorem busy_ordered : Runs.Along (step 1) InOrder (init 0) busy := by
  decide +kernel

/-- With a limit of one each address has at most one failure in the first minute. -/
theorem admin_bounded_busy : ¬ ∃ ip, 1 < (Runs.run (step 1) (init 0) busy).requests.countP
    (fun r => r.failed && decide (r.ip = ip) && r.within 0) :=
  fun ⟨ip, h⟩ => Nat.not_lt.mpr ((admin_bounded 1 0 busy busy_ordered).1 ip 0) h

def spent : List Event :=
  [.reserve 0 "a" "f", .verify 0 .tokenRefused, .finalize 0, .reserve 30 "a" "g", .verify 1 .admitted, .finalize 1,
    .reserve 30 "a" "g", .verify 2 .admitted, .finalize 2]

/-- A refused reservation does not leave every bucket as it was: the failure is over a minute
    old, and its slot goes before the full bucket of the actions is looked at. -/
theorem refusal_prunes :
    let s := Runs.run (step 2) (init 0) spent
    Runs.Along (step 2) InOrder (init 0) (spent ++ [.reserve 61 "a" "h"]) ∧ s.refuses 2 61 "a" "h" = true ∧
      s.rows (coarse "a") ≠ [] ∧ (s.reserve 2 61 "a" "h").rows (coarse "a") = [] := by
  decide +kernel

end GrowthMap.Payments.Api
