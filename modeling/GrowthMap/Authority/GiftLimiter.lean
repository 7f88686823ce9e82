import GrowthMap.Lib.Ordered
import Mathlib.Algebra.Order.Field.Rat
import Mathlib.Tactic.Linarith

/- The rate limit of the gift API (backend/licensing/gift_api.py, `Limiter`).

   One ordered map keeps the accepted calls of every identity: a call first expires
   what is older than the window, makes room for an identity that is not stored by
   taking out the least recently used ones, and is accepted while its identity has
   fewer than `limit` calls. Taking out forgets: an identity that `capacity` others
   push out starts again from nothing (`evicted_starts_again`). Where between two of
   its calls fewer than `capacity` others call, its row survives to the second one
   with all it has accepted in the window, and the bound holds (`limit_per_identity`).

   Clock readings are rationals; the calls are in the order of the lock. -/
namespace GrowthMap.GiftApi
open Ordered

/-- `(str(bucket), str(key))` -/
abbrev Identity := String × String

structure Limiter where
  limit : Nat
  capacity : Nat
  window : Rat
  /-- "invalid limiter" -/
  valid : 1 ≤ limit ∧ 1 ≤ capacity

/-- A call of `check` with its reading of the clock. -/
structure Call where
  now : Rat
  identity : Identity

abbrev Rows := Dict Identity (List Rat)

namespace Limiter

variable (L : Limiter)

/-- The readings that are left of a row at `now`; a row without any is deleted. -/
def live (now : Rat) (q : List Rat) : Option (List Rat) :=
  match q.dropWhile (fun stamp => decide (stamp ≤ now - L.window)) with
  | [] => none
  | stamp :: q => some (stamp :: q)

/-- `check`: the rows after it, and if the call is accepted. -/
def check (rows : Rows) (c : Call) : Rows × Bool :=
  let rows := rows.filterMap (L.live c.now)
  let (rows, q) := match rows.get c.identity with
    -- `while len(self.rows)>=self.capacity:self.rows.popitem(last=False)`
    | none => (rows.drop (rows.size + 1 - L.capacity), [])
    | some q => (rows, q)
  if L.limit ≤ q.length then (rows.setLast c.identity q, false)
  else (rows.setLast c.identity (q ++ [c.now]), true)

def run (rows : Rows) (calls : List Call) : Rows := calls.foldl (fun rows c => (L.check rows c).1) rows

def accepted : Rows → List Call → List Call
  | _, [] => []
  | rows, c :: calls =>
    let (rows, ok) := L.check rows c
    if ok then c :: accepted rows calls else accepted rows calls

def inWindow (t : Rat) (c : Call) : Bool := decide (t ≤ c.now ∧ c.now < t + L.window)

/-- The accepted calls of an identity in the window from `t` on. -/
def count (i : Identity) (t : Rat) (calls : List Call) : Nat :=
  (calls.filter (fun c => decide (c.identity = i) && L.inWindow t c)).length

end Limiter

/-- Between two calls of the identity that follow each other fewer than `capacity` others call. -/
def Uncrowded (capacity : Nat) (i : Identity) (calls : List Call) : Prop :=
  ∀ before c between c' after, calls = before ++ c :: (between ++ c' :: after) → c.identity = i → c'.identity = i →
    (∀ d ∈ between, d.identity ≠ i) → (between.map Call.identity).dedup.length < capacity

namespace Limiter

variable {L : Limiter}

/-! One call -/

variable {t : Rat} {q : List Rat} {c : Call} {i : Identity} {calls : List Call}

/-- What is after `t` does not expire before the window from `t` on ends. -/
theorem live_countP {now : Rat} (hnow : now < t + L.window) (q : List Rat) :
    (q.dropWhile (fun stamp => decide (stamp ≤ now - L.window))).countP (fun stamp => decide (t ≤ stamp)) =
      q.countP (fun stamp => decide (t ≤ stamp)) := by
  induction q with
  | nil => rfl
  | cons stamp q ih =>
    rw [List.dropWhile_cons]
    split
    · rename_i hold
      have hlt : ¬ t ≤ stamp := by
        have := of_decide_eq_true hold
        intro hle
        linarith
      rw [ih, List.countP_cons_of_neg (by simpa using hlt)]
    · rfl

theorem live_isSome {now : Rat} (hnow : now < t + L.window)
    (hq : 0 < q.countP (fun stamp => decide (t ≤ stamp))) :
    ∃ q', L.live now q = some q' ∧ q'.countP (fun stamp => decide (t ≤ stamp)) = q.countP (fun stamp => decide (t ≤ stamp)) := by
  have hcount := live_countP hnow q
  rw [live]
  split
  · rename_i hnil
    rw [hnil, List.countP_nil] at hcount
    omega
  · rename_i hcons
    rw [hcons] at hcount
    exact ⟨_, rfl, hcount⟩

/-- The calling identity is last, with what was left of its row and this call if it is accepted. -/
theorem check_self (rows : Rows) (c : Call) :
    let q := ((rows.filterMap (L.live c.now)).get c.identity).getD []
    if L.limit ≤ q.length then (L.check rows c).2 = false ∧ (L.check rows c).1.Holds c.identity q []
    else (L.check rows c).2 = true ∧ (L.check rows c).1.Holds c.identity (q ++ [c.now]) [] := by
  intro q
  rw [check]
  cases hget : (rows.filterMap (L.live c.now)).get c.identity with
  | none =>
    have hq : q = [] := by
      simp only [q, hget, Option.getD_none]
    rw [hq]
    dsimp only
    split
    · exact ⟨rfl, Dict.holds_setLast _ _ _⟩
    · exact ⟨rfl, Dict.holds_setLast _ _ _⟩
  | some r =>
    have hq : q = r := by
      simp only [q, hget, Option.getD_some]
    rw [hq]
    dsimp only
    split
    · exact ⟨rfl, Dict.holds_setLast _ _ _⟩
    · exact ⟨rfl, Dict.holds_setLast _ _ _⟩

variable {rows : Rows} {done : List Call}

/-- Another identity's row survives a call while fewer than `capacity` identities have called since its own. -/
theorem check_other {q' : List Rat} {since : List Identity}
    (h : rows.Holds i q since) (hne : c.identity ≠ i) (hlive : L.live c.now q = some q')
    (hsince : (c.identity :: since).dedup.length < L.capacity) :
    (L.check rows c).1.Holds i q' (c.identity :: since) := by
  have hkept := h.filterMap (f := L.live c.now) hlive
  rw [check]
  generalize rows.filterMap (L.live c.now) = rows at hkept
  cases hget : rows.get c.identity with
  | none =>
    have hnew : ∀ w, ((rows.drop (rows.size + 1 - L.capacity)).setLast c.identity w).Holds i q' (c.identity :: since) := by
      intro w
      have hroom : rows.size + 1 - L.capacity ≤ rows.size := by
        have := L.valid.2
        omega
      have hsize : (rows.setLast c.identity w).size = rows.size + 1 := by
        rw [Dict.size, Dict.setLast_of_none hget, List.length_append, List.length_singleton, Dict.size]
      have hdrop := (hkept.setLast hne w).drop (n := rows.size + 1 - L.capacity) (by omega)
      obtain ⟨before, after, hitems, hafter⟩ := hdrop
      exact ⟨before, after, by rw [Dict.drop_setLast hget hroom, hitems], hafter⟩
    dsimp only
    split
    · exact hnew _
    · exact hnew _
  | some =>
    dsimp only
    split
    · exact hkept.setLast hne _
    · exact hkept.setLast hne _

/-- No more than `capacity` identities are stored. -/
theorem check_size (rows : Rows) (c : Call) (h : rows.size ≤ L.capacity) : (L.check rows c).1.size ≤ L.capacity := by
  have hexpired := (Dict.size_filterMap (L.live c.now) rows).trans h
  rw [check]
  generalize rows.filterMap (L.live c.now) = rows at hexpired
  have hcapacity := L.valid.2
  cases hget : rows.get c.identity with
  | none =>
    have hnew : ∀ w, ((rows.drop (rows.size + 1 - L.capacity)).setLast c.identity w).size ≤ L.capacity := by
      intro w
      have hset := Dict.size_setLast (rows.drop (rows.size + 1 - L.capacity)) c.identity w
      have hdrop := Dict.size_drop (rows.size + 1 - L.capacity) rows
      split at hset <;> omega
    dsimp only
    split
    · exact hnew _
    · exact hnew _
  | some =>
    have hset : ∀ w, (rows.setLast c.identity w).size ≤ rows.size := by
      intro w
      have := Dict.size_setLast rows c.identity w
      rwa [hget, Option.isSome_some, if_pos rfl] at this
    dsimp only
    split
    · exact (hset _).trans hexpired
    · exact (hset _).trans hexpired

/-! The calls of one window -/

variable (L) in
/-- What holds of the row of `i` after the calls `done` of the window from `t` on, `n` of them
    its own and accepted: it is there with all of them, or the identities that have called
    since its last call are too many for a further one to be allowed. -/
def Kept (i : Identity) (t : Rat) (rows : Rows) (done : List Call) (n : Nat) : Prop :=
  n = 0 ∨ ∃ before c since, done = before ++ c :: since ∧ c.identity = i ∧ (∀ d ∈ since, d.identity ≠ i) ∧
    (L.capacity ≤ (since.map Call.identity).dedup.length ∨
      ∃ q, rows.Holds i q (since.map Call.identity) ∧ n ≤ q.countP (fun stamp => decide (t ≤ stamp)))

theorem Kept.other {n : Nat}
    (h : Kept L i t rows done n) (hne : c.identity ≠ i) (hnow : c.now < t + L.window) :
    Kept L i t (L.check rows c).1 (done ++ [c]) n := by
  rcases Nat.eq_zero_or_pos n with hn | hn
  · exact .inl hn
  obtain ⟨before, last, since, hdone, hlast, hsince, hrow⟩ := h.resolve_left (by omega)
  refine .inr ⟨before, last, since ++ [c], by rw [hdone, List.append_assoc, List.cons_append], hlast, ?_, ?_⟩
  · intro d hd
    cases List.mem_append.mp hd with
    | inl hd => exact hsince d hd
    | inr hd => rwa [List.mem_singleton.mp hd]
  have hsame : ∀ js : List Identity, (∀ j, j ∈ js ↔ j = c.identity ∨ j ∈ since.map Call.identity) →
      (c.identity :: since.map Call.identity).dedup.length ≤ js.dedup.length := by
    intro js hjs
    apply Dict.dedup_length_le
    intro j hj
    exact (hjs j).mpr (List.mem_cons.mp hj)
  have hmap : ∀ j, j ∈ (since ++ [c]).map Call.identity ↔ j = c.identity ∨ j ∈ since.map Call.identity := by
    intro j
    rw [List.map_append, List.mem_append, List.map_singleton, List.mem_singleton]
    exact or_comm
  by_cases hroom : (c.identity :: since.map Call.identity).dedup.length < L.capacity
  · right
    obtain ⟨q, hq, hcount⟩ := hrow.resolve_left (by
      have hle : (since.map Call.identity).dedup.length ≤ (c.identity :: since.map Call.identity).dedup.length :=
        Dict.dedup_length_le (List.subset_cons_self _ _)
      omega)
    obtain ⟨q', hlive, hcount'⟩ := live_isSome hnow (hn.trans_le hcount)
    refine ⟨q', (check_other hq hne hlive hroom).mono ?_, hcount' ▸ hcount⟩
    intro j hj
    exact (hmap j).mpr (List.mem_cons.mp hj)
  · left
    exact (Nat.le_of_not_lt hroom).trans (hsame _ hmap)

/-- A call of the identity itself. -/
theorem Kept.self {n : Nat} {after : List Call}
    (h : Kept L i t rows done n) (hi : c.identity = i) (ht : t ≤ c.now) (hnow : c.now < t + L.window)
    (hcrowd : Uncrowded L.capacity i (done ++ c :: after)) :
    if (L.check rows c).2 then n + 1 ≤ L.limit ∧ Kept L i t (L.check rows c).1 (done ++ [c]) (n + 1)
    else Kept L i t (L.check rows c).1 (done ++ [c]) n := by
  have hcheck := check_self (L := L) rows c
  -- the row that the call finds has all that was accepted in the window
  have hfound : n ≤ (((rows.filterMap (L.live c.now)).get c.identity).getD []).countP (fun stamp => decide (t ≤ stamp)) := by
    rcases Nat.eq_zero_or_pos n with hn | hn
    · omega
    obtain ⟨before, last, since, hdone, hlast, hsince, hrow⟩ := h.resolve_left (by omega)
    have hfew : (since.map Call.identity).dedup.length < L.capacity := by
      refine hcrowd before last since c after ?_ hlast hi hsince
      rw [hdone, List.append_assoc, List.cons_append]
    obtain ⟨q, hq, hcount⟩ := hrow.resolve_left (by omega)
    obtain ⟨q', hlive, hcount'⟩ := live_isSome hnow (hn.trans_le hcount)
    rw [hi, (hq.filterMap (f := L.live c.now) hlive).get, Option.getD_some, hcount']
    exact hcount
  generalize ((rows.filterMap (L.live c.now)).get c.identity).getD [] = q at hcheck hfound
  have hlength := List.countP_le_length (p := fun stamp => decide (t ≤ stamp)) (l := q)
  dsimp only at hcheck
  split at hcheck
  · obtain ⟨hno, hholds⟩ := hcheck
    rw [hno, if_neg Bool.false_ne_true]
    rw [hi] at hholds
    exact .inr ⟨done, c, [], rfl, hi, fun _ hd => absurd hd List.not_mem_nil, .inr ⟨q, hholds, hfound⟩⟩
  · rename_i hlimit
    obtain ⟨hyes, hholds⟩ := hcheck
    rw [hyes, if_pos rfl]
    rw [hi] at hholds
    refine ⟨by omega, .inr ⟨done, c, [], rfl, hi, fun _ hd => absurd hd List.not_mem_nil, .inr ⟨q ++ [c.now], hholds, ?_⟩⟩⟩
    rw [List.countP_append, List.countP_cons_of_pos (by simpa using ht)]
    omega

/-- Through the rest of the window the count stays within the limit. -/
theorem count_rest (rest : List Call) :
    ∀ (rows : Rows) (done : List Call) (n : Nat), Kept L i t rows done n → n ≤ L.limit →
      Uncrowded L.capacity i (done ++ rest) → (∀ c ∈ rest, t ≤ c.now ∧ c.now < t + L.window) →
      n + L.count i t (L.accepted rows rest) ≤ L.limit := by
  induction rest with
  | nil =>
    intro rows done n _ hn _ _
    exact hn
  | cons c rest ih =>
    intro rows done n hkept hn hcrowd hwindow
    obtain ⟨ht, hnow⟩ := hwindow c List.mem_cons_self
    have hrest := fun d hd => hwindow d (List.mem_cons_of_mem _ hd)
    have happend : done ++ c :: rest = done ++ [c] ++ rest := by
      rw [List.append_assoc, List.singleton_append]
    have hin : L.inWindow t c = true := decide_eq_true ⟨ht, hnow⟩
    rw [accepted]
    by_cases hi : c.identity = i
    · have hstep := hkept.self hi ht hnow hcrowd
      rw [happend] at hcrowd
      dsimp only
      split at hstep
      · rename_i hyes
        have hsum := ih _ _ _ hstep.2 hstep.1 hcrowd hrest
        rw [if_pos hyes, count, List.filter_cons_of_pos (by simpa [hi] using hin), List.length_cons]
        rw [count] at hsum
        omega
      · rename_i hno
        rw [if_neg hno]
        exact ih _ _ _ hstep hn hcrowd hrest
    · have hstep := ih _ _ _ (hkept.other hi hnow) hn (happend ▸ hcrowd) hrest
      dsimp only
      split
      · rw [count, List.filter_cons_of_neg (by simp [hi])]
        exact hstep
      · exact hstep

/-! All calls -/

theorem accepted_append (rows : Rows) (calls more : List Call) :
    L.accepted rows (calls ++ more) = L.accepted rows calls ++ L.accepted (L.run rows calls) more := by
  induction calls generalizing rows with
  | nil => rfl
  | cons c calls ih =>
    have hrest := ih (L.check rows c).1
    rw [List.cons_append, accepted, accepted]
    dsimp only
    split
    · rw [hrest]
      rfl
    · exact hrest

theorem accepted_sublist (rows : Rows) (calls : List Call) : (L.accepted rows calls).Sublist calls := by
  induction calls generalizing rows with
  | nil => exact .slnil
  | cons c calls ih =>
    rw [accepted]
    dsimp only
    split
    · exact (ih _).cons_cons _
    · exact (ih _).cons _

theorem count_eq_zero
    (h : ∀ c ∈ calls, L.inWindow t c = false) : L.count i t (L.accepted rows calls) = 0 := by
  rw [count, List.length_eq_zero_iff, List.filter_eq_nil_iff]
  intro c hc
  simp [h c ((accepted_sublist rows calls).subset hc)]

theorem count_append (i : Identity) (t : Rat) (calls more : List Call) :
    L.count i t (calls ++ more) = L.count i t calls + L.count i t more := by
  rw [count, List.filter_append, List.length_append, count, count]

theorem run_size (calls : List Call) (rows : Rows) (h : rows.size ≤ L.capacity) : (L.run rows calls).size ≤ L.capacity := by
  induction calls generalizing rows with
  | nil => exact h
  | cons c calls ih => exact ih _ (check_size rows c h)

theorem dropWhile_sorted (h : calls.Pairwise (fun c c' => c.now ≤ c'.now)) (t : Rat) :
    calls.dropWhile (fun c => decide (c.now < t)) = calls.filter (fun c => decide (t ≤ c.now)) := by
  induction h with
  | nil => rfl
  | @cons c calls hfirst _ ih =>
    rw [List.dropWhile_cons]
    split
    · rename_i hlt
      have hlt := of_decide_eq_true hlt
      rw [ih, List.filter_cons_of_neg (by simpa using hlt)]
    · rename_i hge
      have hge : t ≤ c.now := by simpa using hge
      rw [List.filter_eq_self.mpr]
      intro d hd
      cases hd with
      | head => exact decide_eq_true hge
      | tail _ hd => exact decide_eq_true (hge.trans (hfirst d hd))

theorem takeWhile_sorted (h : calls.Pairwise (fun c c' => c.now ≤ c'.now)) (t : Rat) :
    calls.takeWhile (fun c => decide (c.now < t)) = calls.filter (fun c => decide (c.now < t)) := by
  induction h with
  | nil => rfl
  | @cons c calls hfirst _ ih =>
    rw [List.takeWhile_cons]
    split
    · rename_i hlt
      rw [ih, List.filter_cons, if_pos hlt]
    · rename_i hge
      have hge : t ≤ c.now := by simpa using hge
      refine (List.filter_eq_nil_iff.mpr ?_).symm
      intro d hd
      cases hd with
      | head => simpa using hge
      | tail _ hd => simpa using hge.trans (hfirst d hd)

/-- With a clock that never goes back the calls of a window are one stretch. -/
theorem window_stretch (h : calls.Pairwise (fun c c' => c.now ≤ c'.now)) (t : Rat) :
    ∃ early late, calls = early ++ (calls.filter (L.inWindow t) ++ late) ∧
      (∀ c ∈ early, L.inWindow t c = false) ∧ (∀ c ∈ late, L.inWindow t c = false) := by
  have hfrom := h.sublist (List.dropWhile_sublist (fun c => decide (c.now < t)))
  have hwindow : calls.filter (L.inWindow t) =
      (calls.dropWhile (fun c => decide (c.now < t))).takeWhile (fun c => decide (c.now < t + L.window)) := by
    rw [takeWhile_sorted hfrom, dropWhile_sorted h, List.filter_filter]
    apply List.filter_congr
    intro c _
    rw [inWindow, Bool.decide_and, Bool.and_comm]
  refine ⟨calls.takeWhile (fun c => decide (c.now < t)),
    (calls.dropWhile (fun c => decide (c.now < t))).dropWhile (fun c => decide (c.now < t + L.window)), ?_, ?_, ?_⟩
  · rw [hwindow, List.takeWhile_append_dropWhile, List.takeWhile_append_dropWhile]
  · intro c hc
    rw [takeWhile_sorted h] at hc
    have hlt := of_decide_eq_true (List.mem_filter.mp hc).2
    exact decide_eq_false fun hin => absurd hin.1 (not_le.mpr hlt)
  · intro c hc
    rw [dropWhile_sorted hfrom] at hc
    have hge := of_decide_eq_true (List.mem_filter.mp hc).2
    exact decide_eq_false fun hin => absurd hin.2 (not_lt.mpr hge)

/-- The bound holds of every identity that is not crowded out between two of its calls. -/
theorem limit_per_identity (L : Limiter) (calls : List Call) :
    (L.run Dict.empty calls).size ≤ L.capacity ∧
    (calls.Pairwise (fun c c' => c.now ≤ c'.now) → ∀ (i : Identity) (t : Rat),
      Uncrowded L.capacity i (calls.filter (L.inWindow t)) → L.count i t (L.accepted Dict.empty calls) ≤ L.limit) := by
  refine ⟨run_size calls _ (Nat.zero_le _), ?_⟩
  intro hclock i t hcrowd
  obtain ⟨early, late, hcalls, hearly, hlate⟩ := window_stretch (L := L) hclock t
  have hrest := count_rest (L := L) (i := i) (t := t) (calls.filter (L.inWindow t)) (L.run Dict.empty early) [] 0 (.inl rfl)
    (Nat.zero_le _) hcrowd (fun c hc => of_decide_eq_true (List.mem_filter.mp hc).2)
  rw [Nat.zero_add] at hrest
  rw [hcalls, accepted_append, accepted_append, count_append, count_append, count_eq_zero hearly, count_eq_zero hlate]
  rwa [Nat.zero_add, Nat.add_zero]

/-! Runs -/

/-- One call of an identity, one of another, and the first again. -/
def turns : List Call := [⟨0, ("claim", "a")⟩, ⟨0, ("claim", "b")⟩, ⟨1, ("claim", "a")⟩]

def room (capacity : Nat) (h : 1 ≤ capacity) : Limiter := ⟨1, capacity, 60, Nat.le_refl 1, h⟩

theorem turns_ordered : turns.Pairwise (fun c c' => c.now ≤ c'.now) := by
  simp [turns]

/-- With room for both identities the second call of the first one is refused. -/
theorem limit_per_identity_turns :
    ((room 2 (by decide)).run Dict.empty turns).size ≤ 2 ∧
    (room 2 (by decide)).count ("claim", "a") 0 ((room 2 (by decide)).accepted Dict.empty turns) ≤ 1 := by
  have hbound := limit_per_identity (room 2 (by decide)) turns
  refine ⟨hbound.1, hbound.2 turns_ordered ("claim", "a") 0 ?_⟩
  intro before c between c' after hcalls _ _ _
  have hlength := congrArg List.length hcalls
  have hfilter := List.length_filter_le ((room 2 (by decide)).inWindow 0) turns
  have hdedup := ((between.map Call.identity).dedup_sublist).length_le
  simp only [List.length_append, List.length_cons, List.length_map] at hlength hdedup
  have hturns : turns.length = 3 := rfl
  show _ < 2
  omega

/-- With room for one identity the other pushes it out, and it is accepted twice. -/
theorem evicted_starts_again : turns.Pairwise (fun c c' => c.now ≤ c'.now) ∧ (room 1 (by decide)).limit = 1 ∧
    (room 1 (by decide)).count ("claim", "a") 0 ((room 1 (by decide)).accepted Dict.empty turns) = 2 := by
  refine ⟨turns_ordered, rfl, ?_⟩
  decide +kernel

end Limiter

end GrowthMap.GiftApi
