import GrowthMap.Lib.Fallible
import Mathlib.Data.List.Lex
import Mathlib.Data.List.Sort
import Mathlib.Data.List.Perm.Subperm
import Mathlib.Data.Prod.Lex
import Mathlib.Tactic.Common

/- The module ids of a frontend build (lib/stable-module-ids.mjs, `assignStableModuleIds`).

   Every module without an id gets a row of three texts, all normalized; the rows are
   sorted, two equal neighbours are an error, and then each row takes the first id that
   is free of the hash of its name, that hash with `-1`, with `-2` and so on. The order
   of the texts is total, so rows that can be told apart have one sorted list, whatever
   order they come in (`sort_unique`), and everything after the sorting only looks at
   that list (`assign_order_free`).

   A text is its UTF-16 code units; normalization and hash are any functions, the first
   of which may throw. -/
namespace GrowthMap.ModuleIds

open Fallible

abbrev Text := List Nat

/-- What the code reads of a module; a field that is missing is empty. -/
structure Module where
  identifier : Text
  constructorName : Text
  type : Text
  layer : Text
  resource : Text
  userRequest : Text
  request : Text
  rawRequest : Text

structure Row (M : Type) where
  module : M
  normalized : Text
  tie : Text
  useIdentity : Text

def units (s : String) : Text := s.toList.map Char.toNat

def compareTotal (a b : Text) : Int := if a < b then -1 else if b < a then 1 else 0

/-- The comparison of `sort`. -/
def compareRows {M : Type} (a b : Row M) : Int :=
  if compareTotal a.normalized b.normalized ≠ 0 then compareTotal a.normalized b.normalized
  else if compareTotal a.tie b.tie ≠ 0 then compareTotal a.tie b.tie
  else compareTotal a.useIdentity b.useIdentity

section Assign

variable {M : Type} (normalize : Text → Except Text Text) (hash : Text → Text) (info : M → Module) (get : M → Option Text)
  (identity : M → Text)

/-- `values.map(normalize).join("\u0000")` -/
def stableTie (m : Module) (normalized : Text) : Except Text Text := do
  let values ← [normalized, m.constructorName, m.type, m.layer, m.resource, m.userRequest, m.request, m.rawRequest].mapM normalize
  return List.intercalate [0] values

def needsId (m : M) : Bool :=
  (get m).isNone && decide ((info m).type ≠ units "runtime") && !(units "webpack/runtime/").isPrefixOf (info m).identifier

def rowOf (m : M) : Except Text (Row M) := do
  let normalized ← normalize (info m).identifier
  let tie ← stableTie normalize (info m) normalized
  let useIdentity ← normalize (identity m)
  return ⟨m, normalized, tie, useIdentity⟩

def sortRows (rows : List (Row M)) : List (Row M) := rows.insertionSort (fun a b => compareRows a b ≤ 0)

/-- The name of the first row that is equal to the one before it. -/
def indistinguishable : List (Row M) → Option Text
  | a :: b :: rows =>
    if a.normalized = b.normalized ∧ a.tie = b.tie ∧ a.useIdentity = b.useIdentity then some a.normalized
    else indistinguishable (b :: rows)
  | _ => none

def candidate (base : Text) (n : Nat) : Text :=
  if n = 0 then base else base ++ (units "-" ++ (Nat.toDigits 10 n).map Char.toNat)

/-- `for (let suffix = 1; used.has(String(id)); suffix += 1)`: more steps than used ids are never taken. -/
def probe (used : List Text) (base : Text) : Nat → Nat → Text
  | 0, n => candidate base n
  | fuel + 1, n => if candidate base n ∈ used then probe used base fuel (n + 1) else candidate base n

def baseOf (row : Row M) : Text := (hash row.normalized).take 16

def assignRows : List Text → List (Row M) → List (M × Text)
  | _, [] => []
  | used, row :: rows =>
    let id := probe used (baseOf hash row) used.length 0
    (row.module, id) :: assignRows (id :: used) rows

/-- `assignStableModuleIds`: the ids it sets. -/
def assignStableModuleIds (modules : List M) : Except Text (List (M × Text)) := do
  let rows ← (modules.filter (needsId info get)).mapM (rowOf normalize info identity)
  match indistinguishable (sortRows rows) with
  | some name => .error (units "GrowthMap deterministic module IDs: indistinguishable collision for " ++ name)
  | none => .ok (assignRows hash (modules.filterMap get) (sortRows rows))

end Assign

/-! Sorting -/

section Sorting

variable {M : Type}

def Row.key (row : Row M) : Text ×ₗ (Text ×ₗ Text) := toLex (row.normalized, toLex (row.tie, row.useIdentity))

variable {a b : Text} {rows' : List (Row M)}

theorem compareTotal_eq_zero : compareTotal a b = 0 ↔ a = b := by
  rw [compareTotal]
  rcases lt_trichotomy a b with h | h | h
  · rw [if_pos h]
    exact iff_of_false (by decide) h.ne
  · rw [h, if_neg (lt_irrefl b), if_neg (lt_irrefl b)]
    exact iff_of_true rfl rfl
  · rw [if_neg (lt_asymm h), if_pos h]
    exact iff_of_false (by decide) h.ne'

theorem compareTotal_le : compareTotal a b ≤ 0 ↔ a ≤ b := by
  rw [compareTotal]
  rcases lt_trichotomy a b with h | h | h
  · rw [if_pos h]
    exact iff_of_true (by decide) h.le
  · rw [h, if_neg (lt_irrefl b), if_neg (lt_irrefl b)]
    exact iff_of_true (le_refl 0) (le_refl b)
  · rw [if_neg (lt_asymm h), if_pos h]
    exact iff_of_false (by decide) (not_le.mpr h)

theorem compareRows_le {a b : Row M} : compareRows a b ≤ 0 ↔ a.key ≤ b.key := by
  rw [compareRows, Row.key, Row.key, Prod.Lex.toLex_le_toLex, Prod.Lex.toLex_le_toLex]
  have hlt : ∀ {a b : Text}, a ≠ b → (a ≤ b ↔ a < b) := fun h => ⟨fun hle => lt_of_le_of_ne hle h, le_of_lt⟩
  by_cases hn : a.normalized = b.normalized
  · rw [if_neg (not_not.mpr (compareTotal_eq_zero.mpr hn))]
    by_cases ht : a.tie = b.tie
    · rw [if_neg (not_not.mpr (compareTotal_eq_zero.mpr ht)), compareTotal_le]
      simp [hn, ht]
    · rw [if_pos (fun h => ht (compareTotal_eq_zero.mp h)), compareTotal_le, hlt ht]
      simp [hn, ht]
  · rw [if_pos (fun h => hn (compareTotal_eq_zero.mp h)), compareTotal_le, hlt hn]
    simp [hn]

theorem perm_sortRows (rows : List (Row M)) : (sortRows rows).Perm rows := List.perm_insertionSort _ _

theorem sortRows_sorted (rows : List (Row M)) : ((sortRows rows).map Row.key).Pairwise (· ≤ ·) := by
  have htotal : Std.Total (fun a b : Row M => compareRows a b ≤ 0) := ⟨fun a b => by
    rw [compareRows_le, compareRows_le]
    exact le_total _ _⟩
  have htrans : IsTrans (Row M) (fun a b => compareRows a b ≤ 0) := ⟨fun a b c hab hbc => by
    rw [compareRows_le] at hab hbc ⊢
    exact hab.trans hbc⟩
  have hsorted := List.pairwise_insertionSort (fun a b : Row M => compareRows a b ≤ 0) rows
  rw [List.pairwise_map]
  exact hsorted.imp compareRows_le.mp

theorem key_inj {a b : Row M} : a.key = b.key ↔ a.normalized = b.normalized ∧ a.tie = b.tie ∧ a.useIdentity = b.useIdentity := by
  simp [Row.key]

variable {rows : List (Row M)}

theorem not_nodup_of_indistinguishable {name : Text} (h : indistinguishable rows = some name) :
    ¬ (rows.map Row.key).Nodup := by
  induction rows with
  | nil => cases h
  | cons a rows ih =>
    intro hnodup
    cases rows with
    | nil => cases h
    | cons =>
      rw [indistinguishable] at h
      rw [List.map_cons, List.nodup_cons] at hnodup
      split at h
      · rename_i heq
        exact hnodup.1 (key_inj.mpr heq ▸ List.mem_cons_self)
      · exact ih h hnodup.2

/-- Sorted rows without equal neighbours have no equal keys at all. -/
theorem keys_nodup (hsorted : (rows.map Row.key).Pairwise (· ≤ ·)) (h : indistinguishable rows = none) :
    (rows.map Row.key).Nodup := by
  have hlt : (rows.map Row.key).Pairwise (· < ·) := by
    induction rows with
    | nil => exact .nil
    | cons a rows ih =>
      cases rows with
      | nil => exact .cons (fun _ h => absurd h List.not_mem_nil) .nil
      | cons b =>
        rw [indistinguishable] at h
        split at h
        · cases h
        · rename_i hne
          rw [← key_inj] at hne
          rw [List.map_cons] at hsorted ⊢
          obtain ⟨hfirst, hrest⟩ := List.pairwise_cons.mp hsorted
          have hstrict := ih hrest h
          have hab : a.key < b.key := lt_of_le_of_ne (hfirst b.key List.mem_cons_self) hne
          refine .cons ?_ hstrict
          intro k hk
          rw [List.map_cons] at hk hstrict
          cases hk with
          | head => exact hab
          | tail _ hk => exact hab.trans ((List.pairwise_cons.mp hstrict).1 k hk)
  exact hlt.imp ne_of_lt

theorem sort_unique {rows : List (Row M)} (hperm : rows.Perm rows') (h : indistinguishable (sortRows rows) = none) :
    sortRows rows = sortRows rows' := by
  have hnodup := keys_nodup (sortRows_sorted rows) h
  have hsame : (sortRows rows).Perm (sortRows rows') := (perm_sortRows rows).trans (hperm.trans (perm_sortRows rows').symm)
  refine @List.Perm.eq_of_pairwise _ (fun a b : Row M => a.key ≤ b.key) _ _ ?_ ?_ ?_ hsame
  · intro a b ha hb hab hba
    exact List.inj_on_of_nodup_map hnodup ha (hsame.symm.subset hb) (le_antisymm hab hba)
  · exact List.pairwise_map.mp (sortRows_sorted rows)
  · exact List.pairwise_map.mp (sortRows_sorted rows')

end Sorting

/-! Probing -/

theorem suffix_injective {n m : Nat} (h : (Nat.toDigits 10 n).map Char.toNat = (Nat.toDigits 10 m).map Char.toNat) : n = m := by
  have hchars : Nat.toDigits 10 n = Nat.toDigits 10 m := by
    refine (List.map_injective_iff.mpr ?_) h
    intro c d hcd
    exact Char.toNat_inj.mp hcd
  rw [← Nat.ofDigitChars_ten_toDigits (n := n), hchars, Nat.ofDigitChars_ten_toDigits]

variable {base : Text}

theorem candidate_injective {n m : Nat} (h : candidate base n = candidate base m) : n = m := by
  have hlong : ∀ k, units "-" ++ (Nat.toDigits 10 k).map Char.toNat ≠ [] := by
    intro k hk
    cases hk
  rw [candidate, candidate] at h
  by_cases hn : n = 0
  · by_cases hm : m = 0
    · rw [hn, hm]
    · rw [if_pos hn, if_neg hm, List.self_eq_append_right] at h
      exact absurd h (hlong m)
  · by_cases hm : m = 0
    · rw [if_neg hn, if_pos hm, List.append_right_eq_self] at h
      exact absurd h (hlong n)
    · rw [if_neg hn, if_neg hm] at h
      exact suffix_injective (List.append_cancel_left (List.append_cancel_left h))

variable {used : List Text}

theorem probe_used (fuel n : Nat) (h : probe used base fuel n ∈ used) :
    ∀ k ≤ fuel, candidate base (n + k) ∈ used := by
  induction fuel generalizing n with
  | zero =>
    intro k hk
    rw [Nat.le_zero.mp hk]
    exact h
  | succ fuel ih =>
    rw [probe] at h
    split at h
    · rename_i hn
      intro k hk
      cases k with
      | zero => exact hn
      | succ k =>
        have hrest := ih (n + 1) h k (Nat.le_of_succ_le_succ hk)
        rwa [Nat.add_right_comm] at hrest
    · rename_i hn
      exact absurd h hn

theorem probe_free (used : List Text) (base : Text) : probe used base used.length 0 ∉ used := by
  intro h
  have hall := probe_used used.length 0 h
  have hnodup : ((List.range (used.length + 1)).map (candidate base)).Nodup :=
    List.nodup_range.map (fun _ _ => candidate_injective)
  have hsub : (List.range (used.length + 1)).map (candidate base) ⊆ used := by
    intro id hid
    obtain ⟨k, hk, rfl⟩ := List.mem_map.mp hid
    have hk := hall k (Nat.lt_succ_iff.mp (List.mem_range.mp hk))
    rwa [Nat.zero_add] at hk
  have hle := (List.subperm_of_subset hnodup hsub).length_le
  rw [List.length_map, List.length_range] at hle
  omega

section Assigned

variable {M : Type} {hash : Text → Text}

variable (hash) in
theorem assignRows_fresh (rows : List (Row M)) : ∀ used : List Text,
    ((assignRows hash used rows).map Prod.snd).Nodup ∧ ∀ p ∈ assignRows hash used rows, p.2 ∉ used := by
  induction rows with
  | nil => exact fun _ => ⟨List.nodup_nil, fun _ h => absurd h List.not_mem_nil⟩
  | cons row rows ih =>
    intro used
    have hfree := probe_free used (baseOf hash row)
    rw [assignRows]
    obtain ⟨hnodup, hnew⟩ := ih (probe used (baseOf hash row) used.length 0 :: used)
    constructor
    · rw [List.map_cons, List.nodup_cons]
      refine ⟨?_, hnodup⟩
      intro hmem
      obtain ⟨p, hp, heq⟩ := List.mem_map.mp hmem
      exact hnew p hp (heq ▸ List.mem_cons_self)
    · intro p hp
      cases hp with
      | head => exact hfree
      | tail _ hp => exact fun h => hnew p hp (List.mem_cons_of_mem _ h)

theorem assignRows_modules (rows : List (Row M)) : ∀ used : List Text,
    (assignRows hash used rows).map Prod.fst = rows.map Row.module := by
  induction rows with
  | nil => exact fun _ => rfl
  | cons row rows ih =>
    intro used
    rw [assignRows, List.map_cons, List.map_cons, ih]

theorem probe_congr {used' : List Text} (h : ∀ id, id ∈ used ↔ id ∈ used') (base : Text) (fuel n : Nat) :
    probe used base fuel n = probe used' base fuel n := by
  induction fuel generalizing n with
  | zero => rfl
  | succ fuel ih =>
    have hcongr : (candidate base n ∈ used) = (candidate base n ∈ used') := propext (h _)
    simp only [probe, ih, hcongr]

theorem assignRows_congr (rows : List (Row M)) : ∀ {used used' : List Text}, used.Perm used' →
    assignRows hash used rows = assignRows hash used' rows := by
  induction rows with
  | nil => exact fun _ => rfl
  | cons row rows ih =>
    intro used used' h
    rw [assignRows, assignRows]
    rw [h.length_eq, probe_congr fun id => h.mem_iff]
    exact congrArg _ (ih (h.cons _))

end Assigned

/-! Any order -/

section Order

variable {M : Type} {normalize : Text → Except Text Text} {hash : Text → Text} {info : M → Module}
  {get : M → Option Text} {identity : M → Text} {ms : List M}

theorem mapM_eq_ok {f : M → Except Text (Row M)} {rows : List (Row M)} :
    ms.mapM f = .ok rows ↔ List.Forall₂ (fun m row => f m = .ok row) ms rows := by
  induction ms generalizing rows with
  | nil =>
    rw [List.mapM_nil, pure_eq_ok, List.forall₂_nil_left_iff, eq_comm]
  | cons m ms ih =>
    rw [List.mapM_cons, bind_eq_ok, List.forall₂_cons_left_iff]
    constructor
    · rintro ⟨row, hrow, h⟩
      obtain ⟨rest, hrest, h⟩ := bind_ok h
      exact ⟨row, rest, hrow, ih.mp hrest, (pure_eq_ok.mp h).symm⟩
    · rintro ⟨row, rest, hrow, hrest, rfl⟩
      exact ⟨row, hrow, bind_eq_ok.mpr ⟨rest, ih.mpr hrest, rfl⟩⟩

theorem rowOf_module {m : M} {row : Row M} (h : rowOf normalize info identity m = .ok row) : row.module = m := by
  obtain ⟨_, -, h⟩ := bind_ok h
  obtain ⟨_, -, h⟩ := bind_ok h
  obtain ⟨_, -, h⟩ := bind_ok h
  rw [← pure_eq_ok.mp h]

theorem rows_modules {rows : List (Row M)}
    (h : List.Forall₂ (fun m row => rowOf normalize info identity m = .ok row) ms rows) : rows.map Row.module = ms := by
  induction h with
  | nil => rfl
  | cons hrow _ ih => rw [List.map_cons, rowOf_module hrow, ih]

theorem rows_perm {ms' : List M} (h : ms.Perm ms') {rows : List (Row M)}
    (hrows : ms.mapM (rowOf normalize info identity) = .ok rows) :
    ∃ rows', ms'.mapM (rowOf normalize info identity) = .ok rows' ∧ rows.Perm rows' := by
  obtain ⟨rows', hrows', hperm⟩ := List.perm_comp_forall₂ h.symm (mapM_eq_ok.mp hrows)
  exact ⟨rows', mapM_eq_ok.mpr hrows', hperm.symm⟩

theorem assign_perm {modules modules' : List M} (h : modules.Perm modules') {ids : List (M × Text)}
    (hok : assignStableModuleIds normalize hash info get identity modules = .ok ids) :
    assignStableModuleIds normalize hash info get identity modules' = .ok ids := by
  obtain ⟨rows, hrows, hok⟩ := bind_ok hok
  obtain ⟨rows', hrows', hperm⟩ := rows_perm (h.filter _) hrows
  refine bind_eq_ok.mpr ⟨rows', hrows', ?_⟩
  split at hok
  · cases hok
  · rename_i hnone
    have hsorted := sort_unique hperm hnone
    rw [← hsorted, hnone, ← assignRows_congr _ (h.filterMap get)]
    exact hok

/-- The assignment throws in every order, or gives every module the same id in every order;
    the ids are distinct, no id that a module had before is among them, and each module
    that needs one has one. -/
theorem assign_order_free (normalize : Text → Except Text Text) (hash : Text → Text) (info : M → Module) (get : M → Option Text)
    (identity : M → Text) (modules modules' : List M) (h : modules.Perm modules') :
    ((∃ e, assignStableModuleIds normalize hash info get identity modules = .error e) ∧
      ∃ e, assignStableModuleIds normalize hash info get identity modules' = .error e) ∨
    ∃ ids, assignStableModuleIds normalize hash info get identity modules = .ok ids ∧
      assignStableModuleIds normalize hash info get identity modules' = .ok ids ∧
      (ids.map Prod.snd).Nodup ∧ (∀ p ∈ ids, p.2 ∉ modules.filterMap get) ∧
      (ids.map Prod.fst).Perm (modules.filter (needsId info get)) := by
  cases hassign : assignStableModuleIds normalize hash info get identity modules with
  | error e =>
    left
    refine ⟨⟨e, rfl⟩, ?_⟩
    cases hassign' : assignStableModuleIds normalize hash info get identity modules' with
    | error e' => exact ⟨e', rfl⟩
    | ok ids =>
      rw [assign_perm h.symm hassign'] at hassign
      cases hassign
  | ok ids =>
    right
    refine ⟨ids, rfl, assign_perm h hassign, ?_⟩
    obtain ⟨rows, hrows, hok⟩ := Fallible.bind_eq_ok.mp hassign
    split at hok
    · cases hok
    · cases hok
      obtain ⟨hnodup, hnew⟩ := assignRows_fresh hash (sortRows rows) (modules.filterMap get)
      refine ⟨hnodup, hnew, ?_⟩
      rw [assignRows_modules]
      refine ((perm_sortRows rows).map Row.module).trans (.of_eq ?_)
      exact rows_modules (mapM_eq_ok.mp hrows)

theorem assign_throws (modules : List M) :
    (∃ e, assignStableModuleIds normalize hash info get identity modules = .error e) ↔
      ∀ rows, (modules.filter (needsId info get)).mapM (rowOf normalize info identity) = .ok rows → ¬ (rows.map Row.key).Nodup := by
  constructor
  · rintro ⟨e, he⟩ rows hrows hnodup
    rw [assignStableModuleIds, hrows, ok_bind] at he
    split at he
    · rename_i name hsome
      exact not_nodup_of_indistinguishable hsome (((perm_sortRows rows).map Row.key).nodup_iff.mpr hnodup)
    · cases he
  · intro h
    cases hassign : assignStableModuleIds normalize hash info get identity modules with
    | error e => exact ⟨e, rfl⟩
    | ok =>
      obtain ⟨rows, hrows, hok⟩ := bind_ok hassign
      split at hok
      · cases hok
      · rename_i hnone
        have hnodup := keys_nodup (sortRows_sorted rows) hnone
        exact absurd (((perm_sortRows rows).map Row.key).nodup_iff.mp hnodup) (h rows hrows)

end Order

/-! A build -/

/-- Two modules of one name, told apart by their chunks, and one that has an id. -/
def build : List (Text × Text × Option Text) :=
  [(units "b", units "b.ts", none), (units "a", units "b.ts", none), (units "c", units "c.ts", some (units "b.ts"))]

def buildInfo (m : Text × Text × Option Text) : Module := ⟨m.2.1, [], [], [], [], [], [], []⟩

/-- In the other order the ids are the same, with suffixes past the one that is taken. -/
theorem assign_order_free_build : ∃ ids,
    assignStableModuleIds (M := Text × Text × Option Text) .ok id buildInfo (fun m => m.2.2) Prod.fst build = .ok ids ∧
    assignStableModuleIds (M := Text × Text × Option Text) .ok id buildInfo (fun m => m.2.2) Prod.fst build.reverse = .ok ids ∧
    ids.map Prod.snd = [units "b.ts-1", units "b.ts-2"] := by
  have hids : (assignStableModuleIds (M := Text × Text × Option Text) .ok id buildInfo (fun m => m.2.2) Prod.fst build).toOption.map
      (fun ids => ids.map Prod.snd) = some [units "b.ts-1", units "b.ts-2"] := by
    decide +kernel
  rcases assign_order_free .ok id buildInfo (fun m => m.2.2) Prod.fst build build.reverse (List.reverse_perm build).symm with
    ⟨⟨e, he⟩, -⟩ | ⟨ids, hok, hok', -⟩
  · rw [he] at hids
    cases hids
  · refine ⟨ids, hok, hok', ?_⟩
    rw [hok] at hids
    exact Option.some.inj hids

end GrowthMap.ModuleIds
