import Mathlib.Data.List.Dedup
import Mathlib.Data.List.Nodup
import Mathlib.Data.List.Perm.Subperm
import Mathlib.Tactic.Common

/- Maps that remember the order of their keys (`collections.OrderedDict`).

   The items stand in order, the last one set at the end; a full map is made
   smaller from the front. What that takes out is counted by keys alone: an item
   that is followed only by keys of a list `since` survives every removal that
   leaves more items than `since` has keys (`Holds.drop`). -/
namespace Ordered

/-- Items in their order, no two under one key. -/
structure Dict (K V : Type) where
  items : List (K × V)
  distinct : (items.map Prod.fst).Nodup
  deriving DecidableEq

namespace Dict

variable {K V : Type} [DecidableEq K]

def empty : Dict K V := ⟨[], List.nodup_nil⟩

def size (d : Dict K V) : Nat := d.items.length

def get (d : Dict K V) (k : K) : Option V := d.items.lookup k

/-- `d[k] = v` and `d.move_to_end(k)` -/
def setLast (d : Dict K V) (k : K) (v : V) : Dict K V :=
  ⟨d.items.filter (fun e => e.1 ≠ k) ++ [(k, v)], by
    rw [List.map_append, List.nodup_append]
    refine ⟨d.distinct.sublist (List.filter_sublist.map _), List.nodup_singleton _, ?_⟩
    intro a ha b hb
    obtain ⟨e, he, rfl⟩ := List.mem_map.mp ha
    rw [List.map_singleton, List.mem_singleton] at hb
    rw [hb]
    simpa using (List.mem_filter.mp he).2⟩

/-- `d.popitem(last=False)`, `n` times. -/
def drop (n : Nat) (d : Dict K V) : Dict K V :=
  ⟨d.items.drop n, d.distinct.sublist ((List.drop_sublist n d.items).map _)⟩

/-- Every value rewritten, the items without a new value taken out. -/
def filterMap (f : V → Option V) (d : Dict K V) : Dict K V :=
  ⟨d.items.filterMap (fun e => (f e.2).map (Prod.mk e.1)), by
    refine d.distinct.sublist ?_
    rw [List.map_filterMap]
    induction d.items with
    | nil => exact .slnil
    | cons e items ih =>
      rw [List.filterMap_cons, List.map_cons]
      cases f e.2 with
      | none => exact ih.cons _
      | some v => exact ih.cons_cons _⟩

theorem setLast_items (d : Dict K V) (k : K) (v : V) :
    (d.setLast k v).items = d.items.filter (fun e => e.1 ≠ k) ++ [(k, v)] := rfl

theorem drop_items (n : Nat) (d : Dict K V) : (d.drop n).items = d.items.drop n := rfl

theorem filterMap_items (f : V → Option V) (d : Dict K V) :
    (d.filterMap f).items = d.items.filterMap (fun e => (f e.2).map (Prod.mk e.1)) := rfl

/-- `k` has the value `v`, and only keys of `since` come after it. -/
def Holds (d : Dict K V) (k : K) (v : V) (since : List K) : Prop :=
  ∃ before after, d.items = before ++ (k, v) :: after ∧ ∀ e ∈ after, e.1 ∈ since

variable {d : Dict K V} {k : K} {v : V} {since : List K}

theorem get_eq_some (h : d.get k = some v) : (k, v) ∈ d.items := by
  obtain ⟨_, _, hitems, -⟩ := List.lookup_eq_some_iff.mp h
  rw [hitems]
  exact List.mem_append_right _ List.mem_cons_self

theorem Holds.get (h : d.Holds k v since) : d.get k = some v := by
  obtain ⟨before, after, hitems, -⟩ := h
  refine List.lookup_eq_some_iff.mpr ⟨before, after, hitems, ?_⟩
  have hdistinct := d.distinct
  rw [hitems, List.map_append, List.nodup_append] at hdistinct
  intro e he
  have hne := hdistinct.2.2 e.1 (List.mem_map_of_mem he) k List.mem_cons_self
  simpa using fun h => hne h.symm

theorem Holds.mono {since' : List K} (h : d.Holds k v since) (hsub : since ⊆ since') : d.Holds k v since' := by
  obtain ⟨before, after, hitems, hafter⟩ := h
  exact ⟨before, after, hitems, fun e he => hsub (hafter e he)⟩

theorem holds_setLast (d : Dict K V) (k : K) (v : V) : (d.setLast k v).Holds k v [] :=
  ⟨_, [], rfl, fun _ he => absurd he List.not_mem_nil⟩

theorem Holds.setLast {j : K} (h : d.Holds k v since) (hj : j ≠ k) (w : V) : (d.setLast j w).Holds k v (j :: since) := by
  obtain ⟨before, after, hitems, hafter⟩ := h
  have hkeep : (k, v).1 ≠ j := hj.symm
  refine ⟨before.filter (fun e => e.1 ≠ j), after.filter (fun e => e.1 ≠ j) ++ [(j, w)], ?_, ?_⟩
  · rw [setLast_items, hitems, List.filter_append, List.filter_cons_of_pos (by simpa using hkeep)]
    simp
  · intro e he
    cases List.mem_append.mp he with
    | inl he => exact List.mem_cons_of_mem _ (hafter e (List.mem_of_mem_filter he))
    | inr he =>
      rw [List.mem_singleton.mp he]
      exact List.mem_cons_self

theorem Holds.filterMap {f : V → Option V} {w : V} (h : d.Holds k v since) (hf : f v = some w) :
    (d.filterMap f).Holds k w since := by
  obtain ⟨before, after, hitems, hafter⟩ := h
  refine ⟨before.filterMap (fun e => (f e.2).map (Prod.mk e.1)), after.filterMap (fun e => (f e.2).map (Prod.mk e.1)), ?_, ?_⟩
  · rw [filterMap_items, hitems, List.filterMap_append, List.filterMap_cons, hf]
    rfl
  · intro e he
    obtain ⟨e', he', hfe⟩ := List.mem_filterMap.mp he
    obtain ⟨_, -, rfl⟩ := Option.map_eq_some_iff.mp hfe
    exact hafter e' he'

theorem dedup_length_le {js ks : List K} (h : js ⊆ ks) : js.dedup.length ≤ ks.dedup.length := by
  refine (List.subperm_of_subset (List.nodup_dedup js) ?_).length_le
  intro j hj
  exact List.mem_dedup.mpr (h (List.mem_dedup.mp hj))

theorem Holds.drop (h : d.Holds k v since) {n : Nat} (hn : n = 0 ∨ n + since.dedup.length < d.size) :
    (d.drop n).Holds k v since := by
  obtain ⟨before, after, hitems, hafter⟩ := h
  have hdistinct : (after.map Prod.fst).Nodup := by
    have hall := d.distinct
    rw [hitems, List.map_append, List.map_cons] at hall
    exact (List.nodup_cons.mp (List.nodup_append.mp hall).2.1).2
  have hlength : after.length ≤ since.dedup.length := by
    have hsub : after.map Prod.fst ⊆ since := by
      intro j hj
      obtain ⟨e, he, rfl⟩ := List.mem_map.mp hj
      exact hafter e he
    have hle := dedup_length_le hsub
    rwa [hdistinct.dedup, List.length_map] at hle
  have hsize : d.size = before.length + (after.length + 1) := by
    rw [size, hitems, List.length_append, List.length_cons]
  refine ⟨before.drop n, after, ?_, hafter⟩
  rw [drop_items, hitems, List.drop_append_of_le_length (by omega)]

theorem get_eq_none (h : d.get k = none) : ∀ e ∈ d.items, e.1 ≠ k := by
  intro e he hk
  have hne := List.lookup_eq_none_iff.mp h e he
  rw [hk] at hne
  simp at hne

theorem setLast_of_none (h : d.get k = none) (v : V) : (d.setLast k v).items = d.items ++ [(k, v)] := by
  rw [setLast_items, List.filter_eq_self.mpr]
  intro e he
  simpa using get_eq_none h e he

theorem drop_setLast (h : d.get k = none) {n : Nat} (hn : n ≤ d.size) (v : V) :
    ((d.drop n).setLast k v).items = ((d.setLast k v).drop n).items := by
  rw [drop_items, setLast_of_none h, List.drop_append_of_le_length hn, setLast_items, drop_items, List.filter_eq_self.mpr]
  intro e he
  simpa using get_eq_none h e (List.mem_of_mem_drop he)

theorem size_drop (n : Nat) (d : Dict K V) : (d.drop n).size = d.size - n := List.length_drop

theorem size_filterMap (f : V → Option V) (d : Dict K V) : (d.filterMap f).size ≤ d.size := List.length_filterMap_le _ _

theorem size_setLast (d : Dict K V) (k : K) (v : V) :
    (d.setLast k v).size ≤ if (d.get k).isSome then d.size else d.size + 1 := by
  have hfilter := List.length_filter_le (fun e => e.1 ≠ k) d.items
  rw [size, setLast, List.length_append, List.length_singleton]
  split
  · rename_i hsome
    obtain ⟨w, hw⟩ := Option.isSome_iff_exists.mp hsome
    have hmem := get_eq_some hw
    have hlt : (d.items.filter (fun e => e.1 ≠ k)).length < d.items.length :=
      List.length_filter_lt_length_iff_exists.mpr ⟨_, hmem, by simp⟩
    exact hlt
  · exact Nat.succ_le_succ hfilter

end Dict

end Ordered
