import Mathlib.Data.Finset.Card
import Mathlib.Data.List.Range
import Mathlib.Data.Finset.Dedup

/- The least free positive number.

   `next(i for i in range(1, len(occupied)+2) if i not in occupied)`: a search
   of one more candidate than there are occupied numbers. It never runs off its
   range (pigeonhole), what it finds is positive and free, and no smaller
   positive number is free. -/
namespace LeastFree

/-- `range(1, len(set(occupied))+2)`, searched for the first number not occupied;
`none` is the generator running dry. -/
def leastFree (occupied : List Nat) : Option Nat :=
  (List.range' 1 (occupied.dedup.length + 1)).find? (fun i => decide (i ∉ occupied))

variable {n : Nat} {occupied : List Nat}

theorem leastFree_spec (h : leastFree occupied = some n) :
    0 < n ∧ n ∉ occupied := by
  have hm := List.mem_of_find?_eq_some h
  have hp := List.find?_some h
  rw [List.mem_range'_1] at hm
  exact ⟨by omega, by simpa using hp⟩

theorem leastFree_isSome (occupied : List Nat) : ∃ n, leastFree occupied = some n := by
  cases h : leastFree occupied with
  | some n => exact ⟨n, rfl⟩
  | none =>
    exfalso
    have hall : ∀ i ∈ List.range' 1 (occupied.dedup.length + 1), i ∈ occupied := by
      intro i hi
      have := List.find?_eq_none.mp h i hi
      simpa using this
    have hsub : (List.range' 1 (occupied.dedup.length + 1)).toFinset ⊆ occupied.toFinset := by
      intro i hi
      rw [List.mem_toFinset] at hi ⊢
      exact hall i hi
    have hcard := Finset.card_le_card hsub
    rw [List.toFinset_card_of_nodup (List.nodup_range' (s := 1)), List.length_range',
      List.card_toFinset] at hcard
    omega

theorem leastFree_least {k : Nat} (h : leastFree occupied = some n) (hk : 0 < k)
    (hkn : k < n) : k ∈ occupied := by
  have hn := List.mem_range'_1.mp (List.mem_of_find?_eq_some h)
  obtain ⟨-, before, after, hrange, hbefore⟩ := List.find?_eq_some_iff_append.mp h
  by_contra hfree
  -- `k` is searched, and not before `n`
  have hmem : k ∈ before ++ n :: after := by
    rw [← hrange, List.mem_range'_1]
    omega
  rcases List.mem_append.mp hmem with hb | ha
  · have hno := hbefore k hb
    simp [hfree] at hno
  · have hsorted : (before ++ n :: after).Pairwise (· < ·) := by
      rw [← hrange]
      exact List.pairwise_lt_range'
    rcases List.mem_cons.mp ha with rfl | ha
    · omega
    · have hlt := (List.pairwise_cons.mp (List.pairwise_append.mp hsorted).2.1).1 k ha
      omega

theorem count_agrees_iff (hnodup : occupied.Nodup) (h : leastFree occupied = some n) (limit : Nat) :
    (occupied.length < limit ↔ n ≤ limit) ↔
      (occupied.length < limit ∨ ∀ k, 0 < k → k ≤ limit → k ∈ occupied) := by
  obtain ⟨hpos, hfree⟩ := leastFree_spec h
  have hle : n ≤ occupied.length + 1 := by
    have hm := List.mem_range'_1.mp (List.mem_of_find?_eq_some h)
    rw [hnodup.dedup] at hm
    omega
  constructor
  · intro hagree
    by_cases hcount : occupied.length < limit
    · exact .inl hcount
    · right
      intro k hk hkl
      have hnl : ¬ n ≤ limit := fun hn => hcount (hagree.mpr hn)
      exact leastFree_least h hk (by omega)
  · rintro (hcount | hfull)
    · exact ⟨fun _ => by omega, fun _ => hcount⟩
    · have hnl : ¬ n ≤ limit := fun hn => hfree (hfull n hpos hn)
      exact ⟨fun hc => by omega, fun hn => absurd hn hnl⟩

end LeastFree
