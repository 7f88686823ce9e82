import Mathlib.Data.List.Basic
import Mathlib.Tactic.Common

/- A lock that at most one of many tasks holds.

   Who holds it is read off the tasks, so there is no owner to keep in step with them. A
   task takes the lock only while it is free; everything else a task does keeps what it
   holds or gives it back, and so no two tasks ever hold it. -/
namespace Mutex

variable {T : Type} (holds : T → Bool)

/-- Nobody holds the lock. -/
def free (ts : List T) : Bool := ts.all (fun t => !holds t)

/-- At most one task holds the lock. -/
def Exclusive (ts : List T) : Prop :=
  ∀ (i j : Nat) (t u : T), ts[i]? = some t → ts[j]? = some u → holds t = true → holds u = true → i = j

variable {holds} {ts : List T} {i j : Nat} {t u old new : T}

theorem not_holds_of_free (hf : free holds ts = true) (ht : ts[i]? = some t) : holds t = false := by
  have hall := List.all_eq_true.mp hf t (List.mem_of_getElem? ht)
  simpa using hall

theorem exclusive_nil : Exclusive holds [] := by
  intro i j t u ht
  simp at ht

/-- What another task than the one at `i` is, after a change there. -/
theorem get_set_cases (h : (ts.set i new)[j]? = some u) : j = i ∧ u = new ∨ j ≠ i ∧ ts[j]? = some u := by
  by_cases hj : i = j
  · subst hj
    rw [List.getElem?_set_self'] at h
    obtain ⟨_, -, hu⟩ := Option.map_eq_some_iff.mp h
    exact .inl ⟨rfl, hu.symm⟩
  · rw [List.getElem?_set_ne hj] at h
    exact .inr ⟨fun heq => hj heq.symm, h⟩

theorem get_snoc_cases (h : (ts ++ [new])[j]? = some u) : ts[j]? = some u ∨ u = new := by
  rw [List.getElem?_append] at h
  split at h
  · exact .inl h
  · exact .inr (List.mem_singleton.mp (List.mem_of_getElem? h))

theorem Exclusive.set (he : Exclusive holds ts) (hi : ts[i]? = some old)
    (hnew : holds new = true → holds old = true ∨ free holds ts = true) : Exclusive holds (ts.set i new) := by
  -- the holder at `i` after the change, against any other task
  have hother : ∀ (j : Nat) (u : T), ts[j]? = some u → holds u = true → holds new = true → j = i := by
    intro j u hu hhu hhn
    rcases hnew hhn with hold | hfree
    · exact he j i u old hu hi hhu hold
    · rw [not_holds_of_free hfree hu] at hhu
      cases hhu
  intro j k t u ht hu hht hhu
  rcases get_set_cases ht with ⟨rfl, rfl⟩ | ⟨-, htold⟩ <;> rcases get_set_cases hu with ⟨rfl, rfl⟩ | ⟨-, huold⟩
  · rfl
  · exact (hother k u huold hhu hht).symm
  · exact hother j t htold hht hhu
  · exact he j k t u htold huold hht hhu

theorem Exclusive.snoc (he : Exclusive holds ts) (hnew : holds new = false) : Exclusive holds (ts ++ [new]) := by
  have hold : ∀ (j : Nat) (u : T), (ts ++ [new])[j]? = some u → holds u = true → ts[j]? = some u := by
    intro j u hu hhu
    rcases get_snoc_cases hu with hu | rfl
    · exact hu
    · rw [hnew] at hhu
      cases hhu
  intro j k t u ht hu hht hhu
  exact he j k t u (hold j t ht hht) (hold k u hu hhu) hht hhu

end Mutex
