import GrowthMap.Lib.Table
import GrowthMap.Lib.Fallible

/- Tables under a map of their rows.

   A map that leaves the primary keys alone commutes with every statement, so that what does
   not read the columns it changes does the same before and after it. -/
namespace Relational.Table

variable {K R : Type} [DecidableEq K] {key : R → K} {t : Table K R key}

theorem eq_of_rows {t' : Table K R key} (h : t.rows = t'.rows) : t = t' := by
  cases t
  cases t'
  simpa using h

def mapRows (t : Table K R key) (f : R → R) (hf : ∀ r, key (f r) = key r) : Table K R key :=
  ⟨t.rows.map f, by
    have hkeys : key ∘ f = key := funext hf
    rw [List.map_map, hkeys]
    exact t.distinct⟩

variable {f : R → R} {hf : ∀ r, key (f r) = key r}

theorem get_mapRows {t : Table K R key} {k : K} : (t.mapRows f hf).get k = (t.get k).map f := by
  simp only [get, mapRows, List.find?_map]
  congr 2
  funext r
  simp [hf]

theorem insert_mapRows {t : Table K R key} {r : R} :
    (t.mapRows f hf).insert (f r) = (t.insert r).map (fun t' => t'.mapRows f hf) := by
  have hkeys : (t.mapRows f hf).rows.map key = t.rows.map key := by
    simp only [mapRows, List.map_map]
    exact List.map_congr_left (fun r _ => hf r)
  unfold insert
  by_cases h : key r ∈ t.rows.map key
  · rw [dif_pos h, dif_pos (by rwa [hkeys, hf]), Option.map_none]
  · rw [dif_neg h, dif_neg (by rwa [hkeys, hf]), Option.map_some]
    exact congrArg some (eq_of_rows (by simp [mapRows]))

theorem modify_mapRows {k : K} {g g' : R → R} {hg : ∀ r, key (g r) = key r}
    {hg' : ∀ r, key (g' r) = key r} (hcomm : ∀ r, f (g r) = g' (f r)) :
    (t.modify k g hg).mapRows f hf = (t.mapRows f hf).modify k g' hg' := by
  refine eq_of_rows ?_
  simp only [modify, update, mapRows, List.map_map]
  refine List.map_congr_left (fun r _ => ?_)
  simp only [Function.comp, hf]
  split
  · exact hcomm r
  · rfl

end Relational.Table

namespace Fallible

variable {ε α α' β β' : Type} {x : Except ε α} {u : α → α'}

theorem map_bind {x' : Except ε α'} {v : β → β'} {k : α → Except ε β} {k' : α' → Except ε β'}
    (hx : x.map u = x') (hk : ∀ a, (k a).map v = k' (u a)) : (x >>= k).map v = x' >>= k' := by
  subst hx
  cases x with
  | error => rfl
  | ok a => exact hk a

theorem map_guard {c : Prop} [Decidable c] {e : ε} {u : α → β} :
    (if c then .error e else x).map u = if c then .error e else x.map u := by
  split <;> rfl

theorem map_each {σ σ' : Type} {step : α → σ → Except ε σ} {step' : α' → σ' → Except ε σ'} {v : σ → σ'}
    (hstep : ∀ a s, (step a s).map v = step' (u a) (v s)) (xs : List α) (s : σ) :
    (each step xs s).map v = each step' (xs.map u) (v s) := by
  induction xs generalizing s with
  | nil => rfl
  | cons a xs ih => exact map_bind (hstep a s) ih

end Fallible
