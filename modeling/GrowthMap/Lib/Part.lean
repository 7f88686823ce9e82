import GrowthMap.Lib.Table

/- The part of a table that belongs to one owner.

   A write to the rows of one owner leaves the parts of the others as they are, as lists. A
   reader that looks at one part sees the same in any two tables with the same part. -/
namespace Relational.Table

variable {K R O : Type} [DecidableEq K] [DecidableEq O] {key : R → K}

/-- The rows of the owner `q`. -/
def part (own : R → O) (q : O) (t : Table K R key) : List R := t.rows.filter (fun r => decide (own r = q))

variable {own : R → O} {q : O} {t t' : Table K R key}

theorem part_insert {r : R} (h : t.insert r = some t') (hr : own r ≠ q) : part own q t' = part own q t := by
  simp [part, insert_rows h, hr]

variable {p : R → Bool} {f : R → R}

theorem part_update (hf : ∀ r, key (f r) = key r) (hown : ∀ r ∈ t.rows, own (f r) = own r)
    (hp : ∀ r ∈ t.rows, p r = true → own r = q → f r = r) : part own q (t.update p f hf) = part own q t := by
  have hrows : ∀ rows : List R, (∀ r ∈ rows, r ∈ t.rows) →
      (rows.map (fun r => if p r then f r else r)).filter (fun r => decide (own r = q)) =
        rows.filter (fun r => decide (own r = q)) := by
    intro rows hsub
    induction rows with
    | nil => rfl
    | cons r rows ih =>
      have hr := hsub r List.mem_cons_self
      have hrest := ih (fun x hx => hsub x (List.mem_cons_of_mem _ hx))
      by_cases hpr : p r = true
      · by_cases hq : own r = q
        · simp [hpr, hp r hr hpr hq, hq, hrest]
        · have hq' : own (f r) ≠ q := by rw [hown r hr]; exact hq
          simp [hpr, hq, hq', hrest]
      · simp [hpr, List.filter_cons, hrest]
  exact hrows t.rows (fun _ h => h)

theorem part_modify {k : K} (hf : ∀ r, key (f r) = key r) (hown : ∀ r ∈ t.rows, own (f r) = own r)
    (hk : ∀ r, t.get k = some r → own r ≠ q) : part own q (t.modify k f hf) = part own q t := by
  apply part_update hf hown
  intro r hr hkey hq
  have hkey : key r = k := by simpa using hkey
  exact absurd hq (hk r (hkey ▸ get_of_mem hr))

theorem part_keep (hp : ∀ r ∈ t.rows, own r = q → p r = true) : part own q (t.keep p) = part own q t := by
  unfold part keep
  rw [List.filter_filter]
  apply List.filter_congr
  intro r hr
  by_cases hown : own r = q
  · simp [hown, hp r hr hown]
  · simp [hown]

theorem part_congr {own' : R → O} (h : ∀ r ∈ t.rows, own r = q ↔ own' r = q) : part own q t = part own' q t := by
  apply List.filter_congr
  intro r hr
  simp [h r hr]

theorem get_keep_eq {k : K} (h : ∀ r, t.get k = some r → p r = true) : (t.keep p).get k = t.get k := by
  cases hr : t.get k with
  | some r => exact get_keep.mpr ⟨hr, h r hr⟩
  | none =>
    by_contra hne
    obtain ⟨r, hr'⟩ := Option.ne_none_iff_exists'.mp hne
    rw [(get_keep.mp hr').1] at hr
    cases hr

end Relational.Table
