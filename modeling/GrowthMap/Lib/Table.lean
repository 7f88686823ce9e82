import Mathlib.Data.List.Nodup
import Mathlib.Tactic.Common

/- Keyed tables with UNIQUE columns.

   A table is the list of its rows in insertion order, and carries the proof
   that no two rows share a primary key. The things a statement does to a table
   are here (`insert`, `update` with a WHERE clause, `modify` of one row, `keep`),
   and every one of them is described by what it does to `get`, so that an
   invariant stated over `get` never looks at the list of rows again. UNIQUE on
   a nullable column is `taken`: a value held by another row, NULL never. -/
namespace Relational

/-- Rows in insertion order, no two under one primary key. -/
structure Table (K R : Type) (key : R → K) where
  rows : List R
  distinct : (rows.map key).Nodup

namespace Table

variable {K R V : Type} [DecidableEq K] [DecidableEq V] {key : R → K}

def empty : Table K R key := ⟨[], by simp⟩

/-- The row under a primary key. -/
def get (t : Table K R key) (k : K) : Option R :=
  t.rows.find? (fun r => decide (key r = k))

theorem get_eq_some {t : Table K R key} {k : K} {r : R} :
    t.get k = some r ↔ r ∈ t.rows ∧ key r = k := by
  unfold get
  constructor
  · intro h
    exact ⟨List.mem_of_find?_eq_some h, by simpa using List.find?_some h⟩
  · rintro ⟨hm, rfl⟩
    cases hf : t.rows.find? (fun x => decide (key x = key r)) with
    | none =>
      have := List.find?_eq_none.mp hf r hm
      simp at this
    | some x =>
      have hx : key x = key r := by simpa using List.find?_some hf
      rw [List.inj_on_of_nodup_map t.distinct (List.mem_of_find?_eq_some hf) hm hx]

theorem get_key {t : Table K R key} {k : K} {r : R} (h : t.get k = some r) : key r = k :=
  (get_eq_some.mp h).2

theorem get_mem {t : Table K R key} {k : K} {r : R} (h : t.get k = some r) : r ∈ t.rows :=
  (get_eq_some.mp h).1

theorem get_of_mem {t : Table K R key} {r : R} (h : r ∈ t.rows) : t.get (key r) = some r :=
  get_eq_some.mpr ⟨h, rfl⟩

theorem get_eq_none {t : Table K R key} {k : K} : t.get k = none ↔ k ∉ t.rows.map key := by
  simp only [get, List.find?_eq_none, decide_eq_true_eq, List.mem_map, not_exists, not_and]

@[simp] theorem get_empty (k : K) : (empty : Table K R key).get k = none := rfl

/-! Insertion -/

/-- INSERT: `none` when the primary key is already there. -/
def insert (t : Table K R key) (r : R) : Option (Table K R key) :=
  if h : key r ∈ t.rows.map key then none
  else some ⟨t.rows ++ [r], by
    rw [List.map_append, List.nodup_append]
    refine ⟨t.distinct, by simp, ?_⟩
    intro a ha b hb
    simp only [List.map_cons, List.map_nil, List.mem_singleton] at hb
    rintro rfl
    exact h (hb ▸ ha)⟩

theorem insert_rows {t t' : Table K R key} {r : R} (h : t.insert r = some t') :
    t'.rows = t.rows ++ [r] := by
  unfold insert at h
  split at h
  · cases h
  · cases h; rfl

theorem insert_fresh {t t' : Table K R key} {r : R} (h : t.insert r = some t') :
    t.get (key r) = none := by
  unfold insert at h
  split at h
  · cases h
  · exact get_eq_none.mpr ‹_›

theorem fresh_of_append {t t' : Table K R key} {rows : List R} (h : t'.rows = t.rows ++ rows) (r : R) (hr : r ∈ rows) :
    t.get (key r) = none := by
  have hnodup := t'.distinct
  rw [h, List.map_append, List.nodup_append] at hnodup
  rw [get_eq_none]
  intro hmem
  exact hnodup.2.2 _ hmem _ (List.mem_map_of_mem hr) rfl

theorem insert_isSome {t : Table K R key} {r : R} (h : t.get (key r) = none) :
    ∃ t', t.insert r = some t' := by
  unfold insert
  rw [dif_neg (get_eq_none.mp h)]
  exact ⟨_, rfl⟩

theorem get_insert {t t' : Table K R key} {r : R} (h : t.insert r = some t') (k : K) :
    t'.get k = if k = key r then some r else t.get k := by
  have hrows := insert_rows h
  by_cases hk : k = key r
  · subst hk
    rw [if_pos rfl, get_eq_some, hrows]
    simp
  · rw [if_neg hk, get, get, hrows, List.find?_append]
    have : ([r] : List R).find? (fun x => decide (key x = k)) = none := by
      simp [Ne.symm hk]
    rw [this, Option.or_none]

theorem get_insert_cases {t t' : Table K R key} {r x : R} {k : K} (h : t.insert r = some t')
    (hx : t'.get k = some x) : k = key r ∧ x = r ∨ t.get k = some x := by
  rw [get_insert h] at hx
  split at hx
  · cases hx
    exact .inl ⟨‹_›, rfl⟩
  · exact .inr hx

theorem get_insert_self {t t' : Table K R key} {r : R} (h : t.insert r = some t') :
    t'.get (key r) = some r := by
  rw [get_insert h, if_pos rfl]

theorem get_insert_old {t t' : Table K R key} {r x : R} {k : K} (h : t.insert r = some t')
    (hx : t.get k = some x) : t'.get k = some x := by
  rw [get_insert h, if_neg, hx]
  rintro rfl
  rw [insert_fresh h] at hx
  cases hx

theorem get_insert_isSome {t t' : Table K R key} {r : R} (h : t.insert r = some t') (x : K) (hx : (t.get x).isSome = true) :
    (t'.get x).isSome = true := by
  obtain ⟨row, hrow⟩ := Option.isSome_iff_exists.mp hx
  rw [get_insert_old h hrow]
  rfl

/-! Update -/

/-- UPDATE … SET `f` WHERE `p`; `f` leaves the primary key alone. -/
def update (t : Table K R key) (p : R → Bool) (f : R → R) (hf : ∀ r, key (f r) = key r) :
    Table K R key :=
  ⟨t.rows.map (fun r => if p r then f r else r), by
    rw [List.map_map]
    have : key ∘ (fun r => if p r then f r else r) = key := by
      funext r
      simp only [Function.comp]
      split
      · exact hf r
      · rfl
    rw [this]
    exact t.distinct⟩

theorem get_update (t : Table K R key) (p : R → Bool) (f : R → R)
    (hf : ∀ r, key (f r) = key r) (k : K) :
    (t.update p f hf).get k = (t.get k).map (fun r => if p r then f r else r) := by
  have hk : ∀ r, key (if p r then f r else r) = key r := by
    intro r
    split
    · exact hf r
    · rfl
  simp only [get, update, List.find?_map]
  congr 1
  congr 1
  funext r
  simp [Function.comp, hk]

theorem get_update_isSome (t : Table K R key) (p : R → Bool) (f : R → R) (hf : ∀ r, key (f r) = key r) (x : K)
    (hx : (t.get x).isSome = true) : ((t.update p f hf).get x).isSome = true := by
  rw [get_update, Option.isSome_map]
  exact hx

/-- UPDATE … SET `f` of the one row under `k`. -/
def modify (t : Table K R key) (k : K) (f : R → R) (hf : ∀ r, key (f r) = key r) :
    Table K R key :=
  t.update (fun r => decide (key r = k)) f hf

theorem get_modify (t : Table K R key) (k : K) (f : R → R) (hf : ∀ r, key (f r) = key r)
    (k' : K) : (t.modify k f hf).get k' = if k' = k then (t.get k').map f else t.get k' := by
  rw [modify, get_update]
  cases h : t.get k' with
  | none => simp
  | some r =>
    have hr := get_key h
    by_cases hk : k' = k
    · simp [hk, hr]
    · have : key r ≠ k := hr ▸ hk
      simp [hk, this]

theorem get_modify_self {t : Table K R key} {k : K} {f : R → R} (hf : ∀ r, key (f r) = key r)
    {r : R} (h : t.get k = some r) : (t.modify k f hf).get k = some (f r) := by
  rw [get_modify, if_pos rfl, h]
  rfl

theorem get_modify_ne {t : Table K R key} {k k' : K} {f : R → R} (hf : ∀ r, key (f r) = key r)
    (h : k' ≠ k) : (t.modify k f hf).get k' = t.get k' := by
  rw [get_modify, if_neg h]

theorem get_modify_cases {t : Table K R key} {k k' : K} {f : R → R} (hf : ∀ r, key (f r) = key r)
    {x : R} (h : (t.modify k f hf).get k' = some x) :
    (k' = k ∧ ∃ r, t.get k = some r ∧ x = f r) ∨ (k' ≠ k ∧ t.get k' = some x) := by
  by_cases hk : k' = k
  · subst hk
    rw [get_modify, if_pos rfl] at h
    obtain ⟨r, hr, rfl⟩ := Option.map_eq_some_iff.mp h
    exact .inl ⟨rfl, r, hr, rfl⟩
  · exact .inr ⟨hk, get_modify_ne hf hk ▸ h⟩

theorem get_modify_exists {t : Table K R key} (k : K) {k' : K} (f : R → R)
    (hf : ∀ r, key (f r) = key r) {x : R} (h : t.get k' = some x) :
    ∃ y, (t.modify k f hf).get k' = some y ∧ (y = x ∨ k' = k ∧ y = f x) := by
  by_cases hk : k' = k
  · subst hk
    exact ⟨f x, get_modify_self hf h, .inr ⟨rfl, rfl⟩⟩
  · exact ⟨x, by rw [get_modify_ne hf hk, h], .inl rfl⟩

theorem insert_modify {t t' : Table K R key} {r : R} {f : R → R} (hf : ∀ r, key (f r) = key r)
    (h : t.insert r = some t') : t.insert (f r) = some (t'.modify (key r) f hf) := by
  have hfresh := get_eq_none.mp (insert_fresh h)
  have hrows : (t'.modify (key r) f hf).rows = t.rows ++ [f r] := by
    simp only [modify, update, insert_rows h, List.map_append, List.map_cons, List.map_nil, decide_true, if_true]
    congr 1
    conv_rhs => rw [← List.map_id t.rows]
    apply List.map_congr_left
    intro x hx
    have hne : key x ≠ key r := fun he => hfresh (he ▸ List.mem_map_of_mem hx)
    simp [hne]
  unfold insert
  rw [dif_neg (by rw [hf]; exact hfresh)]
  congr 1
  cases hm : t'.modify (key r) f hf
  rw [hm] at hrows
  cases hrows
  rfl

theorem modify_rows_filterMap {t : Table K R key} {k : K} {f : R → R} (hf : ∀ r, key (f r) = key r)
    {col : R → Option V} (hcol : ∀ r, col (f r) = col r) :
    (t.modify k f hf).rows.filterMap col = t.rows.filterMap col := by
  simp only [modify, update, List.filterMap_map]
  congr 1
  funext r
  simp only [Function.comp]
  split
  · exact hcol r
  · rfl

/-! Deletion -/

/-- DELETE of the rows that do not meet `p`. -/
def keep (t : Table K R key) (p : R → Bool) : Table K R key :=
  ⟨t.rows.filter p, (List.filter_sublist.map key).nodup t.distinct⟩

theorem get_keep {t : Table K R key} {p : R → Bool} {k : K} {r : R} :
    (t.keep p).get k = some r ↔ t.get k = some r ∧ p r = true := by
  rw [get_eq_some, get_eq_some]
  simp only [keep, List.mem_filter]
  constructor
  · rintro ⟨⟨hm, hp⟩, hk⟩
    exact ⟨⟨hm, hk⟩, hp⟩
  · rintro ⟨⟨hm, hk⟩, hp⟩
    exact ⟨⟨hm, hp⟩, hk⟩

theorem get_keep_filter (t : Table K R key) (p : R → Bool) (k : K) : (t.keep p).get k = (t.get k).filter p := by
  ext r
  rw [get_keep, Option.filter_eq_some_iff]

/-! Later tables -/

/-- Every row is still there, and what became of it is related to it. -/
def Grows (rel : R → R → Prop) (t t' : Table K R key) : Prop :=
  ∀ k r, t.get k = some r → ∃ r', t'.get k = some r' ∧ rel r r'

theorem Grows.refl {rel : R → R → Prop} (hrel : ∀ r, rel r r) (t : Table K R key) : t.Grows rel t :=
  fun _ r h => ⟨r, h, hrel r⟩

theorem Grows.trans {rel : R → R → Prop} (hrel : ∀ a b c, rel a b → rel b c → rel a c) {t t' t'' : Table K R key}
    (h : t.Grows rel t') (h' : t'.Grows rel t'') : t.Grows rel t'' := by
  intro k r hr
  obtain ⟨r', hr', h₁⟩ := h k r hr
  obtain ⟨r'', hr'', h₂⟩ := h' k r' hr'
  exact ⟨r'', hr'', hrel _ _ _ h₁ h₂⟩

theorem Grows.insert {rel : R → R → Prop} (hrel : ∀ r, rel r r) {t t' : Table K R key} {r : R}
    (h : t.insert r = some t') : t.Grows rel t' :=
  fun _ x hx => ⟨x, get_insert_old h hx, hrel x⟩

theorem Grows.update {rel : R → R → Prop} (hrel : ∀ r, rel r r) {t : Table K R key} {p : R → Bool} {f : R → R}
    (hf : ∀ r, key (f r) = key r) (h : ∀ r, t.get (key r) = some r → p r = true → rel r (f r)) :
    t.Grows rel (t.update p f hf) := by
  intro k r hr
  refine ⟨_, by rw [get_update, hr]; rfl, ?_⟩
  dsimp only
  split
  · rename_i hp
    exact h r (get_of_mem (get_mem hr)) hp
  · exact hrel r

theorem Grows.modify {rel : R → R → Prop} (hrel : ∀ r, rel r r) {t : Table K R key} {k : K} {f : R → R}
    (hf : ∀ r, key (f r) = key r) (h : ∀ r, t.get k = some r → rel r (f r)) : t.Grows rel (t.modify k f hf) := by
  apply Grows.update hrel
  intro r hr hk
  rw [of_decide_eq_true hk] at hr
  exact h r hr

/-! Counting -/

/-- `SELECT count(*) … WHERE p`, after an INSERT. -/
theorem countP_insert {t t' : Table K R key} {r : R} (h : t.insert r = some t') (p : R → Bool) :
    t'.rows.countP p = t.rows.countP p + if p r then 1 else 0 := by
  rw [insert_rows h, List.countP_append, List.countP_singleton]

/-- `SELECT count(*)` under one primary key. -/
theorem countP_key_le_one (t : Table K R key) (k : K) {p : R → Bool} (hp : ∀ r, p r = true → key r = k) :
    t.rows.countP p ≤ 1 := by
  have hone := List.nodup_iff_count_le_one.mp t.distinct k
  rw [List.count, List.countP_map] at hone
  refine Nat.le_trans (List.countP_mono_left ?_) hone
  intro r _ hr
  simpa using hp r hr

theorem countP_update_le {t : Table K R key} {q : R → Bool} {f : R → R} (hf : ∀ r, key (f r) = key r)
    {p : R → Bool} (h : ∀ r, t.get (key r) = some r → q r = true → p (f r) = true → p r = true) :
    (t.update q f hf).rows.countP p ≤ t.rows.countP p := by
  simp only [update, List.countP_map]
  apply List.countP_mono_left
  intro r hr hp
  simp only [Function.comp_apply] at hp
  split at hp
  · rename_i hq
    exact h r (get_of_mem hr) hq hp
  · exact hp

theorem countP_modify_le {t : Table K R key} {k : K} {f : R → R} (hf : ∀ r, key (f r) = key r) {p : R → Bool}
    (h : ∀ r, t.get k = some r → p (f r) = true → p r = true) :
    (t.modify k f hf).rows.countP p ≤ t.rows.countP p := by
  apply countP_update_le
  intro r hr hk hp
  rw [of_decide_eq_true hk] at hr
  exact h r hr hp

/-- A list with distinct keys has at most one row under `k`, so rewriting that row adds at
most one to a count. -/
theorem countP_map_le_succ (rows : List R) (hd : (rows.map key).Nodup) (k : K) (f : R → R) (p : R → Bool) :
    (rows.map (fun r => if decide (key r = k) then f r else r)).countP p ≤ rows.countP p + 1 := by
  induction rows with
  | nil => simp
  | cons r rows ih =>
    simp only [List.map_cons, List.nodup_cons] at hd
    by_cases hk : key r = k
    · -- the row under `k` is this one: the rest is left as it was
      have hrest : rows.map (fun x => if decide (key x = k) then f x else x) = rows := by
        rw [List.map_congr_left (g := id)]
        · simp
        · intro x hx
          have hne : key x ≠ k := fun hxk => hd.1 (hk ▸ hxk ▸ List.mem_map_of_mem hx)
          simp [hne]
      rw [List.map_cons, hrest]
      have h1 := List.countP_cons (p := p) (a := f r) (l := rows)
      have h2 := List.countP_cons (p := p) (a := r) (l := rows)
      simp only [hk, decide_true, if_true]
      split at h1 <;> split at h2 <;> omega
    · have := ih hd.2
      simp only [List.map_cons, hk, decide_false, List.countP_cons]
      simp only [Bool.false_eq_true, if_false]
      omega

theorem countP_modify_le_succ {t : Table K R key} {k : K} {f : R → R} (hf : ∀ r, key (f r) = key r) (p : R → Bool) :
    (t.modify k f hf).rows.countP p ≤ t.rows.countP p + 1 :=
  countP_map_le_succ t.rows t.distinct k f p

/-! UNIQUE columns -/

/-- Another row than `k` already holds the value; NULL is held by nobody. -/
def taken (t : Table K R key) (k : K) (col : R → Option V) (v : Option V) : Bool :=
  v.isSome && t.rows.any (fun r => decide (key r ≠ k) && decide (col r = v))

theorem taken_eq_false {t : Table K R key} {k : K} {col : R → Option V} {v : Option V} :
    t.taken k col v = false ↔
      ∀ k' r x, t.get k' = some r → v = some x → col r = some x → k' = k := by
  constructor
  · intro h k' r x hg hv hc
    subst hv
    by_contra hne
    have : t.taken k col (some x) = true := by
      simp only [taken, Option.isSome_some, Bool.true_and, List.any_eq_true]
      refine ⟨r, get_mem hg, ?_⟩
      simp [get_key hg, hne, hc]
    rw [h] at this
    cases this
  · intro h
    cases v with
    | none => rfl
    | some x =>
      simp only [taken, Option.isSome_some, Bool.true_and]
      rw [List.any_eq_false]
      intro r hr hx
      simp only [Bool.and_eq_true, decide_eq_true_eq] at hx
      exact hx.1 (h (key r) r x (get_of_mem hr) rfl hx.2)

/-- An UPDATE of row `k` from `old` to `new` breaks UNIQUE on `col`. -/
def clash (t : Table K R key) (k : K) (col : R → Option V) (old new : R) : Bool :=
  decide (col new ≠ col old) && t.taken k col (col new)

theorem clash_same {t : Table K R key} {k : K} {col : R → Option V} {old new : R}
    (h : col new = col old) : t.clash k col old new = false := by
  simp [clash, h]

/-- No two rows hold one value of the column. -/
def Unique (t : Table K R key) (col : R → Option V) : Prop :=
  ∀ k₁ k₂ r₁ r₂ v, t.get k₁ = some r₁ → t.get k₂ = some r₂ →
    col r₁ = some v → col r₂ = some v → k₁ = k₂

omit [DecidableEq V] in
theorem unique_empty (col : R → Option V) : Unique (empty : Table K R key) col := by
  intro k₁ k₂ r₁ r₂ v h
  simp at h

omit [DecidableEq V] in
theorem Unique.rows_eq {t : Table K R key} {col : R → Option V} (hu : t.Unique col) {r₁ r₂ : R} {v : V}
    (h₁ : r₁ ∈ t.rows) (h₂ : r₂ ∈ t.rows) (c₁ : col r₁ = some v) (c₂ : col r₂ = some v) : r₁ = r₂ := by
  have g₁ := get_of_mem h₁
  have g₂ := get_of_mem h₂
  rw [hu _ _ r₁ r₂ v g₁ g₂ c₁ c₂, g₂] at g₁
  exact (Option.some.inj g₁).symm

omit [DecidableEq V] in
theorem Unique.nodup_filterMap {t : Table K R key} {col : R → Option V} (hu : t.Unique col) :
    (t.rows.filterMap col).Nodup := by
  rw [List.nodup_iff_pairwise_ne, List.pairwise_filterMap]
  refine (List.nodup_iff_pairwise_ne.mp (List.Nodup.of_map key t.distinct)).imp_of_mem ?_
  rintro a b ha hb hne x hx y hy rfl
  exact hne (hu.rows_eq ha hb hx hy)

theorem unique_insert {t t' : Table K R key} {r : R} {col : R → Option V}
    (hu : t.Unique col) (hi : t.insert r = some t')
    (hfree : t.taken (key r) col (col r) = false) : t'.Unique col := by
  have hf := taken_eq_false.mp hfree
  intro k₁ k₂ r₁ r₂ v h₁ h₂ c₁ c₂
  rw [get_insert hi] at h₁ h₂
  split at h₁ <;> split at h₂
  · simp_all
  · rename_i e₁ _
    cases h₁
    rw [e₁]
    exact (hf k₂ r₂ v h₂ c₁ c₂).symm
  · rename_i _ e₂
    cases h₂
    rw [e₂]
    exact hf k₁ r₁ v h₁ c₂ c₁
  · exact hu k₁ k₂ r₁ r₂ v h₁ h₂ c₁ c₂

theorem unique_modify {t : Table K R key} {k : K} {f : R → R} (hf : ∀ r, key (f r) = key r)
    {col : R → Option V} (hu : t.Unique col)
    (hc : ∀ r, t.get k = some r → t.clash k col r (f r) = false) :
    (t.modify k f hf).Unique col := by
  -- the row `k` after the update, against any other row
  have hother : ∀ r k' r' v, t.get k = some r → t.get k' = some r' →
      col (f r) = some v → col r' = some v → k' = k := by
    intro r k' r' v hr hr' hcf hcr
    have hcl := hc r hr
    simp only [clash, Bool.and_eq_false_iff, decide_eq_false_iff_not, not_not] at hcl
    rcases hcl with hsame | hfree
    · exact hu k' k r' r v hr' hr hcr (hsame ▸ hcf)
    · exact taken_eq_false.mp hfree k' r' v hr' hcf hcr
  intro k₁ k₂ r₁ r₂ v h₁ h₂ c₁ c₂
  rw [get_modify] at h₁ h₂
  split at h₁ <;> split at h₂
  · simp_all
  · rename_i e₁ _
    subst e₁
    obtain ⟨r, hr, rfl⟩ := Option.map_eq_some_iff.mp h₁
    exact (hother r k₂ r₂ v hr h₂ c₁ c₂).symm
  · rename_i _ e₂
    subst e₂
    obtain ⟨r, hr, rfl⟩ := Option.map_eq_some_iff.mp h₂
    exact hother r k₁ r₁ v hr h₁ c₂ c₁
  · exact hu k₁ k₂ r₁ r₂ v h₁ h₂ c₁ c₂

end Table
end Relational
