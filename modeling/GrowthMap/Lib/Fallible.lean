import Mathlib.Tactic.Common

/- Computations that may fail: what a success says about the parts. -/
namespace Fallible

variable {ε α β : Type} {x : Except ε α} {f : α → Except ε β} {a : α} {c : Prop} {e : ε} {xs : List α}
  {R : α → β → Prop}

theorem bind_eq_ok {b : β} :
    x >>= f = .ok b ↔ ∃ a, x = .ok a ∧ f a = .ok b := by
  cases x with
  | error => simp [bind, Except.bind]
  | ok => simp [bind, Except.bind]

@[simp] theorem pure_eq_ok {b : α} : (pure a : Except ε α) = .ok b ↔ a = b := by
  simp [pure, Except.pure]

theorem map_eq_ok {f : α → β} {b : β} : x.map f = .ok b ↔ ∃ a, x = .ok a ∧ f a = b := by
  cases x with
  | error => simp [Except.map]
  | ok => simp [Except.map]

theorem guard_eq_ok [Decidable c] :
    (if c then .error e else x) = .ok a ↔ ¬ c ∧ x = .ok a := by
  by_cases hc : c
  · simp [hc]
  · simp [hc]

theorem bind_ok {b : β} (h : x >>= f = .ok b) : ∃ a, x = .ok a ∧ f a = .ok b := bind_eq_ok.mp h

theorem guard_ok [Decidable c] (h : (if c then .error e else x) = .ok a) : ¬ c ∧ x = .ok a := guard_eq_ok.mp h

@[simp] theorem error_bind : ((Except.error e : Except ε α) >>= f) = .error e := rfl

@[simp] theorem ok_bind : ((Except.ok a : Except ε α) >>= f) = f a := rfl

theorem bind_of_ok (h : x = .ok a) : x >>= f = f a := by
  rw [h, ok_bind]

/-! Steps one after the other -/

variable {σ : Type}

/-- A step for each element; the first that fails fails all. -/
def each (step : α → σ → Except ε σ) : List α → σ → Except ε σ
  | [], s => .ok s
  | x :: xs, s => step x s >>= each step xs

variable {s s' : σ} {I : σ → Prop} {step : α → σ → Except ε σ}

@[simp] theorem each_nil : each step [] s = .ok s := rfl

theorem each_cons {x : α} :
    each step (x :: xs) s = step x s >>= each step xs := rfl

theorem each_checks {P : α → Prop}
    (hstep : ∀ x ∈ xs, ∀ t, step x s = .ok t ↔ P x ∧ t = s) : each step xs s = .ok s' ↔ (∀ x ∈ xs, P x) ∧ s' = s := by
  induction xs with
  | nil =>
    rw [each_nil, Except.ok.injEq]
    exact ⟨fun h => ⟨by simp, h.symm⟩, fun h => h.2.symm⟩
  | cons x xs ih =>
    have hxs := ih (fun y hy => hstep y (List.mem_cons_of_mem _ hy))
    rw [each_cons, bind_eq_ok, List.forall_mem_cons]
    constructor
    · rintro ⟨t, ht, h⟩
      obtain ⟨hx, rfl⟩ := (hstep x List.mem_cons_self t).mp ht
      exact ⟨⟨hx, (hxs.mp h).1⟩, (hxs.mp h).2⟩
    · rintro ⟨⟨hx, h⟩, hs⟩
      exact ⟨s, (hstep x List.mem_cons_self s).mpr ⟨hx, rfl⟩, hxs.mpr ⟨h, hs⟩⟩

theorem forM_eq_ok {f : α → Except ε Unit} {u : Unit} : xs.forM f = .ok u ↔ ∀ x ∈ xs, f x = .ok () := by
  induction xs with
  | nil => exact iff_of_true rfl (by simp)
  | cons x xs ih =>
    show (f x >>= fun _ => xs.forM f) = .ok u ↔ _
    rw [bind_eq_ok, List.forall_mem_cons]
    constructor
    · rintro ⟨⟨⟩, hx, h⟩
      exact ⟨hx, ih.mp h⟩
    · rintro ⟨hx, h⟩
      exact ⟨(), hx, ih.mpr h⟩

theorem each_invariant
    (hstep : ∀ x ∈ xs, ∀ s s', I s → step x s = .ok s' → I s') (hs : I s) (h : each step xs s = .ok s') : I s' := by
  induction xs generalizing s with
  | nil =>
    cases h
    exact hs
  | cons x xs ih =>
    obtain ⟨s₁, hx, h⟩ := bind_ok h
    have hs₁ : I s₁ := hstep x List.mem_cons_self s s₁ hs hx
    exact ih (fun y hy => hstep y (List.mem_cons_of_mem _ hy)) hs₁ h

theorem each_passed (h : each step xs s = .ok s') :
    ∀ x ∈ xs, ∃ t t', step x t = .ok t' := by
  induction xs generalizing s with
  | nil => simp
  | cons x xs ih =>
    obtain ⟨s₁, hx, h⟩ := bind_ok h
    exact List.forall_mem_cons.mpr ⟨⟨s, s₁, hx⟩, ih h⟩

theorem each_appends_kept {f : σ → List β}
    (hstep : ∀ x ∈ xs, ∀ s s', I s → step x s = .ok s' → I s' ∧ ∃ y, f s' = f s ++ [y] ∧ R x y) (hs : I s)
    (h : each step xs s = .ok s') : I s' ∧ ∃ ys, f s' = f s ++ ys ∧ List.Forall₂ R xs ys := by
  induction xs generalizing s with
  | nil =>
    cases h
    exact ⟨hs, [], by simp, .nil⟩
  | cons x xs ih =>
    obtain ⟨s₁, hx, h⟩ := bind_ok h
    obtain ⟨hs₁, y, hy, hR⟩ := hstep x List.mem_cons_self s s₁ hs hx
    obtain ⟨hs', ys, hys, hRs⟩ := ih (fun z hz => hstep z (List.mem_cons_of_mem _ hz)) hs₁ h
    exact ⟨hs', y :: ys, by rw [hys, hy, List.append_assoc, List.singleton_append], .cons hR hRs⟩

theorem each_appends {f : σ → List β}
    (hstep : ∀ x ∈ xs, ∀ s s', step x s = .ok s' → ∃ y, f s' = f s ++ [y] ∧ R x y)
    (h : each step xs s = .ok s') : ∃ ys, f s' = f s ++ ys ∧ List.Forall₂ R xs ys :=
  (each_appends_kept (I := fun _ => True) (fun x hx t t' _ ht => ⟨trivial, hstep x hx t t' ht⟩) trivial h).2

theorem mapM_mono {f' : α → Except ε β} (hf : ∀ x ∈ xs, ∀ y, f x = .ok y → f' x = .ok y) {ys : List β}
    (h : xs.mapM f = .ok ys) : xs.mapM f' = .ok ys := by
  induction xs generalizing ys with
  | nil => exact h
  | cons x xs ih =>
    rw [List.mapM_cons] at h ⊢
    obtain ⟨y, hy, h⟩ := bind_ok h
    obtain ⟨zs, hzs, h⟩ := bind_ok h
    rw [hf x List.mem_cons_self y hy, ok_bind, ih (fun z hz => hf z (List.mem_cons_of_mem _ hz)) hzs, ok_bind]
    exact h

theorem mapM_enough {f : Nat → α → Except ε β} (hmono : ∀ n m x y, n ≤ m → f n x = .ok y → f m x = .ok y)
    (h : ∀ x ∈ xs, ∃ n y, f n x = .ok y) : ∃ n ys, xs.mapM (f n) = .ok ys := by
  induction xs with
  | nil => exact ⟨0, [], rfl⟩
  | cons x xs ih =>
    obtain ⟨n, y, hy⟩ := h x List.mem_cons_self
    obtain ⟨m, ys, hys⟩ := ih (fun z hz => h z (List.mem_cons_of_mem _ hz))
    refine ⟨max n m, y :: ys, ?_⟩
    rw [List.mapM_cons, hmono n _ x y (Nat.le_max_left n m) hy, ok_bind,
      mapM_mono (fun z _ w hw => hmono m _ z w (Nat.le_max_right n m) hw) hys, ok_bind]
    rfl

theorem mapM_congr {f g : α → Option β} (h : ∀ x ∈ xs, f x = g x) : xs.mapM f = xs.mapM g := by
  induction xs with
  | nil => rfl
  | cons x xs ih =>
    rw [List.mapM_cons, List.mapM_cons, h x List.mem_cons_self, ih fun y hy => h y (List.mem_cons_of_mem _ hy)]

theorem mapM_some (f : α → β) (xs : List α) : xs.mapM (fun x => some (f x)) = some (xs.map f) := List.mapM_pure

/-! Failures that cannot happen -/

section Avoids

variable {bad : ε → Prop}

/-- The computation does not fail in a bad way. -/
def Avoids (bad : ε → Prop) (x : Except ε α) : Prop := ∀ e, x = .error e → ¬ bad e

theorem avoids_ok (bad : ε → Prop) (a : α) : Avoids bad (.ok a : Except ε α) := by
  intro e h
  cases h

theorem avoids_error (h : ¬ bad e) : Avoids bad (.error e : Except ε α) := by
  intro e' h'
  cases h'
  exact h

theorem Avoids.bind {x : Except ε α} {f : α → Except ε β} (hx : Avoids bad x) (hf : ∀ a, x = .ok a → Avoids bad (f a)) :
    Avoids bad (x >>= f) := by
  cases x with
  | error e => exact avoids_error (hx e rfl)
  | ok a => exact hf a rfl

theorem avoids_guard [Decidable c] (he : ¬ bad e) (hx : ¬ c → Avoids bad x) :
    Avoids bad (if c then .error e else x) := by
  split
  · exact avoids_error he
  · exact hx ‹_›

/-- The computation does not fail in a bad way, and what it returns is good. -/
def Meets (bad : ε → Prop) (good : α → Prop) (x : Except ε α) : Prop := Avoids bad x ∧ ∀ a, x = .ok a → good a

variable {good : α → Prop} {best : β → Prop}

theorem meets_ok (h : good a) : Meets bad good (.ok a : Except ε α) := by
  refine ⟨avoids_ok bad a, fun b hb => ?_⟩
  cases hb
  exact h

theorem meets_error (h : ¬ bad e) : Meets bad good (.error e : Except ε α) := ⟨avoids_error h, nofun⟩

theorem Meets.bind {x : Except ε α} {f : α → Except ε β} (hx : Meets bad good x)
    (hf : ∀ a, x = .ok a → good a → Meets bad best (f a)) : Meets bad best (x >>= f) := by
  refine ⟨hx.1.bind (fun a ha => (hf a ha (hx.2 a ha)).1), fun b hb => ?_⟩
  obtain ⟨a, ha, hb⟩ := bind_ok hb
  exact (hf a ha (hx.2 a ha)).2 b hb

theorem Avoids.meets (hx : Avoids bad x) (hf : ∀ a, x = .ok a → Meets bad best (f a)) :
    Meets bad best (x >>= f) :=
  @Meets.bind _ _ _ bad (fun _ => True) _ _ _ ⟨hx, fun _ _ => trivial⟩ (fun a ha _ => hf a ha)

theorem meets_guard [Decidable c] (he : ¬ bad e) (hx : ¬ c → Meets bad good x) :
    Meets bad good (if c then .error e else x) := by
  split
  · exact meets_error he
  · exact hx ‹_›

theorem Meets.map {f : α → β} (hx : Meets bad good x) (hf : ∀ a, good a → best (f a)) :
    Meets bad best (x.map f) := by
  cases x with
  | error e => exact meets_error (hx.1 e rfl)
  | ok a => exact meets_ok (hf a (hx.2 a rfl))

theorem meets_each
    (hstep : ∀ x ∈ xs, ∀ s, I s → Meets bad I (step x s)) (hs : I s) : Meets bad I (each step xs s) := by
  induction xs generalizing s with
  | nil => exact meets_ok hs
  | cons x xs ih =>
    exact (hstep x List.mem_cons_self s hs).bind (fun s' _ hs' => ih (fun y hy => hstep y (List.mem_cons_of_mem _ hy)) hs')

end Avoids

end Fallible
