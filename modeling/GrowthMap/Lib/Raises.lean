import Mathlib.Tactic.Common

/- Programs whose calls may raise.

   A program runs over a state and a plan of faults: each call takes the next entry of the plan,
   which says whether it raises instead of taking effect. What was done before a raise stays done.
   A triple says what holds of the state after a value and what holds after a raise, for every plan. -/
namespace Raises

structure Machine (σ : Type) where
  state : σ
  faults : List Bool

def Prog (ε σ α : Type) : Type := Machine σ → Except ε α × Machine σ

variable {ε σ α β : Type}

instance : Monad (Prog ε σ) where
  pure a := fun m => (.ok a, m)
  bind x f := fun m =>
    match x m with
    | (.ok a, m') => f a m'
    | (.error e, m') => (.error e, m')

instance : MonadExcept ε (Prog ε σ) where
  throw e := fun m => (.error e, m)
  tryCatch x h := fun m =>
    match x m with
    | (.ok a, m') => (.ok a, m')
    | (.error e, m') => h e m'

/-- A call: it raises `e` when the plan says so, else it does what `f` says. -/
def call (e : ε) (f : σ → Except ε (α × σ)) : Prog ε σ α := fun m =>
  let m' : Machine σ := { m with faults := m.faults.tail }
  if m.faults.head? = some true then (.error e, m')
  else match f m.state with
    | .ok (a, s) => (.ok a, { m' with state := s })
    | .error e' => (.error e', m')

/-- A call that only looks. -/
def look (e : ε) (f : σ → Except ε α) : Prog ε σ α := call e (fun s => (f s).map (fun a => (a, s)))

/-- A check of the program itself. -/
def refuse (c : Prop) [Decidable c] (e : ε) : Prog ε σ Unit := if c then throw e else pure ()

/-! Triples -/

def After (Q : α → σ → Prop) (E : ε → σ → Prop) : Except ε α × Machine σ → Prop
  | (.ok a, m) => Q a m.state
  | (.error e, m) => E e m.state

def Triple (P : σ → Prop) (x : Prog ε σ α) (Q : α → σ → Prop) (E : ε → σ → Prop) : Prop :=
  ∀ m, P m.state → After Q E (x m)

variable {P : σ → Prop} {Q : α → σ → Prop} {E : ε → σ → Prop} {x : Prog ε σ α}

theorem Triple.pure {a : α} (h : ∀ s, P s → Q a s) : Triple P (Pure.pure a : Prog ε σ α) Q E := fun m hm => h m.state hm

variable {e : ε}

theorem Triple.throw (h : ∀ s, P s → E e s) : Triple P (MonadExcept.throw e : Prog ε σ α) Q E :=
  fun m hm => h m.state hm

theorem Triple.bind {f : α → Prog ε σ β} {R : α → σ → Prop} {Q : β → σ → Prop} (hx : Triple P x R E)
    (hf : ∀ a, Triple (R a) (f a) Q E) : Triple P (x >>= f) Q E := by
  intro m hm
  have hafter := hx m hm
  show After Q E (match x m with | (.ok a, m') => f a m' | (.error e, m') => (.error e, m'))
  cases hr : x m with
  | mk r m' =>
    rw [hr] at hafter
    cases r with
    | ok a => exact hf a m' hafter
    | error => exact hafter

theorem Triple.catch {h : ε → Prog ε σ α} {R : ε → σ → Prop} (hx : Triple P x Q R) (hh : ∀ e, Triple (R e) (h e) Q E) :
    Triple P (tryCatch x h) Q E := by
  intro m hm
  have hafter := hx m hm
  show After Q E (match x m with | (.ok a, m') => (.ok a, m') | (.error e, m') => h e m')
  cases hr : x m with
  | mk r m' =>
    rw [hr] at hafter
    cases r with
    | ok => exact hafter
    | error e => exact hh e m' hafter

theorem Triple.weaken {P' : σ → Prop} {Q' : α → σ → Prop} {E' : ε → σ → Prop} (h : Triple P' x Q' E')
    (hP : ∀ s, P s → P' s) (hQ : ∀ a s, Q' a s → Q a s) (hE : ∀ e s, E' e s → E e s) : Triple P x Q E := by
  intro m hm
  have hafter := h m (hP _ hm)
  cases hr : x m with
  | mk r =>
    rw [hr] at hafter
    cases r with
    | ok a => exact hQ a _ hafter
    | error e => exact hE e _ hafter

theorem Triple.call {f : σ → Except ε (α × σ)} (hfault : ∀ s, P s → E e s)
    (hok : ∀ s a s', P s → f s = .ok (a, s') → Q a s') (herror : ∀ s e', P s → f s = .error e' → E e' s) :
    Triple P (call e f) Q E := by
  intro m hm
  unfold Raises.call
  split
  · exact hfault _ hm
  · split
    · next a s' hf => exact hok _ a s' hm hf
    · next e' hf => exact herror _ e' hm hf

theorem Triple.refuse {c : Prop} [Decidable c] {Q : Unit → σ → Prop} (hraise : ∀ s, c → P s → E e s)
    (hpass : ∀ s, ¬ c → P s → Q () s) : Triple P (refuse c e) Q E := by
  intro m hm
  by_cases hc : c
  · rw [Raises.refuse, if_pos hc]
    exact hraise _ hc hm
  · rw [Raises.refuse, if_neg hc]
    exact hpass _ hc hm

/-! Programs that only look -/

/-- The state stays, and a value tells something of it. -/
def Looks (x : Prog ε σ α) (F : α → σ → Prop) : Prop :=
  ∀ P : σ → Prop, Triple P x (fun a s => P s ∧ F a s) (fun _ s => P s)

variable {F : α → σ → Prop}

theorem Looks.pure {a : α} (h : ∀ s, F a s) : Looks (Pure.pure a : Prog ε σ α) F :=
  fun _ => Triple.pure (fun s hs => ⟨hs, h s⟩)

theorem Looks.bind {f : α → Prog ε σ β} {G : β → σ → Prop} (hx : Looks x F)
    (hf : ∀ a, Looks (f a) (fun b s => F a s → G b s)) : Looks (x >>= f) G := by
  intro P
  refine Triple.bind (hx P) (fun a => ?_)
  refine (hf a (fun s => P s ∧ F a s)).weaken (fun s hs => hs) ?_ ?_
  · rintro b s ⟨⟨hs, ha⟩, hb⟩
    exact ⟨hs, hb ha⟩
  · rintro e s ⟨hs, -⟩
    exact hs

theorem Looks.look {f : σ → Except ε α} (h : ∀ s a, f s = .ok a → F a s) : Looks (look e f) F := by
  intro P
  refine Triple.call (fun s hs => hs) (fun s a s' hs hf => ?_) (fun s _ hs _ => hs)
  cases hfs : f s with
  | error =>
    rw [hfs] at hf
    cases hf
  | ok =>
    rw [hfs] at hf
    cases hf
    exact ⟨hs, h s a hfs⟩

theorem Looks.refuse {c : Prop} [Decidable c] : Looks (refuse c e : Prog ε σ Unit) (fun _ _ => ¬ c) :=
  fun _ => Triple.refuse (fun _ _ hs => hs) (fun _ hc hs => ⟨hs, hc⟩)

theorem Looks.triple {I : σ → Prop} (h : Looks x F) (hP : ∀ s, P s → I s) (hQ : ∀ a s, I s → F a s → Q a s)
    (hE : ∀ e s, I s → E e s) : Triple P x Q E :=
  (h I).weaken hP (fun a s hs => hQ a s hs.1 hs.2) hE

end Raises
