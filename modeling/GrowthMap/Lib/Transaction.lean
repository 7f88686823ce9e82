import Mathlib.Tactic.Common

/- Transactions on an autocommit connection.

   `Prog W E α` is a program over a world `W` that returns or raises and keeps
   what it did to the world either way; `Conn` is a connection whose statements
   go to the open transaction's working copy, or straight to the committed
   contents when no transaction is open. `Verdict` is what a transaction body
   decides from the contents it saw: commit and return, commit and raise, leave
   everything as it was and return, or raise. -/
namespace Transaction

/-- What a transaction body decides. -/
inductive Verdict (L E α : Type) where
  | commit (l : L) (a : α)
  | commitRaise (l : L) (e : E)
  | leave (a : α)
  | raise (e : E)

/-- The contents the body commits. -/
def Verdict.committed {L E α : Type} : Verdict L E α → Option L
  | .commit l _ | .commitRaise l _ => some l
  | .leave _ | .raise _ => none

/-- The exception that ends the body with nothing committed. -/
def Verdict.raised {L E α : Type} : Verdict L E α → Option E
  | .raise e => some e
  | .commit _ _ | .commitRaise _ _ | .leave _ => none

/-- The verdict without what it returns. -/
def Verdict.void {L E α : Type} : Verdict L E α → Verdict L E Unit
  | .commit l _ => .commit l ()
  | .commitRaise l e => .commitRaise l e
  | .leave _ => .leave ()
  | .raise e => .raise e

variable {L E α : Type}

@[simp] theorem Verdict.void_committed (v : Verdict L E α) :
    v.void.committed = v.committed := by
  cases v <;> rfl

@[simp] theorem Verdict.void_raised (v : Verdict L E α) : v.void.raised = v.raised := by
  cases v <;> rfl

/-- A connection: committed contents, and the working copy of an open transaction. -/
structure Conn (L : Type) where
  committed : L
  working : Option L

namespace Conn

variable {L : Type}

/-- What a statement of this connection sees. -/
def current (c : Conn L) : L := c.working.getD c.committed

def begin (c : Conn L) : Conn L := { c with working := some c.current }

/-- A statement: on the working copy, or committed at once outside a transaction. -/
def exec (f : L → L) (c : Conn L) : Conn L :=
  match c.working with
  | some w => { c with working := some (f w) }
  | none => { c with committed := f c.committed }

def commit (c : Conn L) : Conn L := ⟨c.current, none⟩

def rollback (c : Conn L) : Conn L := { c with working := none }

@[simp] theorem current_closed (l : L) : (⟨l, none⟩ : Conn L).current = l := rfl
@[simp] theorem current_open (l w : L) : (⟨l, some w⟩ : Conn L).current = w := rfl
@[simp] theorem exec_open (f : L → L) (l w : L) : exec f ⟨l, some w⟩ = ⟨l, some (f w)⟩ := rfl
@[simp] theorem exec_closed (f : L → L) (l : L) : exec f ⟨l, none⟩ = ⟨f l, none⟩ := rfl
@[simp] theorem rollback_eq (c : Conn L) : c.rollback = ⟨c.committed, none⟩ := rfl

end Conn

/-- A program that returns or raises; the world keeps its changes either way. -/
def Prog (W E α : Type) : Type := W → Except E α × W

namespace Prog

variable {W E α β : Type}

def pure (a : α) : Prog W E α := fun w => (.ok a, w)

def bind (p : Prog W E α) (f : α → Prog W E β) : Prog W E β := fun w =>
  match p w with
  | (.ok a, w') => f a w'
  | (.error e, w') => (.error e, w')

def raise (e : E) : Prog W E α := fun w => (.error e, w)

/-- `try p except e: h e`. -/
def tryCatch (p : Prog W E α) (h : E → Prog W E α) : Prog W E α := fun w =>
  match p w with
  | (.ok a, w') => (.ok a, w')
  | (.error e, w') => h e w'

instance : Monad (Prog W E) where
  pure := Prog.pure
  bind := Prog.bind

instance : MonadExceptOf E (Prog W E) where
  throw := Prog.raise
  tryCatch := Prog.tryCatch

@[simp] theorem pure_apply (a : α) (w : W) : (Pure.pure a : Prog W E α) w = (.ok a, w) := rfl

@[simp] theorem throw_apply (e : E) (w : W) :
    (throw e : Prog W E α) w = (.error e, w) := rfl

theorem bind_apply (p : Prog W E α) (f : α → Prog W E β) (w : W) :
    (p >>= f) w = match p w with
      | (.ok a, w') => f a w'
      | (.error e, w') => (.error e, w') := rfl

variable {p : Prog W E α} {f : α → Prog W E β} {I : W → Prop}

theorem bind_eq_ok {w w' : W} {b : β} :
    (p >>= f) w = (.ok b, w') ↔ ∃ a w₁, p w = (.ok a, w₁) ∧ f a w₁ = (.ok b, w') := by
  rw [bind_apply]
  constructor
  · intro h
    split at h
    · rename_i a w₁ heq
      exact ⟨a, w₁, heq, h⟩
    · cases h
  · rintro ⟨a, w₁, hp, hf⟩
    rw [hp]
    exact hf

theorem tryCatch_apply (p : Prog W E α) (h : E → Prog W E α) (w : W) :
    tryCatch p h w = match p w with
      | (.ok a, w') => (.ok a, w')
      | (.error e, w') => h e w' := rfl

/-- Wherever the program starts in `I`, it ends in `I`, returning or raising. -/
def Keeps (I : W → Prop) (p : Prog W E α) : Prop := ∀ w, I w → I (p w).2

theorem keeps_pure (a : α) : Keeps I (Pure.pure a : Prog W E α) :=
  fun _ h => h

theorem keeps_throw (e : E) : Keeps I (throw e : Prog W E α) :=
  fun _ h => h

theorem keeps_bind (hp : Keeps I p) (hf : ∀ a, Keeps I (f a)) : Keeps I (p >>= f) := by
  intro w hw
  rw [bind_apply]
  have h1 := hp w hw
  split
  · rename_i a w' heq
    rw [heq] at h1
    exact hf a w' h1
  · rename_i e w' heq
    rw [heq] at h1
    exact h1

theorem keeps_tryCatch {h : E → Prog W E α}
    (hp : Keeps I p) (hh : ∀ e, Keeps I (h e)) : Keeps I (tryCatch p h) := by
  intro w hw
  rw [tryCatch_apply]
  have h1 := hp w hw
  split
  · rename_i a w' heq
    rw [heq] at h1
    exact h1
  · rename_i e w' heq
    rw [heq] at h1
    exact hh e w' h1

end Prog
end Transaction
