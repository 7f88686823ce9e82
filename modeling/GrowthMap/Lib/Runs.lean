import Mathlib.Data.List.Induction
import Mathlib.Tactic.Common

/- Runs of a step function.

   A system is a total step function on states; an event carries every choice
   the environment makes, so a run is a list of events and the state it reaches
   is a fold. Two induction rules: an invariant kept by every step holds in every
   reachable state, and an invariant kept by the steps that meet a condition
   holds along every run whose steps all meet it. -/
namespace Runs

variable {S E : Type} (step : S → E → S)

/-- The state a run of events ends in. -/
def run (s : S) (es : List E) : S := es.foldl step s

@[simp] theorem run_nil (s : S) : run step s [] = s := rfl

@[simp] theorem run_cons (s : S) (e : E) (es : List E) :
    run step s (e :: es) = run step (step s e) es := rfl

theorem run_append (s : S) (es fs : List E) :
    run step s (es ++ fs) = run step (run step s es) fs := by
  simp [run, List.foldl_append]

theorem run_snoc (s : S) (es : List E) (e : E) :
    run step s (es ++ [e]) = step (run step s es) e := by
  rw [run_append]; rfl

def Reachable (init s : S) : Prop := ∃ es, s = run step init es

variable {step}

theorem Reachable.refl (init : S) : Reachable step init init := ⟨[], rfl⟩

variable {s : S} {P : S → E → Prop} {es : List E}

theorem Reachable.next {init : S} (h : Reachable step init s) (e : E) :
    Reachable step init (step s e) := by
  obtain ⟨es, rfl⟩ := h
  exact ⟨es ++ [e], (run_snoc _ _ _ _).symm⟩

theorem Reachable.invariant {init : S} (I : S → Prop) (h0 : I init)
    (hs : ∀ s e, I s → I (step s e)) (h : Reachable step init s) : I s := by
  obtain ⟨es, rfl⟩ := h
  induction es using List.reverseRecOn with
  | nil => exact h0
  | append_singleton es e ih =>
    rw [run_snoc]
    exact hs _ _ ih

variable (step) in
/-- Every step of the run from `s` meets the condition, which may speak of the
state before the step. -/
def Along (P : S → E → Prop) : S → List E → Prop
  | _, [] => True
  | s, e :: es => P s e ∧ Along P (step s e) es

instance instDecidableAlong {P : S → E → Prop} [∀ s e, Decidable (P s e)] : ∀ s es, Decidable (Along step P s es)
  | _, [] => isTrue trivial
  | s, e :: es =>
    have : Decidable (Along step P (step s e) es) := instDecidableAlong (step s e) es
    inferInstanceAs (Decidable (P s e ∧ Along step P (step s e) es))

theorem along_append {fs : List E} :
    Along step P s (es ++ fs) ↔ Along step P s es ∧ Along step P (run step s es) fs := by
  induction es generalizing s with
  | nil => simp [Along]
  | cons e es ih => simp [Along, ih, and_assoc]

theorem Along.invariant (I : S → Prop) (hs : ∀ s e, I s → P s e → I (step s e))
    (h : Along step P s es) (h0 : I s) : I (run step s es) := by
  induction es generalizing s with
  | nil => exact h0
  | cons e es ih => exact ih h.2 (hs s e h0 h.1)

end Runs
