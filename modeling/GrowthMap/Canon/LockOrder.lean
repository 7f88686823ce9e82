import GrowthMap.Canon.Allocator

/- The seat lock against the writer slot.

   A create and an import take the seat lock and then write; a restore claims its revision,
   which writes, and then takes the seat lock. So a create that has found a seat and a
   restore that has claimed its revision wait for each other. Nothing else does: it takes
   one of each, next to each other. -/
namespace GrowthMap.Canon

open Runs

def SeatTask.wantsLock (t : SeatTask) : Bool :=
  match t.stage with
  | .arrived => t.request.seatFirst
  | .claimed .. => true
  | .loaded _ | .locked | .seated | .restoring .. | .writing .. | .committed _ | .answered _ => false

def SeatTask.wantsWriter (t : SeatTask) : Bool :=
  match t.stage with
  | .arrived => !t.request.seatFirst && t.request.target.isNone
  | .loaded _ | .seated => true
  | .locked | .claimed .. | .restoring .. | .writing .. | .committed _ | .answered _ => false

/-- One task holds the seat lock and waits for the writer slot, and another the other way round:
no task holds what it waits for. -/
def Allocator.Deadlocked (s : Allocator) : Prop :=
  ∃ t ∈ s.tasks, ∃ u ∈ s.tasks,
    t.holdsLock = true ∧ t.wantsWriter = true ∧ u.holdsWriter = true ∧ u.wantsLock = true

instance (s : Allocator) : Decidable s.Deadlocked :=
  inferInstanceAs (Decidable (∃ t ∈ s.tasks, ∃ u ∈ s.tasks, _ ∧ _ ∧ _ ∧ _))

/-- A create or an import that holds the seat lock and has not written. -/
def SeatTask.beforeWrite (t : SeatTask) : Bool :=
  match t.stage with
  | .locked | .seated => true
  | .arrived | .loaded _ | .claimed .. | .restoring .. | .writing .. | .committed _ | .answered _ => false

/-- A restore that has claimed its revision and does not hold the seat lock. -/
def SeatTask.beforeLock (t : SeatTask) : Bool :=
  match t.stage with
  | .claimed .. => true
  | .arrived | .loaded _ | .locked | .seated | .restoring .. | .writing .. | .committed _ | .answered _ => false

def SeatTask.takesLock (t : SeatTask) : Bool :=
  match t.stage with
  | .arrived => t.request.seatFirst
  | _ => false

def SeatTask.claimsToRestore (t : SeatTask) : Bool :=
  match t.stage, t.request with
  | .loaded project, .update _ _ changes => changes.restores project
  | _, _ => false

/-- No restore claims its revision while a create or an import holds the seat lock and has not written,
and none of these takes the seat lock while a restore has claimed and does not hold it. -/
def SeatMove.Orderly (s : Allocator) : SeatMove → Prop
  | .advance i _ _ => ∀ t ∈ s.tasks[i]?, ∀ u ∈ s.tasks,
      (t.claimsToRestore = true → u.beforeWrite = false) ∧ (t.takesLock = true → u.beforeLock = false)
  | .arrive _ | .fail .. => True

instance (s : Allocator) (m : SeatMove) : Decidable (m.Orderly s) := by
  cases m <;> unfold SeatMove.Orderly <;> infer_instance

section Goes

variable {seats : Option Nat} {uuid : Nat → String} {now : Int} {lockFree writerFree : Bool} {g : Graph}
  {r : SeatRequest} {stage stage' : SeatStage}

theorem SeatRequest.Goes.beforeWrite (h : r.Goes seats uuid now lockFree writerFree g stage stage')
    (hbefore : (SeatTask.mk r stage').beforeWrite = true) :
    (SeatTask.mk r stage).beforeWrite = true ∨ (SeatTask.mk r stage).takesLock = true := by
  cases h with
  | waits => exact .inl hbefore
  | locks hfirst => exact .inr hfirst
  | finds => exact .inl rfl
  | fails | loads | writes | claims | updates | deletes | creates | relocks | restores | commits | answers => cases hbefore

theorem SeatRequest.Goes.beforeLock (h : r.Goes seats uuid now lockFree writerFree g stage stage')
    (hbefore : (SeatTask.mk r stage').beforeLock = true) :
    (SeatTask.mk r stage).beforeLock = true ∨ (SeatTask.mk r stage).claimsToRestore = true := by
  cases h with
  | waits => exact .inl hbefore
  | claims hr hfree hclaim hrestores =>
    cases hr
    exact .inr hrestores
  | fails | locks | loads | writes | updates | deletes | finds | creates | relocks | restores | commits | answers => cases hbefore

end Goes

/-- No create or import is before its first write while a restore is before the lock. -/
def Allocator.Apart (s : Allocator) : Prop :=
  ∀ t ∈ s.tasks, ∀ u ∈ s.tasks, t.beforeWrite = true → u.beforeLock = true → False

variable {s : Allocator} {t : SeatTask}

theorem Allocator.Apart.step (h : s.Apart) {seats : Option Nat} {m : SeatMove} (hm : m.Orderly s) :
    (s.step seats m).Apart := by
  cases m with
  | arrive =>
    intro t ht u hu htw hul
    rcases List.mem_append.mp ht with ht | ht
    · rcases List.mem_append.mp hu with hu | hu
      · exact h t ht u hu htw hul
      · cases List.mem_singleton.mp hu
        cases hul
    · cases List.mem_singleton.mp ht
      cases htw
  | advance i =>
    simp only [Allocator.step]
    cases hi : s.tasks[i]? with
    | none => exact h
    | some old =>
      have hold := List.mem_of_getElem? hi
      intro t ht u hu htw hul
      rcases List.mem_or_eq_of_mem_set ht with ht | rfl <;> rcases List.mem_or_eq_of_mem_set hu with hu | rfl
      · exact h t ht u hu htw hul
      · -- the task that goes on would wait for the lock
        rcases old.goes.beforeLock hul with hul | hclaims
        · exact h t ht old hold htw hul
        · exact absurd htw (by rw [(hm old hi t ht).1 hclaims]; exact Bool.false_ne_true)
      · -- the task that goes on would be before its first write
        rcases old.goes.beforeWrite htw with htw | htakes
        · exact h old hold u hu htw hul
        · exact absurd hul (by rw [(hm old hi u hu).2 htakes]; exact Bool.false_ne_true)
      · rcases old.goes.beforeLock hul with hul | hclaims <;>
          rcases old.goes.beforeWrite htw with htw | htakes
        · exact h old hold old hold htw hul
        · exact absurd hul (by rw [(hm old hi old hold).2 htakes]; exact Bool.false_ne_true)
        · exact absurd htw (by rw [(hm old hi old hold).1 hclaims]; exact Bool.false_ne_true)
        · obtain ⟨r, stage⟩ := old
          cases stage with
          | arrived => cases hclaims
          | loaded _ | locked | seated | claimed _ _ | restoring _ _ | writing _ _ | committed _ | answered _ => cases htakes
  | fail i =>
    simp only [Allocator.step]
    cases hi : s.tasks[i]? with
    | none => exact h
    | some =>
      intro t ht u hu htw hul
      rcases List.mem_or_eq_of_mem_set ht with ht | rfl
      · rcases List.mem_or_eq_of_mem_set hu with hu | rfl
        · exact h t ht u hu htw hul
        · cases hul
      · cases htw

theorem SeatTask.beforeWrite_of_waits (hholds : t.holdsLock = true) (hwants : t.wantsWriter = true) :
    t.beforeWrite = true := by
  obtain ⟨r, stage⟩ := t
  cases stage with
  | seated => rfl
  | arrived | loaded => cases hholds
  | locked | claimed _ _ | restoring _ _ | writing _ _ | committed _ | answered _ => cases hwants

theorem SeatTask.beforeLock_of_waits (hholds : t.holdsWriter = true) (hwants : t.wantsLock = true) :
    t.beforeLock = true := by
  obtain ⟨r, stage⟩ := t
  cases stage with
  | claimed => rfl
  | arrived => cases hholds
  | loaded _ | locked | seated | restoring _ _ | writing _ _ | committed _ | answered _ => cases hwants

theorem Allocator.Apart.not_deadlocked (h : s.Apart) : ¬ s.Deadlocked := by
  rintro ⟨t, ht, u, hu, hlock, hwriter, hslot, hwaits⟩
  exact h t ht u hu (SeatTask.beforeWrite_of_waits hlock hwriter) (SeatTask.beforeLock_of_waits hslot hwaits)

/-- In every run in which no restore claims next to a create or an import that has yet to write, and none of
these takes the seat lock next to a restore that has yet to take it, no state is deadlocked. -/
theorem seat_allocation_never_deadlocks (seats : Option Nat) (g : Graph) (ms : List SeatMove)
    (hms : Along (Allocator.step seats) (fun s m => m.Orderly s) (.started g) ms) :
    ¬ (run (Allocator.step seats) (.started g) ms).Deadlocked := by
  have hapart : (Allocator.started g).Apart := fun t ht => nomatch ht
  exact (Along.invariant Allocator.Apart (fun _ _ hs hm => hs.step hm) hms hapart).not_deadlocked

namespace Demo

def statusAlone (i : Nat) (expectedProject : Int) (status : String) : List SeatMove :=
  [.arrive (.update "p1" expectedProject ⟨[(.status, .text status)], by simp⟩), .advance i (ids "" "") 0,
    .advance i (ids "" "") 0, .advance i (ids "" "") 0, .advance i (ids "" "") 0]

def archivedProject : List SeatMove := createAlone ++ statusAlone 1 1 "archived"

def restoreAndCreate : List SeatMove :=
  archivedProject ++ [.arrive (.update "p1" 2 ⟨[(.status, .text "active")], by simp⟩),
    .arrive (.create ⟨"orchard", "", "", .json "{}"⟩), .advance 2 (ids "" "") 0]

/-- The create takes the seat lock and finds a seat, and the restore claims its revision. -/
def crossing : List SeatMove :=
  restoreAndCreate ++ [.advance 3 (ids "p2" "n2") 0, .advance 3 (ids "p2" "n2") 0, .advance 2 (ids "" "") 0]

/-- The restore goes through, and then the create. -/
def oneAfterTheOther : List SeatMove :=
  restoreAndCreate ++ [.advance 2 (ids "" "") 0, .advance 2 (ids "" "") 0, .advance 2 (ids "" "") 0, .advance 2 (ids "" "") 0,
    .advance 2 (ids "" "") 0, .advance 3 (ids "p2" "n2") 0, .advance 3 (ids "p2" "n2") 0, .advance 3 (ids "p2" "n2") 0]

end Demo

theorem seat_allocation_never_deadlocks_sequential :
    ¬ (run (Allocator.step (some 3)) (.started .empty) Demo.oneAfterTheOther).Deadlocked :=
  seat_allocation_never_deadlocks (some 3) .empty Demo.oneAfterTheOther (by decide +kernel)

/-- The create holds the seat lock and waits for the writer slot, the restore holds the slot and waits for the lock. -/
theorem restore_deadlocks_create :
    ¬ ∀ (seats : Option Nat) (g : Graph) (ms : List SeatMove), ¬ (run (Allocator.step seats) (.started g) ms).Deadlocked := by
  intro hall
  have hdeadlocked : (run (Allocator.step (some 3)) (.started .empty) Demo.crossing).Deadlocked := by decide +kernel
  exact hall (some 3) .empty Demo.crossing hdeadlocked

end GrowthMap.Canon
