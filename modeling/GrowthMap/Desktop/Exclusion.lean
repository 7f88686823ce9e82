import GrowthMap.Desktop.Database

/- Whether the operations on the desktop database exclude each other.

   `offline` keeps its promise in `operation` and refuses to start while one is
   there, so the work inside `offline` is exclusive. Two pieces of work stand
   outside: the continuation of `replaceFrom`, chained to the promise after its
   `finally` has cleared `operation`, and the shutdown that follows a change of
   workspace. A run without either is exclusive (`Held` is the invariant); a run
   with one of them is not, whatever the other calls do. -/
namespace GrowthMap.Desktop

open Runs

/-- The call has begun to stop the sidecar and has not ended. -/
def Phase.inInterval : Phase → Bool
  | .choosing | .checking | .relaunching | .awaitingIdle | .done _ => false
  | _ => true

/-- A call in its interval keeps the manager busy, and no other call is in its own. -/
structure World.Exclusive (w : World) : Prop where
  busy : ∀ (i : Nat) (c : Call), w.calls[i]? = some c → c.phase.inInterval = true → w.busy = true
  apart : ∀ (i j : Nat) (c c' : Call), w.calls[i]? = some c → w.calls[j]? = some c' →
    c.phase.inInterval = true → c'.phase.inInterval = true → i = j

/-- A call in its interval is the one `operation` holds. -/
def World.Held (w : World) : Prop :=
  ∀ (i : Nat) (c : Call), w.calls[i]? = some c → c.phase.inInterval = true → w.operation = some i

variable {w : World} {c : Call}

theorem World.Held.exclusive (h : w.Held) : w.Exclusive := by
  refine ⟨?_, ?_⟩
  · intro i c hc hin
    rw [World.busy, h i c hc hin]
    rfl
  · intro i j c c' hc hc' hin hin'
    have heq : some i = some j := (h i c hc hin).symm.trans (h j c' hc' hin')
    exact Option.some.inj heq

/-- The step lets a replacement go on after `operation` has been cleared, or
begins the shutdown that follows a change of workspace. -/
def World.slips (w : World) : Event → Bool
  | .call _ => false
  | .go i o => match w.calls[i]? with
    | none => false
    | some c => !w.quit && decide (o ≠ .cancelled) && match c.phase with
      | .settled r => c.method.replaces && decide (r = .ok)
      | .relaunching | .awaitingIdle => !w.busy
      | _ => false

/-! One step -/

theorem goto_calls (w : World) (i : Nat) (p : Phase) (j : Nat) :
    (w.goto i p).calls[j]? = if i = j then (w.calls[j]?).map (fun c => { c with phase := p }) else w.calls[j]? := by
  simp only [World.goto, List.getElem?_modify]
  split <;> simp

/-- What a step of call `i` does to the calls and to `operation`. -/
structure Moved (w w' : World) (i : Nat) (p p' : Phase) : Prop where
  calls : w'.calls = (w.goto i p').calls
  operation : (w'.operation = w.operation ∧ (p'.inInterval = true → p.inInterval = true)) ∨
    (w.operation = none ∧ w'.operation = some i) ∨
    (w'.operation = none ∧ p'.inInterval = false ∧ p.inInterval = true)

theorem moved_offline (w : World) (i : Nat) (p : Phase) : ∃ p', Moved w (w.offline i) i p p' := by
  by_cases hop : w.operation.isSome = true
  · refine ⟨.done .failed, ?_⟩
    simp only [World.offline, hop, if_true]
    exact ⟨rfl, .inl ⟨rfl, by simp [Phase.inInterval]⟩⟩
  · have hnone : w.operation = none := by simpa using hop
    by_cases hrec : w.recoveryRequired = true
    · refine ⟨.done .recoveryRequired, ?_⟩
      simp only [World.offline, hop, hrec, if_true]
      exact ⟨rfl, .inl ⟨rfl, by simp [Phase.inInterval]⟩⟩
    · refine ⟨.stopping, ?_⟩
      simp only [World.offline, hop, hrec]
      exact ⟨rfl, .inr (.inl ⟨hnone, rfl⟩)⟩

theorem moved_proceed (w : World) (i : Nat) (m : Method) (p : Phase)
    (hsettled : ∀ r, p = .settled r → m.replaces = true → r ≠ .ok)
    (hidle : p = .relaunching ∨ p = .awaitingIdle → w.busy = true) : ∃ p', Moved w (w.proceed i m p) i p p' := by
  cases p with
  | checking =>
    by_cases hm : m.replaces = true
    · simp only [World.proceed, hm, if_true]
      exact moved_offline w i .checking
    · simp only [World.proceed, hm]
      exact ⟨.relaunching, rfl, .inl ⟨rfl, by simp [Phase.inInterval]⟩⟩
  | settled r =>
    have hno : ¬ (m.replaces = true ∧ r = .ok) := fun h => hsettled r rfl h.1 h.2
    simp only [World.proceed, hno, if_false]
    exact ⟨.done r, rfl, .inr (.inr ⟨rfl, rfl, rfl⟩)⟩
  | relaunching =>
    simp only [World.proceed, World.orderlyShutdown, hidle (.inl rfl), if_true]
    exact ⟨.awaitingIdle, rfl, .inl ⟨rfl, by simp [Phase.inInterval]⟩⟩
  | awaitingIdle =>
    simp only [World.proceed, World.orderlyShutdown, hidle (.inr rfl), if_true]
    exact ⟨.awaitingIdle, rfl, .inl ⟨rfl, by simp [Phase.inInterval]⟩⟩
  | installing at_ => cases at_ <;> exact ⟨_, rfl, .inl ⟨rfl, fun _ => rfl⟩⟩
  | choosing => exact ⟨.checking, rfl, .inl ⟨rfl, by simp [Phase.inInterval]⟩⟩
  | done r => exact ⟨.done r, rfl, .inl ⟨rfl, by simp [Phase.inInterval]⟩⟩
  | _ => exact ⟨_, rfl, .inl ⟨rfl, fun _ => rfl⟩⟩

theorem moved_recoil (w : World) (i : Nat) (lost : Bool) (p : Phase) (hp : p.fallible = true) :
    ∃ p', Moved w (w.recoil i lost p) i p p' := by
  cases p with
  | choosing => exact ⟨.done .failed, rfl, .inl ⟨rfl, by simp [Phase.inInterval]⟩⟩
  | checking => exact ⟨.done .failed, rfl, .inl ⟨rfl, by simp [Phase.inInterval]⟩⟩
  | settled => cases hp
  | relaunching => cases hp
  | awaitingIdle => cases hp
  | shuttingDown => cases hp
  | done => cases hp
  | backingUp => cases lost <;> exact ⟨_, rfl, .inl ⟨rfl, fun _ => rfl⟩⟩
  | savingRollback => cases lost <;> exact ⟨_, rfl, .inl ⟨rfl, fun _ => rfl⟩⟩
  | installing at_ => cases at_ <;> cases lost <;> exact ⟨_, rfl, .inl ⟨rfl, fun _ => rfl⟩⟩
  | _ => exact ⟨_, rfl, .inl ⟨rfl, fun _ => rfl⟩⟩

/-- A step of one call keeps `operation` with the call in its interval. -/
theorem Moved.held {w w' : World} {i : Nat} {c : Call} {p' : Phase} (h : Moved w w' i c.phase p')
    (hc : w.calls[i]? = some c) (hw : w.Held) : w'.Held := by
  intro j d hd hin
  rw [h.calls, goto_calls] at hd
  obtain ⟨hsame, hmono⟩ | ⟨hnone, hnew⟩ | ⟨hnone, hout, hold⟩ := h.operation
  · rw [hsame]
    by_cases hij : i = j
    · subst hij
      rw [if_pos rfl, hc] at hd
      cases hd
      exact hw i c hc (hmono hin)
    · rw [if_neg hij] at hd
      exact hw j d hd hin
  · by_cases hij : i = j
    · rw [hnew, hij]
    · rw [if_neg hij] at hd
      rw [hw j d hd hin] at hnone
      cases hnone
  · by_cases hij : i = j
    · subst hij
      rw [if_pos rfl, hc] at hd
      cases hd
      rw [hout] at hin
      cases hin
    · -- the other call would hold `operation`, which call `i` holds
      rw [if_neg hij] at hd
      have heq : some i = some j := (hw i c hc hold).symm.trans (hw j d hd hin)
      exact absurd (Option.some.inj heq) hij

theorem held_append (hw : w.Held) (hc : c.phase.inInterval = false) :
    World.Held { w with calls := w.calls ++ [c] } := by
  intro j d hd hin
  rw [List.getElem?_append] at hd
  split at hd
  · exact hw j d hd hin
  · rw [List.getElem?_singleton] at hd
    split at hd
    · cases hd
      rw [hc] at hin
      cases hin
    · cases hd

theorem held_receive (m : Method) (hw : w.Held) : (w.receive m).Held := by
  simp only [World.receive]
  split
  · exact hw
  · split
    · exact held_append hw rfl
    · have happend : World.Held { w with calls := w.calls ++ [⟨m, .choosing⟩] } := held_append hw rfl
      cases m with
      | backup =>
        obtain ⟨p', hmoved⟩ := moved_offline { w with calls := w.calls ++ [⟨.backup, .choosing⟩] } w.calls.length .choosing
        exact @Moved.held _ _ _ ⟨.backup, .choosing⟩ _ hmoved (by simp) happend
      | importDatabase => exact happend
      | restore => exact happend
      | chooseWorkspace => exact happend

/-- Away from the two slips, a call in its interval is always the one `operation` holds. -/
theorem held_step {e : Event} (hw : w.Held) (hslip : w.slips e = false) : (w.step e).Held := by
  by_cases hquit : w.quit = true
  · simpa [World.step, hquit] using hw
  cases e with
  | call m => simpa [World.step, hquit] using held_receive m hw
  | go i o =>
    cases hc : w.calls[i]? with
    | none => simpa [World.step, hquit, hc] using hw
    | some c =>
      simp only [World.step, hquit, hc, World.advance, Bool.false_eq_true, if_false]
      by_cases hcancel : o = .cancelled
      · simp only [hcancel, if_true]
        split
        · exact @Moved.held _ _ i c (.done .ok) ⟨rfl, .inl ⟨rfl, by simp [Phase.inInterval]⟩⟩ hc hw
        · exact hw
      · simp only [hcancel, if_false]
        split
        · rename_i hfails
          have hfallible : c.phase.fallible = true := (Bool.and_eq_true_iff.mp hfails).1
          obtain ⟨p', hmoved⟩ := moved_recoil w i (decide (o = .lost)) c.phase hfallible
          exact hmoved.held hc hw
        · obtain ⟨p', hmoved⟩ := moved_proceed w i c.method c.phase (by
            rintro r hr hm rfl
            simp [World.slips, hc, hquit, hcancel, hr, hm] at hslip) (by
            rintro (hp | hp)
            all_goals simpa [World.slips, hc, hquit, hcancel, hp] using hslip)
          exact hmoved.held hc hw

theorem goto_phase {i : Nat} (p : Phase) (hc : w.calls[i]? = some c) :
    (w.goto i p).calls[i]? = some ⟨c.method, p⟩ := by
  rw [goto_calls, if_pos rfl, hc]
  rfl

theorem not_exclusive_shutdown {i : Nat} (hc : w.calls[i]? = some c) (hidle : w.busy = false) :
    ¬ (w.orderlyShutdown i).Exclusive := by
  intro hex
  simp only [World.orderlyShutdown, hidle, Bool.false_eq_true, if_false] at hex
  have hbusy : w.busy = true := hex.busy i ⟨c.method, .shuttingDown⟩ (goto_phase .shuttingDown hc) rfl
  rw [hidle] at hbusy
  cases hbusy

/-- A slip leaves a call in its interval under a manager that is not busy. -/
theorem not_exclusive_of_slips {e : Event} (hslip : w.slips e = true) : ¬ (w.step e).Exclusive := by
  cases e with
  | call => cases hslip
  | go i o =>
    cases hc : w.calls[i]? with
    | none => simp [World.slips, hc] at hslip
    | some c =>
      simp only [World.slips, hc, Bool.and_eq_true, Bool.not_eq_true', decide_eq_true_eq] at hslip
      obtain ⟨⟨hquit, hcancel⟩, hslip⟩ := hslip
      have hgoes : c.phase.fallible = false → w.step (.go i o) = w.proceed i c.method c.phase := by
        intro hf
        simp [World.step, hquit, hc, World.advance, hcancel, World.failsAt, hf]
      cases hp : c.phase with
      | settled =>
        simp only [hp, Bool.and_eq_true, decide_eq_true_eq] at hslip
        rw [hgoes (by rw [hp]; rfl), hp]
        simp only [World.proceed, hslip, and_self, if_true]
        intro hex
        have hbusy := hex.busy i ⟨c.method, .validating⟩ (goto_phase .validating hc) rfl
        cases hbusy
      | relaunching =>
        rw [hgoes (by rw [hp]; rfl), hp]
        exact not_exclusive_shutdown hc (by simpa [hp] using hslip)
      | awaitingIdle =>
        rw [hgoes (by rw [hp]; rfl), hp]
        exact not_exclusive_shutdown hc (by simpa [hp] using hslip)
      | _ => simp [hp] at hslip

/-! Runs -/

theorem held_start (d : DataFolder) : (World.start d).Held := by
  intro i c hc
  simp [World.start] at hc

/-- The operations of a run exclude each other, in every state it goes through,
exactly when none of its steps slips. -/
theorem operations_exclusive (d : DataFolder) (es : List Event) :
    (∀ pre, pre <+: es → (run World.step (World.start d) pre).Exclusive) ↔
      Along World.step (fun w e => w.slips e = false) (World.start d) es := by
  refine ⟨?_, ?_⟩
  · intro h
    induction es using List.reverseRecOn with
    | nil => trivial
    | append_singleton es e ih =>
      refine along_append.mpr ⟨ih (fun pre hpre => h pre (hpre.trans (List.prefix_append _ _))), ?_, trivial⟩
      have hlast := h (es ++ [e]) (List.prefix_refl _)
      rw [run_snoc] at hlast
      by_contra hslip
      exact not_exclusive_of_slips (by simpa using hslip) hlast
  · rintro h pre ⟨post, rfl⟩
    have hpre := (along_append.mp h).1
    exact (hpre.invariant World.Held (fun w e hw hs => held_step hw hs) (held_start d)).exclusive

/-- An import goes on to the final validation of the database it has installed,
and a backup comes in. -/
def backupDuringImport : List Event :=
  .call .importDatabase :: List.replicate 12 (.go 0 .ok) ++ [.call .backup]

/-- The manager takes the backup: both calls are in their intervals at once. -/
theorem backup_joins_import :
    ¬ ∀ pre, pre <+: backupDuringImport → (run World.step (World.start soundFolder) pre).Exclusive := by
  intro h
  have hend := h backupDuringImport (List.prefix_refl _)
  have himport : (run World.step (World.start soundFolder) backupDuringImport).calls[0]? =
      some ⟨.importDatabase, .validating⟩ := by decide
  have hbackup : (run World.step (World.start soundFolder) backupDuringImport).calls[1]? =
      some ⟨.backup, .stopping⟩ := by decide
  exact absurd (hend.apart 0 1 _ _ himport hbackup rfl rfl) (by decide)

end GrowthMap.Desktop
