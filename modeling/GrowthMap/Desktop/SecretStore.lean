import GrowthMap.Lib.Runs

/- The stored key of a provider (secret-store.js).

   The key is in an encrypted file and in the memory of the backend. `set` and `delete` ask
   the backend first and touch the file when it has answered; where the file cannot be
   touched, the backend is asked to take back the key that was read at the beginning. What a
   call does between two awaits is one step, and other calls come in between.

   The backend is ahead of the file by the steps that calls owe (`owing`). If these are made
   in the order in which the requests were served, the two agree when all calls have ended
   (`Coherent` is the invariant). Nothing in the store keeps that order, and two calls of
   `set` can leave one key in the file and the other at the backend
   (`overlapping_sets_disagree`).

   The temporary file is not modelled: that it can be written and renamed in place is a
   choice of the event, and so is what two calls of one millisecond do to each other, which
   have one name for it. The provider is one with a valid id. -/
namespace GrowthMap.SecretStore

open Runs

abbrev Key := List Char

/-- `safeStorage`: what was encrypted can be decrypted. -/
structure SafeStorage (Blob : Type) where
  encrypt : Key → Blob
  decrypt : Blob → Option Key
  decrypt_encrypt : ∀ key, decrypt (encrypt key) = some key

def keyRequired : String := "API key is required"
def notStored : String := "API key could not be stored securely"
def notRemoved : String := "API key could not be removed securely"
def quarantined (reason : String) : String := "A stored provider key was quarantined (" ++ reason ++ "). Re-enter it in Settings."

/-- A call that waits for the backend. -/
inductive Call where
  /-- `set`, with `previous` -/
  | set (value : Key) (previous : Option Key)
  /-- `delete` where there is no file, or none that could be read -/
  | forget
  /-- `delete` of a file that was read -/
  | delete (previous : Key)
  /-- a call that could not touch the file, and what it will throw -/
  | restore (error : String) (previous : Option Key)
  deriving DecidableEq

/-- What the backend holds when it has served the call's request. -/
def Call.effect : Call → Option Key
  | .set value _ => some value
  | .forget => none
  | .delete _ => none
  | .restore _ previous => previous

/-- `previous`, of a call that is going to touch the file. -/
def Call.previous : Call → Option Key
  | .set _ previous => previous
  | .forget => none
  | .delete previous => some previous
  | .restore _ _ => none

def Call.restores : Call → Bool
  | .restore _ _ => true
  | _ => false

/-- The file, the backend, and the calls under way. -/
structure State (Blob : Type) where
  file : Option Blob
  remote : Option Key
  /-- The calls whose request is on its way. -/
  asked : List Call
  /-- The calls whose answer is on its way, in the order of the answers, and what they will
  see thrown. -/
  answered : List (Call × Option String)
  /-- What the calls that have ended have thrown. -/
  ended : List (Option String)
  warnings : List String

section Steps

variable {Blob : Type} (safe : SafeStorage Blob)

def State.ask (s : State Blob) (c : Call) : State Blob := { s with asked := s.asked ++ [c] }

def State.settle (s : State Blob) (error : Option String) : State Blob := { s with ended := s.ended ++ [error] }

/-- `quarantine`: the file is moved away or unlinked, or stays where it is. -/
def State.quarantine (s : State Blob) (reason : String) (moved : Bool) : State Blob :=
  { s with file := if moved then none else s.file, warnings := s.warnings ++ [quarantined reason] }

inductive Found where
  | absent
  | readable (key : Key)
  | unreadable

def oldValue : Option Blob → Found
  | none => .absent
  | some blob => match safe.decrypt blob with
    | some key => .readable key
    | none => .unreadable

/-- What goes wrong on the disk before `set` asks the backend. -/
structure Disk where
  /-- what `mkdirSync` throws -/
  folder : Option String
  moved : Bool
  written : Bool

/-- `set`, up to its request. -/
def beginSet (value : Key) (disk : Disk) (s : State Blob) : State Blob :=
  if value = [] ∨ '\x00' ∈ value then s.settle (some keyRequired)
  else match disk.folder with
    | some error => s.settle (some error)
    | none =>
      let (previous, s) := match oldValue safe s.file with
        | .absent => (none, s)
        | .readable key => (some key, s)
        | .unreadable => (none, s.quarantine "unreadable" disk.moved)
      if disk.written then s.ask (.set value previous) else s.settle (some notStored)

/-- `delete`, up to its request. -/
def beginDelete (moved : Bool) (s : State Blob) : State Blob :=
  match oldValue safe s.file with
  | .absent => s.ask .forget
  | .readable key => s.ask (.delete key)
  | .unreadable => (s.quarantine "unreadable" moved).ask .forget

/-- A call goes on with what its request has thrown; `done` if the file can be touched. -/
def resume (s : State Blob) (done : Bool) : Call × Option String → State Blob
  | (.set value previous, none) =>
    if done then { s with file := some (safe.encrypt value) }.settle none else s.ask (.restore notStored previous)
  | (.set _ _, some _) => s.settle (some notStored)
  | (.forget, error) => s.settle error
  | (.delete previous, none) =>
    if done && s.file.isSome then { s with file := none }.settle none else s.ask (.restore notRemoved (some previous))
  | (.delete _, some error) => s.settle (some error)
  | (.restore error _, _) => s.settle (some error)

inductive Event where
  | set (value : Key) (disk : Disk)
  | delete (moved : Bool)
  /-- The backend serves the request of the call at this place. -/
  | serve (i : Nat)
  /-- It does not. -/
  | refuse (i : Nat) (error : String)
  /-- It does, and the answer is lost. -/
  | lose (i : Nat) (error : String)
  | resume (i : Nat) (done : Bool)

def Event.begins : Event → Bool
  | .set _ _ => true
  | .delete _ => true
  | _ => false

def State.answer (s : State Blob) (i : Nat) (served : Bool) (error : Option String) : State Blob :=
  match s.asked[i]? with
  | none => s
  | some c =>
    { s with remote := if served then c.effect else s.remote, asked := s.asked.eraseIdx i,
             answered := s.answered ++ [(c, error)] }

def step (s : State Blob) : Event → State Blob
  | .set value disk => beginSet safe value disk s
  | .delete moved => beginDelete safe moved s
  | .serve i => s.answer i true none
  | .refuse i error => s.answer i false (some error)
  | .lose i error => s.answer i true (some error)
  | .resume i done => match s.answered[i]? with
    | none => s
    | some a => resume safe { s with answered := s.answered.eraseIdx i } done a

/-- The key in the file; a file that cannot be read holds none. -/
def State.key (s : State Blob) : Option Key := s.file.bind safe.decrypt

def State.Idle (s : State Blob) : Prop := s.asked = [] ∧ s.answered = []

/-! The order of the steps -/

/-- The backend has served the call, which has yet to touch the file. -/
def owes : Call × Option String → Bool
  | (.set _ _, none) => true
  | (.delete _, none) => true
  | _ => false

def State.owing (s : State Blob) : List (Call × Option String) := s.answered.filter owes

def State.restoring (s : State Blob) : List Call := s.asked.filter Call.restores

/-- The file can be touched: it can be renamed to always, and unlinked where it is. -/
def State.touches (s : State Blob) (done : Bool) : Call → Bool
  | .set _ _ => done
  | _ => done && s.file.isSome

/-- The step keeps to the order. A request is served while no key is to be restored, and one to
forget the key while no call owes a step and there is no key in the file. What is asked to
restore a key is not refused, and of the others no answer is lost. The file is touched in the
order in which requests were served; a call fails to touch it while it is the only one that
owes a step, and the file holds what the call found. -/
def orderly (s : State Blob) : Event → Bool
  | .set _ _ => true
  | .delete _ => true
  | .serve i => match s.asked[i]? with
    | none => true
    | some (.restore _ _) => true
    | some .forget => s.restoring.isEmpty && s.owing.isEmpty && decide (s.key safe = none)
    | some _ => s.restoring.isEmpty
  | .refuse i _ => !s.asked[i]?.any Call.restores
  | .lose i _ => s.asked[i]?.all Call.restores
  | .resume i done => match s.answered[i]? with
    | none => true
    | some a => !owes a ||
      if s.touches done a.1 then ((s.answered.take i).filter owes).isEmpty
      else decide (s.owing.length = 1) && decide (s.key safe = a.1.previous)

/-! Agreement -/

/-- What the file holds when the owed steps have been made. -/
def State.due (s : State Blob) : Option Key := s.owing.foldl (fun _ a => a.1.effect) (s.key safe)

/-- The backend is ahead of the file by the owed steps, or a key is to be restored. -/
def Coherent (s : State Blob) : Prop :=
  (s.restoring = [] ∧ s.remote = s.due safe) ∨ (s.owing = [] ∧ ∃ error, s.restoring = [.restore error (s.key safe)])

theorem split_at {α : Type} {l : List α} {i : Nat} {a : α} (h : l[i]? = some a) :
    ∃ post, l = l.take i ++ a :: post ∧ l.eraseIdx i = l.take i ++ post := by
  obtain ⟨hi, rfl⟩ := List.getElem?_eq_some_iff.mp h
  refine ⟨l.drop (i + 1), ?_, List.eraseIdx_eq_take_drop_succ l i⟩
  rw [← List.drop_eq_getElem_cons hi, List.take_append_drop]

theorem filter_eraseIdx {α : Type} {p : α → Bool} {l : List α} {i : Nat} {a : α} (h : l[i]? = some a) (ha : p a = false) :
    (l.eraseIdx i).filter p = l.filter p := by
  obtain ⟨post, hl, herase⟩ := split_at h
  rw [herase]
  conv_rhs => rw [hl]
  simp [ha]

variable {safe}
variable {s s' s₁ : State Blob} {i : Nat} {c : Call} {a : Call × Option String} {error : Option String}

/-- What a call does before it waits: it has found the key of the file, and leaves it. -/
structure Begun (safe : SafeStorage Blob) (s s' : State Blob) : Prop where
  key : s'.key safe = s.key safe
  file : oldValue safe s.file ≠ .unreadable → s'.file = s.file
  remote : s'.remote = s.remote
  answered : s'.answered = s.answered
  outcome : (s'.asked = s.asked ∧ ∃ error, s'.ended = s.ended ++ [some error]) ∨
    ∃ c, s'.asked = s.asked ++ [c] ∧ s'.ended = s.ended ∧ c.restores = false ∧ c.previous = s.key safe

theorem oldValue_readable {key : Key} (h : oldValue safe s.file = .readable key) : s.key safe = some key := by
  unfold oldValue at h
  split at h
  · cases h
  · next blob hfile =>
    split at h
    · next k hk =>
      cases h
      rw [State.key, hfile, Option.bind_some, hk]
    · cases h

theorem oldValue_else (h : ∀ key, oldValue safe s.file ≠ .readable key) : s.key safe = none := by
  unfold oldValue at h
  split at h
  · next hfile => rw [State.key, hfile, Option.bind_none]
  · next blob hfile =>
    split at h
    · next k hk => exact absurd rfl (h k)
    · next hk => rw [State.key, hfile, Option.bind_some, hk]

theorem key_quarantine (hkey : s.key safe = none) (reason : String) (moved : Bool) :
    (s.quarantine reason moved).key safe = s.key safe := by
  cases moved with
  | true => exact hkey.symm
  | false => rfl

theorem begun_delete (moved : Bool) : Begun safe s (beginDelete safe moved s) := by
  unfold beginDelete
  split
  · next h =>
    have hkey : s.key safe = none := oldValue_else (by simp [h])
    exact ⟨rfl, fun _ => rfl, rfl, rfl, .inr ⟨_, rfl, rfl, rfl, hkey.symm⟩⟩
  · next key h => exact ⟨rfl, fun _ => rfl, rfl, rfl, .inr ⟨_, rfl, rfl, rfl, (oldValue_readable h).symm⟩⟩
  · next h =>
    have hkey : s.key safe = none := oldValue_else (by simp [h])
    exact ⟨key_quarantine hkey "unreadable" moved, fun hne => absurd h hne, rfl, rfl, .inr ⟨_, rfl, rfl, rfl, hkey.symm⟩⟩

theorem begun_set (value : Key) (disk : Disk) : Begun safe s (beginSet safe value disk s) := by
  have hsettled : ∀ error, Begun safe s (s.settle (some error)) := fun error =>
    ⟨rfl, fun _ => rfl, rfl, rfl, .inl ⟨rfl, error, rfl⟩⟩
  unfold beginSet
  split
  · exact hsettled keyRequired
  · split
    · next error _ => exact hsettled error
    · split
      next previous t heq =>
      -- after the old file was looked at
      have hlooked : previous = s.key safe ∧ t.key safe = s.key safe ∧ (oldValue safe s.file ≠ .unreadable → t.file = s.file) ∧
          t.remote = s.remote ∧ t.answered = s.answered ∧ t.asked = s.asked ∧ t.ended = s.ended := by
        split at heq
        · next h =>
          cases heq
          exact ⟨(oldValue_else (by simp [h])).symm, rfl, fun _ => rfl, rfl, rfl, rfl, rfl⟩
        · next key h =>
          cases heq
          exact ⟨(oldValue_readable h).symm, rfl, fun _ => rfl, rfl, rfl, rfl, rfl⟩
        · next h =>
          cases heq
          have hkey : s.key safe = none := oldValue_else (by simp [h])
          exact ⟨hkey.symm, key_quarantine hkey "unreadable" disk.moved, fun hne => absurd h hne, rfl, rfl, rfl, rfl⟩
      obtain ⟨hprevious, hkey, hfile, hremote, hanswered, hasked, hended⟩ := hlooked
      split
      · exact ⟨hkey, hfile, hremote, hanswered, .inr ⟨.set value previous, congrArg (· ++ [_]) hasked, hended, rfl, hprevious⟩⟩
      · exact ⟨hkey, hfile, hremote, hanswered, .inl ⟨hasked, notStored, congrArg (· ++ [_]) hended⟩⟩

theorem Coherent.congr (h : Coherent safe s) (hkey : s'.key safe = s.key safe) (hremote : s'.remote = s.remote)
    (howing : s'.owing = s.owing) (hrestoring : s'.restoring = s.restoring) : Coherent safe s' := by
  unfold Coherent State.due at h ⊢
  rw [hkey, hremote, howing, hrestoring]
  exact h

theorem Begun.coherent (h : Begun safe s s') (hs : Coherent safe s) : Coherent safe s' := by
  refine hs.congr h.key h.remote (congrArg (List.filter owes) h.answered) ?_
  rcases h.outcome with ⟨hasked, -⟩ | ⟨c, hasked, -, hc, -⟩
  · rw [State.restoring, hasked, State.restoring]
  · rw [State.restoring, hasked, List.filter_append, State.restoring]
    simp [hc]

theorem answer_eq (hc : s.asked[i]? = some c) (served : Bool) (error : Option String) : s.answer i served error =
    { s with remote := if served then c.effect else s.remote, asked := s.asked.eraseIdx i, answered := s.answered ++ [(c, error)] } := by
  rw [State.answer, hc]

theorem Coherent.serve (hc : s.asked[i]? = some c) (hmain : c.restores = false) (hnone : s.restoring = [])
    (hforget : c = .forget → s.owing = [] ∧ s.key safe = none) : Coherent safe (s.answer i true none) := by
  rw [answer_eq hc]
  refine .inl ⟨(filter_eraseIdx hc hmain).trans hnone, ?_⟩
  show c.effect = ((s.answered ++ [(c, none)]).filter owes).foldl _ (s.key safe)
  rw [List.filter_append, List.foldl_append]
  cases c with
  | set => rfl
  | delete => rfl
  | forget =>
    obtain ⟨howing, hkey⟩ := hforget rfl
    show none = ((s.answered.filter owes).foldl _ (s.key safe))
    rw [show s.answered.filter owes = [] from howing, List.foldl_nil, hkey]
  | restore => cases hmain

theorem Coherent.restored (h : Coherent safe s) (hc : s.asked[i]? = some c) (hrestores : c.restores = true) :
    Coherent safe (s.answer i true error) := by
  obtain ⟨post, hsplit, herase⟩ := split_at hc
  have hfilter : s.restoring = (s.asked.take i).filter Call.restores ++ c :: post.filter Call.restores := by
    rw [State.restoring, hsplit, List.filter_append, List.filter_cons_of_pos hrestores, ← hsplit]
  rw [answer_eq hc]
  rcases h with ⟨hnone, -⟩ | ⟨howing, reason, hone⟩
  · rw [hfilter] at hnone
    exact absurd hnone (by simp)
  · rw [hfilter, List.append_eq_singleton_iff] at hone
    rcases hone with ⟨hpre, hcons⟩ | ⟨-, hcons⟩
    · obtain ⟨rfl, hpost⟩ := List.cons.inj hcons
      refine .inl ⟨?_, ?_⟩
      · show (s.asked.eraseIdx i).filter Call.restores = []
        rw [herase, List.filter_append, hpre, hpost, List.append_nil]
      · show s.key safe = ((s.answered ++ [(Call.restore reason (s.key safe), error)]).filter owes).foldl _ (s.key safe)
        rw [List.filter_append, show s.answered.filter owes = [] from howing]
        rfl
    · cases hcons

theorem Coherent.refuse (h : Coherent safe s) (hc : s.asked[i]? = some c) (hmain : c.restores = false) (error : String) :
    Coherent safe (s.answer i false (some error)) := by
  have howing : (s.answered ++ [(c, some error)]).filter owes = s.owing := by
    rw [List.filter_append, State.owing]
    cases c <;> simp [owes]
  rw [answer_eq hc]
  exact h.congr rfl rfl howing (filter_eraseIdx hc hmain)

theorem Coherent.touch (h : Coherent safe s) (ha : s.answered[i]? = some a) (howes : owes a = true)
    (hfirst : (s.answered.take i).filter owes = []) {file : Option Blob} (hfile : file.bind safe.decrypt = a.1.effect) :
    Coherent safe ({ s with answered := s.answered.eraseIdx i, file := file }.settle none) := by
  obtain ⟨post, hsplit, herase⟩ := split_at ha
  have howing : s.owing = a :: post.filter owes := by
    rw [State.owing, hsplit, List.filter_append, hfirst, List.nil_append, List.filter_cons_of_pos howes]
  have howing' : (s.answered.eraseIdx i).filter owes = post.filter owes := by
    rw [herase, List.filter_append, hfirst, List.nil_append]
  rcases h with ⟨hnone, hremote⟩ | ⟨hnil, -⟩
  · refine .inl ⟨hnone, ?_⟩
    rw [State.due, howing, List.foldl_cons] at hremote
    show s.remote = ((s.answered.eraseIdx i).filter owes).foldl _ (file.bind safe.decrypt)
    rw [howing', hfile]
    exact hremote
  · rw [howing] at hnil
    cases hnil

theorem Coherent.fail (h : Coherent safe s) (ha : s.answered[i]? = some a) (howes : owes a = true) (hone : s.owing.length = 1)
    {reason : String} {previous : Option Key} (hprevious : s.key safe = previous) :
    Coherent safe ({ s with answered := s.answered.eraseIdx i }.ask (.restore reason previous)) := by
  obtain ⟨post, hsplit, herase⟩ := split_at ha
  have howing : s.owing = (s.answered.take i).filter owes ++ a :: post.filter owes := by
    rw [State.owing, hsplit, List.filter_append, List.filter_cons_of_pos howes, ← hsplit]
  rw [howing, List.length_append, List.length_cons] at hone
  have hpre : (s.answered.take i).filter owes = [] := List.length_eq_zero_iff.mp (by omega)
  have hpost : post.filter owes = [] := List.length_eq_zero_iff.mp (by omega)
  rcases h with ⟨hnone, -⟩ | ⟨hnil, -⟩
  · refine .inr ⟨?_, reason, ?_⟩
    · show (s.answered.eraseIdx i).filter owes = []
      rw [herase, List.filter_append, hpre, hpost, List.append_nil]
    · show (s.asked ++ [Call.restore reason previous]).filter Call.restores = [.restore reason (s.key safe)]
      rw [List.filter_append, show s.asked.filter Call.restores = [] from hnone, hprevious]
      rfl
  · rw [howing] at hnil
    exact absurd hnil (by simp)

theorem Coherent.end (h : Coherent safe s) (ha : s.answered[i]? = some a) (howes : owes a = false) :
    Coherent safe ({ s with answered := s.answered.eraseIdx i }.settle error) :=
  h.congr rfl rfl (filter_eraseIdx ha howes) rfl

theorem Coherent.resume (h : Coherent safe s) (ha : s.answered[i]? = some a) {done : Bool}
    (hfirst : owes a = true → s.touches done a.1 = true → (s.answered.take i).filter owes = [])
    (hfail : owes a = true → s.touches done a.1 = false → s.owing.length = 1 ∧ s.key safe = a.1.previous) :
    Coherent safe (resume safe { s with answered := s.answered.eraseIdx i } done a) := by
  obtain ⟨c, thrown⟩ := a
  cases thrown with
  | none =>
    cases c with
    | set value =>
      cases done with
      | true => exact h.touch ha rfl (hfirst rfl rfl) (safe.decrypt_encrypt value)
      | false => exact h.fail ha rfl (hfail rfl rfl).1 (hfail rfl rfl).2
    | delete =>
      cases htouches : (done && s.file.isSome) with
      | true =>
        show Coherent safe (if done && s.file.isSome then _ else _)
        rw [htouches]
        exact h.touch ha rfl (hfirst rfl htouches) rfl
      | false =>
        show Coherent safe (if done && s.file.isSome then _ else _)
        rw [htouches]
        exact h.fail ha rfl (hfail rfl htouches).1 (hfail rfl htouches).2
    | forget => exact h.end ha rfl
    | restore => exact h.end ha rfl
  | some =>
    cases c with
    | set => exact h.end ha rfl
    | delete => exact h.end ha rfl
    | forget => exact h.end ha rfl
    | restore => exact h.end ha rfl

theorem answer_none (hc : s.asked[i]? = none) (served : Bool) (error : Option String) : s.answer i served error = s := by
  rw [State.answer, hc]

theorem Coherent.step (h : Coherent safe s) {e : Event} (ho : orderly safe s e = true) : Coherent safe (step safe s e) := by
  cases e with
  | set value disk => exact (begun_set value disk).coherent h
  | delete moved => exact (begun_delete moved).coherent h
  | serve i =>
    show Coherent safe (s.answer i true none)
    cases hc : s.asked[i]? with
    | none => rwa [answer_none hc]
    | some c =>
      simp only [orderly, hc] at ho
      cases c with
      | restore => exact h.restored hc rfl
      | forget =>
        simp only [Bool.and_eq_true, List.isEmpty_iff, decide_eq_true_eq] at ho
        exact Coherent.serve hc rfl ho.1.1 fun _ => ⟨ho.1.2, ho.2⟩
      | set => exact Coherent.serve hc rfl (List.isEmpty_iff.mp ho) nofun
      | delete => exact Coherent.serve hc rfl (List.isEmpty_iff.mp ho) nofun
  | refuse i error =>
    show Coherent safe (s.answer i false (some error))
    cases hc : s.asked[i]? with
    | none => rwa [answer_none hc]
    | some =>
      rw [orderly, hc] at ho
      exact h.refuse hc (by simpa using ho) error
  | lose i error =>
    show Coherent safe (s.answer i true (some error))
    cases hc : s.asked[i]? with
    | none => rwa [answer_none hc]
    | some =>
      rw [orderly, hc] at ho
      exact h.restored hc ho
  | resume i =>
    rw [SecretStore.step]
    cases ha : s.answered[i]? with
    | none => exact h
    | some =>
      simp only [orderly, ha] at ho
      refine h.resume ha (fun howes htouches => ?_) (fun howes htouches => ?_)
      · simpa [howes, htouches] using ho
      · simpa [howes, htouches] using ho

variable {es : List Event}

theorem coherent_run (h : Coherent safe s) (ho : Along (step safe) (fun s e => orderly safe s e = true) s es) :
    Coherent safe (run (step safe) s es) :=
  ho.invariant (Coherent safe) (fun _ _ hs he => hs.step he) h

theorem coherent_of_agree (hidle : s.Idle) (h : s.key safe = s.remote) : Coherent safe s := by
  refine .inl ⟨by rw [State.restoring, hidle.1, List.filter_nil], ?_⟩
  rw [State.due, State.owing, hidle.2, List.filter_nil, List.foldl_nil, h]

theorem Coherent.agree (h : Coherent safe s) (hidle : s.Idle) : s.key safe = s.remote := by
  rcases h with ⟨-, hremote⟩ | ⟨-, reason, hrestoring⟩
  · rw [hremote, State.due, State.owing, hidle.2, List.filter_nil, List.foldl_nil]
  · rw [State.restoring, hidle.1, List.filter_nil] at hrestoring
    cases hrestoring

/-! A call that is alone -/

/-- The file holds the same key, and is the same if it could be read. -/
def Kept (safe : SafeStorage Blob) (s₁ s : State Blob) : Prop :=
  s.key safe = s₁.key safe ∧ (oldValue safe s₁.file ≠ .unreadable → s.file = s₁.file)

/-- How far the call has come that began in `s₁`. -/
inductive Lone (safe : SafeStorage Blob) (s₁ s : State Blob) : Prop
  | asked (c : Call) (hasked : s.asked = [c]) (hanswered : s.answered = []) (hended : s.ended = s₁.ended) (hkept : Kept safe s₁ s)
      (hmain : c.restores = false) (hprevious : c.previous = s₁.key safe) (hremote : s.remote = s₁.remote)
  | answered (c : Call) (error : Option String) (hasked : s.asked = []) (hanswered : s.answered = [(c, error)])
      (hended : s.ended = s₁.ended) (hkept : Kept safe s₁ s) (hmain : c.restores = false) (hprevious : c.previous = s₁.key safe)
      (hremote : error ≠ none → s.remote = s₁.remote)
  | restoring (reason : String) (hasked : s.asked = [.restore reason (s₁.key safe)]) (hanswered : s.answered = [])
      (hended : s.ended = s₁.ended) (hkept : Kept safe s₁ s)
  | restored (reason : String) (previous : Option Key) (error : Option String) (hasked : s.asked = [])
      (hanswered : s.answered = [(.restore reason previous, error)]) (hended : s.ended = s₁.ended) (hkept : Kept safe s₁ s)
      (hremote : s.remote = s₁.key safe)
  | ended (thrown : Option String) (hidle : s.Idle) (hended : s.ended = s₁.ended ++ [thrown])
      (hkept : thrown ≠ none → Kept safe s₁ s ∧ s.remote = s₁.remote)

theorem Begun.lone (h : Begun safe s₁ s) (hidle : s₁.Idle) : Lone safe s₁ s := by
  rcases h.outcome with ⟨hasked, error, hended⟩ | ⟨c, hasked, hended, hmain, hprevious⟩
  · exact .ended (some error) ⟨hasked.trans hidle.1, h.answered.trans hidle.2⟩ hended fun _ => ⟨⟨h.key, h.file⟩, h.remote⟩
  · rw [hidle.1, List.nil_append] at hasked
    exact .asked c hasked (h.answered.trans hidle.2) hended ⟨h.key, h.file⟩ hmain hprevious h.remote

theorem Lone.answer (h : Lone safe s₁ s) (hc : s.asked[i]? = some c) {served : Bool}
    (hmain : c.restores = false → error ≠ none → served = false) (hrestores : c.restores = true → served = true) :
    Lone safe s₁ (s.answer i served error) := by
  have hat : ∀ {d : Call}, s.asked = [d] → i = 0 ∧ d = c := by
    intro d hd
    rw [hd, List.getElem?_singleton] at hc
    split at hc
    · next hi => exact ⟨hi, Option.some.inj hc⟩
    · cases hc
  have hnone : s.asked ≠ [] := by
    intro hnil
    rw [hnil] at hc
    cases hc
  rw [answer_eq hc]
  cases h with
  | asked d hasked hanswered hended hkept hd hprevious hremote =>
    obtain ⟨rfl, rfl⟩ := hat hasked
    refine .answered d error (by rw [hasked]; rfl) (by rw [hanswered]; rfl) hended hkept hd hprevious fun herror => ?_
    rw [hmain hd herror]
    exact hremote
  | restoring reason hasked hanswered hended hkept =>
    obtain ⟨rfl, rfl⟩ := hat hasked
    refine .restored reason (s₁.key safe) error (by rw [hasked]; rfl) (by rw [hanswered]; rfl) hended hkept ?_
    rw [hrestores rfl]
    rfl
  | answered _ _ hasked => exact absurd hasked hnone
  | restored _ _ _ hasked => exact absurd hasked hnone
  | ended _ hidle => exact absurd hidle.1 hnone

theorem Lone.resume (h : Lone safe s₁ s) (hagree : s₁.key safe = s₁.remote) (ha : s.answered[i]? = some a) (done : Bool) :
    Lone safe s₁ (resume safe { s with answered := s.answered.eraseIdx i } done a) := by
  have hat : ∀ {b : Call × Option String}, s.answered = [b] → i = 0 ∧ b = a := by
    intro b hb
    rw [hb, List.getElem?_singleton] at ha
    split at ha
    · next hi => exact ⟨hi, Option.some.inj ha⟩
    · cases ha
  have hnone : s.answered ≠ [] := by
    intro hnil
    rw [hnil] at ha
    cases ha
  cases h with
  | asked _ _ hanswered => exact absurd hanswered hnone
  | restoring _ _ hanswered => exact absurd hanswered hnone
  | ended _ hidle => exact absurd hidle.2 hnone
  | restored reason previous thrown hasked hanswered hended hkept hremote =>
    obtain ⟨rfl, rfl⟩ := hat hanswered
    exact .ended (some reason) ⟨hasked, by rw [hanswered]; rfl⟩ (congrArg (· ++ [_]) hended) fun _ => ⟨hkept, hremote.trans hagree⟩
  | answered c thrown hasked hanswered hended hkept hmain hprevious hremote =>
    obtain ⟨rfl, rfl⟩ := hat hanswered
    have herase : s.answered.eraseIdx 0 = [] := by
      rw [hanswered]
      rfl
    have hfailed : ∀ reason, thrown ≠ none →
        Lone safe s₁ ({ s with answered := s.answered.eraseIdx 0 }.settle (some reason)) := fun reason hthrown =>
      .ended (some reason) ⟨hasked, herase⟩ (congrArg (· ++ [_]) hended) fun _ => ⟨hkept, hremote hthrown⟩
    have hfile : ∀ file, Lone safe s₁ ({ s with answered := s.answered.eraseIdx 0, file := file }.settle none) := fun file =>
      .ended none ⟨hasked, herase⟩ (congrArg (· ++ [_]) hended) fun hne => absurd rfl hne
    have hrestore : ∀ reason previous, previous = s₁.key safe →
        Lone safe s₁ ({ s with answered := s.answered.eraseIdx 0 }.ask (.restore reason previous)) := by
      intro reason previous hp
      subst hp
      exact .restoring reason (by rw [State.ask, hasked]; rfl) herase hended hkept
    cases c with
    | set value previous =>
      cases thrown with
      | some => exact hfailed notStored nofun
      | none =>
        cases done with
        | true => exact hfile (some (safe.encrypt value))
        | false => exact hrestore notStored previous hprevious
    | delete previous =>
      cases thrown with
      | some error => exact hfailed error nofun
      | none =>
        show Lone safe s₁ (if done && s.file.isSome then _ else _)
        split
        · exact hfile none
        · exact hrestore notRemoved (some previous) hprevious
    | forget =>
      exact .ended thrown ⟨hasked, herase⟩ (congrArg (· ++ [_]) hended) fun hthrown => ⟨hkept, hremote hthrown⟩
    | restore => cases hmain

theorem Lone.step (h : Lone safe s₁ s) (hagree : s₁.key safe = s₁.remote) {e : Event} (hbegins : e.begins = false)
    (ho : orderly safe s e = true) : Lone safe s₁ (step safe s e) := by
  cases e with
  | set => cases hbegins
  | delete => cases hbegins
  | serve i =>
    show Lone safe s₁ (s.answer i true none)
    cases hc : s.asked[i]? with
    | none => rwa [answer_none hc]
    | some => exact h.answer hc (fun _ hne => absurd rfl hne) fun _ => rfl
  | refuse i error =>
    show Lone safe s₁ (s.answer i false (some error))
    cases hc : s.asked[i]? with
    | none => rwa [answer_none hc]
    | some c =>
      rw [orderly, hc] at ho
      have hmain : c.restores = false := by simpa using ho
      exact h.answer hc (fun _ _ => rfl) fun hrestores => absurd (hrestores.symm.trans hmain) (by simp)
  | lose i error =>
    show Lone safe s₁ (s.answer i true (some error))
    cases hc : s.asked[i]? with
    | none => rwa [answer_none hc]
    | some c =>
      rw [orderly, hc] at ho
      have hrestores : c.restores = true := ho
      exact h.answer hc (fun hmain => absurd (hrestores.symm.trans hmain) (by simp)) fun _ => rfl
  | resume i done =>
    rw [SecretStore.step]
    cases ha : s.answered[i]? with
    | none => exact h
    | some => exact h.resume hagree ha done

theorem lone_run (h : Lone safe s₁ s) (hagree : s₁.key safe = s₁.remote) (hes : ∀ e ∈ es, e.begins = false)
    (ho : Along (step safe) (fun s e => orderly safe s e = true) s es) : Lone safe s₁ (run (step safe) s es) := by
  induction es generalizing s with
  | nil => exact h
  | cons e es ih =>
    obtain ⟨he, hrest⟩ := List.forall_mem_cons.mp hes
    exact ih (h.step hagree he ho.1) hrest ho.2

def Alone : List Event → Prop
  | [] => False
  | e :: es => e.begins = true ∧ ∀ f ∈ es, f.begins = false

def Failed (s₁ s : State Blob) : Prop := s.Idle ∧ ∃ error, s.ended = s₁.ended ++ [some error]

/-- A call that failed alone has changed nothing. -/
theorem alone_kept {call : List Event} (hidle : s₁.Idle) (hagree : s₁.key safe = s₁.remote) (halone : Alone call)
    (ho : Along (step safe) (fun s e => orderly safe s e = true) s₁ call) (hfailed : Failed s₁ (run (step safe) s₁ call)) :
    Kept safe s₁ (run (step safe) s₁ call) ∧ (run (step safe) s₁ call).remote = s₁.remote := by
  cases call with
  | nil => exact absurd halone id
  | cons e =>
    obtain ⟨hbegins, hrest⟩ := halone
    have hbegun : Begun safe s₁ (step safe s₁ e) := by
      cases e with
      | set value disk => exact begun_set value disk
      | delete moved => exact begun_delete moved
      | serve => cases hbegins
      | refuse => cases hbegins
      | lose => cases hbegins
      | resume => cases hbegins
    have hlone := lone_run (hbegun.lone hidle) hagree hrest ho.2
    obtain ⟨hend, error, hended⟩ := hfailed
    rw [run_cons] at hend hended ⊢
    cases hlone with
    | asked c hasked => exact absurd (hasked.symm.trans hend.1) (List.cons_ne_nil _ _)
    | answered c thrown hasked hanswered => exact absurd (hanswered.symm.trans hend.2) (List.cons_ne_nil _ _)
    | restoring reason hasked => exact absurd (hasked.symm.trans hend.1) (List.cons_ne_nil _ _)
    | restored reason previous thrown hasked hanswered => exact absurd (hanswered.symm.trans hend.2) (List.cons_ne_nil _ _)
    | ended thrown hidle' hended' hkept =>
      have hthrown : [thrown] = [some error] := List.append_cancel_left (hended'.symm.trans hended)
      exact hkept (by simp [List.singleton_inj.mp hthrown])

end Steps

/-- **The file and the backend agree when all calls have ended**, in every run in order; and a
call that failed alone leaves the key of both, and the file, unless it was one that could not
be read. -/
theorem stores_agree {Blob : Type} (safe : SafeStorage Blob) (s₀ : State Blob) (before call : List Event) (hidle : s₀.Idle)
    (hagree : s₀.key safe = s₀.remote) (ho : Along (step safe) (fun s e => orderly safe s e = true) s₀ (before ++ call)) :
    let s₁ := run (step safe) s₀ before
    let s := run (step safe) s₁ call
    (s.Idle → s.key safe = s.remote) ∧
      (s₁.Idle → Alone call → Failed s₁ s → Kept safe s₁ s ∧ s.remote = s₁.remote) := by
  intro s₁ s
  obtain ⟨hbefore, hcall⟩ := along_append.mp ho
  have hcoherent : Coherent safe s₁ := coherent_run (coherent_of_agree hidle hagree) hbefore
  refine ⟨fun hend => (coherent_run hcoherent hcall).agree hend, fun hidle₁ halone hfailed => ?_⟩
  exact alone_kept hidle₁ (hcoherent.agree hidle₁) halone hcall hfailed

namespace Sample

/-- The storage of the store's own tests: a letter before the key. -/
def safe : SafeStorage (List Char) where
  encrypt key := 'x' :: key
  decrypt
    | 'x' :: key => some key
    | _ => none
  decrypt_encrypt _ := rfl

def empty : State (List Char) := ⟨none, none, [], [], [], []⟩

def disk : Disk := ⟨none, true, true⟩

/-- Two calls of `set`, one within the other, and both in order. -/
def before : List Event :=
  [.set ['a'] disk, .set ['b'] disk, .serve 0, .serve 0, .resume 0 true, .resume 0 true]

/-- A call of `set` that cannot rename its file. -/
def call : List Event := [.set ['c'] disk, .serve 0, .resume 0 false, .serve 0, .resume 0 true]

end Sample

/-- The key that two calls have stored in order is there after a third has failed. -/
theorem stores_agree_sample :
    let s₁ := run (step Sample.safe) Sample.empty Sample.before
    let s := run (step Sample.safe) s₁ Sample.call
    s.key Sample.safe = s.remote ∧ s.remote = some ['b'] ∧ Kept Sample.safe s₁ s := by
  have hidle : Sample.empty.Idle := ⟨rfl, rfl⟩
  obtain ⟨hagree, halone⟩ := stores_agree Sample.safe Sample.empty Sample.before Sample.call hidle rfl (by decide)
  exact ⟨hagree ⟨rfl, rfl⟩, rfl, (halone ⟨rfl, rfl⟩ ⟨rfl, by decide⟩ ⟨⟨rfl, rfl⟩, notStored, rfl⟩).1⟩

/-- Two calls of `set`, and the answer to the second comes before the answer to the first: no
step fails, and the file has the first key, the backend the second. -/
theorem overlapping_sets_disagree :
    let s := run (step Sample.safe) Sample.empty
      [.set ['a'] Sample.disk, .set ['b'] Sample.disk, .serve 0, .serve 0, .resume 1 true, .resume 0 true]
    s.Idle ∧ s.ended = [none, none] ∧ s.key Sample.safe = some ['a'] ∧ s.remote = some ['b'] ∧ s.key Sample.safe ≠ s.remote := by
  exact ⟨⟨rfl, rfl⟩, rfl, rfl, rfl, by decide⟩

end GrowthMap.SecretStore
