import GrowthMap.Desktop.Database
import GrowthMap.Lib.Raises
import Mathlib.Logic.Function.Basic

/- The installation of a database, call by call (`install_database` of database_maintenance.py).

   The names are those that database-manager.js hands over: the live database, the staging file,
   and the old, captured and failed names of one call. Every call of the file system takes full
   effect or raises; only the backup of SQLite may leave a torn copy behind. What SQLite and the
   checks make of the bytes of a file is a parameter. -/
namespace GrowthMap.Desktop.Install

open Raises

/-- A file: its bytes, its identity, and whether it is a regular file with one link. -/
structure Entry (β : Type) where
  bytes : β
  device : Nat
  inode : Nat
  regular : Bool

abbrev Disk (β : Type) := Name → Option (Entry β)

/-- What the bytes of a database say. -/
structure Sqlite (β : Type) where
  size : β → Nat
  hasHeader : β → Bool
  /-- `_validate_connection`: the number of active projects, or what is wrong -/
  validate : β → Except String Nat
  sha256 : β → String
  /-- what a backup writes -/
  backup : β → β
  /-- what is there of a backup that stops half way -/
  torn : β → β
  /-- `MAX_BYTES` -/
  maxBytes : Nat
  /-- the identity of the file a backup makes -/
  device : Nat
  inode : Nat

inductive Raised where
  | os
  | value (message : String)
  /-- a RuntimeError that asks for recovery -/
  | recovery (message : String)
  deriving DecidableEq, Repr

structure Stat where
  size : Nat
  device : Nat
  inode : Nat
  deriving DecidableEq, Repr

/-- `_identity(stat)["meaningful"]` -/
def Stat.meaningful (s : Stat) : Bool := decide (s.device ≠ 0 ∨ s.inode ≠ 0)

def Stat.changed (before now : Stat) : Bool :=
  before.meaningful && decide ((now.device, now.inode) ≠ (before.device, before.inode))

/-- What a validation finds. -/
structure Found where
  size : Nat
  sha256 : String
  activeProjects : Nat
  deriving DecidableEq, Repr

structure Captured where
  found : Found
  sourceSha256 : String
  sourceSize : Nat
  deriving DecidableEq, Repr

/-- The environment of the call. -/
structure Request where
  expectedSha256 : Option String
  expectedSize : Nat
  expectedDevice : Nat
  expectedInode : Nat
  maximum : Option Nat
  deriving DecidableEq, Repr

structure Installed where
  found : Found
  identity : Stat
  old : Name
  deriving DecidableEq, Repr

section Program

variable {β : Type} (q : Sqlite β)

/-! Calls -/

/-- `_safe_parent`, or another look that may fail -/
def safeParent : Prog Raised (Disk β) Unit := look .os (fun _ => .ok ())

/-- `Path.exists` -/
def isThere (n : Name) : Prog Raised (Disk β) Bool := look .os (fun d => .ok (d n).isSome)

def readBytes (n : Name) : Prog Raised (Disk β) β :=
  look .os (fun d => match d n with
    | none => .error .os
    | some e => .ok e.bytes)

/-- `_regular_file` -/
def regularFile (n : Name) : Prog Raised (Disk β) Stat :=
  look .os (fun d => match d n with
    | none => .error .os
    | some e =>
      if !e.regular then .error (.value "database must be a single-link regular file")
      else if q.size e.bytes < 100 ∨ q.maxBytes < q.size e.bytes then .error (.value "database size is outside limits")
      else if !q.hasHeader e.bytes then .error (.value "not a SQLite database")
      else .ok ⟨q.size e.bytes, e.device, e.inode⟩)

/-- `os.replace` -/
def replace (a b : Name) : Prog Raised (Disk β) Unit :=
  call .os (fun d => match d a with
    | none => .error .os
    | some e => .ok ((), Function.update (Function.update d a none) b (some e)))

/-- `Path.unlink(missing_ok=True)` -/
def unlink (n : Name) : Prog Raised (Disk β) Unit := call .os (fun d => .ok ((), Function.update d n none))

/-- `_durability` -/
def durability (n : Name) : Prog Raised (Disk β) Unit :=
  look .os (fun d => if (d n).isSome then .ok () else .error .os)

/-- A part of a backup: `written` says what of the source it leaves in the copy. -/
def copy (written : β → β) (source dest : Name) : Prog Raised (Disk β) Unit :=
  call .os (fun d => match d source with
    | none => .error .os
    | some e => .ok ((), Function.update d dest (some ⟨written e.bytes, q.device, q.inode, true⟩)))

/-! Validation -/

/-- `_open_validated` -/
def openValidated (n : Name) : Prog Raised (Disk β) Found := do
  let stat ← regularFile q n
  let activeProjects ← look .os (fun d => match d n with
    | none => .error .os
    | some e => match q.validate e.bytes with
      | .error message => .error (.value message)
      | .ok k => .ok k)
  let bytes ← readBytes n
  return ⟨stat.size, q.sha256 bytes, activeProjects⟩

/-- `stable_validate` -/
def stableValidate (n : Name) : Prog Raised (Disk β) Found := do
  let before ← regularFile q n
  let found ← openValidated q n
  let after ← regularFile q n
  let bytes ← readBytes n
  refuse (before ≠ after ∨ found.size ≠ after.size ∨ found.sha256 ≠ q.sha256 bytes)
    (.value "database changed during stable validation")
  let final ← regularFile q n
  refuse (after ≠ final) (.value "database changed during stable validation")
  return found

/-! The snapshot -/

/-- The `try` of `validated_snapshot` -/
def capture (source dest : Name) (sourceFound : Found) : Prog Raised (Disk β) Captured := do
  copy q q.torn source dest
  copy q q.backup source dest
  let after ← regularFile q source
  let bytes ← readBytes source
  refuse (after.size ≠ sourceFound.size ∨ q.sha256 bytes ≠ sourceFound.sha256) (.value "snapshot source changed during capture")
  durability dest
  let final ← openValidated q dest
  return ⟨final, sourceFound.sha256, sourceFound.size⟩

/-- The `except` of `validated_snapshot` -/
def discard (dest : Name) (e : Raised) : Prog Raised (Disk β) Captured := do
  tryCatch (unlink dest) (fun _ => throw (.recovery "snapshot cleanup failed; recovery required"))
  throw e

/-- `validated_snapshot` -/
def validatedSnapshot (source dest : Name) : Prog Raised (Disk β) Captured := do
  safeParent
  let there ← isThere dest
  refuse (there = true) (.value "snapshot destination already exists")
  let sourceFound ← openValidated q source
  safeParent
  tryCatch (capture q source dest sourceFound) (discard dest)

/-! The installation -/

/-- What `install_database` does before the live database is moved. -/
def prepare (r : Request) (i : Nat) : Prog Raised (Disk β) (Stat × Found) := do
  safeParent
  let oldThere ← isThere (.old i)
  let capturedThere ← isThere (.capture i)
  refuse (oldThere = true ∨ capturedThere = true) (.value "replacement destination already exists")
  let sourceStat ← regularFile q (.staging i)
  refuse (sourceStat.meaningful = true ∧ (sourceStat.device, sourceStat.inode) ≠ (r.expectedDevice, r.expectedInode))
    (.value "staging identity changed before install")
  let captured ← validatedSnapshot q (.staging i) (.capture i)
  let after ← regularFile q (.staging i)
  refuse (sourceStat.changed after = true) (.value "staging identity changed during capture")
  let capturedStat ← regularFile q (.capture i)
  let beforeInstall ← regularFile q (.capture i)
  refuse (capturedStat.changed beforeInstall = true) (.value "captured identity changed before install")
  refuse (beforeInstall.size ≠ capturedStat.size) (.value "captured size changed before install")
  let staged ← stableValidate q (.capture i)
  refuse (staged.sha256 ≠ captured.found.sha256 ∨ staged.size ≠ captured.found.size) (.value "captured database changed")
  refuse (r.expectedSha256.any (fun sha => decide (sha ≠ "" ∧ (captured.sourceSha256 ≠ sha ∨ captured.sourceSize ≠ r.expectedSize))) = true)
    (.value "database source changed after validation")
  refuse (r.maximum.any (fun limit => decide (limit < staged.activeProjects)) = true)
    (.value "database exceeds active project limit")
  return (capturedStat, staged)

/-- The second `try` of `install_database` -/
def place (r : Request) (i : Nat) (capturedStat : Stat) (staged : Found) : Prog Raised (Disk β) Installed := do
  replace (.capture i) .live
  let targetStat ← regularFile q .live
  let installed ← stableValidate q .live
  refuse (capturedStat.changed targetStat = true) (.value "installed database identity changed")
  refuse (installed.sha256 ≠ staged.sha256 ∨ installed.size ≠ staged.size) (.value "installed database changed")
  refuse (r.maximum.any (fun limit => decide (limit < installed.activeProjects)) = true)
    (.value "installed database exceeds active project limit")
  durability .live
  return ⟨installed, targetStat, .old i⟩

def rollback (i : Nat) : Prog Raised (Disk β) Unit := do
  let there ← isThere .live
  (if there then replace .live (.captureFailed i) else pure ())
  replace (.old i) .live
  durability .live

/-- The `except` of `install_database` -/
def undo (i : Nat) (e : Raised) : Prog Raised (Disk β) Installed := do
  tryCatch (rollback i) (fun _ => throw (.recovery "database rollback failed; recovery required"))
  throw e

/-- `install_database` -/
def installDatabase (r : Request) (i : Nat) : Prog Raised (Disk β) Installed := do
  let (capturedStat, staged) ← prepare q r i
  replace .live (.old i)
  tryCatch (place q r i capturedStat staged) (undo i)

end Program

/-! What is only looked at -/

variable {β : Type} {q : Sqlite β} {r : Request} {i : Nat}

theorem looks_safeParent : Looks (safeParent : Prog Raised (Disk β) Unit) (fun _ _ => True) := Looks.look (fun _ _ _ => trivial)

variable {n : Name} {e : Raised}

theorem looks_isThere : Looks (isThere n : Prog Raised (Disk β) Bool) (fun _ _ => True) :=
  Looks.look (fun _ _ _ => trivial)

theorem looks_regularFile : Looks (regularFile q n) (fun _ _ => True) := Looks.look (fun _ _ _ => trivial)

theorem looks_readBytes : Looks (readBytes n : Prog Raised (Disk β) β) (fun _ _ => True) :=
  Looks.look (fun _ _ _ => trivial)

theorem looks_durability : Looks (durability n : Prog Raised (Disk β) Unit) (fun _ _ => True) :=
  Looks.look (fun _ _ _ => trivial)

def Sound (q : Sqlite β) (n : Name) (d : Disk β) : Prop := ∃ e k, d n = some e ∧ q.validate e.bytes = .ok k

theorem looks_openValidated : Looks (openValidated q n) (fun _ d => Sound q n d) := by
  refine looks_regularFile.bind (fun stat => ?_)
  refine Looks.bind (F := fun _ d => Sound q n d) (Looks.look (fun d k h => ?_)) (fun k => ?_)
  · cases hd : d n with
    | none =>
      simp only [hd] at h
      cases h
    | some e =>
      simp only [hd] at h
      cases hv : q.validate e.bytes with
      | error =>
        simp only [hv] at h
        cases h
      | ok k' => exact ⟨e, k', hd, hv⟩
  · exact looks_readBytes.bind (fun _ => Looks.pure (fun _ _ hsound _ => hsound))

theorem looks_stableValidate : Looks (stableValidate q n) (fun _ d => Sound q n d) := by
  refine looks_regularFile.bind (fun before => ?_)
  refine looks_openValidated.bind (fun found => ?_)
  refine looks_regularFile.bind (fun after => looks_readBytes.bind (fun bytes => Looks.refuse.bind (fun _ => ?_)))
  refine looks_regularFile.bind (fun final => Looks.refuse.bind (fun _ => Looks.pure ?_))
  intro _ _ _ _ _ _ hsound _
  exact hsound

/-! What an installation does -/

def Untouched (live staging : Option (Entry β)) (i : Nat) (d : Disk β) : Prop := d .live = live ∧ d (.staging i) = staging

/-- The file under a name holds the captured bytes of the staging file, which validate. -/
def Holds (q : Sqlite β) (staging : Option (Entry β)) (n : Name) (d : Disk β) : Prop :=
  ∃ source e k, staging = some source ∧ d n = some e ∧ e.bytes = q.backup source.bytes ∧ q.validate e.bytes = .ok k

/-- What holds of the original file after a raise. -/
def Safe (live : Option (Entry β)) (i : Nat) (e : Raised) (d : Disk β) : Prop :=
  match e with
  | .recovery _ => d .live = live ∨ d (.old i) = live
  | _ => d .live = live

variable {live staging : Option (Entry β)}

theorem Safe.of_live {d : Disk β} (h : d .live = live) : Safe live i e d := by
  cases e with
  | recovery => exact .inl h
  | _ => exact h

theorem copy_keeps {written : β → β} : Triple (Untouched live staging i) (copy q written (.staging i) (.capture i))
    (fun _ d => Untouched live staging i d ∧ ∃ source e, staging = some source ∧ d (.capture i) = some e ∧
      e.bytes = written source.bytes) (fun _ => Untouched live staging i) := by
  refine Triple.call (fun _ h => h) (fun d _ d' h hok => ?_) (fun _ _ h _ => h)
  obtain ⟨hlive, hstaging⟩ := h
  cases hsource : d (.staging i) with
  | none =>
    simp only [hsource] at hok
    cases hok
  | some source =>
    simp only [hsource] at hok
    cases hok
    refine ⟨⟨?_, ?_⟩, source, _, hstaging.symm.trans hsource, Function.update_self .., rfl⟩
    · rw [Function.update_of_ne (by simp), hlive]
    · rw [Function.update_of_ne (by simp), hstaging]

theorem capture_holds {f : Found} : Triple (Untouched live staging i) (capture q (.staging i) (.capture i) f)
    (fun _ d => Untouched live staging i d ∧ Holds q staging (.capture i) d) (fun _ => Untouched live staging i) := by
  refine copy_keeps.bind (fun _ => ?_)
  refine Triple.bind (copy_keeps.weaken (fun _ h => h.1) (fun _ _ h => h) (fun _ _ h => h)) (fun _ => ?_)
  have hlooks : Looks (do
      let after ← regularFile q (.staging i)
      let bytes ← readBytes (.staging i)
      refuse (after.size ≠ f.size ∨ q.sha256 bytes ≠ f.sha256) (.value "snapshot source changed during capture")
      durability (.capture i)
      let final ← openValidated q (.capture i)
      return (⟨final, f.sha256, f.size⟩ : Captured)) (fun _ d => Sound q (.capture i) d) := by
    refine looks_regularFile.bind (fun _ => looks_readBytes.bind (fun _ => Looks.refuse.bind (fun _ => ?_)))
    refine looks_durability.bind (fun _ => looks_openValidated.bind (fun _ => Looks.pure ?_))
    intro _ hsound _ _ _ _
    exact hsound
  refine hlooks.triple (fun _ h => h) (fun _ d h hsound => ⟨h.1, ?_⟩) (fun _ _ h => h.1)
  obtain ⟨-, source, e, hsource, he, hbytes⟩ := h
  obtain ⟨e', k, he', hvalid⟩ := hsound
  obtain rfl : e = e' := Option.some.inj (he.symm.trans he')
  exact ⟨source, e, k, hsource, he, hbytes, hvalid⟩

theorem discard_keeps {Q : Captured → Disk β → Prop} :
    Triple (Untouched live staging i) (discard (.capture i) e) Q (fun _ => Untouched live staging i) := by
  refine Triple.bind (R := fun _ => Untouched live staging i) ?_ (fun _ => Triple.throw (fun _ h => h))
  refine Triple.catch (R := fun _ => Untouched live staging i) ?_ (fun _ => Triple.throw (fun _ h => h))
  refine Triple.call (fun _ h => h) (fun d _ d' h hok => ?_) (fun _ _ h _ => h)
  cases hok
  exact ⟨by rw [Function.update_of_ne (by simp), h.1], by rw [Function.update_of_ne (by simp), h.2]⟩

theorem validatedSnapshot_holds : Triple (Untouched live staging i) (validatedSnapshot q (.staging i) (.capture i))
    (fun _ d => Untouched live staging i d ∧ Holds q staging (.capture i) d) (fun _ => Untouched live staging i) := by
  refine Triple.bind (looks_safeParent.triple (fun _ h => h) (fun _ _ h _ => h) (fun _ _ h => h)) (fun _ => ?_)
  refine Triple.bind (looks_isThere.triple (fun _ h => h) (fun _ _ h _ => h) (fun _ _ h => h)) (fun _ => ?_)
  refine Triple.bind (Looks.refuse.triple (fun _ h => h) (fun _ _ h _ => h) (fun _ _ h => h)) (fun _ => ?_)
  refine Triple.bind (looks_openValidated.triple (fun _ h => h) (fun _ _ h _ => h) (fun _ _ h => h)) (fun _ => ?_)
  refine Triple.bind (looks_safeParent.triple (fun _ h => h) (fun _ _ h _ => h) (fun _ _ h => h)) (fun _ => ?_)
  exact capture_holds.catch (fun _ => discard_keeps)

theorem prepare_holds : Triple (Untouched live staging i) (prepare q r i)
    (fun _ d => Untouched live staging i d ∧ Holds q staging (.capture i) d) (fun _ => Untouched live staging i) := by
  refine Triple.bind (looks_safeParent.triple (fun _ h => h) (fun _ _ h _ => h) (fun _ _ h => h)) (fun _ => ?_)
  refine Triple.bind (looks_isThere.triple (fun _ h => h) (fun _ _ h _ => h) (fun _ _ h => h)) (fun _ => ?_)
  refine Triple.bind (looks_isThere.triple (fun _ h => h) (fun _ _ h _ => h) (fun _ _ h => h)) (fun _ => ?_)
  refine Triple.bind (Looks.refuse.triple (fun _ h => h) (fun _ _ h _ => h) (fun _ _ h => h)) (fun _ => ?_)
  refine Triple.bind (looks_regularFile.triple (fun _ h => h) (fun _ _ h _ => h) (fun _ _ h => h)) (fun _ => ?_)
  refine Triple.bind (Looks.refuse.triple (fun _ h => h) (fun _ _ h _ => h) (fun _ _ h => h)) (fun _ => ?_)
  refine validatedSnapshot_holds.bind (fun captured => ?_)
  -- from here on the files are only looked at
  refine Looks.triple (F := fun _ _ => True) ?_ (fun _ h => h) (fun _ _ h _ => h) (fun _ _ h => h.1)
  refine looks_regularFile.bind (fun _ => Looks.refuse.bind (fun _ => looks_regularFile.bind (fun _ => ?_)))
  refine looks_regularFile.bind (fun _ => Looks.refuse.bind (fun _ => Looks.refuse.bind (fun _ => ?_)))
  refine looks_stableValidate.bind (fun _ => Looks.refuse.bind (fun _ => Looks.refuse.bind (fun _ => ?_)))
  exact Looks.refuse.bind (fun _ => Looks.pure (by simp))

/-- The original is at the old path, and the captured bytes wait. -/
def Moved (q : Sqlite β) (live staging : Option (Entry β)) (i : Nat) (n : Name) (d : Disk β) : Prop :=
  (∃ original, live = some original ∧ d (.old i) = live) ∧ Holds q staging n d

theorem retire_moves : Triple (fun d => Untouched live staging i d ∧ Holds q staging (.capture i) d)
    (replace .live (.old i)) (fun _ => Moved q live staging i (.capture i)) (fun _ d => d .live = live) := by
  refine Triple.call (fun _ h => h.1.1) (fun d _ d' h hok => ?_) (fun _ _ h _ => h.1.1)
  obtain ⟨⟨hlive, -⟩, source, e, k, hsource, he, hbytes, hvalid⟩ := h
  cases horiginal : d .live with
  | none =>
    simp only [horiginal] at hok
    cases hok
  | some original =>
    simp only [horiginal] at hok
    cases hok
    have hsame : live = some original := hlive.symm.trans horiginal
    refine ⟨⟨original, hsame, by rw [Function.update_self, hsame]⟩, source, e, k, hsource, ?_, hbytes, hvalid⟩
    rw [Function.update_of_ne (by simp), Function.update_of_ne (by simp), he]

theorem place_moves {capturedStat : Stat} {staged : Found} : Triple (Moved q live staging i (.capture i))
    (place q r i capturedStat staged) (fun _ => Moved q live staging i .live) (fun _ d => d (.old i) = live) := by
  have hold : ∀ {n : Name} {d : Disk β}, Moved q live staging i n d → d (.old i) = live := fun h => h.1.choose_spec.2
  refine Triple.bind (R := fun _ => Moved q live staging i .live) ?_ (fun _ => ?_)
  · refine Triple.call (fun _ h => hold h) (fun d _ d' h hok => ?_) (fun _ _ h _ => hold h)
    obtain ⟨⟨original, hlive, hd⟩, source, e, k, hsource, he, hbytes, hvalid⟩ := h
    simp only [he] at hok
    cases hok
    refine ⟨⟨original, hlive, ?_⟩, source, e, k, hsource, Function.update_self .., hbytes, hvalid⟩
    rw [Function.update_of_ne (by simp), Function.update_of_ne (by simp), hd]
  · refine Looks.triple (F := fun _ _ => True) ?_ (fun _ h => h) (fun _ _ h _ => h) (fun _ _ h => hold h)
    refine looks_regularFile.bind (fun _ => looks_stableValidate.bind (fun _ => Looks.refuse.bind (fun _ => ?_)))
    refine Looks.refuse.bind (fun _ => Looks.refuse.bind (fun _ => looks_durability.bind (fun _ => Looks.pure ?_)))
    simp

/-- The rollback puts the original back, or leaves it at the old path or in its place. -/
theorem rollback_restores : Triple (fun d : Disk β => d (.old i) = live) (rollback i) (fun _ d => d .live = live)
    (fun _ d => d .live = live ∨ d (.old i) = live) := by
  refine Triple.bind (looks_isThere.triple (fun _ h => h) (fun _ _ h _ => h) (fun _ _ h => .inr h)) (fun there => ?_)
  refine Triple.bind (R := fun _ (d : Disk β) => d (.old i) = live) ?_ (fun _ => ?_)
  · cases there with
    | false => exact Triple.pure (fun _ h => h)
    | true =>
      rw [if_pos rfl]
      refine Triple.call (fun _ h => .inr h) (fun d _ d' h hok => ?_) (fun _ _ h _ => .inr h)
      cases hfile : d .live with
      | none =>
        simp only [hfile] at hok
        cases hok
      | some =>
        simp only [hfile] at hok
        cases hok
        rw [Function.update_of_ne (by simp), Function.update_of_ne (by simp), h]
  · refine Triple.bind (R := fun _ (d : Disk β) => d .live = live) ?_ (fun _ => ?_)
    · refine Triple.call (fun _ h => .inr h) (fun d _ d' h hok => ?_) (fun _ _ h _ => .inr h)
      cases hfile : d (.old i) with
      | none =>
        simp only [hfile] at hok
        cases hok
      | some =>
        simp only [hfile] at hok
        cases hok
        rw [Function.update_self, ← hfile, h]
    · exact looks_durability.triple (fun _ h => h) (fun _ _ h _ => h) (fun _ _ h => .inl h)

theorem undo_safe {Q : Installed → Disk β → Prop} :
    Triple (fun d : Disk β => d (.old i) = live) (undo i e) Q (Safe live i) := by
  refine Triple.bind (R := fun _ (d : Disk β) => d .live = live) ?_ (fun _ => Triple.throw (fun _ h => Safe.of_live h))
  exact rollback_restores.catch (fun _ => Triple.throw (fun _ h => h))

/-- An installation is all or nothing, whatever calls fail: when it returns, the live path holds the captured bytes,
which validate, and the old path the original; when it raises, the live path holds the original, or it asks for
recovery and the original is at the live or the old path. -/
theorem install_all_or_nothing (q : Sqlite β) (r : Request) (i : Nat) (m : Machine (Disk β)) :
    match installDatabase q r i m with
    | (.ok _, m') =>
      (∃ original, m.state .live = some original ∧ m'.state (.old i) = some original) ∧
        ∃ source e k, m.state (.staging i) = some source ∧ m'.state .live = some e ∧ e.bytes = q.backup source.bytes ∧
          q.validate e.bytes = .ok k
    | (.error (.recovery _), m') => m'.state .live = m.state .live ∨ m'.state (.old i) = m.state .live
    | (.error _, m') => m'.state .live = m.state .live := by
  have hinstall : Triple (Untouched (m.state .live) (m.state (.staging i)) i) (installDatabase q r i)
      (fun _ => Moved q (m.state .live) (m.state (.staging i)) i .live) (Safe (m.state .live) i) := by
    refine Triple.bind (prepare_holds.weaken (fun _ h => h) (fun _ _ h => h) (fun _ _ h => Safe.of_live h.1)) (fun prepared => ?_)
    refine Triple.bind (retire_moves.weaken (fun _ h => h) (fun _ _ h => h) (fun _ _ h => Safe.of_live h)) (fun _ => ?_)
    exact place_moves.catch (fun _ => undo_safe)
  have hafter := hinstall m ⟨rfl, rfl⟩
  cases hr : installDatabase q r i m with
  | mk result m' =>
    rw [hr] at hafter
    cases result with
    | ok out =>
      obtain ⟨⟨original, hlive, hold⟩, hholds⟩ := hafter
      exact ⟨⟨original, hlive, hold.trans hlive⟩, hholds⟩
    | error e => cases e <;> exact hafter

/-- Databases of one kind, whose backups are marked. -/
def markedCopies : Sqlite String :=
  ⟨fun _ => 4096, fun _ => true, fun _ => .ok 1, id, (· ++ " copied"), fun _ => "", 2147483648, 0, 0⟩

def twoDatabases : Disk String
  | .live => some ⟨"original", 0, 1, true⟩
  | .staging 0 => some ⟨"candidate", 0, 2, true⟩
  | _ => none

/-- Without a fault the copy is installed. -/
example : ((installDatabase markedCopies ⟨none, 4096, 0, 2, none⟩ 0 ⟨twoDatabases, []⟩).2.state .live).map Entry.bytes =
    some "candidate copied" := by decide +kernel

end GrowthMap.Desktop.Install
