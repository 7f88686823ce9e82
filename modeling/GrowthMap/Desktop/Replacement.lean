import GrowthMap.Desktop.Database

/- Whether replacing the desktop database is all or nothing.

   One replacement runs alone, from the dialog to its end, and at most one of its
   steps fails. `Stage` says for each await what stands under the live name and
   under the old one, which file the sidecar has open, and which step has failed
   on the way. Two things come out of it. As long as the old file is there, a
   restart finds a database. But only a call that fails before it has stopped the
   sidecar leaves it running: neither the action of `offline`, which runs with
   `restartAfter` off, nor the rollback of the continuation starts it again; and
   after the old file is unlinked the rollback moves the new database away and
   has nothing to put in its place. -/
namespace GrowthMap.Desktop

open Runs

/-! The folder of one replacement -/

/-- What stands under the live name and under the old name of call 0, which is
the only old name there can be. -/
structure Sees (d : DataFolder) (l o : Option File) : Prop where
  live : Folder.get d .live = l
  old : Folder.get d (.old 0) = o
  olds : Folder.listing Name.ownedOld d = o.toList.map (fun _ => 0)

variable {d : DataFolder} {live old : Option File} {x : File} {a : Name}

theorem Sees.put (h : Sees d live old) (hl : a ≠ .live) (ho : a.ownedOld = none) :
    Sees (Folder.put a x d) live old := by
  have hne : (Name.old 0) ≠ a := by
    rintro rfl
    cases ho
  exact ⟨by rw [Folder.get_put_ne hl.symm, h.live], by rw [Folder.get_put_ne hne, h.old],
    by rw [Folder.listing_put ho, h.olds]⟩

theorem Sees.remove (h : Sees d live old) (hl : a ≠ .live) (ho : a.ownedOld = none) :
    Sees (Folder.remove a d) live old := by
  have hne : (Name.old 0) ≠ a := by
    rintro rfl
    cases ho
  exact ⟨by rw [Folder.get_remove_ne hl.symm, h.live], by rw [Folder.get_remove_ne hne, h.old],
    by rw [Folder.listing_remove ho, h.olds]⟩

/-- `os.replace(target, old)` -/
theorem Sees.retire (h : Sees d (some x) none) : Sees (Folder.rename .live (.old 0) d) none (some x) := by
  refine ⟨Folder.get_rename_source (by decide), Folder.get_rename_target h.live, ?_⟩
  have hfree : Folder.get (Folder.remove .live d) (.old 0) = none := by
    rw [Folder.get_remove_ne (by decide), h.old]
  simp only [Folder.rename, h.live]
  rw [Folder.listing_put_fresh (show Name.ownedOld (.old 0) = some 0 from rfl) hfree, Folder.listing_remove rfl, h.olds]
  rfl

theorem Sees.place (h : Sees d live old) (hx : Folder.get d a = some x) (ho : a.ownedOld = none) :
    Sees (Folder.rename a .live d) (some x) old := by
  have hne : (Name.old 0) ≠ a := by
    rintro rfl
    cases ho
  refine ⟨Folder.get_rename_target hx, ?_, ?_⟩
  · rw [Folder.get_rename_ne hne (by decide), h.old]
  · simp only [Folder.rename, hx]
    rw [Folder.listing_put rfl, Folder.listing_remove ho, h.olds]

theorem Sees.moveAway (h : Sees d live old) {b : Name} (hl : b ≠ .live) (ho : b.ownedOld = none) :
    Sees (Folder.rename .live b d) none old := by
  have hne : (Name.old 0) ≠ b := by
    rintro rfl
    cases ho
  refine ⟨Folder.get_rename_source hl.symm, ?_, ?_⟩
  · rw [Folder.get_rename_ne (by decide) hne, h.old]
  · cases hx : Folder.get d .live with
    | none => simpa [Folder.rename, hx] using h.olds
    | some =>
      simp only [Folder.rename, hx]
      rw [Folder.listing_put ho, Folder.listing_remove rfl, h.olds]

theorem Sees.dropOld (h : Sees d live (some x)) : Sees (Folder.remove (.old 0) d) live none := by
  refine ⟨?_, Folder.get_remove_self, ?_⟩
  · rw [Folder.get_remove_ne (by decide), h.live]
  · exact Folder.listing_remove_last rfl h.old h.olds

theorem Sees.bringBack (h : Sees d live (some x)) : Sees (Folder.rename (.old 0) .live d) (some x) none := by
  refine ⟨Folder.get_rename_target h.old, Folder.get_rename_source (by decide), ?_⟩
  simp only [Folder.rename, h.old]
  rw [Folder.listing_put rfl]
  exact Folder.listing_remove_last rfl h.old h.olds

theorem Sees.capture_kept {y : File} (hc : Folder.get d (.capture 0) = some y) :
    Folder.get (Folder.rename .live (.old 0) d) (.capture 0) = some y := by
  rw [Folder.get_rename_ne (by decide) (by decide), hc]

/-! A restart -/

theorem get_live_setAside {names : List Name} (h : Name.live ∉ names) :
    Folder.get (names.foldl setAside d) .live = Folder.get d .live := by
  induction names generalizing d with
  | nil => rfl
  | cons a names ih =>
    have hne : Name.live ≠ a := fun heq => h (heq ▸ List.mem_cons_self)
    rw [List.foldl_cons, ih (fun hin => h (List.mem_cons_of_mem _ hin)), setAside,
      Folder.get_rename_ne hne (by simp)]

theorem live_not_owned (olds news : List Nat) : Name.live ∉ olds.map Name.old ++ news.map Name.staging := by
  simp

theorem recoverStartup_sees (h : Sees d live old)
    (hsafe : live = some x ∨ (live = none ∧ old = some x ∧ x.valid = true)) (hold : x.valid = false → old = none) :
    Folder.get (recoverStartup d).1 .live = some x := by
  rcases hsafe with rfl | ⟨rfl, rfl, hv⟩
  · cases hv : x.valid with
    | true =>
      have haccepts : d.accepts .live = true := by rw [DataFolder.accepts, h.live]; exact hv
      simp only [recoverStartup, h.live, haccepts, Option.isSome_some, if_true]
      rw [get_live_setAside (live_not_owned _ _), h.live]
    | false =>
      have haccepts : d.accepts .live = false := by rw [DataFolder.accepts, h.live]; exact hv
      have hnone := hold hv
      subst hnone
      simp [recoverStartup, h.live, haccepts, h.olds]
  · have haccepts : d.accepts (.old 0) = true := by rw [DataFolder.accepts, h.old]; exact hv
    simp only [recoverStartup, h.live, h.olds, Option.toList_some, List.map_cons, List.map_nil, List.filter_cons, haccepts,
      if_true, List.filter_nil, Option.isSome_none, Bool.false_eq_true, if_false]
    rw [get_live_setAside, Folder.get_rename_target h.old]
    intro hin
    exact live_not_owned [0] (Folder.listing Name.ownedNew d) (by simpa using List.mem_of_mem_filter hin)

/-! The stages of a replacement -/

/-- The awaits whose failure the call reports with the sidecar still running, or
does not report at all. -/
def Phase.harmless : Phase → Bool
  | .choosing | .checking | .stopping | .unlinkingStaging => true
  | _ => false

/-- The awaits after the old file is gone. -/
def Phase.late : Phase → Bool
  | .syncing | .reloading => true
  | _ => false

/-- The step that failed had the sidecar stopped and the old file to go back to. -/
structure Early (t : Phase) : Prop where
  harmful : t.harmless = false
  early : t.late = false

/-- Nothing has failed that the call would report. -/
def Calm (ts : List Phase) : Prop := ts = [] ∨ ts = [.unlinkingStaging]

/-- Where a replacement of `o` by `n` stands: the await, the awaits that failed,
the files under the live and the old name, and the file the sidecar has open. -/
inductive Stage (o n : File) : Phase → List Phase → Option File → Option File → Option File → Prop
  | asked {p : Phase} (hp : p = .choosing ∨ p = .checking ∨ p = .stopping) : Stage o n p [] (some o) none (some o)
  | saving : Stage o n .savingRollback [] (some o) none none
  | acting {p : Phase} (hp : p = .stagingSource ∨ p = .installing .capturing ∨ p = .installing .retiring)
      (hv : o.valid = true) : Stage o n p [] (some o) none none
  | placing (hv : o.valid = true) : Stage o n (.installing .placing) [] none (some o) none
  | placed {p : Phase} (hp : p = .installing .verifying ∨ p = .installing .reporting ∨ p = .unlinkingStaging)
      (hv : o.valid = true) : Stage o n p [] (some n) (some o) none
  | unplacing {t : Phase} {l : Option File} (ht : Early t) (hl : l = none ∨ l = some n) (hv : o.valid = true) :
      Stage o n (.installing .unplacing) [t] l (some o) none
  | unretiring {t : Phase} (ht : Early t) (hv : o.valid = true) : Stage o n (.installing .unretiring) [t] none (some o) none
  | flushing {t : Phase} (ht : Early t) : Stage o n (.installing .flushing) [t] (some o) none none
  | refused {p t : Phase} (hp : p = .settled .failed ∨ p = .done .failed) (ht : t.harmless = true) :
      Stage o n p [t] (some o) none (some o)
  | broken {p t : Phase} {l k : Option File} (hp : p = .settled .failed ∨ p = .done .failed) (ht : Early t)
      (hfiles : (l = some o ∧ k = none) ∨ (k = some o ∧ o.valid = true ∧ (l = none ∨ l = some n))) : Stage o n p [t] l k none
  | installed {p : Phase} {ts : List Phase} (hp : p = .settled .ok ∨ p = .validating ∨ p = .starting) (hts : Calm ts)
      (hv : o.valid = true) : Stage o n p ts (some n) (some o) none
  | started {ts : List Phase} (hts : Calm ts) (hv : o.valid = true) : Stage o n .unlinkingOld ts (some n) (some o) (some n)
  | freed {p : Phase} {ts : List Phase} (hp : p = .syncing ∨ p = .reloading) (hts : Calm ts) :
      Stage o n p ts (some n) none (some n)
  | undoing {p t : Phase} {k s : Option File} (hp : p = .undoStopping ∨ (p = .undoMoving ∧ s = none))
      (hk : (Early t ∧ k = some o ∧ o.valid = true) ∨ (t.late = true ∧ k = none)) : Stage o n p [t] (some n) k s
  | undone {t : Phase} {k : Option File} (hk : (Early t ∧ k = some o ∧ o.valid = true) ∨ (t.late = true ∧ k = none)) :
      Stage o n .undoRestoring [t] none k none
  | restored {t : Phase} (ht : Early t) : Stage o n .undoSyncing [t] (some o) none none
  | cancelled : Stage o n (.done .ok) [] (some o) none (some o)
  | finished {ts : List Phase} (hts : Calm ts) : Stage o n (.done .ok) ts (some n) none (some n)
  | stranded {t : Phase} (ht : t.late = true) : Stage o n (.done .recoveryRequired) [t] none none none

def captured : File := ⟨some 0, true⟩

/-- One replacement of `o`, alone in the application. -/
structure Replacing (o : File) (m : Method) (w : World) (p : Phase) (ts : List Phase) : Prop where
  replaces : m.replaces = true
  calls : w.calls = [⟨m, p⟩]
  quit : w.quit = false
  shuttingDown : w.shuttingDown = false
  entry : p = .choosing ∨ p = .checking → w.operation = none ∧ w.recoveryRequired = false
  capture : p = .installing .retiring ∨ p = .installing .placing → Folder.get w.folder (.capture 0) = some captured
  files : ∃ l k, Sees w.folder l k ∧ Stage o captured p ts l k w.sidecar

variable {o : File} {m : Method} {w w' : World} {p p' : Phase} {ts ts' : List Phase} {l k s : Option File}

/-- The call goes on from `p` to `p'`, past the awaits that other facts hang on. -/
theorem Replacing.goto (h : Replacing o m w p ts) (hcalls : w'.calls = w.calls)
    (happ : w'.quit = w.quit ∧ w'.shuttingDown = w.shuttingDown) (hsees : Sees w'.folder l k)
    (hside : w'.sidecar = s) (hstage : Stage o captured p' ts' l k s)
    (hentry : p' = .choosing ∨ p' = .checking → w'.operation = none ∧ w'.recoveryRequired = false := by simp)
    (hcapture : p' = .installing .retiring ∨ p' = .installing .placing →
      Folder.get w'.folder (.capture 0) = some captured := by simp) : Replacing o m (w'.goto 0 p') p' ts' := by
  refine ⟨h.replaces, ?_, happ.1.trans h.quit, happ.2.trans h.shuttingDown, hentry, hcapture, l, k, hsees, hside ▸ hstage⟩
  simp [World.goto, hcalls, h.calls]

theorem replacing_proceed (h : Replacing o m w p ts) (hvalid : p = .savingRollback → w.folder.accepts .live = true)
    (hback : p = .undoRestoring → (Folder.get w.folder (.old 0)).isSome = true) :
    ∃ p', Replacing o m (w.proceed 0 m p) p' ts := by
  obtain ⟨l, k, hsees, hstage⟩ := h.files
  generalize hs : w.sidecar = s at hstage
  cases hstage with
  | asked hp =>
    rcases hp with rfl | rfl | rfl
    · exact ⟨.checking, h.goto rfl ⟨rfl, rfl⟩ hsees hs (.asked (by simp)) (fun _ => h.entry (.inl rfl))⟩
    · obtain ⟨hop, hrec⟩ := h.entry (.inr rfl)
      refine ⟨.stopping, ?_⟩
      simp only [World.proceed, h.replaces, if_true, World.offline, hop, hrec, Option.isSome_none, Bool.false_eq_true, if_false]
      exact h.goto rfl ⟨rfl, rfl⟩ hsees hs (.asked (by simp))
    · refine ⟨.savingRollback, ?_⟩
      simp only [World.proceed, h.replaces, if_true]
      exact h.goto rfl ⟨rfl, rfl⟩ hsees rfl .saving
  | saving =>
    have hv : o.valid = true := by
      have haccepts := hvalid rfl
      rwa [DataFolder.accepts, hsees.live] at haccepts
    exact ⟨.stagingSource, h.goto rfl ⟨rfl, rfl⟩ hsees hs (.acting (by simp) hv)⟩
  | acting hp hv =>
    rcases hp with rfl | rfl | rfl
    · exact ⟨.installing .capturing, h.goto rfl ⟨rfl, rfl⟩ (hsees.put (by decide) rfl) hs (.acting (by simp) hv)⟩
    · exact ⟨.installing .retiring, h.goto rfl ⟨rfl, rfl⟩ (hsees.put (by decide) rfl) hs (.acting (by simp) hv) (by simp)
        (fun _ => Folder.get_put_self)⟩
    · exact ⟨.installing .placing, h.goto rfl ⟨rfl, rfl⟩ hsees.retire hs (.placing hv) (by simp)
        (fun _ => Sees.capture_kept (h.capture (.inl rfl)))⟩
  | placing hv =>
    exact ⟨.installing .verifying, h.goto rfl ⟨rfl, rfl⟩ (hsees.place (h.capture (.inr rfl)) rfl) hs (.placed (by simp) hv)⟩
  | placed hp hv =>
    rcases hp with rfl | rfl | rfl
    · exact ⟨.installing .reporting, h.goto rfl ⟨rfl, rfl⟩ hsees hs (.placed (by simp) hv)⟩
    · exact ⟨.unlinkingStaging, h.goto rfl ⟨rfl, rfl⟩ hsees hs (.placed (by simp) hv)⟩
    · exact ⟨.settled .ok, h.goto rfl ⟨rfl, rfl⟩ (hsees.remove (by decide) rfl) hs (.installed (by simp) (.inl rfl) hv)⟩
  | unplacing ht hl hv =>
    exact ⟨.installing .unretiring, h.goto rfl ⟨rfl, rfl⟩ (hsees.moveAway (by decide) rfl) hs (.unretiring ht hv)⟩
  | unretiring ht =>
    exact ⟨.installing .flushing, h.goto rfl ⟨rfl, rfl⟩ hsees.bringBack hs (.flushing ht)⟩
  | flushing ht =>
    exact ⟨.settled .failed, h.goto rfl ⟨rfl, rfl⟩ hsees hs (.broken (by simp) ht (.inl ⟨rfl, rfl⟩))⟩
  | refused hp ht =>
    refine ⟨.done .failed, ?_⟩
    rcases hp with rfl | rfl
    · simp only [World.proceed, reduceCtorEq, and_false, if_false]
      exact h.goto rfl ⟨rfl, rfl⟩ hsees hs (.refused (by simp) ht)
    · exact h.goto rfl ⟨rfl, rfl⟩ hsees hs (.refused (by simp) ht)
  | broken hp ht hfiles =>
    refine ⟨.done .failed, ?_⟩
    rcases hp with rfl | rfl
    · simp only [World.proceed, reduceCtorEq, and_false, if_false]
      exact h.goto rfl ⟨rfl, rfl⟩ hsees hs (.broken (by simp) ht hfiles)
    · exact h.goto rfl ⟨rfl, rfl⟩ hsees hs (.broken (by simp) ht hfiles)
  | installed hp hts hv =>
    rcases hp with rfl | rfl | rfl
    · refine ⟨.validating, ?_⟩
      simp only [World.proceed, h.replaces, and_self, if_true]
      exact h.goto rfl ⟨rfl, rfl⟩ hsees hs (.installed (by simp) hts hv)
    · exact ⟨.starting, h.goto rfl ⟨rfl, rfl⟩ hsees hs (.installed (by simp) hts hv)⟩
    · exact ⟨.unlinkingOld, h.goto rfl ⟨rfl, rfl⟩ hsees hsees.live (.started hts hv)⟩
  | started hts => exact ⟨.syncing, h.goto rfl ⟨rfl, rfl⟩ hsees.dropOld hs (.freed (by simp) hts)⟩
  | freed hp hts =>
    rcases hp with rfl | rfl
    · exact ⟨.reloading, h.goto rfl ⟨rfl, rfl⟩ hsees hs (.freed (by simp) hts)⟩
    · exact ⟨.done .ok, h.goto rfl ⟨rfl, rfl⟩ hsees hs (.finished hts)⟩
  | undoing hp hk =>
    rcases hp with rfl | ⟨rfl, rfl⟩
    · exact ⟨.undoMoving, h.goto rfl ⟨rfl, rfl⟩ hsees rfl (.undoing (by simp) hk)⟩
    · exact ⟨.undoRestoring, h.goto rfl ⟨rfl, rfl⟩ (hsees.moveAway (by decide) rfl) hs (.undone hk)⟩
  | undone hk =>
    obtain ⟨ht, rfl, hv⟩ | ⟨-, rfl⟩ := hk
    · exact ⟨.undoSyncing, h.goto rfl ⟨rfl, rfl⟩ hsees.bringBack hs (.restored ht)⟩
    · have hold := hback rfl
      rw [hsees.old] at hold
      cases hold
  | restored ht => exact ⟨.done .failed, h.goto rfl ⟨rfl, rfl⟩ hsees hs (.broken (by simp) ht (.inl ⟨rfl, rfl⟩))⟩
  | cancelled => exact ⟨.done .ok, h.goto rfl ⟨rfl, rfl⟩ hsees hs .cancelled⟩
  | finished hts => exact ⟨.done .ok, h.goto rfl ⟨rfl, rfl⟩ hsees hs (.finished hts)⟩
  | stranded ht => exact ⟨.done .recoveryRequired, h.goto rfl ⟨rfl, rfl⟩ hsees hs (.stranded ht)⟩

/-- The first failure of the call. -/
theorem replacing_recoil (h : Replacing o m w p []) {lost : Bool} (hlost : lost = true → p ≠ .savingRollback)
    (hp : p.fallible = true) : ∃ p', Replacing o m (w.recoil 0 lost p) p' [p] := by
  obtain ⟨l, k, hsees, hstage⟩ := h.files
  generalize hs : w.sidecar = s at hstage
  cases hstage with
  | asked hasked =>
    rcases hasked with rfl | rfl | rfl
    · exact ⟨.done .failed, h.goto rfl ⟨rfl, rfl⟩ hsees hs (.refused (by simp) rfl)⟩
    · exact ⟨.done .failed, h.goto rfl ⟨rfl, rfl⟩ hsees hs (.refused (by simp) rfl)⟩
    · exact ⟨.settled .failed, h.goto rfl ⟨rfl, rfl⟩ hsees hs (.refused (by simp) rfl)⟩
  | saving =>
    have hno : lost = false := by
      by_contra hl
      exact hlost (by simpa using hl) rfl
    subst hno
    exact ⟨.settled .failed, h.goto rfl ⟨rfl, rfl⟩ hsees hs (.broken (by simp) ⟨rfl, rfl⟩ (.inl ⟨rfl, rfl⟩))⟩
  | acting hacting =>
    refine ⟨.settled .failed, ?_⟩
    rcases hacting with rfl | rfl | rfl
    all_goals exact h.goto rfl ⟨rfl, rfl⟩ hsees hs (.broken (by simp) ⟨rfl, rfl⟩ (.inl ⟨rfl, rfl⟩))
  | placing hv =>
    cases lost with
    | true =>
      exact ⟨.settled .failed, h.goto rfl ⟨rfl, rfl⟩ hsees hs (.broken (by simp) ⟨rfl, rfl⟩ (.inr ⟨rfl, hv, .inl rfl⟩))⟩
    | false => exact ⟨.installing .unplacing, h.goto rfl ⟨rfl, rfl⟩ hsees hs (.unplacing ⟨rfl, rfl⟩ (.inl rfl) hv)⟩
  | placed hplaced hv =>
    rcases hplaced with rfl | rfl | rfl
    · cases lost with
      | true =>
        exact ⟨.settled .failed, h.goto rfl ⟨rfl, rfl⟩ hsees hs (.broken (by simp) ⟨rfl, rfl⟩ (.inr ⟨rfl, hv, .inr rfl⟩))⟩
      | false => exact ⟨.installing .unplacing, h.goto rfl ⟨rfl, rfl⟩ hsees hs (.unplacing ⟨rfl, rfl⟩ (.inr rfl) hv)⟩
    · exact ⟨.settled .failed, h.goto rfl ⟨rfl, rfl⟩ hsees hs (.broken (by simp) ⟨rfl, rfl⟩ (.inr ⟨rfl, hv, .inr rfl⟩))⟩
    · exact ⟨.settled .ok, h.goto rfl ⟨rfl, rfl⟩ hsees hs (.installed (by simp) (.inr rfl) hv)⟩
  | installed hinstalled _ hv =>
    rcases hinstalled with rfl | rfl | rfl
    · cases hp
    · exact ⟨.undoStopping, h.goto rfl ⟨rfl, rfl⟩ hsees hs (.undoing (by simp) (.inl ⟨⟨rfl, rfl⟩, rfl, hv⟩))⟩
    · exact ⟨.undoStopping, h.goto rfl ⟨rfl, rfl⟩ hsees hs (.undoing (by simp) (.inl ⟨⟨rfl, rfl⟩, rfl, hv⟩))⟩
  | started _ hv => exact ⟨.undoStopping, h.goto rfl ⟨rfl, rfl⟩ hsees hs (.undoing (by simp) (.inl ⟨⟨rfl, rfl⟩, rfl, hv⟩))⟩
  | freed hfreed _ =>
    refine ⟨.undoStopping, ?_⟩
    rcases hfreed with rfl | rfl
    all_goals exact h.goto rfl ⟨rfl, rfl⟩ hsees hs (.undoing (by simp) (.inr ⟨rfl, rfl⟩))
  | cancelled => cases hp
  | finished => cases hp

theorem replacing_stranded (h : Replacing o m w .undoRestoring ts)
    (hgone : (Folder.get w.folder (.old 0)).isSome = false) (lost : Bool) :
    Replacing o m (w.recoil 0 lost .undoRestoring) (.done .recoveryRequired) ts := by
  obtain ⟨l, k, hsees, hstage⟩ := h.files
  generalize hs : w.sidecar = s at hstage
  cases hstage with
  | asked hp => simp at hp
  | acting hp => simp at hp
  | placed hp => simp at hp
  | refused hp => simp at hp
  | broken hp => simp at hp
  | installed hp => simp at hp
  | freed hp => simp at hp
  | undoing hp => simp at hp
  | undone hk =>
    obtain ⟨-, rfl, -⟩ | ⟨ht, rfl⟩ := hk
    · rw [hsees.old] at hgone
      cases hgone
    · exact h.goto rfl ⟨rfl, rfl⟩ hsees hs (.stranded ht)

/-! Runs of one replacement -/

def World.follow (w : World) (out : Outcome) : World := w.step (.go 0 out)

/-- The await at which this step fails. The rename of an old file that is gone
already is not a failure of its own; a manifest that cannot be cleaned up is two. -/
def World.trouble (w : World) (out : Outcome) : List Phase :=
  match w.calls[0]? with
  | none => []
  | some c =>
    if out = .cancelled ∨ w.failsAt 0 c.phase out = false ∨ (out = .ok ∧ c.phase = .undoRestoring) then []
    else if out = .lost ∧ c.phase = .savingRollback then [c.phase, c.phase] else [c.phase]

/-- The awaits at which the steps of the run fail. -/
def troubles : World → List Outcome → List Phase
  | _, [] => []
  | w, out :: outs => w.trouble out ++ troubles (w.follow out) outs

theorem replacing_step (h : Replacing o m w p ts) (out : Outcome) (hone : (ts ++ w.trouble out).length ≤ 1) :
    ∃ p', Replacing o m (w.follow out) p' (ts ++ w.trouble out) := by
  have hcall : w.calls[0]? = some ⟨m, p⟩ := by rw [h.calls]; rfl
  have hfollow : w.follow out = w.advance 0 ⟨m, p⟩ out := by
    simp [World.follow, World.step, h.quit, hcall]
  rw [hfollow]
  simp only [World.trouble, hcall, World.advance] at hone ⊢
  by_cases hcancel : out = .cancelled
  · simp only [hcancel, true_or, if_true, List.append_nil] at hone ⊢
    split
    · rename_i hdialog
      obtain ⟨rfl, -⟩ := hdialog
      obtain ⟨l, k, hsees, hstage⟩ := h.files
      generalize hs : w.sidecar = s at hstage
      cases hstage with
      | asked => exact ⟨.done .ok, h.goto rfl ⟨rfl, rfl⟩ hsees hs .cancelled⟩
      | acting hp => simp at hp
      | placed hp => simp at hp
      | refused hp => simp at hp
      | broken hp => simp at hp
      | installed hp => simp at hp
      | freed hp => simp at hp
      | undoing hp => simp at hp
    · exact ⟨p, h⟩
  · cases hfails : w.failsAt 0 p out with
    | false =>
      simp only [hcancel, hfails, false_or, true_or, if_true, if_false, Bool.false_eq_true, List.append_nil]
      refine replacing_proceed h ?_ ?_
      · rintro rfl
        simp only [World.failsAt, Phase.fallible, Bool.true_and, Bool.or_eq_false_iff] at hfails
        simpa [World.allows] using hfails.2
      · rintro rfl
        simp only [World.failsAt, Phase.fallible, Bool.true_and, Bool.or_eq_false_iff] at hfails
        simpa [World.allows] using hfails.2
    | true =>
      have hfallible : p.fallible = true := (Bool.and_eq_true_iff.mp hfails).1
      by_cases hgone : out = .ok ∧ p = .undoRestoring
      · obtain ⟨rfl, rfl⟩ := hgone
        refine ⟨.done .recoveryRequired, ?_⟩
        simp only [hfails, reduceCtorEq, and_self, or_true, if_true, if_false, List.append_nil]
        refine replacing_stranded h ?_ _
        simpa [World.failsAt, Phase.fallible, World.allows] using hfails
      · simp only [hcancel, hfails, hgone, Bool.true_eq_false, or_self, if_true, if_false] at hone ⊢
        have hts : ts = [] ∧ ¬ (out = .lost ∧ p = .savingRollback) := by
          split at hone
          · simp at hone
          · rename_i hsingle
            simp only [List.length_append, List.length_cons, List.length_nil] at hone
            exact ⟨List.length_eq_zero_iff.mp (by omega), hsingle⟩
        obtain ⟨rfl, hsingle⟩ := hts
        simp only [hsingle, if_false, List.nil_append]
        refine replacing_recoil h ?_ hfallible
        intro hlost hp
        exact hsingle ⟨by simpa using hlost, hp⟩

theorem replacing_run (h : Replacing o m w p ts) (outs : List Outcome) (hone : (ts ++ troubles w outs).length ≤ 1) :
    ∃ p', Replacing o m (run World.follow w outs) p' (ts ++ troubles w outs) := by
  induction outs generalizing w p ts with
  | nil =>
    rw [troubles, List.append_nil]
    exact ⟨p, h⟩
  | cons out outs ih =>
    rw [troubles, ← List.append_assoc] at hone ⊢
    obtain ⟨p', h'⟩ := replacing_step h out (by
      simp only [List.length_append] at hone ⊢
      omega)
    exact ih h' hone

/-- The live name holds the database that was there or the one that was
installed, and a call that fails without asking for recovery leaves the first of
them with the sidecar running on it. -/
structure AllOrNothing (o : File) (w : World) (r : Result) : Prop where
  live : Folder.get w.folder .live = some o ∨ Folder.get w.folder .live = some captured
  resumed : r = .failed → Folder.get w.folder .live = some o ∧ w.sidecar = some o

theorem replacing_receive (hm : m.replaces = true) (hlive : Folder.get d .live = some o)
    (hold : Folder.listing Name.ownedOld d = []) : Replacing o m ((World.start d).receive m) .choosing [] := by
  have hreceive : (World.start d).receive m = { World.start d with calls := [⟨m, .choosing⟩] } := by
    cases m with
    | backup => cases hm
    | importDatabase => rfl
    | restore => rfl
    | chooseWorkspace => cases hm
  rw [hreceive]
  have hsees : Sees d (some o) none := ⟨hlive, Folder.get_of_listing_nil (show Name.ownedOld (.old 0) = some 0 from rfl) hold, by simpa using hold⟩
  refine ⟨hm, rfl, rfl, rfl, fun _ => ⟨rfl, rfl⟩, by simp, some o, none, hsees, ?_⟩
  simp only [World.start, hlive]
  exact .asked (by simp)

/-- While the old file is there, a restart finds a database. -/
theorem Replacing.restart (h : Replacing o m w p ts) (hts : ∀ t ∈ ts, t.late = false) :
    ∃ x, (x = o ∨ x = captured) ∧ Folder.get (recoverStartup w.folder).1 .live = some x := by
  obtain ⟨l, k, hsees, hstage⟩ := h.files
  generalize w.sidecar = s at hstage
  -- the three ways the files can stand
  have hold : Sees w.folder (some o) none → Folder.get (recoverStartup w.folder).1 .live = some o :=
    fun h => recoverStartup_sees h (.inl rfl) (fun _ => rfl)
  have hmissing : Sees w.folder none (some o) → o.valid = true →
      Folder.get (recoverStartup w.folder).1 .live = some o :=
    fun h hv => recoverStartup_sees h (.inr ⟨rfl, rfl, hv⟩) (by simp [hv])
  have hnew : ∀ k, Sees w.folder (some captured) k → Folder.get (recoverStartup w.folder).1 .live = some captured :=
    fun k h => recoverStartup_sees h (.inl rfl) (by simp [captured])
  have hlate : ∀ t, t.late = true → ts ≠ [t] := by
    rintro t ht rfl
    have hno := hts t (List.mem_singleton.mpr rfl)
    rw [ht] at hno
    cases hno
  cases hstage with
  | asked => exact ⟨o, .inl rfl, hold hsees⟩
  | saving => exact ⟨o, .inl rfl, hold hsees⟩
  | acting => exact ⟨o, .inl rfl, hold hsees⟩
  | placing hv => exact ⟨o, .inl rfl, hmissing hsees hv⟩
  | placed _ _ => exact ⟨captured, .inr rfl, hnew _ hsees⟩
  | unplacing _ hl hv =>
    rcases hl with rfl | rfl
    · exact ⟨o, .inl rfl, hmissing hsees hv⟩
    · exact ⟨captured, .inr rfl, hnew _ hsees⟩
  | unretiring _ hv => exact ⟨o, .inl rfl, hmissing hsees hv⟩
  | flushing => exact ⟨o, .inl rfl, hold hsees⟩
  | refused => exact ⟨o, .inl rfl, hold hsees⟩
  | broken _ _ hfiles =>
    rcases hfiles with ⟨rfl, rfl⟩ | ⟨rfl, hv, rfl | rfl⟩
    · exact ⟨o, .inl rfl, hold hsees⟩
    · exact ⟨o, .inl rfl, hmissing hsees hv⟩
    · exact ⟨captured, .inr rfl, hnew _ hsees⟩
  | installed _ _ _ => exact ⟨captured, .inr rfl, hnew _ hsees⟩
  | started _ _ => exact ⟨captured, .inr rfl, hnew _ hsees⟩
  | freed _ _ => exact ⟨captured, .inr rfl, hnew _ hsees⟩
  | undoing _ _ => exact ⟨captured, .inr rfl, hnew _ hsees⟩
  | undone hk =>
    rcases hk with ⟨-, rfl, hv⟩ | ⟨ht, -⟩
    · exact ⟨o, .inl rfl, hmissing hsees hv⟩
    · exact absurd rfl (hlate _ ht)
  | restored => exact ⟨o, .inl rfl, hold hsees⟩
  | cancelled => exact ⟨o, .inl rfl, hold hsees⟩
  | finished _ => exact ⟨captured, .inr rfl, hnew _ hsees⟩
  | stranded ht => exact absurd rfl (hlate _ ht)

theorem Calm.harmless (h : Calm ts) : ∀ t ∈ ts, t.harmless = true := by
  rcases h with rfl | rfl
  · simp
  · simp [Phase.harmless]

/-- A call that has ended was all or nothing exactly when nothing but a harmless
step failed. -/
theorem Replacing.ended {r : Result} (h : Replacing o m w (.done r) ts) :
    AllOrNothing o w r ↔ ∀ t ∈ ts, t.harmless = true := by
  obtain ⟨l, k, hsees, hstage⟩ := h.files
  generalize hs : w.sidecar = s at hstage
  cases hstage with
  | asked hp => simp at hp
  | acting hp => simp at hp
  | placed hp => simp at hp
  | installed hp => simp at hp
  | freed hp => simp at hp
  | undoing hp => simp at hp
  | refused _ ht =>
    refine ⟨fun _ => by simpa using ht, fun _ => ⟨.inl hsees.live, fun _ => ⟨hsees.live, hs⟩⟩⟩
  | broken hp ht _ =>
    have hr : r = .failed := by simpa using hp
    refine ⟨?_, ?_⟩
    · intro hall
      have hrun := (hall.resumed hr).2
      rw [hs] at hrun
      cases hrun
    · intro hcalm
      have hharmless := hcalm _ (List.mem_singleton.mpr rfl)
      rw [ht.harmful] at hharmless
      cases hharmless
  | cancelled => exact ⟨fun _ => by simp, fun _ => ⟨.inl hsees.live, by simp⟩⟩
  | finished hts => exact ⟨fun _ => hts.harmless, fun _ => ⟨.inr hsees.live, by simp⟩⟩
  | stranded ht =>
    refine ⟨?_, ?_⟩
    · intro hall
      have hlive := hall.live
      rw [hsees.live] at hlive
      simp at hlive
    · intro hcalm
      have hharmless := hcalm _ (List.mem_singleton.mpr rfl)
      rename_i t
      cases t <;> simp [Phase.late, Phase.harmless] at ht hharmless

/-- One import or restore with at most one failing step, from any sound state of
the data folder: a restart at any moment finds the original or the installed
database unless a step after the removal of the old file has failed, and the call
ends as all or nothing exactly when no step has failed once the sidecar was
stopped, the removal of the staging file apart. -/
theorem replacement_all_or_nothing (m : Method) (hm : m.replaces = true) (d : DataFolder) (o : File)
    (hlive : Folder.get d .live = some o) (hold : Folder.listing Name.ownedOld d = []) (outs : List Outcome)
    (hone : (troubles ((World.start d).receive m) outs).length ≤ 1) :
    ((∀ t ∈ troubles ((World.start d).receive m) outs, t.late = false) →
      ∃ x, (x = o ∨ x = captured) ∧
        Folder.get (recoverStartup (run World.follow ((World.start d).receive m) outs).folder).1 .live = some x) ∧
    ∀ r, (run World.follow ((World.start d).receive m) outs).calls = [⟨m, .done r⟩] →
      (AllOrNothing o (run World.follow ((World.start d).receive m) outs) r ↔
        ∀ t ∈ troubles ((World.start d).receive m) outs, t.harmless = true) := by
  obtain ⟨p, h⟩ := replacing_run (replacing_receive hm hlive hold) outs (by simpa using hone)
  rw [List.nil_append] at h
  refine ⟨h.restart, ?_⟩
  intro r hr
  have hp : p = .done r := by
    have hcalls := h.calls.symm.trans hr
    simpa using hcalls
  subst hp
  exact h.ended

/-- The sidecar of an import that installs its database cannot be started. -/
def startFails : List Outcome := List.replicate 13 .ok ++ [.error] ++ List.replicate 4 .ok

theorem replacement_all_or_nothing_start_fails :
    (troubles ((World.start soundFolder).receive .importDatabase) startFails).length ≤ 1 ∧
      (run World.follow ((World.start soundFolder).receive .importDatabase) startFails).calls =
        [⟨.importDatabase, .done .failed⟩] ∧
      ¬ AllOrNothing ⟨none, true⟩ (run World.follow ((World.start soundFolder).receive .importDatabase) startFails) .failed := by
  have hone : (troubles ((World.start soundFolder).receive .importDatabase) startFails).length ≤ 1 := by decide
  have hdone : (run World.follow ((World.start soundFolder).receive .importDatabase) startFails).calls =
      [⟨.importDatabase, .done .failed⟩] := by decide
  refine ⟨hone, hdone, ?_⟩
  rw [(replacement_all_or_nothing .importDatabase rfl soundFolder ⟨none, true⟩ rfl rfl startFails hone).2 .failed hdone]
  decide

/-- The renderer of an import that has removed the old database cannot be reloaded. -/
def reloadFails : List Outcome := List.replicate 16 .ok ++ [.error] ++ List.replicate 3 .ok

/-- The rollback moves the installed database away and has no old one to bring
back; a restart takes the empty folder for a fresh install. -/
theorem reload_failure_loses_database :
    (troubles ((World.start soundFolder).receive .importDatabase) reloadFails).length ≤ 1 ∧
      (run World.follow ((World.start soundFolder).receive .importDatabase) reloadFails).calls =
        [⟨.importDatabase, .done .recoveryRequired⟩] ∧
      ¬ AllOrNothing ⟨none, true⟩
        (run World.follow ((World.start soundFolder).receive .importDatabase) reloadFails) .recoveryRequired ∧
      Folder.get (run World.follow ((World.start soundFolder).receive .importDatabase) reloadFails).folder .live = none ∧
      (recoverStartup (run World.follow ((World.start soundFolder).receive .importDatabase) reloadFails).folder).2 = .nothing := by
  have hgone : Folder.get (run World.follow ((World.start soundFolder).receive .importDatabase) reloadFails).folder .live =
      none := by decide
  refine ⟨by decide, by decide, ?_, hgone, by decide⟩
  intro hall
  have hlive := hall.live
  rw [hgone] at hlive
  simp at hlive

end GrowthMap.Desktop
