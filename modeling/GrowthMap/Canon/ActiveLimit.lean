import GrowthMap.Canon.Allocator
import GrowthMap.Canon.Effects

/- The limit on active projects, over every interleaving.

   A request that makes one more project active counts under the seat lock, and commits
   before it gives the lock back; every other request leaves the number of active projects or
   lowers it. So the limit is never exceeded, but for one kind of import: a file whose
   project has the key `status` with the value null asks for no seat, and the model stores
   the default of the column, `active`. -/
namespace GrowthMap.Canon

open Relational Runs Fallible Table

/-! Counting active projects -/

def Project.isActive (p : Project) : Bool := decide (p.fields .status = .text "active")

/-- `select count(*) from projects where status = 'active'` -/
def Graph.activeProjects (g : Graph) : Nat := g.projects.rows.countP Project.isActive

variable {L : Nat} {f : ImportFile}

theorem requireActiveProjectSeat_ok {conflictStatus : Nat} {g : Graph} :
    requireActiveProjectSeat (some L) conflictStatus g = .ok () ↔ g.activeProjects < L := by
  have hcount : (g.projects.rows.filter (fun p => decide (p.fields .status = .text "active"))).length = g.activeProjects :=
    List.countP_eq_length_filter.symm
  simp only [requireActiveProjectSeat, hcount]
  split
  · rename_i hle
    constructor
    · intro h
      cases h
    · intro hlt
      omega
  · rename_i hlt
    exact ⟨fun _ => by omega, fun _ => rfl⟩

section Writes

variable {g g' : Graph}

theorem activeProjects_insert {p : Project} (h : insertProject p g = .ok g') :
    g'.activeProjects = g.activeProjects + if p.isActive then 1 else 0 := by
  obtain ⟨projects, hins, rfl⟩ := insertProject_ok h
  exact countP_insert hins _

theorem activeProjects_insertNode {n : Node} (h : insertNode n g = .ok g') : g'.activeProjects = g.activeProjects := by
  obtain ⟨-, nodes, -, rfl⟩ := insertNode_ok h
  rfl

theorem activeProjects_insertEdge {e : Edge} (h : insertEdge e g = .ok g') : g'.activeProjects = g.activeProjects := by
  obtain ⟨-, edges, -, rfl⟩ := insertEdge_ok h
  rfl

theorem activeProjects_insertBlock {b : ContentBlock} (h : insertBlock b g = .ok g') :
    g'.activeProjects = g.activeProjects := by
  obtain ⟨blocks, -, rfl⟩ := insertBlock_ok h
  rfl

variable {old new : Project}

/-- A flush that sets no new status, or another than `active`, makes no project active. -/
theorem activeProjects_flush (h : flushProject old new g = .ok g')
    (hstatus : new.fields .status = old.fields .status ∨ new.fields .status ≠ .text "active") :
    g'.activeProjects ≤ g.activeProjects := by
  rw [flushProject_ok h]
  apply countP_modify_le Project.patch_key
  intro row _ hactive
  have hactive : (if new.fields .status = old.fields .status then row.fields .status else new.fields .status) =
      .text "active" := of_decide_eq_true hactive
  apply decide_eq_true
  rcases hstatus with hsame | hother
  · rw [if_pos hsame] at hactive
    exact hactive
  · split at hactive
    · exact hactive
    · exact absurd hactive hother

theorem activeProjects_flush_succ (h : flushProject old new g = .ok g') :
    g'.activeProjects ≤ g.activeProjects + 1 := by
  rw [flushProject_ok h]
  exact countP_modify_le_succ Project.patch_key _

theorem activeProjects_claim {p : String} {r : Int} (h : claimProjectRevision p r g = .ok g') :
    g'.activeProjects ≤ g.activeProjects := by
  obtain ⟨row, -, -, rfl⟩ := claimProjectRevision_ok h
  exact countP_modify_le Project.claim_key (fun _ _ h => h)

theorem activeProjects_delete (p : String) (g : Graph) : (deleteProjectRow p g).activeProjects ≤ g.activeProjects :=
  List.filter_sublist.countP_le

variable {uuid : Nat → String}

theorem activeProjects_create {d : ProjectCreate} (h : createCommitted uuid d g = .ok g') :
    g'.activeProjects ≤ g.activeProjects + 1 := by
  obtain ⟨g₁, hproject, h⟩ := bind_ok h
  obtain ⟨g₂, hnode, hflush⟩ := bind_ok h
  calc g'.activeProjects ≤ g₂.activeProjects := activeProjects_flush hflush (.inl rfl)
    _ = g₁.activeProjects := activeProjects_insertNode hnode
    _ ≤ g.activeProjects + 1 := by
        rw [activeProjects_insert hproject]
        split <;> omega

/-- An imported project is one more if its row is active; its nodes, edges and blocks do not count. -/
theorem activeProjects_import {now : Int} (h : importCommitted uuid now f g = .ok g') :
    g'.activeProjects ≤ g.activeProjects + if (f.project uuid).isActive then 1 else 0 := by
  obtain ⟨g₁, hproject, h⟩ := bind_ok h
  obtain ⟨g₂, hnodes, h⟩ := bind_ok h
  obtain ⟨g₃, hroot, h⟩ := bind_ok h
  obtain ⟨g₄, hedges, hblocks⟩ := bind_ok h
  have hnodes : g₂.activeProjects = g₁.activeProjects :=
    each_invariant (I := fun g => g.activeProjects = g₁.activeProjects)
      (fun _ _ _ _ hs hn => (activeProjects_insertNode hn).trans hs) rfl hnodes
  have hroot : g₃.activeProjects ≤ g₂.activeProjects := by
    unfold ImportFile.setRoot at hroot
    split at hroot
    · cases hroot
      exact Nat.le_refl _
    · exact activeProjects_flush hroot (.inl rfl)
  have hedges : g₄.activeProjects = g₃.activeProjects :=
    each_invariant (I := fun g => g.activeProjects = g₃.activeProjects)
      (fun _ _ _ _ hs hn => (activeProjects_insertEdge hn).trans hs) rfl hedges
  have hblocks : g'.activeProjects = g₄.activeProjects :=
    each_invariant (I := fun g => g.activeProjects = g₄.activeProjects)
      (fun _ _ _ _ hs hn => (activeProjects_insertBlock hn).trans hs) rfl hblocks
  calc g'.activeProjects = g₃.activeProjects := hblocks.trans hedges
    _ ≤ g₁.activeProjects := hroot.trans_eq hnodes
    _ = _ := activeProjects_insert hproject

end Writes

/-! Statuses -/

def ImportFile.NamesStatus (f : ImportFile) : Prop := f.fields .status ≠ some .null

theorem ImportFile.stored_status (h : f.NamesStatus) (uuid : Nat → String) :
    (f.project uuid).isActive = decide (f.status = .text "active") := by
  have hne : f.status ≠ .null := by
    intro hnull
    unfold ImportFile.status at hnull
    cases hgiven : f.fields .status with
    | none =>
      rw [hgiven] at hnull
      cases hnull
    | some =>
      rw [hgiven] at hnull
      exact h (hgiven.trans (congrArg some hnull))
  show decide (ProjectField.status.stored f.status = .text "active") = decide (f.status = .text "active")
  rw [ProjectField.stored, if_neg hne]

theorem foldl_update_lookup {entries : List (ProjectField × Value)} (hd : (entries.map Prod.fst).Nodup)
    (f : ProjectField → Value) (c : ProjectField) :
    entries.foldl (fun f e => Function.update f e.1 e.2) f c = (entries.lookup c).getD (f c) := by
  induction entries generalizing f with
  | nil => rfl
  | cons e entries ih =>
    obtain ⟨k, v⟩ := e
    simp only [List.map_cons, List.nodup_cons] at hd
    rw [List.foldl_cons, ih hd.2, List.lookup_cons]
    by_cases hc : c = k
    · subst hc
      have hnone : entries.lookup c = none := by
        rw [List.lookup_eq_none_iff]
        intro p hp
        have hne : c ≠ p.1 := fun heq => hd.1 (heq ▸ List.mem_map_of_mem hp)
        simpa using hne
      simp [hnone]
    · have hbeq : (c == k) = false := by simpa using hc
      rw [hbeq, Function.update_of_ne hc]

/-- An update that restores nothing sets no new status, or another than `active`. -/
theorem ProjectChanges.applied_status {changes : ProjectChanges} {project : Project} (h : changes.restores project = false) :
    (changes.applied project).fields .status = project.fields .status ∨
      (changes.applied project).fields .status ≠ .text "active" := by
  simp only [applied, foldl_update_lookup changes.distinct]
  cases hl : changes.entries.lookup .status with
  | none => exact .inl rfl
  | some v =>
    by_cases hv : v = .text "active"
    · subst hv
      have hproject : project.fields .status = .text "active" := by
        by_contra hne
        have hnot := of_decide_eq_false h
        exact hnot ⟨hl, hne⟩
      exact .inl hproject.symm
    · exact .inr hv

/-! The limit -/

def SeatRequest.NamesStatus : SeatRequest → Prop
  | .importJson f => f.NamesStatus
  | .create _ | .update .. | .delete .. => True

def SeatMove.NamesStatus : SeatMove → Prop
  | .arrive r => r.NamesStatus
  | .advance .. | .fail .. => True

/-- The task fits under the limit: a free seat it found is still free, and its transaction exceeds
neither the limit nor, without the lock, what is committed. -/
def SeatTask.Fits (L : Nat) (g : Graph) (t : SeatTask) : Prop :=
  match t.stage with
  | .seated => g.activeProjects < L
  | .writing underLock g' => g'.activeProjects ≤ L ∧ (underLock = false → g'.activeProjects ≤ g.activeProjects)
  | .arrived | .loaded _ | .locked | .claimed .. | .restoring .. | .committed _ | .answered _ => True

section Fits

variable {L : Nat} {uuid : Nat → String} {now : Int} {g : Graph} {r : SeatRequest} {t : SeatTask}

theorem SeatRequest.newProject_limit {g' : Graph} (hseat : g.activeProjects < L)
    (h : r.newProject uuid now g = .ok g') : g'.activeProjects ≤ L := by
  cases r with
  | create d =>
    have := activeProjects_create h
    omega
  | importJson f =>
    have := activeProjects_import h
    split at this <;> omega
  | update => cases h
  | delete => cases h

theorem SeatRequest.newProject_inactive {g' : Graph} (hnames : r.NamesStatus) (hfirst : r.seatFirst = false)
    (h : r.newProject uuid now g = .ok g') : g'.activeProjects ≤ g.activeProjects := by
  cases r with
  | create d => cases hfirst
  | importJson f =>
    have hinactive : (f.project uuid).isActive = false := (ImportFile.stored_status hnames uuid).trans hfirst
    have himport := activeProjects_import h
    rw [hinactive] at himport
    exact himport
  | update => cases h
  | delete => cases h

/-- A task that fits goes on to fit what is then committed. -/
theorem SeatRequest.Goes.fits {lockFree writerFree : Bool} {stage stage' : SeatStage}
    (h : r.Goes (some L) uuid now lockFree writerFree g stage stage') (hf : (SeatTask.mk r stage).Fits L g)
    (hnames : r.NamesStatus) (hbound : g.activeProjects ≤ L) :
    (SeatTask.mk r stage').Fits L ((SeatTask.mk r stage).commits g) := by
  have hunlocked : ∀ g' : Graph, g'.activeProjects ≤ g.activeProjects → (SeatTask.mk r (.writing false g')).Fits L g :=
    fun g' hle => ⟨hle.trans hbound, fun _ => hle⟩
  have hlocked : ∀ g' g'' : Graph, g'.activeProjects ≤ L → (SeatTask.mk r (.writing true g')).Fits L g'' :=
    fun g' g'' hle => ⟨hle, fun h => nomatch h⟩
  cases h with
  | waits hcommits =>
    rw [hcommits]
    exact hf
  | fails | locks | loads | claims | relocks | commits | answers => exact trivial
  | writes hfirst hfree hwrites => exact hunlocked _ (SeatRequest.newProject_inactive hnames hfirst hwrites)
  | updates hr hfree hclaim hrestores hflush =>
    exact hunlocked _ ((activeProjects_flush hflush (ProjectChanges.applied_status (Bool.not_eq_true _ ▸ hrestores))).trans
      (activeProjects_claim hclaim))
  | deletes hr hfree hclaim => exact hunlocked _ ((activeProjects_delete _ _).trans (activeProjects_claim hclaim))
  | finds hseat => exact requireActiveProjectSeat_ok.mp hseat
  | creates hfree hwrites => exact hlocked _ _ (SeatRequest.newProject_limit hf hwrites)
  | restores hr hseat hflush =>
    have hlt := requireActiveProjectSeat_ok.mp hseat
    have := activeProjects_flush_succ hflush
    exact hlocked _ _ (by omega)

theorem SeatTask.Fits.commits {u : SeatTask} (ht : t.Fits L g) (h : u.Fits L g)
    (hlock : t.holdsLock = true → u.holdsLock = true → False)
    (hwriter : t.holdsWriter = true → u.holdsWriter = true → False) : u.Fits L (t.commits g) := by
  obtain ⟨r, stage⟩ := t
  obtain ⟨r', stage'⟩ := u
  cases stage with
  | writing underLock =>
    cases stage' with
    | seated =>
      cases underLock with
      | true => exact (hlock rfl rfl).elim
      | false => exact Nat.lt_of_le_of_lt (ht.2 rfl) h
    | writing => exact (hwriter rfl rfl).elim
    | arrived | loaded _ | locked | claimed _ _ | restoring _ _ | committed _ | answered _ => exact trivial
  | arrived | loaded _ | locked | seated | claimed _ _ | restoring _ _ | committed _ | answered _ => exact h

theorem SeatTask.Fits.limit (h : t.Fits L g) (hbound : g.activeProjects ≤ L) :
    (t.commits g).activeProjects ≤ L := by
  obtain ⟨r, stage⟩ := t
  cases stage with
  | writing => exact h.1
  | arrived | loaded _ | locked | seated | claimed _ _ | restoring _ _ | committed _ | answered _ => exact hbound

end Fits

/-- The limit holds, and every task fits under it. -/
structure Allocator.Limited (L : Nat) (s : Allocator) : Prop extends s.Guarded where
  bound : s.graph.activeProjects ≤ L
  fits : ∀ (i : Nat) (t : SeatTask), s.tasks[i]? = some t → t.Fits L s.graph ∧ t.request.NamesStatus

theorem Allocator.limited_started {g : Graph} (h : g.activeProjects ≤ L) : (started g).Limited L :=
  ⟨guarded_started g, h, fun i t ht => by simp [started] at ht⟩

theorem Allocator.Limited.step {s : Allocator} (h : s.Limited L) {m : SeatMove} (hm : m.NamesStatus) :
    (s.step (some L) m).Limited L := by
  refine ⟨h.toGuarded.step (some L) m, ?_, ?_⟩
  · cases m with
    | arrive => exact h.bound
    | advance i =>
      simp only [Allocator.step]
      cases ht : s.tasks[i]? with
      | none => exact h.bound
      | some t => exact (h.fits i t ht).1.limit h.bound
    | fail i =>
      simp only [Allocator.step]
      cases s.tasks[i]? with
      | none => exact h.bound
      | some => exact h.bound
  · intro j u hu
    cases m with
    | arrive =>
      rcases Mutex.get_snoc_cases hu with hu | rfl
      · exact h.fits j u hu
      · exact ⟨trivial, hm⟩
    | advance i =>
      simp only [Allocator.step] at hu ⊢
      cases ht : s.tasks[i]? with
      | none =>
        rw [ht] at hu
        exact h.fits j u hu
      | some t =>
        rw [ht] at hu
        obtain ⟨hfits, hnames⟩ := h.fits i t ht
        rcases Mutex.get_set_cases hu with ⟨rfl, rfl⟩ | ⟨hne, hu⟩
        · exact ⟨t.goes.fits hfits hnames h.bound, hnames⟩
        · refine ⟨hfits.commits (h.fits j u hu).1 ?_ ?_, (h.fits j u hu).2⟩
          · exact fun hlt hlu => hne (h.lock j i u t hu ht hlu hlt)
          · exact fun hwt hwu => hne (h.writer j i u t hu ht hwu hwt)
    | fail i =>
      simp only [Allocator.step] at hu ⊢
      cases ht : s.tasks[i]? with
      | none =>
        rw [ht] at hu
        exact h.fits j u hu
      | some t =>
        rw [ht] at hu
        rcases Mutex.get_set_cases hu with ⟨rfl, rfl⟩ | ⟨-, hu⟩
        · exact ⟨trivial, (h.fits j t ht).2⟩
        · exact h.fits j u hu

/-- In every run without an import of a file that names the status null, the active projects
never exceed the limit, if they do not at the start. -/
theorem active_projects_limited (L : Nat) (g : Graph) (ms : List SeatMove) (hg : g.activeProjects ≤ L)
    (hms : Along (Allocator.step (some L)) (fun _ m => m.NamesStatus) (.started g) ms) :
    (run (Allocator.step (some L)) (.started g) ms).graph.activeProjects ≤ L :=
  (Along.invariant (Allocator.Limited L) (fun _ _ hs hm => hs.step hm) hms (Allocator.limited_started hg)).bound

namespace Demo

/-- The file `{"project": {"name": "copy", "status": status}}`. -/
def fileWithStatus (status : Value) : ImportFile where
  fields := fun c => match c with
    | .name => some (.text "copy")
    | .status => some status
    | .description | .goal | .settings => none
  rootNodeId := none
  nodes := []
  edges := []
  blocks := []

def thenImport (status : Value) : List SeatMove :=
  createAlone ++ [.arrive (.importJson (fileWithStatus status)), .advance 1 (ids "p2" "n2") 0, .advance 1 (ids "p2" "n2") 0]

end Demo

theorem active_projects_limited_archived :
    (run (Allocator.step (some 1)) (.started .empty) (Demo.thenImport (.text "archived"))).graph.activeProjects ≤ 1 :=
  active_projects_limited 1 .empty (Demo.thenImport (.text "archived")) (by decide)
    (by simp [Demo.thenImport, Demo.createAlone, Along, SeatMove.NamesStatus, SeatRequest.NamesStatus,
      ImportFile.NamesStatus, Demo.fileWithStatus])

/-- A file that names the status null is imported without a seat, as an active project. -/
theorem null_status_takes_no_seat :
    ¬ ∀ (L : Nat) (g : Graph) (ms : List SeatMove), g.activeProjects ≤ L →
      (run (Allocator.step (some L)) (.started g) ms).graph.activeProjects ≤ L := by
  intro hall
  have hlimit := hall 1 .empty (Demo.thenImport .null) (by decide)
  have htwo : (run (Allocator.step (some 1)) (.started .empty) (Demo.thenImport .null)).graph.activeProjects = 2 := by
    decide +kernel
  omega

end GrowthMap.Canon
