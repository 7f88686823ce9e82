import GrowthMap.Canon.Requests
import GrowthMap.Lib.Mutex
import GrowthMap.Lib.Runs

/- The allocator of active-project seats: the requests that create, import, update and
   delete projects, running next to each other in one process.

   Between two awaits a request runs alone. It reads what is committed; from its first write
   to its commit or rollback it holds the writer slot of the database, and its own
   transaction is seen by nobody else. `_project_seat_lock` is held over the count, the writes and
   the commit of a create, an import that takes a seat, and a restore; the restore
   has claimed the revision of its project, and so has written, before it takes the lock. A
   request may fail wherever it is, its transaction is rolled back and what it
   held is given back. -/
namespace GrowthMap.Canon

open Relational Runs Fallible

/-! Requests -/

/-- The columns an update names; a dictionary has a key once. -/
structure ProjectChanges where
  entries : List (ProjectField × Value)
  distinct : (entries.map Prod.fst).Nodup

inductive SeatRequest where
  | create (d : ProjectCreate)
  | importJson (f : ImportFile)
  | update (projectId : String) (expectedProject : Int) (changes : ProjectChanges)
  | delete (projectId : String) (expectedProject : Int)

def SeatRequest.route (seats : Option Nat) : SeatRequest → Request
  | .create d => .createProject seats d
  | .importJson f => .importProject seats f
  | .update projectId expectedProject changes => .updateProject seats projectId expectedProject changes.entries
  | .delete projectId expectedProject => .deleteProject projectId expectedProject

/-- `_create_project_committed` -/
def createCommitted (uuid : Nat → String) (d : ProjectCreate) (g : Graph) : Except Err Graph := do
  let fields : ProjectField → Value := fun c => match c with
    | .name => .text d.name
    | .description => .text d.description
    | .goal => .text d.goal
    | .status => .text "active"
    | .settings => d.settings
  let project : Project := ⟨uuid 0, none, fields, 1⟩
  let g ← insertProject project g
  let root := setFields [(.title, .text d.name), (.summary, .text d.description), (.nodeType, .text "concept")]
    NodeField.default
  let g ← insertNode ⟨uuid 1, uuid 0, none, root, "human", "human", 1⟩ g
  flushProject project { project with rootNodeId := some (uuid 1) } g

theorem createProject_eq (see : Nat → Graph) (uuid : Nat → String) (seats : Option Nat) (d : ProjectCreate) (g : Graph) :
    createProject see uuid seats d g = requireActiveProjectSeat seats 402 (see 0) >>= fun _ => createCommitted uuid d g := rfl

/-- A create, or an import whose file names the status `active` or none: they take the seat lock first. -/
def SeatRequest.seatFirst : SeatRequest → Bool
  | .create _ => true
  | .importJson f => decide (f.status = .text "active")
  | .update .. | .delete .. => false

def SeatRequest.newProject (uuid : Nat → String) (now : Int) (g : Graph) : SeatRequest → Except Err Graph
  | .create d => createCommitted uuid d g
  | .importJson f => importCommitted uuid now f g
  | .update .. | .delete .. => .error (.http 500 "Internal Server Error")

/-- The update makes a project active that was not, when it was loaded. -/
def ProjectChanges.restores (changes : ProjectChanges) (project : Project) : Bool :=
  decide (changes.entries.lookup .status = some (.text "active") ∧ project.fields .status ≠ .text "active")

def ProjectChanges.applied (changes : ProjectChanges) (project : Project) : Project :=
  { project with fields := changes.entries.foldl (fun f c => Function.update f c.1 c.2) project.fields }

/-! Tasks -/

inductive SeatStage where
  /-- before the first await -/
  | arrived
  /-- an update or a delete has loaded its project -/
  | loaded (project : Project)
  /-- holds the seat lock, before the count -/
  | locked
  /-- holds the seat lock, and found a free seat -/
  | seated
  /-- a restore that has claimed its revision; `g` is its transaction -/
  | claimed (project : Project) (g : Graph)
  /-- a restore that has claimed its revision and holds the seat lock -/
  | restoring (project : Project) (g : Graph)
  /-- everything is written to the transaction `g`, before the commit -/
  | writing (underLock : Bool) (g : Graph)
  /-- committed, before the refresh -/
  | committed (underLock : Bool)
  /-- answered -/
  | answered (reply : Except Err Unit)

structure SeatTask where
  request : SeatRequest
  stage : SeatStage

/-- The task is inside `async with _project_seat_lock`. -/
def SeatTask.holdsLock (t : SeatTask) : Bool :=
  match t.stage with
  | .locked | .seated | .restoring .. => true
  | .writing underLock _ | .committed underLock => underLock
  | .arrived | .loaded _ | .claimed .. | .answered _ => false

/-- The session of the task has written, and neither committed nor rolled back. -/
def SeatTask.holdsWriter (t : SeatTask) : Bool :=
  match t.stage with
  | .claimed .. | .restoring .. | .writing .. => true
  | .arrived | .loaded _ | .locked | .seated | .committed _ | .answered _ => false

/-- A transaction that went through, or the answer to its failure. -/
def SeatStage.ofWrites (next : Graph → SeatStage) : Except Err Graph → SeatStage
  | .ok g => next g
  | .error e => .answered (.error e)

/-- The first await of a request that takes no lock first. -/
def SeatRequest.begin (uuid : Nat → String) (now : Int) (writerFree : Bool) (g : Graph) (r : SeatRequest) : SeatStage :=
  match r with
  | .update projectId .. | .delete projectId _ =>
    match g.projects.get projectId with
    | none => .answered (.error (.http 404 "Project not found"))
    | some project => .loaded project
  | .create _ | .importJson _ => if writerFree then .ofWrites (.writing false) (r.newProject uuid now g) else .arrived

/-- The claim of an update or a delete, and what it writes when it needs no seat. -/
def SeatRequest.claimAndWrite (project : Project) (g : Graph) : SeatRequest → SeatStage
  | .update projectId expectedProject changes =>
    .ofWrites (fun g => if changes.restores project then .claimed project g
        else .ofWrites (.writing false) (flushProject project (changes.applied project) g))
      (claimProjectRevision projectId expectedProject g)
  | .delete projectId expectedProject =>
    .ofWrites (fun g => .writing false (deleteProjectRow projectId g)) (claimProjectRevision projectId expectedProject g)
  | .create _ | .importJson _ => .answered (.error (.http 500 "Internal Server Error"))

/-- The writes of a restore, under the lock; its count sees its own transaction. -/
def SeatRequest.restore (seats : Option Nat) (project : Project) (g : Graph) : SeatRequest → SeatStage
  | .update _ _ changes =>
    .ofWrites (.writing true)
      (requireActiveProjectSeat seats 409 g >>= fun _ => flushProject project (changes.applied project) g)
  | .create _ | .importJson _ | .delete .. => .answered (.error (.http 500 "Internal Server Error"))

/-- The task up to its next await. A task that needs the lock or the writer slot waits while it is not free. -/
def SeatTask.advance (seats : Option Nat) (uuid : Nat → String) (now : Int) (lockFree writerFree : Bool) (g : Graph)
    (t : SeatTask) : SeatStage :=
  match t.stage with
  | .arrived =>
    if t.request.seatFirst then (if lockFree then .locked else .arrived)
    else t.request.begin uuid now writerFree g
  | .loaded project => if writerFree then t.request.claimAndWrite project g else .loaded project
  | .locked =>
    match requireActiveProjectSeat seats 402 g with
    | .ok _ => .seated
    | .error e => .answered (.error e)
  | .seated => if writerFree then .ofWrites (.writing true) (t.request.newProject uuid now g) else .seated
  | .claimed project g' => if lockFree then .restoring project g' else .claimed project g'
  | .restoring project g' => t.request.restore seats project g'
  | .writing underLock _ => .committed underLock
  | .committed _ => .answered (.ok ())
  | .answered reply => .answered reply

def SeatTask.commits (t : SeatTask) (g : Graph) : Graph :=
  match t.stage with
  | .writing _ g' => g'
  | _ => g

/-! Runs -/

/-- What is committed, and the tasks of the process. -/
structure Allocator where
  graph : Graph
  tasks : List SeatTask

inductive SeatMove where
  | arrive (r : SeatRequest)
  /-- the task goes on to its next await -/
  | advance (i : Nat) (uuid : Nat → String) (now : Int)
  /-- the task fails where it is -/
  | fail (i : Nat) (e : Err)

def Allocator.lockFree (s : Allocator) : Bool := Mutex.free SeatTask.holdsLock s.tasks

def Allocator.writerFree (s : Allocator) : Bool := Mutex.free SeatTask.holdsWriter s.tasks

def Allocator.step (seats : Option Nat) (s : Allocator) : SeatMove → Allocator
  | .arrive r => { s with tasks := s.tasks ++ [⟨r, .arrived⟩] }
  | .advance i uuid now =>
    match s.tasks[i]? with
    | none => s
    | some t =>
      let stage := t.advance seats uuid now s.lockFree s.writerFree s.graph
      { graph := t.commits s.graph, tasks := s.tasks.set i { t with stage } }
  | .fail i e =>
    match s.tasks[i]? with
    | none => s
    | some t => { s with tasks := s.tasks.set i { t with stage := .answered (.error e) } }

def Allocator.started (g : Graph) : Allocator := ⟨g, []⟩

def SeatRequest.target : SeatRequest → Option String
  | .create _ | .importJson _ => none
  | .update projectId .. | .delete projectId _ => some projectId

/-! One step -/

variable {seats : Option Nat} {uuid : Nat → String} {now : Int} {lockFree writerFree : Bool} {g : Graph}

section Goes

variable (seats uuid now lockFree writerFree g)

/-- What a step makes of the stage of a task. -/
inductive SeatRequest.Goes (r : SeatRequest) : SeatStage → SeatStage → Prop
  | waits {stage : SeatStage} (h : (SeatTask.mk r stage).commits g = g) : Goes r stage stage
  | fails {stage : SeatStage} (h : (SeatTask.mk r stage).commits g = g) (e : Err) : Goes r stage (.answered (.error e))
  | locks (hfirst : r.seatFirst = true) (hfree : lockFree = true) : Goes r .arrived .locked
  | loads {projectId : String} {project : Project} (htarget : r.target = some projectId)
      (hload : g.projects.get projectId = some project) : Goes r .arrived (.loaded project)
  | writes {g' : Graph} (hfirst : r.seatFirst = false) (hfree : writerFree = true) (h : r.newProject uuid now g = .ok g') :
      Goes r .arrived (.writing false g')
  | claims {projectId : String} {expectedProject : Int} {changes : ProjectChanges} {project : Project} {g' : Graph}
      (hr : r = .update projectId expectedProject changes) (hfree : writerFree = true)
      (hclaim : claimProjectRevision projectId expectedProject g = .ok g') (hrestores : changes.restores project = true) :
      Goes r (.loaded project) (.claimed project g')
  | updates {projectId : String} {expectedProject : Int} {changes : ProjectChanges} {project : Project} {g' g'' : Graph}
      (hr : r = .update projectId expectedProject changes) (hfree : writerFree = true)
      (hclaim : claimProjectRevision projectId expectedProject g = .ok g') (hrestores : ¬ changes.restores project = true)
      (hflush : flushProject project (changes.applied project) g' = .ok g'') : Goes r (.loaded project) (.writing false g'')
  | deletes {projectId : String} {expectedProject : Int} {project : Project} {g' : Graph}
      (hr : r = .delete projectId expectedProject) (hfree : writerFree = true)
      (hclaim : claimProjectRevision projectId expectedProject g = .ok g') :
      Goes r (.loaded project) (.writing false (deleteProjectRow projectId g'))
  | finds (h : requireActiveProjectSeat seats 402 g = .ok ()) : Goes r .locked .seated
  | creates {g' : Graph} (hfree : writerFree = true) (h : r.newProject uuid now g = .ok g') : Goes r .seated (.writing true g')
  | relocks {project : Project} {g' : Graph} (hfree : lockFree = true) : Goes r (.claimed project g') (.restoring project g')
  | restores {projectId : String} {expectedProject : Int} {changes : ProjectChanges} {project : Project} {g' g'' : Graph}
      (hr : r = .update projectId expectedProject changes) (hseat : requireActiveProjectSeat seats 409 g' = .ok ())
      (hflush : flushProject project (changes.applied project) g' = .ok g'') : Goes r (.restoring project g') (.writing true g'')
  | commits {underLock : Bool} {g' : Graph} : Goes r (.writing underLock g') (.committed underLock)
  | answers {underLock : Bool} : Goes r (.committed underLock) (.answered (.ok ()))

end Goes

variable {r : SeatRequest} {stage stage' : SeatStage} {t : SeatTask}

theorem SeatRequest.goes_ofWrites {next : Graph → SeatStage} {x : Except Err Graph}
    (hstage : (SeatTask.mk r stage).commits g = g)
    (h : ∀ g', x = .ok g' → r.Goes seats uuid now lockFree writerFree g stage (next g')) :
    r.Goes seats uuid now lockFree writerFree g stage (.ofWrites next x) := by
  cases x with
  | ok g' => exact h g' rfl
  | error e => exact .fails hstage e

theorem SeatTask.goes (t : SeatTask) :
    t.request.Goes seats uuid now lockFree writerFree g t.stage (t.advance seats uuid now lockFree writerFree g) := by
  obtain ⟨r, stage⟩ := t
  cases stage with
  | arrived =>
    simp only [advance]
    by_cases hfirst : r.seatFirst = true
    · rw [if_pos hfirst]
      cases lockFree with
      | true => exact .locks hfirst rfl
      | false => exact .waits rfl
    · rw [if_neg hfirst]
      cases r with
      | create d => exact absurd rfl hfirst
      | importJson f =>
        cases writerFree with
        | true => exact SeatRequest.goes_ofWrites rfl (fun g' h => .writes (Bool.not_eq_true _ ▸ hfirst) rfl h)
        | false => exact .waits rfl
      | update projectId | delete projectId =>
        simp only [SeatRequest.begin]
        cases hload : g.projects.get projectId with
        | none => exact .fails rfl _
        | some project => exact .loads rfl hload
  | loaded project =>
    cases writerFree with
    | false => exact .waits rfl
    | true =>
      cases r with
      | create | importJson => exact .fails rfl _
      | delete => exact SeatRequest.goes_ofWrites rfl (fun g' hclaim => .deletes rfl rfl hclaim)
      | update projectId expectedProject changes =>
        refine SeatRequest.goes_ofWrites rfl (fun g' hclaim => ?_)
        dsimp only
        by_cases hrestores : changes.restores project = true
        · rw [if_pos hrestores]
          exact .claims rfl rfl hclaim hrestores
        · rw [if_neg hrestores]
          exact SeatRequest.goes_ofWrites rfl (fun g'' hflush => .updates rfl rfl hclaim hrestores hflush)
  | locked =>
    simp only [advance]
    cases hseat : requireActiveProjectSeat seats 402 g with
    | ok => exact .finds hseat
    | error e => exact .fails rfl e
  | seated =>
    cases writerFree with
    | false => exact .waits rfl
    | true => exact SeatRequest.goes_ofWrites rfl (fun g' h => .creates rfl h)
  | claimed project g' =>
    cases lockFree with
    | true => exact .relocks rfl
    | false => exact .waits rfl
  | restoring project g' =>
    cases r with
    | update =>
      refine SeatRequest.goes_ofWrites rfl (fun g'' h => ?_)
      obtain ⟨_, hseat, hflush⟩ := bind_ok h
      exact .restores rfl hseat hflush
    | create | importJson | delete => exact .fails rfl _
  | writing => exact .commits
  | committed => exact .answers
  | answered => exact .waits rfl

/-! The two locks -/

theorem SeatRequest.Goes.lock (h : r.Goes seats uuid now lockFree writerFree g stage stage')
    (hholds : (SeatTask.mk r stage').holdsLock = true) : (SeatTask.mk r stage).holdsLock = true ∨ lockFree = true := by
  cases h with
  | waits | commits => exact .inl hholds
  | locks hfirst hfree => exact .inr hfree
  | relocks hfree => exact .inr hfree
  | finds | creates | restores => exact .inl rfl
  | fails | loads | writes | claims | updates | deletes | answers => cases hholds

theorem SeatRequest.Goes.writer (h : r.Goes seats uuid now lockFree writerFree g stage stage')
    (hholds : (SeatTask.mk r stage').holdsWriter = true) : (SeatTask.mk r stage).holdsWriter = true ∨ writerFree = true := by
  cases h with
  | waits => exact .inl hholds
  | writes hfirst hfree => exact .inr hfree
  | claims hr hfree => exact .inr hfree
  | updates hr hfree => exact .inr hfree
  | deletes hr hfree => exact .inr hfree
  | creates hfree => exact .inr hfree
  | relocks | restores => exact .inl rfl
  | fails | locks | loads | finds | commits | answers => cases hholds

/-- At most one task holds the seat lock, and at most one the writer slot. -/
structure Allocator.Guarded (s : Allocator) : Prop where
  lock : Mutex.Exclusive SeatTask.holdsLock s.tasks
  writer : Mutex.Exclusive SeatTask.holdsWriter s.tasks

theorem Allocator.guarded_started (g : Graph) : (started g).Guarded := ⟨Mutex.exclusive_nil, Mutex.exclusive_nil⟩

variable {s : Allocator} {g' : Graph}

theorem Allocator.Guarded.step (h : s.Guarded) (seats : Option Nat) (m : SeatMove) :
    (s.step seats m).Guarded := by
  cases m with
  | arrive => exact ⟨h.lock.snoc rfl, h.writer.snoc rfl⟩
  | advance i =>
    simp only [Allocator.step]
    cases ht : s.tasks[i]? with
    | none => exact h
    | some t => exact ⟨h.lock.set ht t.goes.lock, h.writer.set ht t.goes.writer⟩
  | fail i =>
    simp only [Allocator.step]
    cases ht : s.tasks[i]? with
    | none => exact h
    | some => exact ⟨h.lock.set ht (fun hh => nomatch hh), h.writer.set ht (fun hh => nomatch hh)⟩

/-! What is committed -/

/-- What the task holds came from its route: the row it loaded was there, the seat it found was
free, and its transaction is what the route makes of the committed graph. -/
def SeatTask.Follows (seats : Option Nat) (g : Graph) (t : SeatTask) : Prop :=
  match t.stage with
  | .loaded project => ∃ (g₀ : Graph) (projectId : String), t.request.target = some projectId ∧ g₀.projects.get projectId = some project
  | .seated => t.request.seatFirst = true ∧ ∃ g₀, requireActiveProjectSeat seats 402 g₀ = .ok ()
  | .locked => t.request.seatFirst = true
  | .claimed project g' | .restoring project g' =>
    ∃ (g₀ : Graph) (projectId : String) (expectedProject : Int) (changes : ProjectChanges),
      t.request = .update projectId expectedProject changes ∧ g₀.projects.get projectId = some project ∧
      changes.restores project = true ∧ claimProjectRevision projectId expectedProject g = .ok g'
  | .writing _ g' => ∃ see uuid now, (t.request.route seats).run see uuid now g = .ok g'
  | .arrived | .committed _ | .answered _ => True

section Follows

variable {g₀ : Graph}

theorem SeatRequest.newProject_route {r : SeatRequest} {g' : Graph}
    (hseat : r.seatFirst = true → requireActiveProjectSeat seats 402 g₀ = .ok ()) (h : r.newProject uuid now g = .ok g') :
    (r.route seats).run (fun _ => g₀) (fun _ => uuid) now g = .ok g' := by
  cases r with
  | create d =>
    show createProject (fun _ => g₀) uuid seats d g = .ok g'
    rw [createProject_eq, hseat rfl]
    exact h
  | importJson f =>
    show importProjectJson (fun _ => g₀) uuid seats now f g = .ok g'
    unfold importProjectJson
    by_cases hactive : f.status = .text "active"
    · rw [if_neg (not_not.mpr hactive), hseat (decide_eq_true hactive)]
      exact h
    · rw [if_pos hactive]
      exact h
  | update => cases h
  | delete => cases h

theorem ProjectChanges.flush_route {changes : ProjectChanges} {projectId : String} {expectedProject : Int}
    {project : Project} {g'' : Graph} (hload : g₀.projects.get projectId = some project)
    (hclaim : claimProjectRevision projectId expectedProject g = .ok g')
    (hseat : changes.restores project = true → requireActiveProjectSeat seats 409 g' = .ok ())
    (hflush : flushProject project (changes.applied project) g' = .ok g'') :
    ((SeatRequest.update projectId expectedProject changes).route seats).run (fun _ => g₀) (fun _ => uuid) now g =
      .ok g'' := by
  show updateProject (fun _ => g₀) seats projectId expectedProject changes.entries g = .ok g''
  simp only [updateProject, hload, hclaim, ok_bind]
  by_cases hr : changes.restores project = true
  · rw [if_pos (of_decide_eq_true hr), hseat hr]
    exact hflush
  · rw [if_neg (fun hc => hr (decide_eq_true hc))]
    exact hflush

/-- What a task holds after a step came from its route, too. -/
theorem SeatRequest.Goes.follows (h : r.Goes seats uuid now lockFree writerFree g stage stage')
    (hf : (SeatTask.mk r stage).Follows seats g) :
    (SeatTask.mk r stage').Follows seats ((SeatTask.mk r stage).commits g) := by
  cases h with
  | waits hcommits =>
    rw [hcommits]
    exact hf
  | fails | commits | answers => exact trivial
  | locks hfirst => exact hfirst
  | relocks => exact hf
  | loads htarget hload => exact ⟨g, _, htarget, hload⟩
  | finds hseat => exact ⟨hf, g, hseat⟩
  | writes hfirst hfree hwrites =>
    exact ⟨fun _ => g, _, _, SeatRequest.newProject_route (fun ht => absurd (hfirst ▸ ht) Bool.false_ne_true) hwrites⟩
  | creates hfree hwrites =>
    obtain ⟨-, g₀, hseat⟩ := hf
    exact ⟨_, _, _, SeatRequest.newProject_route (fun _ => hseat) hwrites⟩
  | claims hr hfree hclaim hrestores =>
    obtain ⟨g₀, projectId, htarget, hload⟩ := hf
    cases hr
    cases htarget
    exact ⟨g₀, _, _, _, rfl, hload, hrestores, hclaim⟩
  | updates hr hfree hclaim hrestores hflush =>
    obtain ⟨g₀, projectId, htarget, hload⟩ := hf
    cases hr
    cases htarget
    exact ⟨_, fun _ _ => "", 0, ProjectChanges.flush_route hload hclaim (fun ht => absurd ht hrestores) hflush⟩
  | deletes hr hfree hclaim =>
    obtain ⟨g₀, projectId, htarget, hload⟩ := hf
    cases hr
    cases htarget
    refine ⟨fun _ => g₀, fun _ _ => "", 0, ?_⟩
    show deleteProject (fun _ => g₀) _ _ g = _
    simp only [deleteProject, hload, hclaim, ok_bind]
    rfl
  | restores hr hseat hflush =>
    obtain ⟨g₀, projectId, expectedProject, changes, rfl, hload, -, hclaim⟩ := hf
    cases hr
    exact ⟨_, fun _ _ => "", 0, ProjectChanges.flush_route hload hclaim (fun _ => hseat) hflush⟩

theorem SeatTask.Follows.commits {u : SeatTask} (h : u.Follows seats g)
    (hother : t.holdsWriter = true → u.holdsWriter = true → False) : u.Follows seats (t.commits g) := by
  obtain ⟨r, stage⟩ := t
  obtain ⟨r', stage'⟩ := u
  cases stage with
  | writing =>
    cases stage' with
    | claimed project g'' | restoring project g'' => exact (hother rfl rfl).elim
    | writing => exact (hother rfl rfl).elim
    | arrived | loaded _ | locked | seated | committed _ | answered _ => exact h
  | arrived | loaded _ | locked | seated | claimed _ _ | restoring _ _ | committed _ | answered _ => exact h

end Follows

/-- Every task of the process follows its route. -/
structure Allocator.Faithful (seats : Option Nat) (s : Allocator) : Prop extends s.Guarded where
  follows : ∀ (i : Nat) (t : SeatTask), s.tasks[i]? = some t → t.Follows seats s.graph

theorem Allocator.faithful_started (seats : Option Nat) (g : Graph) : (started g).Faithful seats :=
  ⟨guarded_started g, fun i t ht => by simp [started] at ht⟩

theorem Allocator.Faithful.step {seats : Option Nat} (h : s.Faithful seats) (m : SeatMove) :
    (s.step seats m).Faithful seats := by
  refine ⟨h.toGuarded.step seats m, ?_⟩
  cases m with
  | arrive =>
    intro j u hu
    rcases Mutex.get_snoc_cases hu with hu | rfl
    · exact h.follows j u hu
    · exact trivial
  | advance i =>
    intro j u hu
    simp only [Allocator.step] at hu ⊢
    cases ht : s.tasks[i]? with
    | none =>
      rw [ht] at hu
      exact h.follows j u hu
    | some t =>
      rw [ht] at hu
      rcases Mutex.get_set_cases hu with ⟨rfl, rfl⟩ | ⟨hne, hu⟩
      · exact t.goes.follows (h.follows j t ht)
      · exact (h.follows j u hu).commits (fun hwt hwu => hne (h.writer j i u t hu ht hwu hwt))
  | fail i =>
    intro j u hu
    simp only [Allocator.step] at hu ⊢
    cases ht : s.tasks[i]? with
    | none =>
      rw [ht] at hu
      exact h.follows j u hu
    | some =>
      rw [ht] at hu
      rcases Mutex.get_set_cases hu with ⟨rfl, rfl⟩ | ⟨-, hu⟩
      · exact trivial
      · exact h.follows j u hu

namespace Demo

def ids (project root : String) (n : Nat) : String := if n = 0 then project else root

def createAlone : List SeatMove :=
  [.arrive (.create ⟨"garden", "", "", .json "{}"⟩), .advance 0 (ids "p1" "n1") 0, .advance 0 (ids "p1" "n1") 0,
    .advance 0 (ids "p1" "n1") 0, .advance 0 (ids "p1" "n1") 0, .advance 0 (ids "p1" "n1") 0]

/-- The create is about to commit. -/
def underway : Allocator := run (Allocator.step (some 3)) (Allocator.started Graph.empty) (createAlone.take 4)

end Demo

end GrowthMap.Canon
