import GrowthMap.Lib.Runs
import Mathlib.Logic.Function.Basic

/- The history panel of a node.

   The selection of a node, the effect that follows it, the click that loads and the answers
   of the server come in any order. A load is known by its generation: while that is the one
   of the coordinator, and the selection is the same, its answers go into the view. The view
   carries the key of the selection it is of, so that a selection whose effect has not run
   yet shows nothing of the former one. -/
namespace GrowthMap.Client

namespace NodeHistory

structure Selected where
  projectId : String
  id : String

/-- `selectedNodeKey` -/
def Selected.key (s : Selected) : String := s.projectId ++ ":" ++ s.id

/-- `NodeHistoryViewState`; `shown` is its `show`. -/
structure View (H R : Type) where
  selectionKey : String
  history : List H
  readbacks : List R
  shown : Bool
  loading : Bool
  error : Option String
  traceUnavailable : Bool

variable {H R : Type}

def freshNodeHistoryView (selectionKey : String) : View H R := ⟨selectionKey, [], [], false, false, none, false⟩

def visibleNodeHistoryView (state : View H R) (currentSelectionKey : String) : View H R :=
  if state.selectionKey = currentSelectionKey then state else freshNodeHistoryView currentSelectionKey

/-- `NodeHistoryRequestCoordinator` -/
structure Coordinator where
  generation : Nat
  selectedKey : String

def Coordinator.select (selectedKey : String) (c : Coordinator) : Coordinator := ⟨c.generation + 1, selectedKey⟩

def Coordinator.begin (c : Coordinator) : Coordinator := { c with generation := c.generation + 1 }

/-- What `begin` returns for a load. -/
def Coordinator.isCurrent (c : Coordinator) (generation : Nat) (selectedKey : String) : Bool :=
  decide (c.generation = generation ∧ c.selectedKey = selectedKey)

structure Failure where
  status : Option Nat
  message : String

/-- The answer a load waits for. -/
inductive Awaits where
  | history | activity | nothing
  deriving DecidableEq

/-- The panel, and by their generation the loads with the node each was begun for. -/
structure Panel (H R : Type) where
  selectedNode : Selected
  storedView : View H R
  coordinator : Coordinator
  loads : Nat → Option (Selected × Awaits)

def Panel.initial (node : Selected) : Panel H R := ⟨node, freshNodeHistoryView node.key, ⟨0, node.key⟩, fun _ => none⟩

def Panel.view (p : Panel H R) : View H R := visibleNodeHistoryView p.storedView p.selectedNode.key

inductive Event (H R : Type) where
  | select (node : Selected)
  | effect
  | load
  | hide
  | history (generation : Nat) (answer : Except Failure (List H))
  | activity (generation : Nat) (answer : Except Failure (List R))

/-! The callbacks -/

/-- `setStoredView` in a callback: a view of another selection stays. -/
def View.tagged (key : String) (f : View H R → View H R) (v : View H R) : View H R := if v.selectionKey = key then f v else v

def onHistory (history : List H) (v : View H R) : View H R := { v with history, shown := true }

def onActivity (readbacks : List R) (v : View H R) : View H R := { v with readbacks }

def onUnavailable (v : View H R) : View H R := { v with readbacks := [], traceUnavailable := true }

def onError (error : Failure) (v : View H R) : View H R := { v with error := some error.message }

def onSettled (v : View H R) : View H R := { v with loading := false }

def Failure.unavailable (e : Failure) : Prop := e.status = some 401 ∨ e.status = some 403

instance (e : Failure) : Decidable e.unavailable := inferInstanceAs (Decidable (_ ∨ _))

/-- `loadNodeHistory` after an answer: a load that is no longer current ends there. -/
def Panel.resume (generation : Nat) (node : Selected) (awaits : Awaits) (f : View H R → View H R) (p : Panel H R) : Panel H R :=
  if p.coordinator.isCurrent generation node.key then
    { p with
      storedView := p.storedView.tagged node.key f, loads := Function.update p.loads generation (some (node, awaits)) }
  else { p with loads := Function.update p.loads generation (some (node, .nothing)) }

def step (p : Panel H R) : Event H R → Panel H R
  | .select node => { p with selectedNode := node }
  | .effect =>
    { p with
      coordinator := p.coordinator.select p.selectedNode.key, storedView := freshNodeHistoryView p.selectedNode.key }
  | .load =>
    -- the button is there while nothing is shown, and enabled while nothing loads
    if p.view.shown || p.view.loading then p
    else
      let coordinator := p.coordinator.begin
      { p with
        storedView := { freshNodeHistoryView p.selectedNode.key with loading := true }, coordinator
        loads := Function.update p.loads coordinator.generation (some (p.selectedNode, .history)) }
  | .hide => { p with storedView := p.storedView.tagged p.selectedNode.key (fun v => { v with shown := false }) }
  | .history generation answer =>
    match p.loads generation, answer with
    | some (node, .history), .ok history => p.resume generation node .activity (onHistory history)
    | some (node, .history), .error e => p.resume generation node .nothing (onSettled ∘ onError e)
    | _, _ => p
  | .activity generation answer =>
    match p.loads generation, answer with
    | some (node, .activity), .ok readbacks => p.resume generation node .nothing (onSettled ∘ onActivity readbacks)
    | some (node, .activity), .error e =>
      p.resume generation node .nothing (onSettled ∘ if e.unavailable then onUnavailable else onError e)
    | _, _ => p

/-! What a view was told -/

variable {es : List (Event H R)} {e : Event H R} {p : Panel H R} {v : View H R} {generation : Nat} {node : Selected}
  {waits awaits : Awaits} {f : View H R → View H R}

def View.Blank (v : View H R) : Prop := v.history = [] ∧ v.readbacks = [] ∧ v.error = none ∧ v.traceUnavailable = false

/-- All that the view has are answers to one load. -/
structure Answered (es : List (Event H R)) (generation : Nat) (v : View H R) : Prop where
  history : v.history = [] ∨ .history generation (.ok v.history) ∈ es
  readbacks : v.readbacks = [] ∨ .activity generation (.ok v.readbacks) ∈ es
  error : ∀ m, v.error = some m →
    ∃ x : Failure, x.message = m ∧ (.history generation (.error x) ∈ es ∨ .activity generation (.error x) ∈ es)
  trace : v.traceUnavailable = true → ∃ x : Failure, x.unavailable ∧ .activity generation (.error x) ∈ es

theorem View.Blank.answered (h : v.Blank) : Answered es generation v := by
  obtain ⟨hhistory, hreadbacks, herror, htrace⟩ := h
  exact ⟨.inl hhistory, .inl hreadbacks, by simp [herror], by simp [htrace]⟩

theorem Answered.more (h : Answered es generation v) : Answered (es ++ [e]) generation v := by
  refine ⟨h.history.imp_right (List.mem_append_left _), h.readbacks.imp_right (List.mem_append_left _), ?_, ?_⟩
  · intro m hm
    obtain ⟨x, hx, hin⟩ := h.error m hm
    exact ⟨x, hx, hin.imp (List.mem_append_left _) (List.mem_append_left _)⟩
  · intro ht
    obtain ⟨x, hx, hin⟩ := h.trace ht
    exact ⟨x, hx, List.mem_append_left _ hin⟩

/-! Runs -/

/-- The view is blank, or of the load of the coordinator's generation; while it loads
under the coordinator's selection, that load waits for an answer. -/
structure Sound (es : List (Event H R)) (p : Panel H R) : Prop where
  told : p.storedView.Blank ∨ ∃ node waits, p.loads p.coordinator.generation = some (node, waits) ∧
    node.key = p.storedView.selectionKey ∧ Answered es p.coordinator.generation p.storedView
  awaited : p.storedView.loading = true → p.coordinator.selectedKey = p.storedView.selectionKey →
    ∃ node waits, p.loads p.coordinator.generation = some (node, waits) ∧ node.key = p.coordinator.selectedKey ∧ waits ≠ .nothing

theorem Sound.more (h : Sound es p) : Sound (es ++ [e]) p := by
  refine ⟨h.told.imp_right ?_, h.awaited⟩
  rintro ⟨node, waits, hload, hkey, hanswered⟩
  exact ⟨node, waits, hload, hkey, hanswered.more⟩

/-- A load goes on: while it is current it is the one the view is of, or the view is blank. -/
theorem Sound.resume (h : Sound es p) (hload : p.loads generation = some (node, waits))
    (hkey : ∀ v, (f v).selectionKey = v.selectionKey)
    (hf : ∀ v, Answered es generation v → Answered (es ++ [e]) generation (f v))
    (hends : awaits = .nothing → ∀ v, (f v).loading = false) :
    Sound (es ++ [e]) (p.resume generation node awaits f) := by
  unfold Panel.resume
  by_cases hcurrent : p.coordinator.isCurrent generation node.key = true
  · rw [if_pos hcurrent]
    obtain ⟨rfl, hselected⟩ := of_decide_eq_true hcurrent
    unfold View.tagged
    by_cases htag : p.storedView.selectionKey = node.key
    · rw [if_pos htag]
      have hanswered : Answered es p.coordinator.generation p.storedView := by
        rcases h.told with hblank | ⟨-, -, -, -, hanswered⟩
        · exact hblank.answered
        · exact hanswered
      refine ⟨.inr ⟨node, awaits, Function.update_self .., ?_, hf _ hanswered⟩, ?_⟩
      · rw [hkey, htag]
      · intro hloading _
        refine ⟨node, awaits, Function.update_self .., hselected.symm, ?_⟩
        intro hnothing
        rw [hends hnothing] at hloading
        cases hloading
    · rw [if_neg htag]
      refine ⟨.inl ?_, fun _ hsame => absurd (hsame.symm.trans hselected) htag⟩
      rcases h.told with hblank | ⟨node', waits', hload', hkey', -⟩
      · exact hblank
      · rw [hload] at hload'
        cases hload'
        exact absurd hkey'.symm htag
  · rw [if_neg hcurrent]
    have hother : ∀ n w, p.loads p.coordinator.generation = some (n, w) →
        ∃ w', Function.update p.loads generation (some (node, .nothing)) p.coordinator.generation = some (n, w') ∧
          (n.key = p.coordinator.selectedKey → w' = w) := by
      intro n w hn
      by_cases hg : p.coordinator.generation = generation
      · subst hg
        rw [hload] at hn
        cases hn
        refine ⟨.nothing, Function.update_self .., fun heq => ?_⟩
        exact absurd (decide_eq_true ⟨rfl, heq.symm⟩) hcurrent
      · exact ⟨w, by rw [Function.update_of_ne hg, hn], fun _ => rfl⟩
    refine ⟨h.told.imp_right ?_, ?_⟩
    · rintro ⟨n, w, hn, hkey', hanswered⟩
      obtain ⟨w', hw', -⟩ := hother n w hn
      exact ⟨n, w', hw', hkey', hanswered.more⟩
    · intro hloading hsame
      obtain ⟨n, w, hn, hkey', hwaits⟩ := h.awaited hloading hsame
      obtain ⟨w', hw', heq⟩ := hother n w hn
      exact ⟨n, w', hw', hkey', by rw [heq hkey']; exact hwaits⟩

theorem Sound.step (h : Sound es p) (e : Event H R) : Sound (es ++ [e]) (step p e) := by
  have hmore : Sound (es ++ [e]) p := h.more
  cases e with
  | select => exact ⟨hmore.told, hmore.awaited⟩
  | effect => exact ⟨.inl ⟨rfl, rfl, rfl, rfl⟩, nofun⟩
  | load =>
    simp only [NodeHistory.step]
    split
    · exact hmore
    · exact ⟨.inl ⟨rfl, rfl, rfl, rfl⟩, fun _ hsame => ⟨_, _, Function.update_self .., hsame.symm, by decide⟩⟩
  | hide =>
    simp only [NodeHistory.step, View.tagged]
    split
    · refine ⟨hmore.told.imp_right ?_, hmore.awaited⟩
      rintro ⟨node, waits, hload, hkey, hhistory, hreadbacks, herror, htrace⟩
      exact ⟨node, waits, hload, hkey, hhistory, hreadbacks, herror, htrace⟩
    · exact hmore
  | history generation answer =>
    simp only [NodeHistory.step]
    split
    · refine h.resume ‹_› (fun _ => rfl) (fun v hv => ?_) nofun
      exact ⟨.inr (by simp [onHistory]), hv.more.readbacks, hv.more.error, hv.more.trace⟩
    · rename_i x hload
      refine h.resume hload (fun _ => rfl) (fun v hv => ?_) (fun _ _ => rfl)
      exact ⟨hv.more.history, hv.more.readbacks, fun m hm => ⟨x, Option.some.inj hm, .inl (by simp)⟩, hv.more.trace⟩
    · exact hmore
  | activity generation answer =>
    simp only [NodeHistory.step]
    split
    · refine h.resume ‹_› (fun _ => rfl) (fun v hv => ?_) (fun _ _ => rfl)
      exact ⟨hv.more.history, .inr (by simp [onActivity, onSettled]), hv.more.error, hv.more.trace⟩
    · rename_i x hload
      by_cases hx : x.unavailable
      · rw [if_pos hx]
        refine h.resume hload (fun _ => rfl) (fun v hv => ?_) (fun _ _ => rfl)
        exact ⟨hv.more.history, .inl rfl, hv.more.error, fun _ => ⟨x, hx, by simp⟩⟩
      · rw [if_neg hx]
        refine h.resume hload (fun _ => rfl) (fun v hv => ?_) (fun _ _ => rfl)
        exact ⟨hv.more.history, hv.more.readbacks, fun m hm => ⟨x, Option.some.inj hm, .inr (by simp)⟩, hv.more.trace⟩
    · exact hmore

theorem sound_run (node : Selected) (es : List (Event H R)) : Sound es (Runs.run step (Panel.initial node) es) := by
  induction es using List.reverseRecOn with
  | nil => exact ⟨.inl ⟨rfl, rfl, rfl, rfl⟩, nofun⟩
  | append_singleton es e ih =>
    rw [Runs.run_snoc]
    exact ih.step e

/-- In whatever order selections, clicks and answers come: what is seen under a node is what
the server answered to the latest load, and that load was begun for this node. -/
theorem view_answered (node : Selected) (es : List (Event H R)) :
    let p := Runs.run step (Panel.initial node) es
    p.view.Blank ∨ ∃ loaded waits, p.loads p.coordinator.generation = some (loaded, waits) ∧
      loaded.key = p.selectedNode.key ∧ Answered es p.coordinator.generation p.view := by
  intro p
  show (visibleNodeHistoryView p.storedView p.selectedNode.key).Blank ∨ _
  unfold Panel.view visibleNodeHistoryView
  split
  · rename_i hsame
    rcases (sound_run node es).told with hblank | ⟨loaded, waits, hload, hkey, hanswered⟩
    · exact .inl hblank
    · exact .inr ⟨loaded, waits, hload, hkey.trans hsame, hanswered⟩
  · exact .inl ⟨rfl, rfl, rfl, rfl⟩

/-! While it loads -/

/-- The load is the current one, and the view is of the selection it was begun for. -/
structure Pending (p : Panel H R) (generation : Nat) (node : Selected) : Prop where
  current : p.coordinator.isCurrent generation node.key = true
  node : node.key = p.selectedNode.key
  tag : p.storedView.selectionKey = p.selectedNode.key

theorem Pending.settles (h : Pending p generation node) (hkey : ∀ v, (f v).selectionKey = v.selectionKey)
    (hends : ∀ v, (f v).loading = false) : (p.resume generation node awaits f).view.loading = false := by
  unfold Panel.resume View.tagged
  rw [if_pos h.current, if_pos (h.tag.trans h.node.symm)]
  show (visibleNodeHistoryView (f p.storedView) p.selectedNode.key).loading = false
  rw [visibleNodeHistoryView, if_pos ((hkey _).trans h.tag)]
  exact hends _

theorem Pending.resumes (h : Pending p generation node) (awaits : Awaits)
    (hkey : ∀ v, (f v).selectionKey = v.selectionKey) :
    Pending (p.resume generation node awaits f) generation node ∧
      (p.resume generation node awaits f).loads generation = some (node, awaits) := by
  simp only [Panel.resume, h.current, if_true, View.tagged, h.tag.trans h.node.symm]
  exact ⟨⟨h.current, h.node, (hkey _).trans h.tag⟩, Function.update_self ..⟩

theorem Pending.activity (h : Pending p generation node) (hload : p.loads generation = some (node, .activity))
    (answer : Except Failure (List R)) : (step p (.activity generation answer)).view.loading = false := by
  simp only [step, hload]
  cases answer with
  | ok => exact h.settles (fun _ => rfl) (fun _ => rfl)
  | error e =>
    refine h.settles (fun v => ?_) (fun _ => rfl)
    by_cases he : e.unavailable
    · simp [he, onUnavailable, onSettled]
    · simp [he, onError, onSettled]

/-- Once the effect of the selection has run, a panel that loads waits for an answer to its
latest load, and has stopped loading when the server has given both, whatever they are. -/
theorem loading_ends (node : Selected) (es : List (Event H R)) :
    let p := Runs.run step (Panel.initial node) es
    p.view.loading = true → p.coordinator.selectedKey = p.selectedNode.key →
      ∃ loaded waits, p.loads p.coordinator.generation = some (loaded, waits) ∧ waits ≠ .nothing ∧
        ∀ history activity, (Runs.run step p [.history p.coordinator.generation history,
          .activity p.coordinator.generation activity]).view.loading = false := by
  intro p hloading hselected
  have hsound : Sound es p := sound_run node es
  clear_value p
  have htag : p.storedView.selectionKey = p.selectedNode.key := by
    by_contra hother
    rw [Panel.view, visibleNodeHistoryView, if_neg hother] at hloading
    cases hloading
  rw [Panel.view, visibleNodeHistoryView, if_pos htag] at hloading
  obtain ⟨loaded, waits, hload, hkey, hwaits⟩ := hsound.awaited hloading (hselected.trans htag.symm)
  have hpending : Pending p p.coordinator.generation loaded :=
    ⟨decide_eq_true ⟨rfl, hkey.symm⟩, hkey.trans hselected, htag⟩
  refine ⟨loaded, waits, hload, hwaits, fun history activity => ?_⟩
  rw [Runs.run_cons, Runs.run_cons, Runs.run_nil]
  cases waits with
  | nothing => exact absurd rfl hwaits
  | activity =>
    have hstays : step p (.history p.coordinator.generation history) = p := by simp only [step, hload]
    rw [hstays]
    exact hpending.activity hload activity
  | history =>
    cases history with
    | ok history =>
      have hgoes : step p (.history p.coordinator.generation (.ok history)) =
          p.resume p.coordinator.generation loaded .activity (onHistory history) := by simp only [step, hload]
      rw [hgoes]
      obtain ⟨hnext, hloads⟩ := hpending.resumes (f := onHistory history) .activity (fun _ => rfl)
      exact hnext.activity hloads activity
    | error e =>
      have hgoes : step p (.history p.coordinator.generation (.error e)) =
          p.resume p.coordinator.generation loaded .nothing (onSettled ∘ onError e) := by simp only [step, hload]
      rw [hgoes]
      obtain ⟨-, hloads⟩ := hpending.resumes (f := onSettled ∘ onError e) .nothing (fun _ => rfl)
      simp only [step, hloads]
      exact hpending.settles (fun _ => rfl) (fun _ => rfl)

/-- After one click. -/
theorem loading_ends_click :
    let p : Panel String String := Runs.run step (Panel.initial ⟨"growth", "root"⟩) [.load]
    ∃ loaded waits, p.loads p.coordinator.generation = some (loaded, waits) ∧ waits ≠ .nothing ∧
      ∀ history activity, (Runs.run step p [.history p.coordinator.generation history,
        .activity p.coordinator.generation activity]).view.loading = false :=
  loading_ends ⟨"growth", "root"⟩ [.load] (by decide) rfl

end NodeHistory

end GrowthMap.Client
