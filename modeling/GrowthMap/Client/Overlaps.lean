import GrowthMap.Client.World

/- What the store should show, and which actions may wait at the same time.

   Every action captures what it needs before it waits and writes it back afterwards. What it
   writes back is its kind and the tree it has in hand, and from these alone one sees which
   actions disturb each other. -/
namespace GrowthMap.Client

open Canon (Graph Project Branch)

/-! What the store should show -/

/-- The store shows what it says, to an observer who notes selections and acknowledgements. -/
structure World.Shows (w : World) : Prop where
  /-- the current project is the one that was selected last -/
  project : w.store.currentProject.map Project.id = w.latest
  /-- the tree is the one of the current branch, or the main tree of the current project -/
  tree : ∀ shown, w.store.rootNode = some shown →
    ∃ p, w.store.currentProject = some p ∧ shown.source = treeSource p w.store.currentBranch
  branch : ∀ b, w.store.currentBranch = some b → ∃ p, w.store.currentProject = some p ∧ b.projectId = p.id
  branches : ∀ b ∈ w.store.branches, ∃ p, w.store.currentProject = some p ∧ b.projectId = p.id
  /-- what was created since the tree was fetched is in it, unless it was deleted -/
  created : ∀ shown, w.store.rootNode = some shown → ∀ x ∈ w.created.drop shown.since, x ∈ ids shown.tree ∨ x ∈ w.removed

/-! Overlaps -/

/-- What an action writes: the branches, all of the selection, the branch and its tree, a new
node, or the tree as it is. -/
inductive Kind where
  | list | project | branch | create | edit
  deriving DecidableEq

def Action.kind : Action → Option Kind
  | .loadBranches _ => some .list
  | .selectProject _ => some .project
  | .selectBranch _ => some .branch
  | .addChildNode .. | .acceptSuggestion _ => some .create
  | .updateNode .. | .deleteNode _ | .refreshTree | .promoteMainlineChild .. | .reparentNode .. => some .edit
  | .loadProjects | .undo | .createBranch .. | .archiveBranch _ | .mergeBranch .. | .acceptAllSuggestions | .acceptDeepen => none

def Frame.kind : Frame → Kind
  | .branches => .list
  | .selected .. => .project
  | .selectedBranch .. => .branch
  | .added .. | .accepted .. => .create
  | _ => .edit

def Store.view (s : Store) : Option HttpRequest := s.currentProject.map (fun p => treeSource p s.currentBranch)

def Action.view (s : Store) : Action → Option HttpRequest
  | .selectProject project => some (.subtree (rootPath project))
  | _ => s.view

def Action.tree (s : Store) : Action → Option HttpRequest
  | .selectProject project => some (.subtree (rootPath project))
  | .selectBranch branch => s.currentProject.map (fun p => treeSource p branch)
  | .refreshTree | .reparentNode .. => s.view
  | _ => s.rootNode.map Shown.source

/-- The tree that a waiting action writes; `reparentNode` asks for the one of its time. -/
def Frame.tree (view : Option HttpRequest) : Frame → Option HttpRequest
  | .selected _ source _ | .refresh source _ _ | .selectedBranch _ source _ => some source
  | .added _ shown _ _ | .accepted _ shown _ _ _ => some shown.source
  | .updated _ shown _ | .deleted _ shown _ | .promoted _ shown _ _ => some shown.source
  | _ => view

/-- Two actions may wait at the same time: one only lists branches, both select a branch, or
both write one tree and neither a new node. -/
def agree (a b : Kind × Option HttpRequest) : Prop :=
  a.1 = .list ∨ b.1 = .list ∨ (a.1 = .branch ∧ b.1 = .branch) ∨ (a.1 ≠ .create ∧ b.1 ≠ .create ∧ a.2 = b.2)

/-- A project that the current one differs from in its revision at most. -/
def Store.At (s : Store) (project : Project) : Prop :=
  ∃ p, s.currentProject = some p ∧ p.id = project.id ∧ p.rootNodeId = project.rootNodeId

/-- What an action is called with is what the store shows: its project, a branch of the list, a
node of the tree. -/
def Action.OfShown (s : Store) : Action → Prop
  | .loadBranches projectId => s.currentProject.map Project.id = some projectId
  | .selectBranch (some branch) => branch ∈ s.branches
  | .addChildNode parentId _ _ => ∀ shown, s.rootNode = some shown → parentId ∈ ids shown.tree
  | .acceptSuggestion _ => ∀ shown target, s.rootNode = some shown → s.expandTargetNodeId = some target → target ∈ ids shown.tree
  | _ => True

/-- The action disturbs none that waits; another project is selected when nothing waits. -/
structure Action.Undisturbing (w : World) (a : Action) : Prop where
  project : ∀ project, a = .selectProject project → w.pending = [] ∨ w.store.At project
  agrees : ∀ k, a.kind = some k → ∀ c ∈ w.pending, agree (k, a.tree w.store) (c.frame.kind, c.frame.tree (a.view w.store))

/-- The runs in question: actions of the selection and of the tree, and no answer is a failure. -/
def Move.Successful (w : World) : Move → Prop
  | .act a => a.kind.isSome = true
  | .deliver i => ∀ c e, w.pending[i]? = some c → c.reply ≠ some (.error e)
  | .expanded .. | .deepened .. | .serve .. => True

/-- An action that starts is called with what is shown, and disturbs none. -/
def Move.Apart (w : World) : Move → Prop
  | .act a => a.OfShown w.store ∧ a.Undisturbing w
  | .expanded .. | .deepened .. | .serve .. | .deliver _ => True

/-! Ids -/

section Ids

variable {t : GNode} {x : String}

theorem mem_ids : x ∈ ids t ↔ ∃ v ∈ t.labels, v.id = x := List.mem_map

theorem mem_ids_alter {p : NodeView → Bool} {f : GNode → GNode} (hf : ∀ s y, y ∈ ids s → y ∈ ids (f s)) (h : x ∈ ids t) :
    x ∈ ids (t.alter p f) := by
  obtain ⟨v, hv, rfl⟩ := mem_ids.mp h
  have hkeep : ∀ s : GNode, p s.label = true → ∀ a ∈ s.labels, ∃ b ∈ (f s).labels, b.id = a.id := by
    intro s _ a ha
    exact mem_ids.mp (hf s a.id (mem_ids.mpr ⟨a, ha, rfl⟩))
  obtain ⟨b, hb, hid⟩ := Rose.exists_mem_alter (q := fun a b => b.id = a.id) (fun _ => rfl) hkeep t v hv
  exact mem_ids.mpr ⟨b, hb, hid⟩

theorem mem_ids_node {v : NodeView} {ts : List GNode} : x ∈ ids (.node v ts) ↔ x = v.id ∨ ∃ s ∈ ts, x ∈ ids s := by
  simp only [mem_ids, Rose.mem_labels]
  constructor
  · rintro ⟨u, rfl | ⟨s, hs, hu⟩, rfl⟩
    · exact .inl rfl
    · exact .inr ⟨s, hs, u, hu, rfl⟩
  · rintro (rfl | ⟨s, hs, u, hu, rfl⟩)
    · exact ⟨v, .inl rfl, rfl⟩
    · exact ⟨u, .inr ⟨s, hs, hu⟩, rfl⟩

variable {parentId nodeId : String} {child : GNode}

theorem mem_ids_insertChild (h : x ∈ ids t) : x ∈ ids (insertChild t parentId child) := by
  apply mem_ids_alter _ h
  rintro ⟨v, ts⟩ y hy
  rcases mem_ids_node.mp hy with rfl | ⟨s, hs, hys⟩
  · exact mem_ids_node.mpr (.inl rfl)
  · exact mem_ids_node.mpr (.inr ⟨s, List.mem_append_left _ hs, hys⟩)

theorem child_mem_insertChild (h : parentId ∈ ids t) :
    child.label.id ∈ ids (insertChild t parentId child) := by
  obtain ⟨v, hv, hid⟩ := mem_ids.mp h
  have hin : child.label ∈ (insertChild t parentId child).labels := by
    refine Rose.mem_alter_of_selected ?_ t ⟨v, hv, decide_eq_true hid⟩
    rintro ⟨u, ts⟩ -
    exact Rose.mem_labels.mpr (.inr ⟨child, List.mem_append_right _ List.mem_cons_self, Rose.label_mem_labels child⟩)
  exact mem_ids.mpr ⟨_, hin, rfl⟩

theorem mem_ids_patchNode {f : NodeView → NodeView} (hf : ∀ v, v.id = nodeId → (f v).id = v.id)
    (h : x ∈ ids t) : x ∈ ids (patchNode t nodeId f) := by
  obtain ⟨v, hv, rfl⟩ := mem_ids.mp h
  have hkeep : ∀ s : GNode, hasId nodeId s.label = true →
      ∀ a ∈ s.labels, ∃ b ∈ (Rose.node (f s.label) s.children).labels, b.id = a.id := by
    rintro ⟨u, ts⟩ hu a ha
    rcases Rose.mem_labels.mp ha with rfl | ⟨s, hs, has⟩
    · exact ⟨f a, Rose.mem_labels.mpr (.inl rfl), hf a (of_decide_eq_true hu)⟩
    · exact ⟨a, Rose.mem_labels.mpr (.inr ⟨s, hs, has⟩), rfl⟩
  obtain ⟨b, hb, hid⟩ := Rose.exists_mem_alter (q := fun a b => b.id = a.id) (fun _ => rfl) hkeep t v hv
  exact mem_ids.mpr ⟨b, hb, hid⟩

theorem mem_ids_markMainlineChild {childId : String} (h : x ∈ ids t) :
    x ∈ ids (markMainlineChild t parentId childId) := by
  apply mem_ids_alter _ h
  rintro ⟨v, ts⟩ y hy
  rcases mem_ids_node.mp hy with rfl | ⟨⟨u, us⟩, hs, hys⟩
  · exact mem_ids_node.mpr (.inl rfl)
  · refine mem_ids_node.mpr (.inr ⟨_, List.mem_map_of_mem hs, ?_⟩)
    rcases mem_ids_node.mp hys with rfl | hys
    · exact mem_ids_node.mpr (.inl rfl)
    · exact mem_ids_node.mpr (.inr hys)

theorem mem_ids_removeNode (h : x ∈ ids t) :
    x ∈ ids (removeNode t nodeId) ∨ x ∈ (t.under (hasId nodeId)).map NodeView.id := by
  obtain ⟨v, hv, rfl⟩ := mem_ids.mp h
  rcases Rose.mem_prune_or_under t v hv with hin | hout
  · exact .inl (mem_ids.mpr ⟨v, hin, rfl⟩)
  · exact .inr (List.mem_map_of_mem hout)

theorem mem_ids_applyCreateRevisions {created : SavedNode} (h : x ∈ ids t) : x ∈ ids (applyCreateRevisions t created) := by
  unfold applyCreateRevisions
  split
  · exact h
  · split
    · exact h
    · exact mem_ids_patchNode (fun _ _ => rfl) h

end Ids

end GrowthMap.Client
