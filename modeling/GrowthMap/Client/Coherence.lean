import GrowthMap.Client.Overlaps

/- The client shows the project and the branch it says it shows, when its actions keep apart.

   A late answer overwrites a newer selection, and a tree that was captured before a creation
   loses the new node. Actions that write one and the same tree may overlap, so may selections
   of a branch, and a list of branches may be asked for at any time. With these overlaps alone,
   whatever the order of the answers, the store is coherent once nothing waits: each answer
   finds the store where its action left it, up to revisions. -/
namespace GrowthMap.Client

open Canon (Graph Project Branch)
open Runs

/-! Answers -/

def HttpRequest.Answers : HttpRequest → Reply → Prop
  | .subtree _, reply => ∃ t, reply = .tree t
  | .listBranches projectId, .branches rows => ∀ b ∈ rows, b.projectId = projectId
  | .updateNode nodeId _, .node saved => saved.node.id = nodeId
  | _, _ => True

theorem listBranches_answers {projectId : String} {g : Graph} {rows : List Branch} (h : listBranches projectId g = .ok rows) :
    ∀ b ∈ rows, b.projectId = projectId := by
  unfold listBranches at h
  split at h
  · cases h
  · cases h
    intro b hb
    have hb := List.mem_filter.mp (List.mem_reverse.mp hb)
    exact (of_decide_eq_true hb.2).1

variable {nodeId : String} {s s' : Store} {w w' : World} {c n : Pending} {i since : Nat} {a : Action}
  {r : HttpRequest}

theorem written_answers {uuid : Nat → Nat → String} {g : Graph} {d : Canon.NodeUpdate} :
    (HttpRequest.updateNode nodeId d).Answers (written uuid g (.updateNode nodeId d)) := by
  cases hg : g.nodes.get nodeId with
  | none =>
    simp only [written, hg]
    trivial
  | some =>
    simp only [written, hg]
    exact Relational.Table.get_key hg

theorem serve_answers {uuid : Nat → Nat → String} {now : Int} {r : HttpRequest} {g : Graph} {reply : Reply}
    (h : (serve uuid now r g).2 = .ok reply) : r.Answers reply := by
  cases r with
  | subtree nodeId =>
    cases hs : getSubtree nodeId g with
    | error =>
      simp only [serve, hs] at h
      cases h
    | ok t =>
      simp only [serve, hs] at h
      cases h
      exact ⟨t, rfl⟩
  | listBranches projectId =>
    cases hs : listBranches projectId g with
    | error =>
      simp only [serve, hs] at h
      cases h
    | ok =>
      simp only [serve, hs] at h
      cases h
      exact listBranches_answers hs
  | updateNode =>
    simp only [serve, HttpRequest.route] at h
    split at h
    · cases h
      exact written_answers
    · cases h
  | _ => trivial

/-! What waits -/

/-- The tree holds what was created since it was fetched, unless it was deleted. -/
def World.Holds (w : World) (shown : Shown) : Prop := ∀ x ∈ w.created.drop shown.since, x ∈ ids shown.tree ∨ x ∈ w.removed

/-- What an action has captured still fits the store. -/
def World.Fits (w : World) (request : Option HttpRequest) : Frame → Prop
  | .branches => ∃ p, w.store.At p ∧ request = some (.listBranches p.id)
  | .selected project source since =>
    w.store.At project ∧ source = .subtree (rootPath project) ∧ request = some source ∧ w.created.length ≤ since
  | .refresh _ since next => next = .nothing ∧ w.created.length ≤ since
  | .selectedBranch branch source since =>
    (∃ p, w.store.At p ∧ source = treeSource p branch ∧ ∀ b, branch = some b → b.projectId = p.id) ∧ w.created.length ≤ since
  | .added project shown parentId _ => w.store.At project ∧ w.store.rootNode = some shown ∧ parentId ∈ ids shown.tree
  | .accepted project shown target _ _ => w.store.At project ∧ w.store.rootNode = some shown ∧ target ∈ ids shown.tree
  | .updated project shown nodeId =>
    w.store.At project ∧ w.Holds shown ∧ ∀ r, request = some r → ∃ d, r = .updateNode nodeId d
  | .deleted project shown _ | .promoted project shown _ _ => w.store.At project ∧ w.Holds shown
  | .reparented project => w.store.At project
  | _ => False

def Pending.Answered (c : Pending) : Prop := ∀ reply, c.reply = some (.ok reply) → ∃ r, c.request = some r ∧ r.Answers reply

/-- Either only the selection of a branch is pending, or all trees pending are the one shown. -/
def World.OneTree (w : World) : Prop :=
  (∀ c ∈ w.pending, c.frame.kind = .list ∨ c.frame.kind = .branch) ∨
  (∀ c ∈ w.pending, c.frame.kind = .list ∨ c.frame.tree w.store.view = w.store.view)

/-- Nothing but lists waits beside a creation. -/
def apart (c d : Pending) : Prop :=
  (c.frame.kind = .create → d.frame.kind = .list) ∧ (d.frame.kind = .create → c.frame.kind = .list)

structure World.Waits (w : World) : Prop where
  fits : ∀ c ∈ w.pending, w.Fits c.request c.frame
  answered : ∀ c ∈ w.pending, c.Answered
  oneTree : w.OneTree
  apart : w.pending.Pairwise apart

/-- The store is coherent, but for the tree of a project that is being selected. -/
structure World.Sound (w : World) : Prop where
  project : w.store.currentProject.map Project.id = w.latest
  tree : ∀ shown, w.store.rootNode = some shown → (∀ c ∈ w.pending, c.frame.kind ≠ .project) → w.store.view = some shown.source
  branch : ∀ b, w.store.currentBranch = some b → ∃ p, w.store.At p ∧ b.projectId = p.id
  branches : ∀ b ∈ w.store.branches, ∃ p, w.store.At p ∧ b.projectId = p.id
  holds : ∀ shown, w.store.rootNode = some shown → w.Holds shown
  waits : w.Waits

theorem Store.At.self {p : Project} (h : s.currentProject = some p) : s.At p := ⟨p, h, rfl, rfl⟩

theorem World.Sound.shows (h : w.Sound) (hend : w.pending = []) : w.Shows where
  project := h.project
  tree := by
    intro shown hshown
    have hview := h.tree shown hshown (by simp [hend])
    unfold Store.view at hview
    obtain ⟨p, hp, hsource⟩ := Option.map_eq_some_iff.mp hview
    exact ⟨p, hp, hsource.symm⟩
  branch := by
    intro b hb
    obtain ⟨p, ⟨q, hq, hid, -⟩, hb⟩ := h.branch b hb
    exact ⟨q, hq, hb.trans hid.symm⟩
  branches := by
    intro b hb
    obtain ⟨p, ⟨q, hq, hid, -⟩, hb⟩ := h.branches b hb
    exact ⟨q, hq, hb.trans hid.symm⟩
  created := h.holds

/-! What an answer leaves -/

/-- The store is where it was: the revision of its project may differ. -/
structure Store.Same (s s' : Store) : Prop where
  at_ : ∀ p, s.At p → s'.At p
  id : s'.currentProject.map Project.id = s.currentProject.map Project.id
  view : s'.view = s.view
  branch : s'.currentBranch = s.currentBranch

theorem Store.Same.of_eq (hp : s'.currentProject = s.currentProject) (hb : s'.currentBranch = s.currentBranch) :
    s.Same s' where
  at_ := by
    rintro p ⟨q, hq, hid⟩
    exact ⟨q, hp.trans hq, hid⟩
  id := by rw [hp]
  view := by rw [Store.view, Store.view, hp, hb]
  branch := hb

variable {project : Project} {shown : Shown} {tree : GNode} {request : Option HttpRequest} {source : HttpRequest}
  {call : Call} {frame : Frame}

/-- A revision is all that `advanceProjectRevision` changes, when the project is still the current one. -/
theorem Store.Same.advance {r : Option Int} (hat : s.At project)
    (hp : s'.currentProject = (advanceProjectRevision project r s).currentProject) (hb : s'.currentBranch = s.currentBranch) :
    s.Same s' := by
  obtain ⟨q, hq, hid, hroot⟩ := hat
  constructor
  · rintro p ⟨q', hq', hid', hroot'⟩
    obtain rfl := Option.some.inj (hq.symm.trans hq')
    exact ⟨_, hp, hid.symm.trans hid', hroot.symm.trans hroot'⟩
  · rw [hp, hq]
    exact congrArg some hid.symm
  · unfold Store.view
    rw [hp, hq, hb]
    simp only [advanceProjectRevision, Option.map_some, treeSource, rootPath, hroot]
  · exact hb

/-- What waits still fits, if no creation sees another tree. -/
theorem World.Fits.keep {w w' : World} {request : Option HttpRequest} {frame : Frame} (hat : ∀ p, w.store.At p → w'.store.At p)
    (hroot : frame.kind = .create → w'.store.rootNode = w.store.rootNode)
    (hlog : frame.kind = .list ∨ frame.kind = .create ∨ (w'.created = w.created ∧ ∀ x ∈ w.removed, x ∈ w'.removed))
    (h : w.Fits request frame) : w'.Fits request frame := by
  have hlog' : frame.kind ≠ .list → frame.kind ≠ .create → w'.created = w.created ∧ ∀ x ∈ w.removed, x ∈ w'.removed := by
    intro hl hc
    exact (hlog.resolve_left hl).resolve_left hc
  have hholds : frame.kind ≠ .list → frame.kind ≠ .create → ∀ shown, w.Holds shown → w'.Holds shown := by
    intro hl hc shown hs x hx
    obtain ⟨hcreated, hremoved⟩ := hlog' hl hc
    rw [hcreated] at hx
    exact (hs x hx).imp_right (hremoved x)
  cases frame with
  | branches =>
    obtain ⟨p, hp, hr⟩ := h
    exact ⟨p, hat p hp, hr⟩
  | selected =>
    obtain ⟨hp, hs, hr, hlen⟩ := h
    obtain ⟨hcreated, -⟩ := hlog' (by nofun) (by nofun)
    exact ⟨hat _ hp, hs, hr, by rwa [hcreated]⟩
  | refresh =>
    obtain ⟨hn, hlen⟩ := h
    obtain ⟨hcreated, -⟩ := hlog' (by nofun) (by nofun)
    exact ⟨hn, by rwa [hcreated]⟩
  | selectedBranch =>
    obtain ⟨⟨p, hp, hs⟩, hlen⟩ := h
    obtain ⟨hcreated, -⟩ := hlog' (by nofun) (by nofun)
    exact ⟨⟨p, hat p hp, hs⟩, by rwa [hcreated]⟩
  | added =>
    obtain ⟨hp, hr, hmem⟩ := h
    exact ⟨hat _ hp, (hroot rfl).trans hr, hmem⟩
  | accepted =>
    obtain ⟨hp, hr, hmem⟩ := h
    exact ⟨hat _ hp, (hroot rfl).trans hr, hmem⟩
  | updated =>
    obtain ⟨hp, hs, hr⟩ := h
    exact ⟨hat _ hp, hholds (by nofun) (by nofun) _ hs, hr⟩
  | deleted =>
    obtain ⟨hp, hs⟩ := h
    exact ⟨hat _ hp, hholds (by nofun) (by nofun) _ hs⟩
  | promoted =>
    obtain ⟨hp, hs⟩ := h
    exact ⟨hat _ hp, hholds (by nofun) (by nofun) _ hs⟩
  | reparented => exact hat _ h
  | _ => exact h.elim

theorem apart_symm {d : Pending} (h : apart c d) : apart d c := ⟨h.2, h.1⟩

theorem apart_erased {pending : List Pending} (h : pending.Pairwise apart) (hc : pending[i]? = some c) :
    ∀ d ∈ pending.eraseIdx i, apart c d := by
  obtain ⟨hi, rfl⟩ := List.getElem?_eq_some_iff.mp hc
  have hperm : (pending[i] :: pending.eraseIdx i).Pairwise apart :=
    (List.getElem_cons_eraseIdx_perm hi).symm.pairwise h apart_symm
  exact (List.pairwise_cons.mp hperm).1

/-- What goes on after an answer: a list, or another edit of the tree that is shown. -/
structure World.Follows (w : World) (c : Pending) (n : Pending) : Prop where
  fits : w.Fits n.request n.frame
  answered : n.Answered
  kind : n.frame.kind = .list ∨ (n.frame.kind = .edit ∧ c.frame.kind = .edit ∧ n.frame.tree w.store.view = w.store.view)

/-- An answer that leaves the store where it was, and the nodes that were created. -/
theorem World.Sound.settled {new : List Pending} (h : w.Sound)
    (hc : w.pending[i]? = some c) (hsame : w.store.Same w'.store) (hlatest : w'.latest = w.latest)
    (hpending : w'.pending = w.pending.eraseIdx i ++ new) (hcreated : w'.created = w.created)
    (hremoved : ∀ x ∈ w.removed, x ∈ w'.removed)
    (hbranches : ∀ b ∈ w'.store.branches, ∃ p, w'.store.At p ∧ b.projectId = p.id)
    (hroot : (w'.store.rootNode = w.store.rootNode ∧ c.frame.kind ≠ .project) ∨
      (c.frame.kind ≠ .list ∧ ∀ shown, w'.store.rootNode = some shown → w.store.view = some shown.source ∧ w'.Holds shown))
    (hnew : new = [] ∨ ∃ n, new = [n] ∧ w'.Follows c n) : w'.Sound := by
  have hrest : ∀ d ∈ w.pending.eraseIdx i, d ∈ w.pending := fun d hd => List.mem_of_mem_eraseIdx hd
  have hapart := apart_erased h.waits.apart hc
  have hmem : ∀ d ∈ w'.pending, d ∈ w.pending.eraseIdx i ∨ w'.Follows c d := by
    intro d hd
    rw [hpending] at hd
    rcases List.mem_append.mp hd with hd | hd
    · exact .inl hd
    · rcases hnew with rfl | ⟨n, rfl, hn⟩
      · cases hd
      · cases List.mem_singleton.mp hd
        exact .inr hn
  have hkept : ∀ d ∈ w.pending.eraseIdx i, d.frame.kind = .create → w'.store.rootNode = w.store.rootNode := by
    intro d hd hk
    rcases hroot with ⟨hsome, -⟩ | ⟨hlist, -⟩
    · exact hsome
    · exact absurd ((hapart d hd).2 hk) hlist
  refine
    { project := hsame.id.trans (h.project.trans hlatest.symm)
      tree := ?_
      branch := ?_
      branches := hbranches
      holds := ?_
      waits := { fits := ?_, answered := ?_, oneTree := ?_, apart := ?_ } }
  · intro shown hshown hnone
    rw [hsame.view]
    rcases hroot with ⟨hsome, hkind⟩ | ⟨-, hshows⟩
    · refine h.tree shown (hsome.symm.trans hshown) ?_
      intro d hd
      by_cases hdc : d ∈ w.pending.eraseIdx i
      · exact hnone d (by rw [hpending]; exact List.mem_append_left _ hdc)
      · obtain ⟨hi, rfl⟩ := List.getElem?_eq_some_iff.mp hc
        have hd := (List.getElem_cons_eraseIdx_perm hi).mem_iff.mpr hd
        rcases List.mem_cons.mp hd with rfl | hd
        · exact hkind
        · exact absurd hd hdc
    · exact (hshows shown hshown).1
  · intro b hb
    obtain ⟨p, hp, hid⟩ := h.branch b (hsame.branch.symm.trans hb)
    exact ⟨p, hsame.at_ p hp, hid⟩
  · intro shown hshown
    rcases hroot with ⟨hsome, -⟩ | ⟨-, hshows⟩
    · intro x hx
      rw [hcreated] at hx
      exact (h.holds shown (hsome.symm.trans hshown) x hx).imp_right (hremoved x)
    · exact (hshows shown hshown).2
  · intro d hd
    rcases hmem d hd with hd | hn
    · exact (h.waits.fits d (hrest d hd)).keep hsame.at_ (hkept d hd) (.inr (.inr ⟨hcreated, hremoved⟩))
    · exact hn.fits
  · intro d hd
    rcases hmem d hd with hd | hn
    · exact h.waits.answered d (hrest d hd)
    · exact hn.answered
  · rw [World.OneTree, hsame.view]
    rcases h.waits.oneTree with hone | hone
    · left
      intro d hd
      rcases hmem d hd with hd | hn
      · exact hone d (hrest d hd)
      · rcases hn.kind with hk | ⟨-, hk, -⟩
        · exact .inl hk
        · rcases hone c (List.mem_of_getElem? hc) with hl | hl <;> rw [hl] at hk <;> cases hk
    · right
      intro d hd
      rcases hmem d hd with hd | hn
      · exact hone d (hrest d hd)
      · rcases hn.kind with hk | ⟨-, -, ht⟩
        · exact .inl hk
        · exact .inr (by rwa [hsame.view] at ht)
  · rw [hpending]
    refine List.pairwise_append.mpr ⟨h.waits.apart.sublist (List.eraseIdx_sublist _ _), ?_, ?_⟩
    · rcases hnew with rfl | ⟨n, rfl, -⟩
      · exact .nil
      · exact List.pairwise_singleton _ _
    · intro d hd n hn
      rcases hnew with rfl | ⟨n, rfl, hf⟩
      · cases hn
      · cases List.mem_singleton.mp hn
        rcases hf.kind with hk | ⟨hk, hck, -⟩
        · exact ⟨fun _ => hk, fun hcreate => by rw [hk] at hcreate; cases hcreate⟩
        · refine ⟨fun hcreate => ?_, fun hcreate => by rw [hk] at hcreate; cases hcreate⟩
          have := (hapart d hd).2 hcreate
          rw [hck] at this
          cases this

/-- A node is created: it is in the tree that was captured, and nothing else waits for a tree. -/
theorem World.Sound.grown {x : String} (h : w.Sound)
    (hc : w.pending[i]? = some c) (hkind : c.frame.kind = .create) (hsame : w.store.Same w'.store) (hlatest : w'.latest = w.latest)
    (hpending : w'.pending = w.pending.eraseIdx i) (hbranches : w'.store.branches = w.store.branches)
    (hshown : w.store.rootNode = some shown) (hroot : w'.store.rootNode = some { shown with tree })
    (hids : ∀ y ∈ ids shown.tree, y ∈ ids tree) (hx : x ∈ ids tree) (hcreated : w'.created = w.created ++ [x])
    (hremoved : w'.removed = w.removed) : w'.Sound := by
  have hrest : ∀ d ∈ w'.pending, d ∈ w.pending ∧ d.frame.kind = .list := by
    intro d hd
    rw [hpending] at hd
    exact ⟨List.mem_of_mem_eraseIdx hd, (apart_erased h.waits.apart hc d hd).1 hkind⟩
  have hnone : ∀ d ∈ w.pending, d.frame.kind ≠ .project := by
    intro d hd
    obtain ⟨hi, rfl⟩ := List.getElem?_eq_some_iff.mp hc
    rcases List.mem_cons.mp ((List.getElem_cons_eraseIdx_perm hi).mem_iff.mpr hd) with rfl | hd
    · rw [hkind]
      nofun
    · rw [(apart_erased h.waits.apart hc d hd).1 hkind]
      nofun
  refine
    { project := hsame.id.trans (h.project.trans hlatest.symm)
      tree := ?_
      branch := ?_
      branches := ?_
      holds := ?_
      waits := { fits := ?_, answered := ?_, oneTree := ?_, apart := ?_ } }
  · intro shown' hshown' _
    cases Option.some.inj (hroot.symm.trans hshown')
    exact hsame.view.trans (h.tree shown hshown hnone)
  · intro b hb
    obtain ⟨p, hp, hid⟩ := h.branch b (hsame.branch.symm.trans hb)
    exact ⟨p, hsame.at_ p hp, hid⟩
  · intro b hb
    obtain ⟨p, hp, hid⟩ := h.branches b (hbranches ▸ hb)
    exact ⟨p, hsame.at_ p hp, hid⟩
  · intro shown' hshown' y hy
    cases Option.some.inj (hroot.symm.trans hshown')
    rw [hcreated] at hy
    rw [hremoved]
    rw [List.drop_append] at hy
    rcases List.mem_append.mp hy with hy | hy
    · exact (h.holds shown hshown y hy).imp_left (hids y)
    · cases List.mem_singleton.mp (List.mem_of_mem_drop hy)
      exact .inl hx
  · intro d hd
    obtain ⟨hd, hl⟩ := hrest d hd
    exact (h.waits.fits d hd).keep hsame.at_ (fun hk => by rw [hl] at hk; cases hk) (.inl hl)
  · intro d hd
    exact h.waits.answered d (hrest d hd).1
  · left
    intro d hd
    exact .inl (hrest d hd).2
  · rw [hpending]
    exact h.waits.apart.sublist (List.eraseIdx_sublist _ _)

/-- A branch is selected, with its tree. -/
theorem World.Sound.chosen {branch : Option Branch}
    {reply : Option (Except ApiError Reply)} (h : w.Sound)
    (hc : w.pending[i]? = some ⟨request, .selectedBranch branch source since, reply⟩)
    (hstore : w'.store = { w.store with currentBranch := branch, rootNode := some ⟨tree, source, since⟩ })
    (hlatest : w'.latest = w.latest) (hpending : w'.pending = w.pending.eraseIdx i) (hcreated : w'.created = w.created)
    (hremoved : w'.removed = w.removed) : w'.Sound := by
  obtain ⟨⟨p, hp, rfl, hbranch⟩, hlen⟩ := h.waits.fits _ (List.mem_of_getElem? hc)
  have hat : ∀ p, w.store.At p → w'.store.At p := by
    rintro p ⟨q, hq, hid⟩
    exact ⟨q, by rw [hstore]; exact hq, hid⟩
  have hview : w'.store.view = some (treeSource p branch) := by
    obtain ⟨q, hq, -, hroot⟩ := hp
    simp only [Store.view, hstore, hq, Option.map_some, treeSource, rootPath, hroot]
  have hrest : ∀ d ∈ w'.pending, d ∈ w.pending ∧ d.frame.kind ≠ .create := by
    intro d hd
    rw [hpending] at hd
    refine ⟨List.mem_of_mem_eraseIdx hd, fun hk => ?_⟩
    have := (apart_erased h.waits.apart hc d hd).2 hk
    cases this
  refine
    { project := by rw [hstore, hlatest]; exact h.project
      tree := ?_
      branch := ?_
      branches := ?_
      holds := ?_
      waits := { fits := ?_, answered := ?_, oneTree := ?_, apart := ?_ } }
  · intro shown hshown _
    rw [hstore] at hshown
    cases hshown
    exact hview
  · intro b hb
    rw [hstore] at hb
    exact ⟨p, hat p hp, hbranch b hb⟩
  · intro b hb
    rw [hstore] at hb
    obtain ⟨q, hq, hid⟩ := h.branches b hb
    exact ⟨q, hat q hq, hid⟩
  · intro shown hshown x hx
    rw [hstore] at hshown
    cases hshown
    rw [hcreated, List.drop_eq_nil_of_le hlen] at hx
    cases hx
  · intro d hd
    obtain ⟨hd, hk⟩ := hrest d hd
    exact (h.waits.fits d hd).keep hat (fun hcreate => absurd hcreate hk) (.inr (.inr ⟨hcreated, by simp [hremoved]⟩))
  · intro d hd
    exact h.waits.answered d (hrest d hd).1
  · rcases h.waits.oneTree with hone | hone
    · exact .inl (fun d hd => hone d (hrest d hd).1)
    · have hsame : w.store.view = some (treeSource p branch) :=
        ((hone _ (List.mem_of_getElem? hc)).resolve_left (by nofun)).symm
      right
      intro d hd
      rw [hview, ← hsame]
      exact hone d (hrest d hd).1
  · rw [hpending]
    exact h.waits.apart.sublist (List.eraseIdx_sublist _ _)

/-! Starts -/

theorem agree_apart {view : Option HttpRequest} {t : Option HttpRequest}
    (h : agree (n.frame.kind, t) (c.frame.kind, c.frame.tree view)) : apart c n := by
  rcases h with hn | hc | ⟨hn, hc⟩ | ⟨hn, hc, -⟩
  · exact ⟨fun _ => hn, fun hk => (nomatch hn.symm.trans hk)⟩
  · exact ⟨fun hk => (nomatch hc.symm.trans hk), fun _ => hc⟩
  · exact ⟨fun hk => (nomatch hc.symm.trans hk), fun hk => (nomatch hn.symm.trans hk)⟩
  · exact ⟨fun hk => absurd hk hc, fun hk => absurd hk hn⟩

/-- An action starts and waits; it has left the store alone. -/
theorem World.Sound.called (h : w.Sound) (hfits : w.Fits n.request n.frame) (hanswered : n.Answered)
    (htree : n.frame.kind = .list ∨ n.frame.kind = .branch ∨ n.frame.tree w.store.view = w.store.view ∨
      ∃ shown, w.store.rootNode = some shown ∧ n.frame.tree w.store.view = some shown.source)
    (hagree : ∀ c ∈ w.pending, agree (n.frame.kind, n.frame.tree w.store.view) (c.frame.kind, c.frame.tree w.store.view)) :
    World.Sound { w with pending := w.pending ++ [n] } := by
  have hmem : ∀ {P : Pending → Prop}, (∀ c ∈ w.pending, P c) → P n → ∀ c ∈ w.pending ++ [n], P c := by
    intro P hold hn c hc
    rcases List.mem_append.mp hc with hc | hc
    · exact hold c hc
    · cases List.mem_singleton.mp hc
      exact hn
  -- a tree that waits is the one shown, if it is not that of a branch to be selected
  have hshown : ∀ c ∈ w.pending, c.frame.kind = .list ∨ c.frame.kind = .branch ∨ c.frame.tree w.store.view = w.store.view := by
    intro c hc
    rcases h.waits.oneTree with hone | hone
    · exact (hone c hc).imp_right .inl
    · exact (hone c hc).imp_right .inr
  have hview : n.frame.kind ≠ .list → n.frame.kind ≠ .branch → n.frame.tree w.store.view = w.store.view := by
    intro hl hb
    rcases (htree.resolve_left hl).resolve_left hb with ht | ⟨shown, hroot, ht⟩
    · exact ht
    · by_cases hnone : ∀ c ∈ w.pending, c.frame.kind ≠ .project
      · rw [ht, h.tree shown hroot hnone]
      · push Not at hnone
        obtain ⟨c, hc, hck⟩ := hnone
        rcases hagree c hc with hk | hk | ⟨hk, -⟩ | ⟨-, -, hsame⟩
        · exact absurd hk hl
        · rw [hck] at hk
          cases hk
        · exact absurd hk hb
        · rcases hshown c hc with hk | hk | hk
          · rw [hck] at hk
            cases hk
          · rw [hck] at hk
            cases hk
          · exact hsame.trans hk
  refine
    { project := h.project
      tree := ?_
      branch := h.branch
      branches := h.branches
      holds := h.holds
      waits :=
        { fits := hmem h.waits.fits hfits
          answered := hmem h.waits.answered hanswered
          oneTree := ?_
          apart := ?_ } }
  · intro shown hroot hnone
    exact h.tree shown hroot (fun c hc => hnone c (List.mem_append_left _ hc))
  · by_cases hl : n.frame.kind = .list
    · rcases h.waits.oneTree with hone | hone
      · exact .inl (hmem hone (.inl hl))
      · exact .inr (hmem hone (.inl hl))
    · by_cases hall : ∀ c ∈ w.pending ++ [n], c.frame.kind = .list ∨ c.frame.kind = .branch
      · exact .inl hall
      · right
        have hn : n.frame.tree w.store.view = w.store.view := by
          by_cases hb : n.frame.kind = .branch
          · push Not at hall
            obtain ⟨c, hc, hcl, hcb⟩ := hall
            rcases List.mem_append.mp hc with hc | hc
            · rcases hagree c hc with hk | hk | ⟨-, hk⟩ | ⟨-, -, hsame⟩
              · exact absurd hk hl
              · exact absurd hk hcl
              · exact absurd hk hcb
              · exact hsame.trans (((hshown c hc).resolve_left hcl).resolve_left hcb)
            · cases List.mem_singleton.mp hc
              exact absurd hb hcb
          · exact hview hl hb
        refine hmem (fun c hc => ?_) (.inr hn)
        rcases h.waits.oneTree with hone | hone
        · rcases hagree c hc with hk | hk | ⟨hk, -⟩ | ⟨-, -, hsame⟩
          · exact absurd hk hl
          · exact .inl hk
          · -- both select a branch: then all of them do
            exact absurd (hmem hone (.inr hk)) hall
          · exact .inr (hsame.symm.trans hn)
        · exact hone c hc
  · refine List.pairwise_append.mpr ⟨h.waits.apart, List.pairwise_singleton _ _, ?_⟩
    intro c hc d hd
    cases List.mem_singleton.mp hd
    exact agree_apart (hagree c hc)

theorem Call.answered (call : Call) : call.pending.Answered := by
  intro reply hreply
  unfold Call.pending at hreply
  split at hreply <;> cases hreply

@[simp] theorem Call.pending_frame (call : Call) : call.pending.frame = call.frame := by
  unfold Call.pending
  split <;> rfl

/-- A project is selected: its tree is on the way. -/
theorem World.Sound.opened (h : w.Sound) (hat : w.pending = [] ∨ w.store.At project)
    (hagree : ∀ c ∈ w.pending, agree (.project, some (.subtree (rootPath project)))
      (c.frame.kind, c.frame.tree (some (.subtree (rootPath project))))) : (w.act (.selectProject project)).Sound := by
  have hview : (w.act (.selectProject project)).store.view = some (.subtree (rootPath project)) := rfl
  have hpending : (w.act (.selectProject project)).pending = w.pending ++
      [⟨some (.subtree (rootPath project)), .selected project (.subtree (rootPath project)) w.created.length, none⟩] := rfl
  refine
    { project := rfl
      tree := ?_
      branch := nofun
      branches := nofun
      holds := h.holds
      waits := { fits := ?_, answered := ?_, oneTree := .inr ?_, apart := ?_ } }
  · intro shown _ hnone
    exact absurd rfl (hnone _ (by rw [hpending]; exact List.mem_append_right _ List.mem_cons_self))
  · intro c hc
    rw [hpending] at hc
    rcases List.mem_append.mp hc with hc | hc
    · obtain ⟨q, hq, hid, hroot⟩ := hat.resolve_left (List.ne_nil_of_mem hc)
      have hkeep : ∀ p, w.store.At p → (w.act (.selectProject project)).store.At p := by
        rintro p ⟨q', hq', hid', hroot'⟩
        cases Option.some.inj (hq.symm.trans hq')
        exact ⟨project, rfl, hid.symm.trans hid', hroot.symm.trans hroot'⟩
      exact (h.waits.fits c hc).keep hkeep (fun _ => rfl) (.inr (.inr ⟨rfl, fun _ hx => hx⟩))
    · cases List.mem_singleton.mp hc
      exact ⟨.self rfl, rfl, rfl, Nat.le_refl _⟩
  · intro c hc
    rw [hpending] at hc
    rcases List.mem_append.mp hc with hc | hc
    · exact h.waits.answered c hc
    · cases List.mem_singleton.mp hc
      nofun
  · intro c hc
    rw [hview]
    rw [hpending] at hc
    rcases List.mem_append.mp hc with hc | hc
    · rcases hagree c hc with hk | hk | ⟨hk, -⟩ | ⟨-, -, hsame⟩
      · cases hk
      · exact .inl hk
      · cases hk
      · exact .inr hsame.symm
    · cases List.mem_singleton.mp hc
      exact .inr rfl
  · rw [hpending]
    refine List.pairwise_append.mpr ⟨h.waits.apart, List.pairwise_singleton _ _, ?_⟩
    intro c hc d hd
    cases List.mem_singleton.mp hd
    exact agree_apart (hagree c hc)

theorem World.act_idle (ha : ∀ project, a ≠ .selectProject project)
    (h : start w.cache w.created.length w.store a = (w.store, [])) : w.act a = w := by
  unfold World.act
  rw [h]
  cases a with
  | selectProject project => exact absurd rfl (ha project)
  | _ => simp

theorem World.act_called (ha : ∀ project, a ≠ .selectProject project)
    (h : start w.cache w.created.length w.store a = (w.store, [call])) :
    w.act a = { w with pending := w.pending ++ [call.pending] } := by
  unfold World.act
  rw [h]
  cases a with
  | selectProject project => exact absurd rfl (ha project)
  | _ => rfl

/-- The action sends a call that fits the store, or it does nothing. -/
theorem World.Sound.acted {k : Kind} (h : w.Sound) (ha : ∀ project, a ≠ .selectProject project)
    (hk : a.kind = some k) (hlone : a.Undisturbing w)
    (hstart : start w.cache w.created.length w.store a = (w.store, []) ∨
      ∃ call : Call, start w.cache w.created.length w.store a = (w.store, [call]) ∧ w.Fits call.pending.request call.frame ∧
        call.frame.kind = k ∧ (k = .list ∨ call.frame.tree w.store.view = a.tree w.store) ∧
        (k = .list ∨ k = .branch ∨ a.tree w.store = w.store.view ∨
          ∃ shown, w.store.rootNode = some shown ∧ a.tree w.store = some shown.source)) : (w.act a).Sound := by
  rcases hstart with hidle | ⟨call, hcall, hfits, rfl, htree, hshown⟩
  · rw [World.act_idle ha hidle]
    exact h
  · rw [World.act_called ha hcall]
    have hview : a.view w.store = w.store.view := by
      cases a with
      | selectProject project => exact absurd rfl (ha project)
      | _ => rfl
    have hagree := hlone.agrees _ hk
    rw [hview] at hagree
    refine h.called (by rwa [Call.pending_frame]) call.answered ?_ ?_
    · rw [Call.pending_frame]
      rcases htree with hl | htree
      · exact .inl hl
      · rw [htree]
        exact hshown
    · rw [Call.pending_frame]
      rcases htree with hl | htree
      · exact fun c _ => .inl hl
      · rw [htree]
        exact hagree

theorem World.Sound.captured {k : Kind} (h : w.Sound)
    (ha : ∀ project, a ≠ .selectProject project) (hk : a.kind = some k) (hlone : a.Undisturbing w)
    (hroot : w.store.rootNode = some shown) (htree : a.tree w.store = w.store.rootNode.map Shown.source)
    (hstart : ∃ call : Call, start w.cache w.created.length w.store a = (w.store, [call]) ∧
      w.Fits call.pending.request call.frame ∧ call.frame.kind = k ∧ call.frame.tree w.store.view = some shown.source) :
    (w.act a).Sound := by
  obtain ⟨call, hcall, hfits, hkind, hsource⟩ := hstart
  have hshown : a.tree w.store = some shown.source := by
    rw [htree, hroot]
    rfl
  exact h.acted ha hk hlone (.inr ⟨call, hcall, hfits, hkind, .inr (hsource.trans hshown.symm), .inr (.inr (.inr ⟨shown, hroot, hshown⟩))⟩)

theorem Call.request_pending (h : call.pending.request = some r) : call.request = .ok r := by
  unfold Call.pending at h
  split at h
  · cases h
    assumption
  · cases h

theorem apiUpdateNode_request {c : Cache} {given : Option (Int × Int)}
    {changes : List (Canon.NodeField × Canon.Value)} (h : apiUpdateNode c nodeId given changes = .ok r) :
    ∃ d, r = .updateNode nodeId d := by
  unfold apiUpdateNode at h
  cases hn : c.nodeExpected nodeId with
  | error =>
    rw [hn] at h
    cases h
  | ok =>
    rw [hn] at h
    cases h
    exact ⟨_, rfl⟩

theorem World.Sound.act (h : w.Sound) (hkind : a.kind.isSome = true) (hshown : a.OfShown w.store)
    (hlone : a.Undisturbing w) : (w.act a).Sound := by
  cases a with
  | selectProject project => exact h.opened (hlone.project project rfl) (hlone.agrees .project rfl)
  | loadBranches =>
    refine h.acted nofun rfl hlone (.inr ⟨_, rfl, ?_, rfl, .inl rfl, .inl rfl⟩)
    obtain ⟨p, hp, rfl⟩ := Option.map_eq_some_iff.mp hshown
    exact ⟨p, .self hp, rfl⟩
  | selectBranch branch =>
    cases hp : w.store.currentProject with
    | none => exact h.acted nofun rfl hlone (.inl (by simp only [start, selectBranch, hp]))
    | some p =>
      refine h.acted nofun rfl hlone (.inr ⟨⟨.ok (treeSource p branch), .selectedBranch branch (treeSource p branch) w.created.length⟩,
        by simp only [start, selectBranch, hp], ?_, rfl, .inr (by simp only [Frame.tree, Action.tree, hp, Option.map_some]),
        .inr (.inl rfl)⟩)
      refine ⟨⟨p, .self hp, rfl, ?_⟩, Nat.le_refl _⟩
      rintro b rfl
      obtain ⟨q, ⟨q', hq', hid, -⟩, hb⟩ := h.branches b hshown
      cases Option.some.inj (hp.symm.trans hq')
      exact hb.trans hid.symm
  | refreshTree =>
    cases hp : w.store.currentProject with
    | none => exact h.acted nofun rfl hlone (.inl (by simp only [start, refreshTree, hp, afterRefresh]))
    | some p =>
      have hview : w.store.view = some (treeSource p w.store.currentBranch) := by rw [Store.view, hp, Option.map_some]
      exact h.acted nofun rfl hlone (.inr ⟨⟨.ok (treeSource p w.store.currentBranch),
        .refresh (treeSource p w.store.currentBranch) w.created.length .nothing⟩, by simp only [start, refreshTree, hp],
        ⟨rfl, Nat.le_refl _⟩, rfl, .inr hview.symm, .inr (.inr (.inl rfl))⟩)
  | addChildNode parentId title nodeType =>
    cases hp : w.store.currentProject with
    | none => exact h.acted nofun rfl hlone (.inl (by simp only [start, hp]))
    | some p =>
      cases hr : w.store.rootNode with
      | none => exact h.acted nofun rfl hlone (.inl (by simp only [start, hp, hr]))
      | some shown =>
        let branchId := w.store.currentBranch.map Branch.id
        exact h.captured nofun rfl hlone hr rfl
          ⟨⟨apiCreateNode w.cache p.id title "" (nodeType.getD "idea") (some parentId) branchId, .added p shown parentId branchId⟩,
            by simp only [start, hp, hr, branchId], ⟨.self hp, hr, hshown shown hr⟩, rfl, rfl⟩
  | acceptSuggestion index =>
    cases hs : w.store.expandSuggestions with
    | none => exact h.acted nofun rfl hlone (.inl (by simp only [start, hs]))
    | some suggestions =>
      cases ht : w.store.expandTargetNodeId with
      | none => exact h.acted nofun rfl hlone (.inl (by simp only [start, hs, ht]))
      | some target =>
        cases hp : w.store.currentProject with
        | none => exact h.acted nofun rfl hlone (.inl (by simp only [start, hs, ht, hp]))
        | some p =>
          cases hr : w.store.rootNode with
          | none => exact h.acted nofun rfl hlone (.inl (by simp only [start, hs, ht, hp, hr]))
          | some shown =>
            have hcall : ∃ request, start w.cache w.created.length w.store (.acceptSuggestion index) =
                (w.store, [⟨request, .accepted p shown target suggestions index⟩]) :=
              ⟨_, by simp only [start, hs, ht, hp, hr]; rfl⟩
            obtain ⟨request, hcall⟩ := hcall
            exact h.captured nofun rfl hlone hr rfl ⟨_, hcall, ⟨.self hp, hr, hshown shown target hr ht⟩, rfl, rfl⟩
  | updateNode nodeId data =>
    cases hp : w.store.currentProject with
    | none => exact h.acted nofun rfl hlone (.inl (by simp only [start, hp]))
    | some p =>
      cases hr : w.store.rootNode with
      | none => exact h.acted nofun rfl hlone (.inl (by simp only [start, hp, hr, Option.bind_none]))
      | some shown =>
        cases hf : findNode shown.tree nodeId with
        | none => exact h.acted nofun rfl hlone (.inl (by simp only [start, hp, hr, Option.bind_some, hf, Option.map_none]))
        | some existing =>
          refine h.captured nofun rfl hlone hr rfl ⟨⟨apiUpdateNode w.cache nodeId (some (p.revision, existing.label.revision)) data,
            .updated p shown nodeId⟩, ?_, ⟨.self hp, h.holds shown hr, ?_⟩, rfl, rfl⟩
          · simp only [start, hp, hr, Option.bind_some, hf, Option.map_some]
          · intro r hreq
            have hmade : apiUpdateNode w.cache nodeId (some (p.revision, existing.label.revision)) data = .ok r :=
              Call.request_pending hreq
            exact apiUpdateNode_request hmade
  | deleteNode nodeId =>
    cases hp : w.store.currentProject with
    | none => exact h.acted nofun rfl hlone (.inl (by simp only [start, hp]))
    | some p =>
      cases hr : w.store.rootNode with
      | none => exact h.acted nofun rfl hlone (.inl (by simp only [start, hp, hr, Option.bind_none]))
      | some shown =>
        cases hf : findNode shown.tree nodeId with
        | none => exact h.acted nofun rfl hlone (.inl (by simp only [start, hp, hr, Option.bind_some, hf, Option.map_none]))
        | some existing =>
          exact h.captured nofun rfl hlone hr rfl
            ⟨⟨.ok (.deleteNode nodeId p.revision existing.label.revision), .deleted p shown nodeId⟩,
              by simp only [start, hp, hr, Option.bind_some, hf, Option.map_some], ⟨.self hp, h.holds shown hr⟩, rfl, rfl⟩
  | promoteMainlineChild parentId childId =>
    cases hp : w.store.currentProject with
    | none => exact h.acted nofun rfl hlone (.inl (by simp only [start, hp]))
    | some p =>
      cases hr : w.store.rootNode with
      | none => exact h.acted nofun rfl hlone (.inl (by simp only [start, hp, hr]))
      | some shown =>
        let edgeRevision := ((findNode shown.tree childId).bind (fun n => n.label.edgeRevision)).getD 1
        exact h.captured nofun rfl hlone hr rfl
          ⟨⟨.ok (.promoteChild parentId childId p.revision edgeRevision), .promoted p shown parentId childId⟩,
            by simp only [start, hp, hr, edgeRevision], ⟨.self hp, h.holds shown hr⟩, rfl, rfl⟩
  | reparentNode nodeId newParentId =>
    cases hp : w.store.currentProject with
    | none => exact h.acted nofun rfl hlone (.inl (by simp only [start, hp]))
    | some p =>
      cases hr : w.store.rootNode with
      | none => exact h.acted nofun rfl hlone (.inl (by simp only [start, hp, hr]))
      | some shown =>
        cases hn : findNode shown.tree nodeId with
        | none => exact h.acted nofun rfl hlone (.inl (by simp only [start, hp, hr, hn]))
        | some node =>
          cases ht : findNode shown.tree newParentId with
          | none => exact h.acted nofun rfl hlone (.inl (by simp only [start, hp, hr, hn, ht]))
          | some newParent =>
            cases ho : parentIn shown.tree nodeId with
            | none => exact h.acted nofun rfl hlone (.inl (by simp only [start, hp, hr, hn, ht, ho]))
            | some oldParent =>
              let d : Canon.NodeMove :=
                ⟨newParentId, p.revision, node.label.revision, newParent.label.revision, some oldParent.label.revision⟩
              exact h.acted nofun rfl hlone (.inr ⟨⟨.ok (.reparent nodeId d), .reparented p⟩,
                by simp only [start, hp, hr, hn, ht, ho, d], .self hp, rfl, .inr rfl, .inr (.inr (.inl rfl))⟩)
  | _ => cases hkind

/-! Steps -/

/-- The server answers: nothing of the client changes. -/
theorem World.Sound.answer (h : w.Sound) (i : Nat) (uuid : Nat → Nat → String) (now : Int) :
    (w.answer i uuid now).Sound := by
  unfold World.answer
  split
  · rename_i r frame hc
    have hframes : ∀ d ∈ w.pending.set i ⟨some r, frame, some ((serve uuid now r w.server).2.mapError .refused)⟩,
        ∃ c ∈ w.pending, c.frame = d.frame ∧ c.request = d.request ∧ (d.Answered ∨ d = c) := by
      intro d hd
      rcases List.mem_or_eq_of_mem_set hd with hd | rfl
      · exact ⟨d, hd, rfl, rfl, .inr rfl⟩
      · refine ⟨_, List.mem_of_getElem? hc, rfl, rfl, .inl ?_⟩
        intro reply hreply
        refine ⟨r, rfl, @serve_answers uuid now _ w.server _ ?_⟩
        cases hr : (serve uuid now r w.server).2 with
        | error =>
          rw [hr] at hreply
          cases hreply
        | ok =>
          rw [hr] at hreply
          cases hreply
          rfl
    have hkinds : (w.pending.set i ⟨some r, frame, some ((serve uuid now r w.server).2.mapError .refused)⟩).map
        (fun c => c.frame.kind) = w.pending.map (fun c => c.frame.kind) := by
      obtain ⟨hi, hget⟩ := List.getElem?_eq_some_iff.mp hc
      rw [List.map_set]
      refine List.ext_getElem (by simp) (fun n h1 h2 => ?_)
      rw [List.getElem_set]
      split
      · subst i
        rw [List.getElem_map, hget]
      · rfl
    refine
      { project := h.project
        tree := ?_
        branch := h.branch
        branches := h.branches
        holds := h.holds
        waits := { fits := ?_, answered := ?_, oneTree := ?_, apart := ?_ } }
    · intro shown hroot hnone
      refine h.tree shown hroot ?_
      have hall : ∀ k ∈ w.pending.map (fun c => c.frame.kind), k ≠ .project := by
        rw [← hkinds]
        intro k hk
        obtain ⟨d, hd, rfl⟩ := List.mem_map.mp hk
        exact hnone d hd
      exact fun c hc => hall _ (List.mem_map_of_mem hc)
    · intro d hd
      obtain ⟨c, hc, hf, hr, -⟩ := hframes d hd
      rw [← hf, ← hr]
      exact h.waits.fits c hc
    · intro d hd
      obtain ⟨c, hc, -, -, ha | rfl⟩ := hframes d hd
      · exact ha
      · exact h.waits.answered d hc
    · refine h.waits.oneTree.imp (fun hone d hd => ?_) (fun hone d hd => ?_)
      · obtain ⟨c, hc, hf, -⟩ := hframes d hd
        rw [← hf]
        exact hone c hc
      · obtain ⟨c, hc, hf, -⟩ := hframes d hd
        rw [← hf]
        exact hone c hc
    · have hpairs := h.waits.apart
      let R : Kind → Kind → Prop := fun a b => (a = .create → b = .list) ∧ (b = .create → a = .list)
      have hmap : (w.pending.map (fun c => c.frame.kind)).Pairwise R := List.pairwise_map.mpr hpairs
      rw [← hkinds] at hmap
      have hset := List.pairwise_map.mp hmap
      exact hset
  · exact h

theorem World.Sound.dropped {cache : Cache} (h : w.Sound) (hc : w.pending[i]? = some c)
    (hkind : c.frame.kind ≠ .project) :
    World.Sound { w with
      cache, pending := w.pending.eraseIdx i ++ [], created := w.created ++ [], removed := w.removed ++ [] } :=
  h.settled hc (.of_eq rfl rfl) rfl rfl (List.append_nil _) (by simp) h.branches (.inl ⟨rfl, hkind⟩) (.inl rfl)

theorem World.Sound.view_eq (h : w.Sound) (hc : w.pending[i]? = some c)
    (hlist : c.frame.kind ≠ .list) (hbranch : c.frame.kind ≠ .branch) (htree : c.frame.tree w.store.view = some source) :
    w.store.view = some source := by
  rcases h.waits.oneTree with hone | hone
  · exact ((hone c (List.mem_of_getElem? hc)).elim hlist hbranch).elim
  · exact ((hone c (List.mem_of_getElem? hc)).resolve_left hlist).symm.trans htree

theorem World.holds_fetched (hlen : w.created.length ≤ since) :
    w.Holds ⟨tree, source, since⟩ := by
  intro x hx
  rw [List.drop_eq_nil_of_le hlen] at hx
  cases hx

theorem World.Sound.edited (h : w.Sound)
    (hc : w.pending[i]? = some c) (hkind : c.frame.kind = .edit) (htree : c.frame.tree w.store.view = some shown.source)
    (hat : w.store.At project) (hproject : w'.store.currentProject = (advanceProjectRevision project none w.store).currentProject)
    (hbranch : w'.store.currentBranch = w.store.currentBranch) (hbranches : w'.store.branches = w.store.branches)
    (hroot : w'.store.rootNode = some { shown with tree }) (hlatest : w'.latest = w.latest)
    (hpending : w'.pending = w.pending.eraseIdx i ++ []) (hcreated : w'.created = w.created)
    (hremoved : ∀ x ∈ w.removed, x ∈ w'.removed)
    (hholds : ∀ x ∈ w.created.drop shown.since, x ∈ ids tree ∨ x ∈ w'.removed) : w'.Sound := by
  have hsame := Store.Same.advance hat hproject hbranch
  have hview := h.view_eq hc (by rw [hkind]; nofun) (by rw [hkind]; nofun) htree
  refine h.settled hc hsame hlatest hpending hcreated hremoved ?_ (.inr ⟨by rw [hkind]; nofun, ?_⟩) (.inl rfl)
  · intro b hb
    obtain ⟨p, hp, hid⟩ := h.branches b (hbranches ▸ hb)
    exact ⟨p, hsame.at_ p hp, hid⟩
  · intro shown' hshown'
    cases Option.some.inj (hroot.symm.trans hshown')
    refine ⟨hview, fun x hx => hholds x ?_⟩
    rwa [hcreated] at hx

theorem World.deliver_eq {reply : Except ApiError Reply}
    (hc : w.pending[i]? = some ⟨request, frame, some reply⟩) :
    w.deliver i =
      let created := w.created ++ frame.acknowledges reply
      let cache := rememberReply reply w.cache
      let (store, calls) := resume cache created.length w.store frame reply
      { w with
        cache
        store
        pending := w.pending.eraseIdx i ++ calls.map Call.pending
        created
        removed := w.removed ++ frame.removes reply } := by
  unfold World.deliver
  rw [hc]

/-- An answer that is no failure. -/
theorem World.Sound.delivered {reply : Reply} (h : w.Sound)
    (hc : w.pending[i]? = some ⟨request, frame, some (.ok reply)⟩) : (w.deliver i).Sound := by
  have hfits := h.waits.fits _ (List.mem_of_getElem? hc)
  obtain ⟨r, hrequest, hanswers⟩ := h.waits.answered _ (List.mem_of_getElem? hc) reply rfl
  have hremoved : ∀ x ∈ w.removed, x ∈ w.removed ++ frame.removes (.ok reply) := fun _ hx => List.mem_append_left _ hx
  rw [World.deliver_eq hc]
  cases frame with
  | branches =>
    cases reply with
    | branches =>
      obtain ⟨p, hp, hreq⟩ := hfits
      cases Option.some.inj (hrequest.symm.trans hreq)
      exact h.settled hc (.of_eq rfl rfl) rfl rfl (List.append_nil _) hremoved (fun b hb => ⟨p, hp, hanswers b hb⟩)
        (.inl ⟨rfl, nofun⟩) (.inl rfl)
    | _ => exact h.dropped hc nofun
  | selected project source since =>
    obtain ⟨hp, rfl, hreq, hlen⟩ := hfits
    cases Option.some.inj (hrequest.symm.trans hreq)
    obtain ⟨tree, rfl⟩ := hanswers
    have hcreated : w.created ++ Frame.acknowledges (.selected project (.subtree (rootPath project)) since) (.ok (.tree tree)) = w.created :=
      List.append_nil _
    have hview : w.store.view = some (.subtree (rootPath project)) := h.view_eq hc nofun nofun rfl
    refine h.settled hc (.of_eq rfl rfl) rfl rfl hcreated hremoved h.branches (.inr ⟨nofun, ?_⟩)
      (.inr ⟨_, rfl, ⟨project, hp, rfl⟩, nofun, .inl rfl⟩)
    intro shown hshown
    cases hshown
    exact ⟨hview, World.holds_fetched (hcreated.symm ▸ hlen)⟩
  | refresh source =>
    obtain ⟨rfl, hlen⟩ := hfits
    have hview : w.store.view = some source := h.view_eq hc nofun nofun rfl
    cases reply with
    | tree =>
      refine h.settled hc (.of_eq rfl rfl) rfl rfl (List.append_nil _) hremoved h.branches (.inr ⟨nofun, ?_⟩) (.inl rfl)
      intro shown hshown
      cases hshown
      exact ⟨hview, World.holds_fetched ((List.append_nil w.created).symm ▸ hlen)⟩
    | branchTree tree =>
      refine h.settled hc (.of_eq rfl rfl) rfl rfl (List.append_nil _) hremoved h.branches (.inr ⟨nofun, ?_⟩) (.inl rfl)
      intro shown hshown
      obtain ⟨tree, -, rfl⟩ := Option.map_eq_some_iff.mp hshown
      exact ⟨hview, World.holds_fetched ((List.append_nil w.created).symm ▸ hlen)⟩
    | _ => exact h.dropped hc nofun
  | selectedBranch =>
    cases reply with
    | tree => exact h.chosen hc rfl rfl (List.append_nil _) (List.append_nil _) (List.append_nil _)
    | branchTree tree =>
      cases tree with
      | none => exact h.dropped hc nofun
      | some => exact h.chosen hc rfl rfl (List.append_nil _) (List.append_nil _) (List.append_nil _)
    | _ => exact h.dropped hc nofun
  | added project shown parentId =>
    obtain ⟨hp, hroot, hmem⟩ := hfits
    cases reply with
    | node created =>
      have hchild : created.node.id ∈ ids (insertChild shown.tree parentId (addedChild project created)) := child_mem_insertChild hmem
      exact h.grown hc rfl (.advance hp rfl rfl) rfl (List.append_nil _) rfl hroot rfl
        (fun y hy => mem_ids_applyCreateRevisions (mem_ids_insertChild hy)) (mem_ids_applyCreateRevisions hchild) rfl (List.append_nil _)
    | _ => exact h.dropped hc nofun
  | accepted project shown target =>
    obtain ⟨hp, hroot, hmem⟩ := hfits
    cases reply with
    | node created =>
      have hchild : created.node.id ∈ ids (insertChild shown.tree target (acceptedChild project created)) := child_mem_insertChild hmem
      exact h.grown hc rfl (.advance hp rfl rfl) rfl (List.append_nil _) rfl hroot rfl
        (fun y hy => mem_ids_applyCreateRevisions (mem_ids_insertChild hy)) (mem_ids_applyCreateRevisions hchild) rfl (List.append_nil _)
    | _ => exact h.dropped hc nofun
  | updated project shown nodeId =>
    obtain ⟨hp, hholds, hreq⟩ := hfits
    cases reply with
    | node saved =>
      obtain ⟨d, rfl⟩ := hreq r hrequest
      have hid : saved.node.id = nodeId := hanswers
      refine h.edited hc rfl rfl hp rfl rfl rfl rfl rfl rfl (List.append_nil _) hremoved ?_
      intro x hx
      exact (hholds x hx).imp (mem_ids_patchNode (fun v hv => hid.trans hv.symm)) (List.mem_append_left _)
    | _ => exact h.dropped hc nofun
  | deleted =>
    obtain ⟨hp, hholds⟩ := hfits
    cases reply with
    | done =>
      refine h.edited hc rfl rfl hp rfl rfl rfl rfl rfl rfl (List.append_nil _) hremoved ?_
      intro x hx
      rcases hholds x hx with hin | hout
      · exact (mem_ids_removeNode hin).imp_right (List.mem_append_right _)
      · exact .inr (List.mem_append_left _ hout)
    | _ => exact h.dropped hc nofun
  | promoted =>
    obtain ⟨hp, hholds⟩ := hfits
    cases reply with
    | done =>
      refine h.edited hc rfl rfl hp rfl rfl rfl rfl rfl rfl (List.append_nil _) hremoved ?_
      intro x hx
      exact (hholds x hx).imp mem_ids_markMainlineChild (List.mem_append_left _)
    | _ => exact h.dropped hc nofun
  | reparented project =>
    cases reply with
    | done =>
      obtain ⟨q, hq, hid, hrootId⟩ := id hfits
      have hsame : w.store.Same { advanceProjectRevision project none w.store with undoStack := [] } := .advance hfits rfl rfl
      have hview : w.store.view = some (treeSource project w.store.currentBranch) := by
        simp only [Store.view, hq, Option.map_some, treeSource, rootPath, hrootId]
      refine h.settled hc hsame rfl rfl (List.append_nil _) hremoved ?_ (.inl ⟨rfl, nofun⟩)
        (.inr ⟨_, rfl, ⟨rfl, Nat.le_refl _⟩, nofun, .inr ⟨rfl, rfl, ?_⟩⟩)
      · intro b hb
        obtain ⟨p, hp, hb⟩ := h.branches b hb
        exact ⟨p, hsame.at_ p hp, hb⟩
      · exact hview.symm.trans hsame.view.symm
    | _ => exact h.dropped hc nofun
  | _ => exact hfits.elim

theorem World.Sound.deliver (h : w.Sound) (hok : Move.Successful w (.deliver i)) : (w.deliver i).Sound := by
  cases hc : w.pending[i]? with
  | none =>
    unfold World.deliver
    rw [hc]
    exact h
  | some c =>
    obtain ⟨request, frame, reply⟩ := c
    cases reply with
    | none =>
      unfold World.deliver
      rw [hc]
      exact h
    | some reply =>
      cases reply with
      | error e => exact absurd rfl (hok _ e hc)
      | ok => exact h.delivered hc

theorem World.Sound.step {m : Move} (h : w.Sound) (hok : m.Successful w) (hapart : m.Apart w) : (w.step m).Sound := by
  cases m with
  | act => exact h.act hok hapart.1 hapart.2
  | expanded nodeId suggestions =>
    have hfits : ∀ c ∈ w.pending, (w.step (.expanded nodeId suggestions)).Fits c.request c.frame := fun c hc =>
      (h.waits.fits c hc).keep (fun _ hp => hp) (fun _ => rfl) (.inr (.inr ⟨rfl, fun _ hx => hx⟩))
    exact ⟨h.project, h.tree, h.branch, h.branches, h.holds, ⟨hfits, h.waits.answered, h.waits.oneTree, h.waits.apart⟩⟩
  | deepened result =>
    have hfits : ∀ c ∈ w.pending, (w.step (.deepened result)).Fits c.request c.frame := fun c hc =>
      (h.waits.fits c hc).keep (fun _ hp => hp) (fun _ => rfl) (.inr (.inr ⟨rfl, fun _ hx => hx⟩))
    exact ⟨h.project, h.tree, h.branch, h.branches, h.holds, ⟨hfits, h.waits.answered, h.waits.oneTree, h.waits.apart⟩⟩
  | serve i uuid now => exact h.answer i uuid now
  | deliver => exact h.deliver hok

theorem World.Sound.started (g : Graph) : (World.started g).Sound where
  project := rfl
  tree := nofun
  branch := nofun
  branches := nofun
  holds := nofun
  waits :=
    { fits := fun _ hc => (List.not_mem_nil hc).elim
      answered := fun _ hc => (List.not_mem_nil hc).elim
      oneTree := .inl (fun _ hc => (List.not_mem_nil hc).elim)
      apart := .nil }

/-! Runs -/

/-- When no action starts that disturbs a waiting one, the store shows what it says whenever
nothing waits, in whatever order the answers arrive. -/
theorem store_shows_what_it_says (g : Graph) (ms : List Move)
    (h : Along World.step (fun w m => m.Successful w ∧ m.Apart w) (World.started g) ms)
    (hend : (run World.step (World.started g) ms).pending = []) : (run World.step (World.started g) ms).Shows := by
  have hsound : (run World.step (World.started g) ms).Sound :=
    h.invariant World.Sound (fun w m hw hm => hw.step hm.1 hm.2) (World.Sound.started g)
  exact hsound.shows hend

/-! A run, and one that fails -/

theorem Action.Undisturbing.of_lists (ha : ∀ project, a ≠ .selectProject project)
    (h : ∀ c ∈ w.pending, c.frame.kind = .list) : a.Undisturbing w where
  project := fun project hproject => absurd hproject (ha project)
  agrees := fun _ _ c hc => .inr (.inl (h c hc))

theorem Move.Successful.of_ok
    (h : ((w.pending[i]?).bind Pending.reply).all (fun r => r.toBool) = true) : Move.Successful w (.deliver i) := by
  intro c e hc hreply
  rw [hc, Option.bind_some, hreply] at h
  cases h

/-- The tree is refreshed while the branches are listed, and is there before them. -/
theorem store_shows_what_it_says_refreshed :
    (run World.step (World.started Demo.garden)
      [.act (.selectProject (Demo.row "p1")), .serve 0 Demo.uuid 0, .deliver 0, .act .refreshTree, .serve 0 Demo.uuid 0,
        .serve 1 Demo.uuid 0, .deliver 1, .deliver 0]).Shows := by
  apply store_shows_what_it_says
  · refine ⟨⟨rfl, trivial, fun _ _ => .inl rfl, fun _ _ _ hc => absurd hc List.not_mem_nil⟩, ⟨trivial, trivial⟩,
      ⟨.of_ok (by decide +kernel), trivial⟩, ⟨rfl, trivial, .of_lists nofun (by decide +kernel)⟩, ⟨trivial, trivial⟩,
      ⟨trivial, trivial⟩, ⟨.of_ok (by decide +kernel), trivial⟩, ⟨.of_ok (by decide +kernel), trivial⟩, trivial⟩
  · exact List.length_eq_zero_iff.mp (by decide +kernel)

def HttpRequest.top : HttpRequest → Option String
  | .subtree nodeId => some nodeId
  | _ => none

/-- One project is selected, then another; the tree of the first arrives last. -/
def Demo.crossing : List Move :=
  [.act (.selectProject (row "p1")), .act (.selectProject (row "p2")), .serve 0 uuid 0, .serve 1 uuid 0,
    .deliver 1, .deliver 0, .serve 0 uuid 0, .serve 1 uuid 0, .deliver 0, .deliver 0]

/-- The store then shows the tree of one project under the name of the other. -/
theorem late_tree_is_shown : ¬ ∀ g ms, Along World.step (fun w m => m.Successful w) (World.started g) ms →
    (run World.step (World.started g) ms).pending = [] → (run World.step (World.started g) ms).Shows := by
  intro hall
  have hshows : (run World.step (World.started Demo.garden) Demo.crossing).Shows := by
    apply hall
    · exact ⟨rfl, rfl, trivial, trivial, .of_ok (by decide +kernel), .of_ok (by decide +kernel), trivial, trivial,
        .of_ok (by decide +kernel), .of_ok (by decide +kernel), trivial⟩
    · exact List.length_eq_zero_iff.mp (by decide +kernel)
  have htop : (run World.step (World.started Demo.garden) Demo.crossing).store.rootNode.map (fun shown => shown.source.top) =
      some (some "r1") := by decide +kernel
  have hroot : (run World.step (World.started Demo.garden) Demo.crossing).store.currentProject.map rootPath = some "r2" := by
    decide +kernel
  have hmain : (run World.step (World.started Demo.garden) Demo.crossing).store.currentBranch.isNone = true := by decide +kernel
  obtain ⟨shown, hshown, htop⟩ := Option.map_eq_some_iff.mp htop
  obtain ⟨p, hp, hsource⟩ := hshows.tree shown hshown
  obtain ⟨q, hq, hroot⟩ := Option.map_eq_some_iff.mp hroot
  cases Option.some.inj (hp.symm.trans hq)
  rw [hsource, Option.isNone_iff_eq_none.mp hmain] at htop
  have hpath : rootPath p = "r1" := Option.some.inj htop
  rw [hroot] at hpath
  exact absurd hpath (by decide)

end GrowthMap.Client
