import GrowthMap.Canon.Execution

/- The application of a batch that reads the state it claims in: validation, claim, run and
   bump, and that all of it is a commit. -/
namespace GrowthMap.Canon

open Relational Relation Fallible Table

/-! The bump -/

def Node.bump (n : Node) : Node := { n with revision := bumped n.revision }

/-- Each node of the list is bumped, and nothing else happens. -/
structure Bumped (xs : List String) (g g' : Graph) : Prop where
  nodes : ∀ x, g'.nodes.get x = if x ∈ xs then (g.nodes.get x).map Node.bump else g.nodes.get x
  rest : g' = { g with nodes := g'.nodes }

variable {xs : List String} {s s' : Session} {guard : Graph → List Edge → Prop} {p : String} {expected : Int}
  {g g' : Graph} {ops : List (Op String)} {body : Batch}

theorem bumpAll_ok (hs : s.Held) (hnodup : xs.Nodup) (h : bumpAll xs s = .ok s') :
    Bumped xs s.graph s'.graph := by
  induction xs generalizing s with
  | nil =>
    cases h
    exact ⟨by simp, rfl⟩
  | cons x xs ih =>
    obtain ⟨hx, hnodup⟩ := List.nodup_cons.mp hnodup
    simp only [bumpAll, hs.node] at h
    cases hn : s.graph.nodes.get x with
    | none =>
      simp only [hn] at h
      obtain ⟨hnodes, hrest⟩ := ih hs hnodup h
      refine ⟨?_, hrest⟩
      intro y
      rw [hnodes y]
      by_cases hy : y = x
      · subst hy
        simp [hx, hn]
      · simp [hy]
    | some n =>
      simp only [hn] at h
      obtain ⟨s₁, hwrite, h⟩ := bind_ok h
      have hrow : s.graph.nodes.get n.id = some n := by rw [get_key hn]; exact hn
      have hsame : n.SameIdentity n.bump := ⟨rfl, rfl, rfl⟩
      obtain ⟨hflush, hs₁⟩ := Session.write_ok hs hrow hsame hwrite
      obtain ⟨hnodes, hrest⟩ := ih hs₁ hnodup h
      have hget := flushNode_get hrow hsame hflush
      rw [get_key hn] at hget
      refine ⟨?_, ?_⟩
      · intro y
        rw [hnodes y, hget y]
        by_cases hy : y = x
        · subst hy
          simp [hx, hn]
        · simp [hy]
      · rw [hrest, flushNode_ok hflush]

theorem bumpAll_writes (hs : s.Held)
    (hxs : ∀ x ∈ xs, s.graph.Has p x) (h : bumpAll xs s = .ok s') : Writes guard p s.graph s'.graph := by
  induction xs generalizing s with
  | nil =>
    cases h
    exact .refl
  | cons x xs ih =>
    obtain ⟨n, hn, hp⟩ := hxs x List.mem_cons_self
    simp only [bumpAll, hs.node, hn] at h
    obtain ⟨s₁, hwrite, h⟩ := bind_ok h
    have hrow : s.graph.nodes.get n.id = some n := by rw [get_key hn]; exact hn
    have hsame : n.SameIdentity n.bump := ⟨rfl, rfl, rfl⟩
    obtain ⟨hflush, hs₁⟩ := Session.write_ok hs hrow hsame hwrite
    have hfirst : Write guard p s.graph s₁.graph := .nodeRow ⟨n, hrow, hp⟩ (by rfl) hflush
    refine .head hfirst (ih hs₁ ?_ h)
    intro y hy
    obtain ⟨m, hm, hpm⟩ := hxs y (List.mem_cons_of_mem _ hy)
    rw [Graph.Has, flushNode_get hrow hsame hflush]
    split
    · exact ⟨n.bump, rfl, hp⟩
    · exact ⟨m, hm, hpm⟩

/-! The claim of a batch -/

theorem claimBatch_ok (h : claimBatch p expected g = .ok g') :
    claimProjectRevision p expected g = .ok g' := by
  unfold claimBatch at h
  unfold claimProjectRevision
  cases hrow : g.projects.get p with
  | none => simp [hrow] at h
  | some =>
    simp only [hrow] at h ⊢
    obtain ⟨hrev, h⟩ := guard_ok h
    exact guard_eq_ok.mpr ⟨hrev, h⟩

/-! Applied batches -/

/-- How a batch was applied, with the operations it became, their order and results, and the graphs after the
claim and after the run. -/
structure Applied (uuid : Nat → Nat → String) (now : Int) (grant : Grant) (actor : String) (body : Batch) (g g' : Graph)
    (ops : List (Op String)) (order : List (Op String × Nat)) (results : List (OpResult × Nat)) (allowed : List String)
    (g₁ g₂ : Graph) : Prop where
  scope : allowedNodes g grant = .ok allowed
  fills : List.Forall₂ Fills (identified (fun i => uuid i 0) body.operations) ops
  validated : Validated grant (snapshotOf (fun _ => g) grant.projectId ops) allowed (usedIds (fun _ => g) grant.projectId)
    (identified (fun i => uuid i 0) body.operations) ops
  perm : order.Perm ops.zipIdx
  before : ∀ pre x post q id, order = pre ++ x :: post → q ∈ order → q.1.created = some id → id ∈ x.1.dependsOn → q ∈ pre
  claim : claimProjectRevision grant.projectId body.expectedProjectRevision.val g = .ok g₁
  ran : Ran (fun i k => uuid i (k + 1)) now grant.projectId actor g₁ order g₂
  reports : List.Forall₂ (Reports (fun i k => uuid i (k + 1)) now grant.projectId actor g₁ order) order results
  bump : Bumped (touchedNodes g₁ grant.projectId ops) g₂ g'
  writes : ∀ guard : Graph → List Edge → Prop, (∀ x ∈ touchedNodes g₁ grant.projectId ops, g₂.Has grant.projectId x) →
    Writes guard grant.projectId g₂ g'

theorem touchedNodes_nodup (g : Graph) (p : String) (ops : List (Op String)) : (touchedNodes g p ops).Nodup :=
  (List.nodup_dedup _).filter _

variable {x : String} {uuid : Nat → Nat → String} {grant : Grant}

theorem mem_touchedNodes :
    x ∈ touchedNodes g p ops ↔ (∃ op ∈ ops, x ∈ op.touches) ∧ g.Has p x := by
  rw [touchedNodes, List.mem_filter, List.mem_dedup, List.mem_flatMap]
  cases hn : g.nodes.get x with
  | none => simp [Graph.Has, hn]
  | some => simp [Graph.Has, hn]

theorem prepareBatch_ok {see : Nat → Graph}
    {order : List (Op String × Nat)} (h : prepareBatch see uuid grant body = .ok (ops, order)) :
    ((see 1).projects.get grant.projectId).map Project.revision = some body.expectedProjectRevision.val ∧
      validateOperations false see (fun i => uuid i 0) grant body.operations = .ok ops ∧
      schedule ops.length ops.zipIdx = .ok order := by
  unfold prepareBatch at h
  cases hrow : (see 1).projects.get grant.projectId with
  | none => simp [hrow] at h
  | some =>
    simp only [hrow, error_bind] at h
    obtain ⟨hrev, h⟩ := guard_ok h
    obtain ⟨ops', hvalid, h⟩ := bind_ok h
    obtain ⟨_, -, h⟩ := bind_ok h
    obtain ⟨order', hschedule, h⟩ := bind_ok h
    cases h
    exact ⟨by simpa using (not_not.mp hrev).symm, hvalid, hschedule⟩

def ordered (n : Nat) (results : List (OpResult × Nat)) : List OpResult :=
  (List.range n).filterMap (fun i => (results.find? (fun r => decide (r.2 = i))).map Prod.fst)

theorem applyOperations_ok {now : Int} {actor : String} {revision : Int} {out : List OpResult}
    (h : applyOperations (fun _ => g) uuid now grant actor body g = .ok (g', revision, out)) :
    ∃ ops order results allowed g₁ g₂, Applied uuid now grant actor body g g' ops order results allowed g₁ g₂ ∧
      revision = body.expectedProjectRevision.val + 1 ∧ out = ordered ops.length results := by
  obtain ⟨⟨ops, order⟩, hprepare, h⟩ := bind_ok h
  obtain ⟨g₁, hclaim, h⟩ := bind_ok h
  obtain ⟨⟨s₂, results⟩, hexec, h⟩ := bind_ok h
  obtain ⟨s₃, hbump, h⟩ := bind_ok h
  cases h
  obtain ⟨-, hvalid, hschedule⟩ := prepareBatch_ok hprepare
  obtain ⟨allowed, hscope, hfills, hvalidated⟩ := validateOperations_ok hvalid
  have hperm := schedule_perm hschedule
  have hclaim := claimBatch_ok hclaim
  have hheld : Session.Held ⟨g₁, (snapshotOf (fun _ => g) grant.projectId ops).nodes⟩ := by
    intro x n hx
    show g₁.nodes.get x = some n
    rw [(claim_rows hclaim).1]
    exact (Option.filter_eq_some_iff.mp hx).1
  obtain ⟨hran, hheld', hreports⟩ := executeAll_ran .nil hheld hexec
  refine ⟨ops, order, results, allowed, g₁, s₂.graph, ?_, rfl, rfl⟩
  refine ⟨hscope, hfills, hvalidated, hperm, ?_, hclaim, hran, hreports, ?_, ?_⟩
  · intro pre x post q id horder hq hcreated hdepends
    exact schedule_before hschedule horder (hperm.subset hq) hcreated hdepends
  · exact bumpAll_ok hheld' (touchedNodes_nodup ..) hbump
  · intro guard hxs
    exact bumpAll_writes hheld' hxs hbump

/-! What was named is there -/

theorem allowedNodes_has {allowed : List String} (h : allowedNodes g grant = .ok allowed) :
    ∀ x ∈ allowed, g.Has grant.projectId x := by
  have hscoped : ∀ {root external out}, validatedScopedGraph g grant.projectId root external = .ok out →
      root ∈ out ∧ ∀ x ∈ out, g.Has grant.projectId x := by
    intro root external out hout
    unfold validatedScopedGraph scopedGraph at hout
    split at hout
    · cases hout
    · obtain ⟨-, hout⟩ := guard_ok hout
      obtain ⟨-, hout⟩ := guard_ok hout
      obtain ⟨hroot, howns, -⟩ := closure_ok hout
      exact ⟨hroot, fun x hx => (howns x hx).has⟩
  unfold allowedNodes at h
  split at h
  · obtain ⟨out, hout, h⟩ := bind_ok h
    cases h
    obtain ⟨hroot, hhas⟩ := hscoped hout
    intro x hx
    rw [List.mem_singleton.mp hx]
    exact hhas _ hroot
  · exact (hscoped h).2
  · obtain ⟨-, h⟩ := guard_ok h
    cases h
    intro x hx
    obtain ⟨n, hn, rfl⟩ := List.mem_map.mp hx
    obtain ⟨hmem, hp⟩ := List.mem_filter.mp hn
    simp only [decide_eq_true_eq] at hp
    exact ⟨n, get_of_mem hmem, hp.1⟩

section Applied

variable {uuid : Nat → Nat → String} {now : Int} {grant : Grant} {actor : String} {body : Batch} {g g' : Graph}
  {ops : List (Op String)} {order : List (Op String × Nat)} {results : List (OpResult × Nat)} {allowed : List String}
  {g₁ g₂ : Graph} (ha : Applied uuid now grant actor body g g' ops order results allowed g₁ g₂)
include ha

theorem Applied.snapshot {n : Node} :
    (snapshotOf (fun _ => g) grant.projectId ops).nodes x = some n ↔ g₁.nodes.get x = some n ∧ n.projectId = grant.projectId := by
  rw [(claim_rows ha.claim).1]
  simp [snapshotOf, Option.filter_eq_some_iff]

theorem Applied.inScope : ∀ x ∈ allowed, ∃ n, (snapshotOf (fun _ => g) grant.projectId ops).nodes x = some n := by
  intro x hx
  obtain ⟨n, hn, hp⟩ := allowedNodes_has ha.scope x hx
  exact ⟨n, ha.snapshot.mpr ⟨by rw [(claim_rows ha.claim).1]; exact hn, hp⟩⟩

variable {x : Op String × Nat} {op : Op String} {pre post : List (Op String × Nat)} {h h' : Graph} {r : String}
  {b : Option String}

theorem Applied.mem (hx : x ∈ order) : x.1 ∈ ops := List.fst_mem_of_mem_zipIdx (ha.perm.subset hx)

theorem Applied.scheduled (hop : op ∈ ops) : ∃ i, (op, i) ∈ order := by
  obtain ⟨i, hi, heq⟩ := List.getElem_of_mem hop
  refine ⟨i, ha.perm.symm.subset ?_⟩
  rw [List.mk_mem_zipIdx_iff_getElem?]
  simp [hi, heq]

theorem Applied.nodup : order.Nodup := by
  rw [ha.perm.nodup_iff]
  refine List.Nodup.of_map Prod.snd ?_
  rw [List.zipIdx_map_snd]
  exact List.nodup_range'

theorem Applied.self (hop : op ∈ ops) (id : String) (hid : op.created = some id) : id ∉ op.dependsOn := by
  intro hdepends
  obtain ⟨i, hi⟩ := ha.scheduled hop
  obtain ⟨pre, post, horder⟩ := List.append_of_mem hi
  have hin := ha.before pre _ post _ id horder hi hid hdepends
  have hnodup := ha.nodup
  rw [horder, List.nodup_append] at hnodup
  exact hnodup.2.2 _ hin _ List.mem_cons_self rfl

theorem Applied.updates (hx : x ∈ order) {y : String} (hy : x.1.updated = some y) :
    ∃ n, g₁.nodes.get y = some n ∧ n.projectId = grant.projectId ∧ y ∈ allowed := by
  obtain ⟨op, i⟩ := x
  cases op with
  | updateNode =>
    cases hy
    obtain ⟨n, hn, -, hscope⟩ := ha.validated.update ha.inScope (ha.mem hx)
    obtain ⟨hget, hp⟩ := ha.snapshot.mp hn
    exact ⟨n, hget, hp, hscope⟩
  | _ => cases hy

theorem Applied.grown_prefix (horder : order = pre ++ post)
    (hran : Ran (fun i k => uuid i (k + 1)) now grant.projectId actor g₁ pre h) :
    Grown (fun i k => uuid i (k + 1)) now grant.projectId actor g₁ pre h := by
  refine hran.grown ?_
  intro x hx y hy
  obtain ⟨n, hn, -⟩ := ha.updates (by rw [horder]; exact List.mem_append_left _ hx) hy
  exact ⟨n, hn⟩

theorem Applied.grown : Grown (fun i k => uuid i (k + 1)) now grant.projectId actor g₁ order g₂ :=
  ha.grown_prefix (List.append_nil _).symm ha.ran

theorem Applied.settled (horder : order = pre ++ x :: post) (hr : r ∈ x.1.dependsOn)
    (href : Ref (snapshotOf (fun _ => g) grant.projectId ops) allowed ops r expected b) :
    (∃ n, g₁.nodes.get r = some n ∧ n.projectId = grant.projectId ∧ n.branchId = b ∧ n.revision = expected ∧ r ∈ allowed) ∨
      (r, b) ∈ newNodes pre := by
  cases href with
  | existing hn hrev hb hscope =>
    obtain ⟨hget, hp⟩ := ha.snapshot.mp hn
    exact .inl ⟨_, hget, hp, hb, hrev, hscope⟩
  | new hn hrev hnew =>
    obtain ⟨op, hop, hopnew⟩ := List.mem_filterMap.mp hnew
    obtain ⟨i, hi⟩ := ha.scheduled hop
    have hin := ha.before pre x post (op, i) r horder hi (newNode_created hopnew) hr
    exact .inr (List.mem_filterMap.mpr ⟨_, hin, hopnew⟩)

theorem Applied.found {pre post : List (Op String × Nat)} {x : Op String × Nat} (horder : order = pre ++ x :: post) {h : Graph}
    (hran : Ran (fun i k => uuid i (k + 1)) now grant.projectId actor g₁ pre h) {r : String} {expected : Int} {b : Option String}
    (hr : r ∈ x.1.dependsOn) (href : Ref (snapshotOf (fun _ => g) grant.projectId ops) allowed ops r expected b) :
    ∃ n, h.nodes.get r = some n ∧ n.projectId = grant.projectId ∧ n.branchId = b := by
  have hgrown := ha.grown_prefix horder hran
  rcases ha.settled horder hr href with ⟨n, hn, hp, hb, -⟩ | hnew
  · obtain ⟨n', hn', hevolves, -⟩ := hgrown.keeps r n hn
    exact ⟨n', hn', hevolves.identity.2.1.trans hp, hevolves.branch.trans hb⟩
  · obtain ⟨-, n, hn, hp, hb, -⟩ := hgrown.created r b hnew
    exact ⟨n, hn, hp, hb⟩

/-- A node in scope that was there, or one that has been created. -/
def Settled (g : Graph) (allowed : List String) (done : List (Op String × Nat)) (r : String) : Prop :=
  (r ∈ allowed ∧ ∃ n, g.nodes.get r = some n) ∨ ∃ b, (r, b) ∈ newNodes done

variable {done : List (Op String × Nat)}

omit ha in
theorem Settled.not_copy (hr : Settled g₁ allowed done r) :
    ¬ IsCopy g₁ done h r := by
  rintro ⟨⟨hnone, -⟩, hnot⟩
  rcases hr with ⟨-, n, hn⟩ | ⟨b, hb⟩
  · rw [hnone] at hn
    cases hn
  · exact hnot b hb

omit ha in
theorem Settled.mono {more : List (Op String × Nat)} (hr : Settled g₁ allowed done r) :
    Settled g₁ allowed (done ++ more) r := by
  refine hr.imp_right ?_
  rintro ⟨b, hb⟩
  exact ⟨b, by simp only [newNodes, List.filterMap_append, List.mem_append] at hb ⊢; exact .inl hb⟩

theorem Applied.settled_ref (horder : order = pre ++ x :: post) (hr : r ∈ x.1.dependsOn)
    (href : Ref (snapshotOf (fun _ => g) grant.projectId ops) allowed ops r expected b) : Settled g₁ allowed pre r := by
  rcases ha.settled horder hr href with ⟨n, hn, -, -, -, hscope⟩ | hnew
  · exact .inl ⟨hscope, n, hn⟩
  · exact .inr ⟨b, hnew⟩

theorem Applied.settled_ends (horder : order = pre ++ post) (hx : x ∈ pre)
    {rel a b : String} (hends : x.1.ends = some (rel, a, b)) : Settled g₁ allowed pre a ∧ Settled g₁ allowed pre b := by
  obtain ⟨pre₁, post₁, rfl⟩ := List.append_of_mem hx
  have horder₁ : order = pre₁ ++ x :: (post₁ ++ post) := by rw [horder]; simp
  have hop : x.1 ∈ ops := ha.mem (by rw [horder]; exact List.mem_append_left _ hx)
  obtain ⟨op, i⟩ := x
  cases op with
  | createNode id parent c =>
    obtain ⟨⟨q, expected⟩, rfl, heq⟩ := Option.map_eq_some_iff.mp hends
    cases heq
    have hne : q ≠ b := fun heq => ha.self hop b rfl (by simp [Op.dependsOn, heq])
    obtain ⟨named, inherited, -, href, -, -⟩ := ha.validated.child ha.inScope hne hop
    refine ⟨(ha.settled_ref horder₁ (by simp [Op.dependsOn]) href).mono, .inr ⟨c, ?_⟩⟩
    exact List.mem_filterMap.mpr ⟨_, hx, rfl⟩
  | createEdge =>
    cases hends
    obtain ⟨branchA, branchB, hrefA, hrefB, -⟩ := ha.validated.edge ha.inScope hop
    exact ⟨(ha.settled_ref horder₁ (by simp [Op.dependsOn]) hrefA).mono, (ha.settled_ref horder₁ (by simp [Op.dependsOn]) hrefB).mono⟩
  | _ => cases hends

/-! A batch is a commit -/

/-- The branch a new node is put in is one of the project. -/
theorem Applied.hasBranch {i : Nat} {id title summary nodeType : String}
    {parent : Option (String × Revision)}
    (horder : order = pre ++ (.createNode id parent b title summary nodeType, i) :: post) (hw : Wf h)
    (hran : Ran (fun i k => uuid i (k + 1)) now grant.projectId actor g₁ pre h)
    (hcheck : checkBranch grant (snapshotOf (fun _ => g) grant.projectId ops) b = .ok ())
    (hnode : insertNode (Op.row grant.projectId actor id title summary nodeType b) h = .ok h') :
    h.HasBranch grant.projectId b := by
  have hgrown := ha.grown_prefix horder hran
  obtain ⟨bs, hrows, hids, hbs⟩ := hgrown.branches
  rintro c rfl
  obtain ⟨row, hrow⟩ := (insertNode_ok hnode).1 c rfl
  refine ⟨row, hrow, ?_⟩
  obtain ⟨hmem, hkey⟩ := get_eq_some.mp hrow
  have htruthy : truthy (some c) = some c := truthy_inserted hw hnode
  simp only [checkBranch, htruthy] at hcheck
  rw [hrows, List.mem_append] at hmem
  rcases hmem with hmem | hmem
  · -- an older branch: the validation has seen it, or the batch could not have created its own
    cases hsnap : (snapshotOf (fun _ => g) grant.projectId ops).branches c with
    | some =>
      obtain ⟨hget, hp⟩ := Option.filter_eq_some_iff.mp hsnap
      have hold : g.branches.get c = some row := by
        rw [← (claim_rows ha.claim).2.2.2]
        exact get_eq_some.mpr ⟨hmem, hkey⟩
      rw [hold] at hget
      cases hget
      simpa using hp
    | none =>
      exfalso
      simp only [hsnap, error_bind] at hcheck
      obtain ⟨hnew, -⟩ := guard_ok hcheck
      rw [not_not, ha.validated.newBranches] at hnew
      obtain ⟨op, hop, hopnew⟩ := List.mem_filterMap.mp hnew
      obtain ⟨j, hj⟩ := ha.scheduled hop
      have hcreated : op.created = some c := by
        cases op with
        | createBranch => exact hopnew
        | _ => cases hopnew
      have hin := ha.before pre _ post (op, j) c horder hj hcreated (by simp [Op.dependsOn])
      have hc : c ∈ bs.map Branch.id := by
        rw [hids]
        exact List.mem_filterMap.mpr ⟨_, hin, hopnew⟩
      have hdistinct := h.branches.distinct
      rw [hrows, List.map_append, List.nodup_append] at hdistinct
      exact hdistinct.2.2 c (List.mem_map.mpr ⟨row, hmem, hkey⟩) c hc rfl
  · exact (hbs row hmem).1

/-- What a guard is asked about the edges of the batch, where they are written. -/
def Guarded (guard : Graph → List Edge → Prop) (uuid : Nat → Nat → String) (now : Int) (p actor : String) (g : Graph)
    (order : List (Op String × Nat)) : Prop :=
  ∀ pre op i post h h' e, order = pre ++ (op, i) :: post → Ran (fun i k => uuid i (k + 1)) now p actor g pre h → Wf h →
    h'.edges = h.edges → (∀ x b, h.branchOf x = some b → h'.branchOf x = some b) →
    (∀ x b, op.newNode = some (x, b) → h.nodes.get x = none ∧ h'.branchOf x = some b) → op.ends = some e.ends →
    e.isContainment = true → guard h' [e]

theorem Applied.step_writes (pol : Policy guard)
    (hguard : Guarded guard uuid now grant.projectId actor g₁ order) {i : Nat}
    (horder : order = pre ++ (op, i) :: post) (hw : Wf h)
    (hran : Ran (fun i k => uuid i (k + 1)) now grant.projectId actor g₁ pre h)
    (hexec : Executed (fun k => uuid i (k + 1)) now grant.projectId actor h h' op) : Writes guard grant.projectId h h' := by
  have hin : (op, i) ∈ order := by rw [horder]; simp
  have hop := ha.mem hin
  cases hexec with
  | @root id title summary nodeType b hnode =>
    exact (Write.node rfl (ha.hasBranch horder hw hran (ha.validated.root hop).2 hnode) hnode).single
  | @child id q title summary nodeType expected b h₁ hnode hedge =>
    have hne : q ≠ id := fun heq => ha.self hop id rfl (by simp [Op.dependsOn, heq])
    obtain ⟨named, inherited, -, href, -, hcheck⟩ := ha.validated.child ha.inScope hne hop
    obtain ⟨n, hn, hp, -⟩ := ha.found horder hran (by simp [Op.dependsOn]) href
    have hfirst : Write guard grant.projectId h h₁ := .node rfl (ha.hasBranch horder hw hran hcheck hnode) hnode
    refine hfirst.single.tail (.edges ?_ ?_ (each_single hedge))
    · intro e he
      rw [List.mem_singleton.mp he]
      exact ⟨rfl, has_insertNode hnode ⟨n, hn, hp⟩, has_inserted hnode⟩
    · obtain ⟨-, nodes, hins, rfl⟩ := insertNode_ok hnode
      refine hguard pre _ i post h _ _ horder hran hw rfl ?_ ?_ rfl rfl
      · intro x c hx
        obtain ⟨m, hm, rfl⟩ := Option.map_eq_some_iff.mp hx
        simp only [Graph.branchOf, get_insert_old hins hm, Option.map_some]
      · intro x c hx
        cases hx
        have hself : nodes.get id = some (Op.row grant.projectId actor id title summary nodeType b) := get_insert_self hins
        refine ⟨insert_fresh hins, ?_⟩
        simp only [Graph.branchOf, hself, Option.map_some]
        rfl
  | @update x expected fields n new hn hsame hkeep hflush =>
    obtain ⟨m, hm, hp, -⟩ := ha.updates hin rfl
    obtain ⟨n', hn', hevolves, -⟩ := (ha.grown_prefix horder hran).keeps x m hm
    rw [hn] at hn'
    cases hn'
    have hrow : h.Has grant.projectId n.id :=
      ⟨n, by rw [get_key hn]; exact hn, hevolves.identity.2.1.trans hp⟩
    exact (Write.nodeRow hrow hkeep.1 hflush).single
  | @edge id a b relationType note ea eb weight hedge =>
    obtain ⟨branchA, branchB, hrefA, hrefB, -⟩ := ha.validated.edge ha.inScope hop
    obtain ⟨n, hn, hp, -⟩ := ha.found horder hran (by simp [Op.dependsOn]) hrefA
    obtain ⟨m, hm, hpm, -⟩ := ha.found horder hran (by simp [Op.dependsOn]) hrefB
    refine (Write.edges ?_ ?_ (each_single hedge)).single
    · intro e he
      rw [List.mem_singleton.mp he]
      exact ⟨rfl, ⟨n, hn, hp⟩, m, hm, hpm⟩
    · by_cases hc : relationType = "child_of"
      · refine hguard pre _ i post h h _ horder hran hw rfl (fun _ _ hx => hx) (by simp [Op.newNode]) rfl ?_
        simp [Edge.isContainment, hc]
      · exact pol.loose (by simp [arcs, Edge.isContainment, hc])
  | @block id x blockType expected content orderIndex hblock =>
    obtain ⟨b, href⟩ := ha.validated.block ha.inScope hop
    obtain ⟨n, hn, hp, -⟩ := ha.found horder hran (by simp [Op.dependsOn]) href
    exact (Write.block ⟨n, hn, hp⟩ hblock).single
  | @branch id x name description expected hcopy =>
    have hid : id ≠ "" := isUuid_ne (ha.validated.ids id (List.mem_filterMap.mpr ⟨_, hop, rfl⟩)).1
    exact hcopy.writes pol hw hid

theorem Applied.ran_writes (pol : Policy guard) (hw : Wf g)
    (hguard : Guarded guard uuid now grant.projectId actor g₁ order) :
    Wf g₂ ∧ Writes guard grant.projectId g₁ g₂ := by
  refine ha.ran.invariant (fun _ h => Wf h ∧ Writes guard grant.projectId g₁ h) ⟨wf_claim hw ha.claim, .refl⟩ ?_
  rintro done op i post h h' horder hran ⟨hwf, hwrites⟩ hexec
  have hstep := ha.step_writes pol hguard horder hwf hran hexec
  exact ⟨(Writes.sound hwf hstep).1, hwrites.trans hstep⟩

theorem Applied.commit (pol : Policy guard) (hw : Wf g)
    (hguard : Guarded guard uuid now grant.projectId actor g₁ order) :
    Commit guard g g' (some (grant.projectId, body.expectedProjectRevision.val)) := by
  refine .claimed ha.claim ((ha.ran_writes pol hw hguard).2.trans (ha.writes guard ?_))
  intro x hx
  obtain ⟨-, n, hn, hp⟩ := mem_touchedNodes.mp hx
  obtain ⟨n', hn', hevolves, -⟩ := ha.grown.keeps x n hn
  exact ⟨n', hn', hevolves.identity.2.1.trans hp⟩

end Applied

end GrowthMap.Canon
