import GrowthMap.Canon.Copies

/- What the validation and the schedule of a batch establish.

   Every node an accepted operation names exists in the project at the revision that is
   stated and is in scope, or is created by an operation before it. The order of execution
   has every operation once, after the operations it depends on. -/
namespace GrowthMap.Canon

open Relational Fallible

/-! Ids -/

theorem isUuid_ne {s : String} (h : isUuid s = true) : s ≠ "" := by
  rintro rfl
  simp [isUuid] at h

theorem created_withId {ι κ : Type} (f : ι → κ) (op : Op ι) : (op.withId f).created = op.created.map f := by
  cases op <;> rfl

variable {draw : Nat → String} {out ops : List (Op String)} {s s' : Checked} {snap : Snapshot} {x : String}
  {expected : Revision} {b : Option String} {models : Bool} {op op' : Op String} {order : List (Op String × Nat)}
  {used allowed : List String} {field : String} {grant : Grant} {pending : List (Op String × Nat)}

theorem reserve_ok {ops : List (Op (Option String) × Nat)} (h : reserve draw used ops = .ok out) :
    (out.filterMap Op.created).Nodup ∧ ∀ id ∈ out.filterMap Op.created, isUuid id = true ∧ id ∉ used := by
  induction ops generalizing used out with
  | nil =>
    cases h
    simp
  | cons x ops ih =>
    obtain ⟨op, i⟩ := x
    simp only [reserve] at h
    cases hc : (op.withId (fun id => id.getD (draw i))).created with
    | none =>
      simp only [hc] at h
      obtain ⟨rest, hrest, h⟩ := bind_ok h
      cases h
      simp only [List.filterMap_cons, hc]
      exact ih hrest
    | some id =>
      simp only [hc] at h
      obtain ⟨huuid, h⟩ := guard_ok h
      obtain ⟨hused, h⟩ := guard_ok h
      obtain ⟨rest, hrest, h⟩ := bind_ok h
      cases h
      obtain ⟨hnodup, hids⟩ := ih hrest
      simp only [List.filterMap_cons, hc, List.nodup_cons, List.mem_cons, forall_eq_or_imp]
      refine ⟨⟨fun hin => (hids id hin).2 List.mem_cons_self, hnodup⟩, ⟨by simpa using huuid, hused⟩, ?_⟩
      intro x hx
      exact ⟨(hids x hx).1, fun hin => (hids x hx).2 (List.mem_cons_of_mem _ hin)⟩

def identified (draw : Nat → String) (ops : List (Op (Option String))) : List (Op String) :=
  ops.zipIdx.map (fun x => x.1.withId (fun id => id.getD (draw x.2)))

theorem reserve_map {ops : List (Op (Option String) × Nat)}
    (h : reserve draw used ops = .ok out) : out = ops.map (fun x => x.1.withId (fun id => id.getD (draw x.2))) := by
  induction ops generalizing used out with
  | nil =>
    cases h
    rfl
  | cons x ops ih =>
    obtain ⟨op, i⟩ := x
    simp only [reserve] at h
    cases hc : (op.withId (fun id => id.getD (draw i))).created with
    | none =>
      simp only [hc] at h
      obtain ⟨rest, hrest, h⟩ := bind_ok h
      cases h
      rw [List.map_cons, ih hrest]
    | some =>
      simp only [hc] at h
      obtain ⟨-, h⟩ := guard_ok h
      obtain ⟨-, h⟩ := guard_ok h
      obtain ⟨rest, hrest, h⟩ := bind_ok h
      cases h
      rw [List.map_cons, ih hrest]

/-! Acceptance of one operation -/

theorem checkRef_ok (h : snap.checkRef s field x expected = .ok b) :
    (∃ n, snap.nodes x = some n ∧ n.revision = expected.val ∧ n.branchId = b) ∨
      snap.nodes x = none ∧ x ∈ snap.newNodes ∧ expected.val = 1 ∧ s.branchOf x = b := by
  obtain ⟨⟨branch, current⟩, href, h⟩ := bind_ok h
  obtain ⟨hrev, h⟩ := guard_ok h
  cases h
  have hrev : expected.val = current := not_not.mp hrev
  unfold Snapshot.ref at href
  cases hn : snap.nodes x with
  | some n =>
    simp only [hn, Except.ok.injEq, Prod.mk.injEq] at href
    exact .inl ⟨n, rfl, by rw [href.2, hrev], href.1⟩
  | none =>
    simp only [hn] at href
    split at href
    · simp only [Except.ok.injEq, Prod.mk.injEq] at href
      exact .inr ⟨rfl, ‹_›, by rw [hrev, href.2], href.1⟩
    · cases href

theorem checkScope_ok {refs : List String} {u : Unit} (h : checkScope allowed refs = .ok u) : ∀ r ∈ refs, r ∈ allowed := by
  obtain ⟨hno, -⟩ := guard_ok h
  simpa using hno

/-- How an operation is accepted: what it was, what it became, and the state of the validation after it. -/
inductive Accepted (grant : Grant) (snap : Snapshot) (s : Checked) : Op String → Checked → Op String → Prop where
  | root {id title summary nodeType : String} {branchId : Option String}
      (hscope : truthy grant.nodeScopeId = none ∧ truthy grant.branchRootId = none)
      (hbranch : checkBranch grant snap branchId = .ok ()) :
      Accepted grant snap s (.createNode id none branchId title summary nodeType)
        ⟨s.allowed, Function.update s.branchOf id branchId⟩ (.createNode id none branchId title summary nodeType)
  | child {id p title summary nodeType : String} {expected : Revision} {named inherited branchId : Option String}
      (href : snap.checkRef s "expected_parent_revision" p expected = .ok inherited)
      (hchild : childBranch named inherited = .ok branchId) (hbranch : checkBranch grant snap branchId = .ok ())
      (hscope : p = id ∨ p ∈ s.allowed) :
      Accepted grant snap s (.createNode id (some (p, expected)) named title summary nodeType)
        ⟨id :: s.allowed, Function.update s.branchOf id branchId⟩
        (.createNode id (some (p, expected)) branchId title summary nodeType)
  | update {x : String} {expected : Revision} {fields : List (NodeField × Value)} {n : Node} (hn : snap.nodes x = some n)
      (hrev : n.revision = expected.val) (hscope : x ∈ s.allowed) :
      Accepted grant snap s (.updateNode x expected fields) s (.updateNode x expected fields)
  | edge {id a b relationType note : String} {expectedFrom expectedTo : Revision} {weight : Rat} {branchA branchB : Option String}
      (ha : snap.checkRef s "expected_from_revision" a expectedFrom = .ok branchA)
      (hb : snap.checkRef s "expected_to_revision" b expectedTo = .ok branchB)
      (hsame : relationType = "child_of" → branchA = branchB) (hscope : a ∈ s.allowed ∧ b ∈ s.allowed) :
      Accepted grant snap s (.createEdge id a b expectedFrom expectedTo relationType weight note) s
        (.createEdge id a b expectedFrom expectedTo relationType weight note)
  | block {id x blockType : String} {expected : Revision} {content : Value} {orderIndex : Int} {branch : Option String}
      (hx : snap.checkRef s "expected_node_revision" x expected = .ok branch) (hscope : x ∈ s.allowed) :
      Accepted grant snap s (.createContentBlock id x expected blockType content orderIndex) s
        (.createContentBlock id x expected blockType content orderIndex)
  | branch {id x name description : String} {expected : Revision} {branch : Option String}
      (hx : snap.checkRef s "expected_source_revision" x expected = .ok branch) (hnode : truthy grant.nodeScopeId = none)
      (hscope : x ∈ s.allowed) :
      Accepted grant snap s (.createBranch id x expected name description) s (.createBranch id x expected name description)

theorem checkOp_ok
    (h : checkOp models grant snap s op = .ok (s', op')) : Accepted grant snap s op s' op' := by
  cases op with
  | createNode id parent =>
    simp only [checkOp, error_bind] at h
    obtain ⟨hroot, h⟩ := guard_ok h
    cases parent with
    | none =>
      simp only [ok_bind, Option.any_none] at h
      obtain ⟨_, hbranch, h⟩ := bind_ok h
      obtain ⟨_, -, h⟩ := bind_ok h
      cases h
      refine .root ?_ hbranch
      constructor
      · by_contra hne
        exact hroot ⟨.inl (Option.isSome_iff_ne_none.mpr hne), rfl⟩
      · by_contra hne
        exact hroot ⟨.inr (Option.isSome_iff_ne_none.mpr hne), rfl⟩
    | some parent =>
      obtain ⟨p, expected⟩ := parent
      simp only [Option.any_some, Option.map_some, Option.toList_some] at h
      obtain ⟨inherited, href, h⟩ := bind_ok h
      obtain ⟨branchId, hchild, h⟩ := bind_ok h
      obtain ⟨_, hbranch, h⟩ := bind_ok h
      obtain ⟨_, hscope, h⟩ := bind_ok h
      have hin := checkScope_ok hscope p List.mem_cons_self
      -- a parent out of scope would not have let its child in
      by_cases hc : p ∈ s.allowed ∨ p ∈ snap.newNodes
      · simp only [hc, decide_true, if_true, List.mem_cons] at h hin
        cases h
        exact .child href hchild hbranch hin
      · simp only [hc, decide_false] at hin
        exact absurd (.inl hin) hc
  | updateNode x =>
    simp only [checkOp, error_bind] at h
    cases hn : snap.nodes x with
    | none =>
      simp only [hn] at h
      obtain ⟨_, -, h⟩ := bind_ok h
      cases h
    | some =>
      simp only [hn] at h
      obtain ⟨hrev, h⟩ := guard_ok h
      obtain ⟨-, h⟩ := guard_ok h
      obtain ⟨_, hscope, h⟩ := bind_ok h
      cases h
      exact .update hn (not_not.mp hrev).symm (checkScope_ok hscope x List.mem_cons_self)
  | createEdge id a b =>
    simp only [checkOp, error_bind] at h
    obtain ⟨_, -, h⟩ := bind_ok h
    obtain ⟨_, -, h⟩ := bind_ok h
    obtain ⟨branchA, ha, h⟩ := bind_ok h
    obtain ⟨branchB, hb, h⟩ := bind_ok h
    obtain ⟨hsame, h⟩ := guard_ok h
    obtain ⟨_, hscope, h⟩ := bind_ok h
    cases h
    have hin := checkScope_ok hscope
    refine .edge ha hb ?_ ⟨hin a (by simp), hin b (by simp)⟩
    intro hrel
    by_contra hne
    exact hsame ⟨hrel, hne⟩
  | createContentBlock id x =>
    obtain ⟨branch, hx, h⟩ := bind_ok h
    obtain ⟨_, hscope, h⟩ := bind_ok h
    cases h
    exact .block hx (checkScope_ok hscope x List.mem_cons_self)
  | createBranch id x =>
    simp only [checkOp, error_bind] at h
    obtain ⟨branch, hx, h⟩ := bind_ok h
    obtain ⟨hnode, h⟩ := guard_ok h
    obtain ⟨_, hscope, h⟩ := bind_ok h
    cases h
    exact .branch hx (by simpa using hnode) (checkScope_ok hscope x List.mem_cons_self)

/-- What the validation makes of an operation: a new node that names no branch may get one. -/
inductive Fills : Op String → Op String → Prop where
  | node {id : String} {parent : Option (String × Revision)} {named b : Option String} {title summary nodeType : String}
      (hb : named ≠ none → b = named) :
      Fills (.createNode id parent named title summary nodeType) (.createNode id parent b title summary nodeType)
  | other {op : Op String} (h : op.newNode = none) : Fills op op

theorem childBranch_ok {named inherited : Option String} (h : childBranch named inherited = .ok b) :
    (named ≠ none → b = named) ∧ ((truthy inherited).isSome → b = inherited) ∧ (truthy inherited = none → b = named) := by
  unfold childBranch at h
  split at h
  · rename_i hc
    cases h
    exact ⟨fun hne => absurd hc.1 hne, fun _ => rfl, fun hnone => by simp [hnone] at hc⟩
  · obtain ⟨hmatch, h⟩ := guard_ok h
    cases h
    refine ⟨fun _ => rfl, fun hsome => ?_, fun _ => rfl⟩
    by_contra hne
    exact hmatch ⟨hsome, hne⟩

theorem Accepted.fills (h : Accepted grant snap s op s' op') : Fills op op' := by
  cases h with
  | root => exact .node (fun _ => rfl)
  | child href hchild => exact .node (childBranch_ok hchild).1
  | update => exact .other rfl
  | edge => exact .other rfl
  | block => exact .other rfl
  | branch => exact .other rfl

/-! Acceptance of all operations -/

def newIds (ops : List (Op String)) : List String := (ops.filterMap Op.newNode).map Prod.fst

theorem newNode_created {ι : Type} {op : Op ι} {x : ι × Option String} (h : op.newNode = some x) : op.created = some x.1 := by
  cases op with
  | createNode =>
    cases h
    rfl
  | _ => cases h

theorem mem_newIds_created (h : x ∈ newIds ops) : x ∈ ops.filterMap Op.created := by
  obtain ⟨y, hy, rfl⟩ := List.mem_map.mp h
  obtain ⟨op, hop, hnew⟩ := List.mem_filterMap.mp hy
  exact List.mem_filterMap.mpr ⟨op, hop, newNode_created hnew⟩

/-- How far the validation has come after the operations `pre`. -/
structure Tracks (allowed : List String) (pre : List (Op String)) (s : Checked) : Prop where
  scope : ∀ x ∈ s.allowed, x ∈ allowed ∨ x ∈ newIds pre
  branch : ∀ x b, (x, b) ∈ pre.filterMap Op.newNode → s.branchOf x = b

theorem Accepted.created {grant : Grant} {snap : Snapshot} {s s' : Checked} {op op' : Op String}
    (h : Accepted grant snap s op s' op') :
    op'.created = op.created ∧ op'.newNode.map Prod.fst = op.newNode.map Prod.fst ∧ op'.newBranch = op.newBranch := by
  cases h <;> exact ⟨rfl, rfl, rfl⟩

theorem Accepted.tracks {pre : List (Op String)}
    (ht : Tracks allowed pre s) (hfresh : ∀ id, op'.created = some id → id ∉ pre.filterMap Op.created)
    (h : Accepted grant snap s op s' op') : Tracks allowed (pre ++ [op']) s' := by
  have hold : ∀ x, x ∈ newIds pre → x ∈ newIds (pre ++ [op']) := by
    intro x hx
    simp only [newIds, List.filterMap_append, List.map_append, List.mem_append]
    exact .inl hx
  have hscope : ∀ x ∈ s.allowed, x ∈ allowed ∨ x ∈ newIds (pre ++ [op']) :=
    fun x hx => (ht.scope x hx).imp_right (hold x)
  -- the branch of a new node is entered under its id, and no other operation has that id
  have hupdate : ∀ {id : String} {branchId : Option String}, op'.newNode = some (id, branchId) →
      ∀ x b, (x, b) ∈ (pre ++ [op']).filterMap Op.newNode → Function.update s.branchOf id branchId x = b := by
    intro id branchId hnew x b hx
    rw [List.filterMap_append, List.mem_append] at hx
    rcases hx with hx | hx
    · have hne : x ≠ id := by
        rintro rfl
        exact hfresh x (newNode_created hnew) (mem_newIds_created (List.mem_map.mpr ⟨_, hx, rfl⟩))
      rw [Function.update_of_ne hne]
      exact ht.branch x b hx
    · simp only [List.filterMap_cons, hnew, List.filterMap_nil, List.mem_singleton, Prod.mk.injEq] at hx
      obtain ⟨rfl, rfl⟩ := hx
      exact Function.update_self ..
  have hkeep : op'.newNode = none → ∀ x b, (x, b) ∈ (pre ++ [op']).filterMap Op.newNode → s.branchOf x = b := by
    intro hnone x b hx
    simp only [List.filterMap_append, List.filterMap_cons, hnone, List.filterMap_nil, List.append_nil] at hx
    exact ht.branch x b hx
  cases h with
  | root => exact ⟨hscope, hupdate rfl⟩
  | child =>
    refine ⟨?_, hupdate rfl⟩
    intro x hx
    rcases List.mem_cons.mp hx with rfl | hx
    · exact .inr (by simp [newIds, Op.newNode])
    · exact hscope x hx
  | update => exact ⟨hscope, hkeep rfl⟩
  | edge => exact ⟨hscope, hkeep rfl⟩
  | block => exact ⟨hscope, hkeep rfl⟩
  | branch => exact ⟨hscope, hkeep rfl⟩

theorem checkOps_created (h : checkOps models grant snap s ops = .ok out) :
    out.filterMap Op.created = ops.filterMap Op.created ∧ newIds out = newIds ops ∧
      out.filterMap Op.newBranch = ops.filterMap Op.newBranch := by
  induction ops generalizing s out with
  | nil =>
    cases h
    exact ⟨rfl, rfl, rfl⟩
  | cons op ops ih =>
    obtain ⟨⟨s', op'⟩, hop, h⟩ := bind_ok h
    obtain ⟨rest, hrest, h⟩ := bind_ok h
    cases h
    obtain ⟨hcreated, hnew, hbranch⟩ := (checkOp_ok hop).created
    obtain ⟨h₁, h₂, h₃⟩ := ih hrest
    refine ⟨by simp only [List.filterMap_cons, hcreated, h₁], ?_, by simp only [List.filterMap_cons, hbranch, h₃]⟩
    simp only [newIds, List.map_filterMap] at h₂ ⊢
    simp only [List.filterMap_cons, hnew, h₂]

/-- Each operation is accepted in the state the ones before it lead to. -/
theorem checkOps_split {models : Bool} {grant : Grant} {snap : Snapshot} {allowed : List String} {pre : List (Op String)}
    {s : Checked} {ops out : List (Op String)} (ht : Tracks allowed pre s) (hnodup : ((pre ++ out).filterMap Op.created).Nodup)
    (h : checkOps models grant snap s ops = .ok out) {mid post : List (Op String)} {op' : Op String}
    (hout : out = mid ++ op' :: post) :
    ∃ s₁ op s₂, op ∈ ops ∧ Tracks allowed (pre ++ mid) s₁ ∧ Accepted grant snap s₁ op s₂ op' := by
  induction ops generalizing pre s out mid with
  | nil =>
    cases h
    simp at hout
  | cons op ops ih =>
    obtain ⟨⟨s', first⟩, hop, h⟩ := bind_ok h
    obtain ⟨rest, hrest, h⟩ := bind_ok h
    cases h
    have haccepted := checkOp_ok hop
    cases mid with
    | nil =>
      simp only [List.nil_append, List.cons.injEq] at hout
      obtain ⟨rfl, -⟩ := hout
      exact ⟨s, op, s', List.mem_cons_self, by simpa using ht, haccepted⟩
    | cons =>
      simp only [List.cons_append, List.cons.injEq] at hout
      obtain ⟨rfl, hout⟩ := hout
      have hfresh : ∀ id, first.created = some id → id ∉ pre.filterMap Op.created := by
        intro id hid hin
        rw [List.filterMap_append, List.nodup_append] at hnodup
        exact hnodup.2.2 id hin id (by simp [hid]) rfl
      obtain ⟨s₁, op₁, s₂, hmem, ht₁, hacc₁⟩ := ih (haccepted.tracks ht hfresh) (by simpa using hnodup) hrest hout
      exact ⟨s₁, op₁, s₂, List.mem_cons_of_mem _ hmem, by simpa using ht₁, hacc₁⟩

theorem checkOps_fills
    (h : checkOps models grant snap s ops = .ok out) : List.Forall₂ Fills ops out := by
  induction ops generalizing s out with
  | nil =>
    cases h
    exact .nil
  | cons op ops ih =>
    obtain ⟨⟨s', op'⟩, hop, h⟩ := bind_ok h
    obtain ⟨rest, hrest, h⟩ := bind_ok h
    cases h
    exact .cons (checkOp_ok hop).fills (ih hrest)

/-! The order of execution -/

theorem schedule_perm {n : Nat} (h : schedule n pending = .ok order) :
    order.Perm pending := by
  induction n generalizing pending order with
  | zero =>
    cases pending with
    | nil =>
      cases h
      exact .refl _
    | cons => cases h
  | succ n ih =>
    cases pending with
    | nil =>
      cases h
      exact .refl _
    | cons =>
      simp only [schedule] at h
      obtain ⟨-, h⟩ := guard_ok h
      obtain ⟨rest, hrest, h⟩ := bind_ok h
      cases h
      exact ((ih hrest).append_left _).trans (List.filter_append_perm _ _)

/-- What an operation depends on is executed before it. -/
theorem schedule_before {n : Nat} {pre post : List (Op String × Nat)} {x q : Op String × Nat} {id : String}
    (h : schedule n pending = .ok order) (horder : order = pre ++ x :: post) (hq : q ∈ pending)
    (hcreated : q.1.created = some id) (hdepends : id ∈ x.1.dependsOn) : q ∈ pre := by
  induction n generalizing pending order pre with
  | zero =>
    cases pending with
    | nil => cases hq
    | cons => cases h
  | succ n ih =>
    cases pending with
    | nil => cases hq
    | cons y ys =>
      simp only [schedule] at h
      obtain ⟨-, h⟩ := guard_ok h
      obtain ⟨rest, hrest, h⟩ := bind_ok h
      cases h
      -- an operation that is ready depends on nothing that is pending
      have hready : ∀ z ∈ (y :: ys).filter (isReady (y :: ys)), id ∉ z.1.dependsOn := by
        intro z hz
        have hall := List.all_eq_true.mp (List.mem_filter.mp hz).2 q hq
        simpa [hcreated] using hall
      rcases List.append_eq_append_iff.mp horder with ⟨as, rfl, hrest'⟩ | ⟨bs, hfront, hrest'⟩
      · by_cases hqready : isReady (y :: ys) q = true
        · exact List.mem_append_left _ (List.mem_filter.mpr ⟨hq, hqready⟩)
        · exact List.mem_append_right _ (ih hrest hrest' (List.mem_filter.mpr ⟨hq, by simp [hqready]⟩))
      · cases bs with
        | nil =>
          simp only [List.append_nil] at hfront
          simp only [List.nil_append] at hrest'
          by_cases hqready : isReady (y :: ys) q = true
          · rw [← hfront]
            exact List.mem_filter.mpr ⟨hq, hqready⟩
          · have hin : q ∈ [] := ih hrest (by simpa using hrest'.symm) (List.mem_filter.mpr ⟨hq, by simp [hqready]⟩)
            cases hin
        | cons =>
          simp only [List.cons_append, List.cons.injEq] at hrest'
          obtain ⟨rfl, -⟩ := hrest'
          exact absurd hdepends (hready x (by rw [hfront]; simp))

/-! What a validated batch refers to -/

/-- A node that an operation names, with its revision and its branch. -/
inductive Ref (snap : Snapshot) (allowed : List String) (out : List (Op String)) (r : String) (expected : Int)
    (branch : Option String) : Prop where
  | existing {n : Node} (hn : snap.nodes r = some n) (hrev : n.revision = expected) (hb : n.branchId = branch)
      (hscope : r ∈ allowed) : Ref snap allowed out r expected branch
  | new (hn : snap.nodes r = none) (hrev : expected = 1) (hnew : (r, branch) ∈ out.filterMap Op.newNode) :
      Ref snap allowed out r expected branch

/-- The operations as they were asked for and as they were accepted. -/
structure Validated (grant : Grant) (snap : Snapshot) (allowed used : List String) (raws out : List (Op String)) : Prop where
  nodup : (out.filterMap Op.created).Nodup
  ids : ∀ id ∈ out.filterMap Op.created, isUuid id = true ∧ id ∉ used
  newNodes : snap.newNodes = newIds out
  newBranches : snap.newBranches = out.filterMap Op.newBranch
  known : ∀ x n, snap.nodes x = some n → x ∈ used
  accepted : ∀ mid op' post, out = mid ++ op' :: post →
    ∃ s₁ op s₂, op ∈ raws ∧ Tracks allowed mid s₁ ∧ Accepted grant snap s₁ op s₂ op'

theorem validateOperations_ok {see : Nat → Graph} {operations : List (Op (Option String))}
    (h : validateOperations models see draw grant operations = .ok out) :
    ∃ allowed, allowedNodes (see 2) grant = .ok allowed ∧ List.Forall₂ Fills (identified draw operations) out ∧
      Validated grant (snapshotOf see grant.projectId out) allowed (usedIds see grant.projectId) (identified draw operations)
        out := by
  obtain ⟨allowed, hallowed, h⟩ := bind_ok h
  obtain ⟨ops, hreserve, h⟩ := bind_ok h
  obtain ⟨hcreated, hnew, hbranch⟩ := checkOps_created h
  obtain ⟨hnodup, hids⟩ := reserve_ok hreserve
  have hsnap : snapshotOf see grant.projectId ops = snapshotOf see grant.projectId out := by
    simp only [snapshotOf, Snapshot.mk.injEq, true_and]
    exact ⟨hnew.symm, hbranch.symm⟩
  have hknown : ∀ x n, (snapshotOf see grant.projectId out).nodes x = some n → x ∈ usedIds see grant.projectId := by
    intro x n hn
    obtain ⟨hget, hproject⟩ := Option.filter_eq_some_iff.mp hn
    refine List.mem_append_left _ (List.mem_map.mpr ⟨n, List.mem_filter.mpr ⟨Table.get_mem hget, hproject⟩, ?_⟩)
    exact Table.get_key hget
  have hfills : List.Forall₂ Fills (identified draw operations) out := by
    rw [identified, ← reserve_map hreserve]
    exact checkOps_fills h
  refine ⟨allowed, hallowed, hfills, hcreated ▸ hnodup, hcreated ▸ hids, rfl, rfl, hknown, ?_⟩
  intro mid op' post hout
  rw [hsnap] at h
  have hstart : Tracks allowed [] ⟨allowed, namedBranch ops⟩ := ⟨fun x hx => .inl hx, by simp⟩
  have hsplit := @checkOps_split _ _ _ _ [] _ _ _ hstart (by simpa [hcreated] using hnodup) h _ _ _ hout
  rw [List.nil_append] at hsplit
  rw [identified, ← reserve_map hreserve]
  exact hsplit

section Refs

variable {grant : Grant} {snap : Snapshot} {allowed used : List String} {raws out : List (Op String)} {r : String}

/-- A name that the check of references lets through. -/
theorem Validated.ref (hv : Validated grant snap allowed used raws out) (hallowed : ∀ x ∈ allowed, ∃ n, snap.nodes x = some n)
    {mid post : List (Op String)} (hout : out = mid ++ op' :: post) (ht : Tracks allowed mid s)
    (href : snap.checkRef s field r expected = .ok b)
    (hscope : r ∈ s.allowed) : Ref snap allowed out r expected.val b := by
  have hmid : ∀ x, x ∈ mid.filterMap Op.newNode → x ∈ out.filterMap Op.newNode := by
    intro x hx
    rw [hout, List.filterMap_append]
    exact List.mem_append_left _ hx
  rcases checkRef_ok href with ⟨n, hn, hrev, hb⟩ | ⟨hn, -, hrev, hb⟩
  · refine .existing hn hrev hb ?_
    rcases ht.scope r hscope with hin | hin
    · exact hin
    · -- a new id is none of the project's
      have hcreated : r ∈ out.filterMap Op.created := by
        rw [hout, List.filterMap_append]
        exact List.mem_append_left _ (mem_newIds_created hin)
      exact absurd (hv.known r n hn) (hv.ids r hcreated).2
  · rcases ht.scope r hscope with hin | hin
    · obtain ⟨n, hn'⟩ := hallowed r hin
      rw [hn] at hn'
      cases hn'
    · obtain ⟨⟨x, branch⟩, hx, rfl⟩ := List.mem_map.mp hin
      have hsame := ht.branch x branch hx
      rw [hb] at hsame
      subst hsame
      exact .new hn hrev (hmid _ hx)

variable (hv : Validated grant snap allowed used raws out) (hallowed : ∀ x ∈ allowed, ∃ n, snap.nodes x = some n)
include hv hallowed

theorem Validated.update {x : String} {expected : Revision} {fields : List (NodeField × Value)}
    (h : Op.updateNode x expected fields ∈ out) :
    ∃ n, snap.nodes x = some n ∧ n.revision = expected.val ∧ x ∈ allowed := by
  obtain ⟨mid, post, hout⟩ := List.append_of_mem h
  obtain ⟨s, op, s', hraw, ht, hacc⟩ := hv.accepted mid _ post hout
  cases hacc with
  | @update _ _ _ n hn hrev hscope =>
    refine ⟨n, hn, hrev, ?_⟩
    have href : snap.checkRef s "" x expected = .ok n.branchId := by
      simp [Snapshot.checkRef, Snapshot.ref, hn, hrev]
    cases hv.ref hallowed hout ht href hscope with
    | existing _ _ _ hin => exact hin
    | new hnone =>
      rw [hn] at hnone
      cases hnone

theorem Validated.child {id p title summary nodeType : String} {expected : Revision} {b : Option String} (hself : p ≠ id)
    (h : Op.createNode id (some (p, expected)) b title summary nodeType ∈ out) :
    ∃ named inherited, Op.createNode id (some (p, expected)) named title summary nodeType ∈ raws ∧
      Ref snap allowed out p expected.val inherited ∧ childBranch named inherited = .ok b ∧ checkBranch grant snap b = .ok () := by
  obtain ⟨mid, post, hout⟩ := List.append_of_mem h
  obtain ⟨s, op, s', hraw, ht, hacc⟩ := hv.accepted mid _ post hout
  cases hacc with
  | child href hchild hbranch hscope =>
    exact ⟨_, _, hraw, hv.ref hallowed hout ht href (hscope.resolve_left hself), hchild, hbranch⟩

omit hallowed in
theorem Validated.root {id title summary nodeType : String} {b : Option String}
    (h : Op.createNode id none b title summary nodeType ∈ out) :
    (truthy grant.nodeScopeId = none ∧ truthy grant.branchRootId = none) ∧ checkBranch grant snap b = .ok () := by
  obtain ⟨mid, post, hout⟩ := List.append_of_mem h
  obtain ⟨s, op, s', hraw, ht, hacc⟩ := hv.accepted mid _ post hout
  cases hacc with
  | root hscope hbranch => exact ⟨hscope, hbranch⟩

theorem Validated.edge {id a b relationType note : String} {expectedFrom expectedTo : Revision} {weight : Rat}
    (h : Op.createEdge id a b expectedFrom expectedTo relationType weight note ∈ out) :
    ∃ branchA branchB, Ref snap allowed out a expectedFrom.val branchA ∧ Ref snap allowed out b expectedTo.val branchB ∧
      (relationType = "child_of" → branchA = branchB) := by
  obtain ⟨mid, post, hout⟩ := List.append_of_mem h
  obtain ⟨s, op, s', hraw, ht, hacc⟩ := hv.accepted mid _ post hout
  cases hacc with
  | edge ha hb hsame hscope =>
    exact ⟨_, _, hv.ref hallowed hout ht ha hscope.1, hv.ref hallowed hout ht hb hscope.2, hsame⟩

theorem Validated.block {id x blockType : String} {expected : Revision} {content : Value} {orderIndex : Int}
    (h : Op.createContentBlock id x expected blockType content orderIndex ∈ out) :
    ∃ b, Ref snap allowed out x expected.val b := by
  obtain ⟨mid, post, hout⟩ := List.append_of_mem h
  obtain ⟨s, op, s', hraw, ht, hacc⟩ := hv.accepted mid _ post hout
  cases hacc with
  | block hx hscope => exact ⟨_, hv.ref hallowed hout ht hx hscope⟩

theorem Validated.branch {id x name description : String} {expected : Revision}
    (h : Op.createBranch id x expected name description ∈ out) :
    (∃ b, Ref snap allowed out x expected.val b) ∧ truthy grant.nodeScopeId = none := by
  obtain ⟨mid, post, hout⟩ := List.append_of_mem h
  obtain ⟨s, op, s', hraw, ht, hacc⟩ := hv.accepted mid _ post hout
  cases hacc with
  | branch hx hnode hscope => exact ⟨⟨_, hv.ref hallowed hout ht hx hscope⟩, hnode⟩

/-- Every revision that is stated is the one of an existing node in scope, or of a node of the batch. -/
theorem Validated.refs (hself : ∀ op ∈ out, ∀ id, op.created = some id → id ∉ op.dependsOn) (hop : op ∈ out)
    (hr : (r, expected) ∈ op.expectations) : ∃ b, Ref snap allowed out r expected.val b := by
  cases op with
  | createNode id parent =>
    cases parent with
    | none => cases hr
    | some parent =>
      obtain ⟨rfl, rfl⟩ : r = parent.1 ∧ expected = parent.2 := by simpa [Op.expectations, Prod.ext_iff] using hr
      have hne : parent.1 ≠ id := fun heq => hself _ hop id rfl (by simp [Op.dependsOn, heq])
      obtain ⟨-, inherited, -, href, -, -⟩ := hv.child hallowed hne hop
      exact ⟨inherited, href⟩
  | updateNode x e =>
    obtain ⟨rfl, rfl⟩ : r = x ∧ expected = e := by simpa [Op.expectations] using hr
    obtain ⟨n, hn, hrev, hin⟩ := hv.update hallowed hop
    exact ⟨_, .existing hn hrev rfl hin⟩
  | createEdge id a b ea eb =>
    obtain ⟨branchA, branchB, ha, hb, -⟩ := hv.edge hallowed hop
    have hcases : r = a ∧ expected = ea ∨ r = b ∧ expected = eb := by simpa [Op.expectations] using hr
    rcases hcases with ⟨rfl, rfl⟩ | ⟨rfl, rfl⟩
    · exact ⟨_, ha⟩
    · exact ⟨_, hb⟩
  | createContentBlock id x e =>
    obtain ⟨rfl, rfl⟩ : r = x ∧ expected = e := by simpa [Op.expectations] using hr
    exact hv.block hallowed hop
  | createBranch id x e =>
    obtain ⟨rfl, rfl⟩ : r = x ∧ expected = e := by simpa [Op.expectations] using hr
    exact (hv.branch hallowed hop).1

end Refs

end GrowthMap.Canon
