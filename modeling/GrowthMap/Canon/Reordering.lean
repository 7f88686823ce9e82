import GrowthMap.Canon.Containment
import GrowthMap.Canon.Scheduling

/- Batches in another order.

   The validation walks the operations once, so what it knows at an operation depends on the ones
   before it. An accepted batch stays accepted in another order exactly when no operation there
   comes before the one that creates a node it names: what is accepted fits the state at the end of
   the walk, and that state does not depend on the order. -/
namespace GrowthMap.Canon

open Relational Fallible

variable {grant : Grant} {snap : Snapshot} {s s' t : Checked} {op op' : Op String} {ops out : List (Op String)}

def Op.refs {ι : Type} (op : Op ι) : List String := op.expectations.map Prod.fst

/-- The operation does not name what it creates. -/
def Op.NoSelf (op : Op String) : Prop := ∀ id, op.created = some id → id ∉ op.refs

/-- The operation with the branch its new node is put in. -/
def Op.fill (f : String → Option String) : Op String → Op String
  | .createNode id parent _ title summary nodeType => .createNode id parent (f id) title summary nodeType
  | op => op

/-- The node that is created under a parent, and so gets in scope. -/
def Op.contained : Op String → Option String
  | .createNode id (some _) .. => some id
  | _ => none

def Checked.after (s : Checked) (op : Op String) : Checked :=
  match op with
  | .createNode id _ branchId .. => ⟨op.contained.toList ++ s.allowed, Function.update s.branchOf id branchId⟩
  | _ => s

/-! One operation in two states -/

variable {id field : String} {stated : List (String × Revision)} {uuid : Nat → Nat → String}

theorem Op.contained_created (h : op.contained = some id) : op.created = some id := by
  cases op with
  | createNode x parent =>
    cases parent with
    | none => cases h
    | some => exact h
  | _ => cases h

variable {f : String → Option String} {x p : String} {expected : Revision} {b a : Snapshot}
  {operations : List (Op (Option String))} {g : Graph} {body : Batch}

theorem fill_created : (op.fill f).created = op.created := by cases op <;> rfl

theorem fill_contained : (op.fill f).contained = op.contained := by
  cases op with
  | createNode id parent => cases parent <;> rfl
  | _ => rfl

theorem fill_expectations : (op.fill f).expectations = op.expectations := by cases op <;> rfl

theorem Accepted.after (h : Accepted grant snap s op s' op') : s' = s.after op' := by cases h <;> rfl

theorem Accepted.fill (h : Accepted grant snap s op s' op') : op' = op.fill s'.branchOf := by
  cases h <;> simp [Op.fill]

theorem Accepted.contained (h : Accepted grant snap s op s' op') : op'.contained = op.contained := by cases h <;> rfl

theorem mem_after : x ∈ (s.after op).allowed ↔ op.contained = some x ∨ x ∈ s.allowed := by
  cases op with
  | createNode => simp [Checked.after]
  | _ => simp [Checked.after, Op.contained]

theorem after_branchOf (hx : op.created ≠ some x) : (s.after op).branchOf x = s.branchOf x := by
  cases op with
  | createNode =>
    exact Function.update_of_ne (fun heq => hx (congrArg some heq.symm)) _ _
  | _ => rfl

theorem checkRef_congr (h : snap.nodes x = none → s.branchOf x = t.branchOf x) :
    snap.checkRef s field x expected = snap.checkRef t field x expected := by
  unfold Snapshot.checkRef Snapshot.ref
  cases hn : snap.nodes x with
  | some => rfl
  | none => rw [h hn]

theorem ref_of_checkRef {b : Option String}
    (h : snap.checkRef s field x expected = .ok b) : ∃ r, snap.ref s x = .ok r := by
  obtain ⟨r, hr, -⟩ := bind_ok h
  exact ⟨r, hr⟩

/-- What an accepted operation names is in scope, its own node apart. -/
theorem Accepted.refs (h : Accepted grant snap s op s' op') (hself : op.NoSelf) : ∀ r ∈ op.refs, r ∈ s.allowed := by
  intro r hr
  cases h with
  | root => cases hr
  | @child id p title summary nodeType expected named inherited branchId href hchild hbranch hscope =>
    obtain rfl : r = p := by simpa [Op.refs, Op.expectations] using hr
    exact hscope.resolve_left (fun heq => hself id rfl (heq ▸ hr))
  | @update x expected fields n hn hrev hscope =>
    obtain rfl : r = x := by simpa [Op.refs, Op.expectations] using hr
    exact hscope
  | @edge id a b relationType note expectedFrom expectedTo weight branchA branchB ha hb hsame hscope =>
    have hcases : r = a ∨ r = b := by simpa [Op.refs, Op.expectations] using hr
    rcases hcases with rfl | rfl
    · exact hscope.1
    · exact hscope.2
  | @block id x blockType expected content orderIndex branch hx hscope =>
    obtain rfl : r = x := by simpa [Op.refs, Op.expectations] using hr
    exact hscope
  | @branch id x name description expected branch hx hnode hscope =>
    obtain rfl : r = x := by simpa [Op.refs, Op.expectations] using hr
    exact hscope

theorem Accepted.transfer (h : Accepted grant snap s op s' op')
    (hagree : ∀ r ∈ op.refs, r ∈ t.allowed ∧ (snap.nodes r = none → s.branchOf r = t.branchOf r)) :
    Accepted grant snap t op (t.after op') op' := by
  cases h with
  | root hscope hbranch => exact .root hscope hbranch
  | @child id p title summary nodeType expected named inherited branchId href hchild hbranch hscope =>
    obtain ⟨hin, hb⟩ := hagree p (by simp [Op.refs, Op.expectations])
    exact .child (checkRef_congr hb ▸ href) hchild hbranch (.inr hin)
  | @update x expected fields n hn hrev hscope =>
    exact .update hn hrev (hagree x (by simp [Op.refs, Op.expectations])).1
  | @edge id a b relationType note expectedFrom expectedTo weight branchA branchB ha hb hsame hscope =>
    obtain ⟨hina, hba⟩ := hagree a (by simp [Op.refs, Op.expectations])
    obtain ⟨hinb, hbb⟩ := hagree b (by simp [Op.refs, Op.expectations])
    exact .edge (checkRef_congr hba ▸ ha) (checkRef_congr hbb ▸ hb) hsame ⟨hina, hinb⟩
  | @block id x blockType expected content orderIndex branch hx hscope =>
    obtain ⟨hin, hb⟩ := hagree x (by simp [Op.refs, Op.expectations])
    exact .block (checkRef_congr hb ▸ hx) hin
  | @branch id x name description expected branch hx hnode hscope =>
    obtain ⟨hin, hb⟩ := hagree x (by simp [Op.refs, Op.expectations])
    exact .branch (checkRef_congr hb ▸ hx) hnode hin

theorem checkScope_of {allowed refs : List String} (h : ∀ r ∈ refs, r ∈ allowed) : checkScope allowed refs = .ok () := by
  rw [checkScope, if_neg]
  simpa using h

/-- On the way of a batch the check of an operation lets through what is accepted. -/
theorem Accepted.checkOp (h : Accepted grant snap s op s' op') (hself : op.NoSelf) :
    checkOp false grant snap s op = .ok (s', op') := by
  have hrefs := h.refs hself
  cases h with
  | root hscope hbranch => simp [GrowthMap.Canon.checkOp, hscope.1, hscope.2, hbranch, checkScope_of]
  | @child id p title summary nodeType expected named inherited branchId href hchild hbranch hscope =>
    have hin : p ∈ s.allowed := hrefs p (by simp [Op.refs, Op.expectations])
    have hcheck : checkScope (id :: s.allowed) [p] = .ok () := checkScope_of (by simp [hin])
    simp [GrowthMap.Canon.checkOp, href, hchild, hbranch, hin, hcheck]
  | @update x expected fields n hn hrev hscope =>
    have hcheck : checkScope s.allowed [x] = .ok () := checkScope_of (by simpa using hscope)
    simp [GrowthMap.Canon.checkOp, hn, hrev, hcheck]
  | @edge id a b relationType note expectedFrom expectedTo weight branchA branchB ha hb hsame hscope =>
    obtain ⟨ra, hra⟩ := ref_of_checkRef ha
    obtain ⟨rb, hrb⟩ := ref_of_checkRef hb
    have hcheck : checkScope s.allowed [a, b] = .ok () := checkScope_of (by simpa using hscope)
    have hbranches : ¬ (relationType = "child_of" ∧ branchA ≠ branchB) := fun hne => hne.2 (hsame hne.1)
    simp only [GrowthMap.Canon.checkOp, hra, hrb, ha, hb, ok_bind, if_neg hbranches, hcheck]
    rfl
  | @block id x blockType expected content orderIndex branch hx hscope =>
    have hcheck : checkScope s.allowed [x] = .ok () := checkScope_of (by simpa using hscope)
    simp [GrowthMap.Canon.checkOp, hx, hcheck]
  | @branch id x name description expected branch hx hnode hscope =>
    have hcheck : checkScope s.allowed [x] = .ok () := checkScope_of (by simpa using hscope)
    simp [GrowthMap.Canon.checkOp, hx, hnode, hcheck]

/-! The walk of the validation -/

/-- The operations are accepted one after the other. -/
inductive Walk (grant : Grant) (snap : Snapshot) : Checked → List (Op String) → List (Op String) → Prop
  | nil {s : Checked} : Walk grant snap s [] []
  | cons {s s' : Checked} {op op' : Op String} {ops out : List (Op String)} :
      Accepted grant snap s op s' op' → Walk grant snap s' ops out → Walk grant snap s (op :: ops) (op' :: out)

def Checked.final (s : Checked) (out : List (Op String)) : Checked := out.foldl Checked.after s

/-- No operation comes before one that creates a node it names. -/
def NodesFirst (ops : List (Op String)) : Prop :=
  ops.Pairwise (fun op later => ∀ r ∈ op.refs, later.newNode.map Prod.fst ≠ some r)

theorem checkOps_walk {models : Bool} (h : checkOps models grant snap s ops = .ok out) : Walk grant snap s ops out := by
  induction ops generalizing s out with
  | nil =>
    cases h
    exact .nil
  | cons op ops ih =>
    obtain ⟨⟨s', op'⟩, hop, h⟩ := bind_ok h
    obtain ⟨rest, hrest, h⟩ := bind_ok h
    cases h
    exact .cons (checkOp_ok hop) (ih hrest)

theorem Walk.checkOps (h : Walk grant snap s ops out) (hself : ∀ op ∈ ops, op.NoSelf) :
    checkOps false grant snap s ops = .ok out := by
  induction h with
  | nil => rfl
  | @cons s s' op op' ops out hop _ ih =>
    have hrest := ih (fun q hq => hself q (List.mem_cons_of_mem _ hq))
    show (GrowthMap.Canon.checkOp false grant snap s op >>= _) = _
    rw [hop.checkOp (hself op List.mem_cons_self), ok_bind]
    show (GrowthMap.Canon.checkOps false grant snap s' ops >>= _) = _
    rw [hrest]
    rfl

theorem mem_final : x ∈ (s.final out).allowed ↔ x ∈ s.allowed ∨ x ∈ out.filterMap Op.contained := by
  induction out generalizing s with
  | nil => simp [Checked.final]
  | cons op out ih =>
    show x ∈ ((s.after op).final out).allowed ↔ _
    rw [ih, mem_after]
    cases hc : op.contained with
    | none => simp [hc]
    | some => simp [hc, or_assoc, or_left_comm, eq_comm]

theorem final_branchOf (hx : x ∉ out.filterMap Op.created) : (s.final out).branchOf x = s.branchOf x := by
  induction out generalizing s with
  | nil => rfl
  | cons op out ih =>
    have hne : op.created ≠ some x := fun heq => hx (List.mem_filterMap.mpr ⟨op, List.mem_cons_self, heq⟩)
    have hrest : x ∉ out.filterMap Op.created := by
      intro hin
      obtain ⟨q, hq, hcreated⟩ := List.mem_filterMap.mp hin
      exact hx (List.mem_filterMap.mpr ⟨q, List.mem_cons_of_mem _ hq, hcreated⟩)
    calc ((s.after op).final out).branchOf x = (s.after op).branchOf x := ih hrest
      _ = s.branchOf x := after_branchOf hne

/-- The ids some operations create are new and none is in scope before. -/
structure Fresh (s : Checked) (ops : List (Op String)) : Prop where
  nodup : (ops.filterMap Op.created).Nodup
  scope : ∀ x ∈ s.allowed, x ∉ ops.filterMap Op.created

theorem Fresh.head (h : Fresh s (op :: ops)) (hid : op.created = some id) :
    id ∉ ops.filterMap Op.created := by
  have hnodup := h.nodup
  rw [List.filterMap_cons, hid] at hnodup
  exact (List.nodup_cons.mp hnodup).1

theorem Fresh.tail (h : Fresh s (op :: ops)) (hcontained : op'.contained = op.contained) : Fresh (s.after op') ops := by
  refine ⟨?_, fun x hx => ?_⟩
  · have hnodup := h.nodup
    rw [List.filterMap_cons] at hnodup
    cases hid : op.created with
    | none => rwa [hid] at hnodup
    | some =>
      rw [hid] at hnodup
      exact (List.nodup_cons.mp hnodup).2
  · rcases mem_after.mp hx with hx | hx
    · exact h.head (Op.contained_created (hcontained ▸ hx))
    · intro hin
      obtain ⟨q, hq, hcreated⟩ := List.mem_filterMap.mp hin
      exact h.scope x hx (List.mem_filterMap.mpr ⟨q, List.mem_cons_of_mem _ hq, hcreated⟩)

theorem Walk.created (h : Walk grant snap s ops out) : out.filterMap Op.created = ops.filterMap Op.created := by
  induction h with
  | nil => rfl
  | cons hop _ ih => simp only [List.filterMap_cons, hop.created.1, ih]

/-- What was accepted on the way is accepted at the end, where every new node has its branch. -/
theorem Walk.settled (h : Walk grant snap s ops out) (hfresh : Fresh s ops) (hself : ∀ op ∈ ops, op.NoSelf) :
    out = ops.map (Op.fill (s.final out).branchOf) ∧
      ∀ op ∈ ops, ∃ s', Accepted grant snap (s.final out) op s' (op.fill (s.final out).branchOf) := by
  induction h with
  | nil => simp
  | @cons s s' op op' ops out hop hwalk ih =>
    have hs' : s' = s.after op' := hop.after
    have hstate : s.final (op' :: out) = s'.final out := by rw [hs']; rfl
    obtain ⟨hout, hrest⟩ := ih (hs' ▸ hfresh.tail hop.contained) (fun q hq => hself q (List.mem_cons_of_mem _ hq))
    -- no later operation has the id of this one, so the branch it enters stays
    have hfill : op' = op.fill (s'.final out).branchOf := by
      rw [hop.fill]
      cases op with
      | createNode id =>
        have hlater : id ∉ out.filterMap Op.created := by
          rw [hwalk.created]
          exact hfresh.head rfl
        simp only [Op.fill, final_branchOf hlater]
      | _ => rfl
    rw [hstate]
    refine ⟨by rw [List.map_cons, ← hout, ← hfill], fun q hq => ?_⟩
    rcases List.mem_cons.mp hq with rfl | hq
    · rw [← hfill]
      refine ⟨_, hop.transfer (fun r hr => ?_)⟩
      have hin := hop.refs (hself q List.mem_cons_self) r hr
      have hnew : r ∉ (op' :: out).filterMap Op.created := by
        rw [(Walk.cons hop hwalk).created]
        exact hfresh.scope r hin
      rw [← hstate]
      exact ⟨mem_final.mpr (.inl hin), fun _ => (final_branchOf hnew).symm⟩
    · exact hrest q hq

theorem newNode_fst_created (h : op.newNode.map Prod.fst = some id) : op.created = some id := by
  obtain ⟨x, hx, rfl⟩ := Option.map_eq_some_iff.mp h
  exact newNode_created hx

theorem Walk.nodesFirst (h : Walk grant snap s ops out) (hfresh : Fresh s ops) (hself : ∀ op ∈ ops, op.NoSelf) :
    NodesFirst ops := by
  induction h with
  | nil => exact .nil
  | @cons s s' op op' ops out hop _ ih =>
    refine .cons (fun later hlater r hr hnew => ?_)
      (ih (hop.after ▸ hfresh.tail hop.contained) (fun q hq => hself q (List.mem_cons_of_mem _ hq)))
    have hin := hop.refs (hself op List.mem_cons_self) r hr
    refine hfresh.scope r hin (List.mem_filterMap.mpr ⟨later, List.mem_cons_of_mem _ hlater, ?_⟩)
    exact newNode_fst_created hnew

theorem contained_newNode (h : op.contained = some id) : op.newNode.map Prod.fst = some id := by
  cases op with
  | createNode x parent =>
    cases parent with
    | none => cases h
    | some => exact h
  | _ => cases h

/-- Operations that are accepted at the end of some walk are accepted one after the other, nodes first. -/
theorem walk_of_settled (hfirst : NodesFirst ops) (hself : ∀ op ∈ ops, op.NoSelf)
    (hsettled : ∀ op ∈ ops, ∃ s', Accepted grant snap t op s' (op.fill f)) (ht : t.branchOf = f)
    (hscope : ∀ op ∈ ops, ∀ r ∈ op.refs, r ∈ s.allowed ∨ r ∈ ops.filterMap Op.contained)
    (hbranch : ∀ r ∈ s.allowed, snap.nodes r = none → s.branchOf r = f r) : Walk grant snap s ops (ops.map (Op.fill f)) := by
  induction ops generalizing s with
  | nil => exact .nil
  | cons op ops ih =>
    obtain ⟨hfirst, hrest⟩ := List.pairwise_cons.mp hfirst
    obtain ⟨_, hop⟩ := hsettled op List.mem_cons_self
    have hin : ∀ r ∈ op.refs, r ∈ s.allowed := by
      intro r hr
      rcases hscope op List.mem_cons_self r hr with hr' | hr'
      · exact hr'
      · obtain ⟨q, hq, hcontained⟩ := List.mem_filterMap.mp hr'
        rcases List.mem_cons.mp hq with rfl | hq
        · exact absurd hr (hself q List.mem_cons_self r (Op.contained_created hcontained))
        · exact absurd (contained_newNode hcontained) (hfirst q hq r hr)
    refine .cons (hop.transfer (fun r hr => ⟨hin r hr, fun hn => ?_⟩)) (ih hrest ?_ ?_ ?_ ?_)
    · rw [ht, hbranch r (hin r hr) hn]
    · exact fun q hq => hself q (List.mem_cons_of_mem _ hq)
    · exact fun q hq => hsettled q (List.mem_cons_of_mem _ hq)
    · intro q hq r hr
      rcases hscope q (List.mem_cons_of_mem _ hq) r hr with hr' | hr'
      · exact .inl (mem_after.mpr (.inr hr'))
      · obtain ⟨p, hp, hcontained⟩ := List.mem_filterMap.mp hr'
        rcases List.mem_cons.mp hp with rfl | hp
        · exact .inl (mem_after.mpr (.inl (fill_contained.trans hcontained)))
        · exact .inr (List.mem_filterMap.mpr ⟨p, hp, hcontained⟩)
    · intro r hr hn
      by_cases hcreated : (op.fill f).created = some r
      · cases op with
        | createNode id =>
          obtain rfl : id = r := Option.some.inj hcreated
          exact Function.update_self ..
        | updateNode => cases hcreated
        | _ => exact hbranch r hr hn
      · rw [after_branchOf hcreated]
        refine hbranch r ?_ hn
        rcases mem_after.mp hr with hr | hr
        · exact absurd (Op.contained_created hr) hcreated
        · exact hr

/-! What does not see the order -/

theorem Fresh.perm {ops' : List (Op String)} (h : ops'.Perm ops) (hfresh : Fresh s ops) (ht : t.allowed = s.allowed) :
    Fresh t ops' := by
  refine ⟨(h.filterMap _).nodup_iff.mpr hfresh.nodup, fun x hx hin => ?_⟩
  exact hfresh.scope x (ht ▸ hx) ((h.filterMap _).mem_iff.mp hin)

/-- The same rows and the same new ids. -/
structure Snapshot.Same (a b : Snapshot) : Prop where
  nodes : a.nodes = b.nodes
  branches : a.branches = b.branches
  newNodes : ∀ x, x ∈ a.newNodes ↔ x ∈ b.newNodes
  newBranches : ∀ x, x ∈ a.newBranches ↔ x ∈ b.newBranches

theorem Snapshot.Same.checkRef (h : a.Same b) :
    a.checkRef s field x expected = b.checkRef s field x expected := by
  simp only [Snapshot.checkRef, Snapshot.ref, h.nodes, h.newNodes]

theorem Snapshot.Same.checkBranch (h : a.Same b) {branchId : Option String} :
    checkBranch grant a branchId = checkBranch grant b branchId := by
  simp only [GrowthMap.Canon.checkBranch, h.nodes, h.branches, h.newBranches]

theorem Snapshot.Same.accepted (h : a.Same b) (haccepted : Accepted grant a s op s' op') :
    Accepted grant b s op s' op' := by
  cases haccepted with
  | root hscope hbranch => exact .root hscope (h.checkBranch ▸ hbranch)
  | child href hchild hbranch hscope => exact .child (h.checkRef ▸ href) hchild (h.checkBranch ▸ hbranch) hscope
  | update hn hrev hscope => exact .update (h.nodes ▸ hn) hrev hscope
  | edge ha hb hsame hscope => exact .edge (h.checkRef ▸ ha) (h.checkRef ▸ hb) hsame hscope
  | block hx hscope => exact .block (h.checkRef ▸ hx) hscope
  | branch hx hnode hscope => exact .branch (h.checkRef ▸ hx) hnode hscope

theorem Snapshot.Same.walk (h : a.Same b) (hwalk : Walk grant a s ops out) : Walk grant b s ops out := by
  induction hwalk with
  | nil => exact .nil
  | cons hop _ ih => exact .cons (h.accepted hop) ih

theorem snapshotOf_perm {see : Nat → Graph} {p : String} {ops ops' : List (Op String)} (h : ops'.Perm ops) :
    (snapshotOf see p ops).Same (snapshotOf see p ops') :=
  ⟨rfl, rfl, fun _ => (((h.filterMap _).map _).mem_iff).symm, fun _ => ((h.filterMap _).mem_iff).symm⟩

theorem reserve_of {draw : Nat → String} {used : List String} {ops : List (Op (Option String) × Nat)}
    (hnodup : ((ops.map (fun x => x.1.withId (fun id => id.getD (draw x.2)))).filterMap Op.created).Nodup)
    (hids : ∀ id ∈ (ops.map (fun x => x.1.withId (fun id => id.getD (draw x.2)))).filterMap Op.created,
      isUuid id = true ∧ id ∉ used) :
    reserve draw used ops = .ok (ops.map (fun x => x.1.withId (fun id => id.getD (draw x.2)))) := by
  induction ops generalizing used with
  | nil => rfl
  | cons x ops ih =>
    obtain ⟨op, i⟩ := x
    simp only [List.map_cons, List.filterMap_cons] at hnodup hids
    cases hc : (op.withId (fun id => id.getD (draw i))).created with
    | none =>
      rw [hc] at hnodup hids
      simp only [reserve, hc, ih hnodup hids, ok_bind]
      rfl
    | some id =>
      rw [hc] at hnodup hids
      obtain ⟨hfresh, hnodup⟩ := List.nodup_cons.mp hnodup
      obtain ⟨huuid, hused⟩ := hids id List.mem_cons_self
      have hrest : ∀ y ∈ (ops.map (fun x => x.1.withId (fun id => id.getD (draw x.2)))).filterMap Op.created,
          isUuid y = true ∧ y ∉ id :: used := by
        intro y hy
        obtain ⟨hyuuid, hyused⟩ := hids y (List.mem_cons_of_mem _ hy)
        refine ⟨hyuuid, fun hin => ?_⟩
        rcases List.mem_cons.mp hin with rfl | hin
        · exact hfresh hy
        · exact hyused hin
      simp only [reserve, hc, huuid, hused, Bool.not_true, Bool.false_eq_true, if_false, ih hnodup hrest, ok_bind]
      rfl

def Agreeing (stated : List (String × Revision)) : Prop := ∀ x e e', (x, e) ∈ stated → (x, e') ∈ stated → e = e'

theorem Agreeing.mono {more : List (String × Revision)} (h : stated ⊆ more) (hmore : Agreeing more) : Agreeing stated :=
  fun x e e' he he' => hmore x e e' (h he) (h he')

theorem Agreeing.cons {x : String} {e : Revision} {stated : List (String × Revision)} (hx : stated.lookup x = none)
    (h : Agreeing stated) : Agreeing ((x, e) :: stated) := by
  have hnone : ∀ e', (x, e') ∉ stated := fun e' hin => by simpa using List.lookup_eq_none_iff.mp hx _ hin
  intro z e₁ e₂ h₁ h₂
  rcases List.mem_cons.mp h₁ with heq₁ | h₁
  · rcases List.mem_cons.mp h₂ with heq₂ | h₂
    · exact (Prod.mk.inj heq₁).2.trans (Prod.mk.inj heq₂).2.symm
    · exact absurd ((Prod.mk.inj heq₁).1 ▸ h₂) (hnone e₂)
  · rcases List.mem_cons.mp h₂ with heq₂ | h₂
    · exact absurd ((Prod.mk.inj heq₂).1 ▸ h₁) (hnone e₁)
    · exact h z e₁ e₂ h₁ h₂

theorem mem_of_lookup {e : Revision} (h : stated.lookup x = some e) :
    (x, e) ∈ stated := by
  obtain ⟨pre, post, rfl, -⟩ := List.lookup_eq_some_iff.mp h
  exact List.mem_append_right _ List.mem_cons_self

theorem remember_iff {prior : List (String × Revision)} (hprior : Agreeing prior) :
    remember prior stated = .ok () ↔ Agreeing (prior ++ stated) := by
  induction stated generalizing prior with
  | nil => simpa [remember] using hprior
  | cons y stated ih =>
    obtain ⟨x, e⟩ := y
    simp only [remember]
    cases hx : prior.lookup x with
    | some first =>
      simp only
      rw [guard_eq_ok, ih hprior, not_not]
      constructor
      · rintro ⟨rfl, hagree⟩
        refine hagree.mono (List.append_subset.mpr ⟨List.subset_append_left _ _, ?_⟩)
        exact List.cons_subset.mpr ⟨List.mem_append_left _ (mem_of_lookup hx), List.subset_append_right _ _⟩
      · intro hagree
        have hfirst : (x, first) ∈ prior ++ (x, e) :: stated := List.mem_append_left _ (mem_of_lookup hx)
        have hsecond : (x, e) ∈ prior ++ (x, e) :: stated := List.mem_append_right _ List.mem_cons_self
        refine ⟨hagree x first e hfirst hsecond, hagree.mono (fun p hp => ?_)⟩
        exact List.mem_append.mpr ((List.mem_append.mp hp).imp_right (List.mem_cons_of_mem _))
    | none =>
      have hmiddle : ∀ p, p ∈ (x, e) :: prior ++ stated ↔ p ∈ prior ++ (x, e) :: stated := by simp [or_left_comm]
      rw [ih (hprior.cons hx)]
      exact ⟨Agreeing.mono (fun p => (hmiddle p).mpr), Agreeing.mono (fun p => (hmiddle p).mp)⟩

def Trapped (ops : List (Op String)) : Prop :=
  ∃ p : List (Op String), p ≠ [] ∧ p ⊆ ops ∧ ∀ op ∈ p, ∃ q ∈ p, ∃ id, q.created = some id ∧ id ∈ op.dependsOn

theorem needsOp_iff {x y : Op String × Nat} : needsOp x y = true ↔ ∃ id, y.1.created = some id ∧ id ∈ x.1.dependsOn := by
  simp only [needsOp, Option.any_eq_true, decide_eq_true_eq]

theorem schedule_isOk_iff : (∃ order, schedule ops.length ops.zipIdx = .ok order) ↔ ¬ Trapped ops := by
  obtain ⟨r, hloop⟩ : ∃ r, Waves.Loop needsOp ops.zipIdx r := Waves.loop_ends
  have htrapped : (∃ p, p ≠ [] ∧ p ⊆ ops.zipIdx ∧ ∀ x ∈ p, ∃ y ∈ p, needsOp x y = true) ↔ Trapped ops := by
    constructor
    · rintro ⟨p, hne, hsub, hp⟩
      refine ⟨p.map Prod.fst, by simpa using hne, fun op hop => ?_, fun op hop => ?_⟩
      · obtain ⟨x, hx, rfl⟩ := List.mem_map.mp hop
        exact List.fst_mem_of_mem_zipIdx (hsub hx)
      · obtain ⟨x, hx, rfl⟩ := List.mem_map.mp hop
        obtain ⟨y, hy, hneeds⟩ := hp x hx
        exact ⟨y.1, List.mem_map_of_mem hy, needsOp_iff.mp hneeds⟩
    · rintro ⟨p, hne, hsub, hp⟩
      have hplace : ∀ op ∈ p, ∃ i, (op, i) ∈ ops.zipIdx.filter (fun x => decide (x.1 ∈ p)) := by
        intro op hop
        obtain ⟨i, hi, rfl⟩ := List.mem_iff_getElem.mp (hsub hop)
        exact ⟨i, List.mem_filter.mpr ⟨List.mem_zipIdx_iff_getElem?.mpr (List.getElem?_eq_getElem hi), decide_eq_true hop⟩⟩
      refine ⟨ops.zipIdx.filter (fun x => decide (x.1 ∈ p)), ?_, List.filter_sublist.subset, fun x hx => ?_⟩
      · obtain ⟨op, hop⟩ := List.exists_mem_of_ne_nil p hne
        obtain ⟨i, hi⟩ := hplace op hop
        exact List.ne_nil_of_mem hi
      · obtain ⟨q, hq, hneeds⟩ := hp x.1 (of_decide_eq_true (List.mem_filter.mp hx).2)
        obtain ⟨j, hj⟩ := hplace q hq
        exact ⟨(q, j), hj, needsOp_iff.mpr hneeds⟩
  rw [schedule_of_loop hloop (by simp), ← htrapped, ← hloop.stuck_iff_trapped]
  cases r with
  | none => simp [scheduled]
  | some => simp [scheduled]

theorem refs_dependsOn {r : String} (h : op.created = some id) (hr : r ∈ op.refs) : r ∈ op.dependsOn := by
  cases op with
  | createNode x parent =>
    cases parent with
    | none => cases hr
    | some parent =>
      obtain rfl : r = parent.1 := by simpa [Op.refs, Op.expectations] using hr
      simp [Op.dependsOn]
  | updateNode => cases h
  | _ => simpa [Op.refs, Op.expectations, Op.dependsOn] using hr

theorem noSelf_of_schedule (h : ¬ Trapped out) (hout : op.fill f ∈ out) : op.NoSelf := by
  intro id hcreated hself
  have hcreated' : (op.fill f).created = some id := fill_created.trans hcreated
  have hself' : id ∈ (op.fill f).refs := by rwa [Op.refs, fill_expectations]
  refine h ⟨[op.fill f], List.cons_ne_nil _ _, List.cons_subset.mpr ⟨hout, List.nil_subset _⟩, fun x hx => ?_⟩
  obtain rfl := List.mem_singleton.mp hx
  exact ⟨_, hx, id, hcreated', refs_dependsOn hcreated' hself'⟩

theorem Walk.filled (h : Walk grant snap s ops out) : ∀ op ∈ ops, ∃ f, op.fill f ∈ out := by
  induction h with
  | nil => simp
  | cons hop _ ih =>
    intro q hq
    rcases List.mem_cons.mp hq with rfl | hq
    · exact ⟨_, List.mem_cons.mpr (.inl hop.fill.symm)⟩
    · obtain ⟨f, hf⟩ := ih q hq
      exact ⟨f, List.mem_cons_of_mem _ hf⟩

/-! Acceptance of a batch -/

def Accepts (g : Graph) (uuid : Nat → Nat → String) (grant : Grant) (body : Batch) : Prop :=
  ∃ ops order, prepareBatch (fun _ => g) uuid grant body = .ok (ops, order)

/-- No operation of the request comes before one that creates a node it names. -/
def CreatorsFirst (operations : List (Op (Option String))) : Prop :=
  operations.Pairwise (fun op later => ∀ r ∈ op.refs, later.newNode.map Prod.fst ≠ some (some r))

def Op.explicit (op : Op (Option String)) : Op String := op.withId (·.getD "")

theorem withId_explicit {op : Op (Option String)} (h : op.created ≠ some none) (d : String) :
    op.withId (fun id => id.getD d) = op.explicit := by
  cases op with
  | updateNode => rfl
  | createNode id | createEdge id | createContentBlock id | createBranch id =>
    cases id with
    | none => exact absurd rfl h
    | some => rfl

theorem identified_explicit {draw : Nat → String} {operations : List (Op (Option String))}
    (h : ∀ op ∈ operations, op.created ≠ some none) :
    operations.zipIdx.map (fun x => x.1.withId (fun id => id.getD (draw x.2))) = operations.map Op.explicit := by
  calc operations.zipIdx.map (fun x => x.1.withId (fun id => id.getD (draw x.2)))
      = operations.zipIdx.map (Op.explicit ∘ Prod.fst) :=
        List.map_congr_left (fun x hx => withId_explicit (h x.1 (List.fst_mem_of_mem_zipIdx hx)) _)
    _ = operations.map Op.explicit := by rw [← List.map_map, List.zipIdx_map_fst]

theorem nodesFirst_explicit (h : ∀ op ∈ operations, op.created ≠ some none) :
    NodesFirst (operations.map Op.explicit) ↔ CreatorsFirst operations := by
  rw [NodesFirst, CreatorsFirst, List.pairwise_map]
  refine List.Pairwise.iff_of_mem (fun {op later} hop hlater => ?_)
  have hrefs : op.explicit.refs = op.refs := by cases op <;> rfl
  have hnew : later.explicit.newNode.map Prod.fst = (later.newNode.map Prod.fst).map (·.getD "") := by cases later <;> rfl
  have hgiven : ∀ r, (later.newNode.map Prod.fst).map (·.getD "") = some r ↔ later.newNode.map Prod.fst = some (some r) := by
    intro r
    cases later with
    | createNode id =>
      cases id with
      | none => exact absurd rfl (h _ hlater)
      | some => simp [Op.newNode]
    | _ => simp [Op.newNode]
  simp only [hrefs, hnew, ne_eq, hgiven]

/-- What the acceptance of a batch comes to when every id is given. -/
theorem accepts_iff
    (h : ∀ op ∈ body.operations, op.created ≠ some none) : Accepts g uuid grant body ↔
      (g.projects.get grant.projectId).map Project.revision = some body.expectedProjectRevision.val ∧
      ∃ allowed out, allowedNodes g grant = .ok allowed ∧
        ((body.operations.map Op.explicit).filterMap Op.created).Nodup ∧
        (∀ id ∈ (body.operations.map Op.explicit).filterMap Op.created,
          isUuid id = true ∧ id ∉ usedIds (fun _ => g) grant.projectId) ∧
        checkOps false grant (snapshotOf (fun _ => g) grant.projectId (body.operations.map Op.explicit))
          ⟨allowed, namedBranch (body.operations.map Op.explicit)⟩ (body.operations.map Op.explicit) = .ok out ∧
        Agreeing (out.flatMap Op.expectations) ∧ ¬ Trapped out := by
  have hempty : Agreeing [] := fun _ _ _ hin => absurd hin List.not_mem_nil
  constructor
  · rintro ⟨out, order, hprepare⟩
    unfold prepareBatch at hprepare
    cases hrow : g.projects.get grant.projectId with
    | none => simp [hrow] at hprepare
    | some =>
      simp only [hrow, error_bind] at hprepare
      obtain ⟨hrev, hprepare⟩ := guard_ok hprepare
      obtain ⟨ops', hvalid, hprepare⟩ := bind_ok hprepare
      obtain ⟨u, hremember, hprepare⟩ := bind_ok hprepare
      obtain ⟨order', hschedule, hprepare⟩ := bind_ok hprepare
      cases hprepare
      obtain ⟨allowed, hallowed, hvalid⟩ := bind_ok hvalid
      obtain ⟨eops, hreserve, hcheck⟩ := bind_ok hvalid
      obtain rfl : eops = body.operations.map Op.explicit := (reserve_map hreserve).trans (@identified_explicit (fun i => uuid i 0) _ h)
      obtain ⟨hnodup, hids⟩ := reserve_ok hreserve
      exact ⟨by simpa using (not_not.mp hrev).symm, allowed, out, hallowed, hnodup, hids, hcheck,
        (remember_iff hempty).mp hremember, schedule_isOk_iff.mp ⟨order, hschedule⟩⟩
  · rintro ⟨hrev, allowed, out, hallowed, hnodup, hids, hcheck, hagree, htrapped⟩
    obtain ⟨row, hrow, hrev⟩ := Option.map_eq_some_iff.mp hrev
    obtain ⟨order, hschedule⟩ := schedule_isOk_iff.mpr htrapped
    have hreserve : reserve (fun i => uuid i 0) (usedIds (fun _ => g) grant.projectId) body.operations.zipIdx =
        .ok (body.operations.map Op.explicit) := by
      have hsame := @identified_explicit (fun i => uuid i 0) _ h
      rw [← hsame] at hnodup hids
      rw [reserve_of hnodup hids, hsame]
    have hvalid : validateOperations false (fun _ => g) (fun i => uuid i 0) grant body.operations = .ok out := by
      simp only [validateOperations, hallowed, hreserve, ok_bind, hcheck]
    have hremember : remember [] (out.flatMap Op.expectations) = .ok () := (remember_iff hempty).mpr hagree
    refine ⟨out, order, ?_⟩
    simp only [prepareBatch, hrow, hrev, ne_eq, not_true_eq_false, if_false, hvalid, ok_bind, hremember, hschedule]
    rfl

theorem Graph.Has.used (h : g.Has p x) : x ∈ usedIds (fun _ => g) p := by
  obtain ⟨n, hn, hp⟩ := h
  refine List.mem_append_left _ (List.mem_map.mpr ⟨n, List.mem_filter.mpr ⟨Table.get_mem hn, ?_⟩, Table.get_key hn⟩)
  exact decide_eq_true hp

theorem Graph.Has.snapshot (h : g.Has p x) :
    (snapshotOf (fun _ => g) p ops).nodes x ≠ none := by
  obtain ⟨n, hn, hp⟩ := h
  simp [snapshotOf, hn, hp]

theorem Accepts.noSelf
    (hids : ∀ op ∈ body.operations, op.created ≠ some none) (h : Accepts g uuid grant body) :
    ∀ op ∈ body.operations.map Op.explicit, op.NoSelf := by
  obtain ⟨-, allowed, out, -, -, -, hcheck, -, htrapped⟩ := (accepts_iff hids).mp h
  intro op hop
  obtain ⟨f, hf⟩ := (checkOps_walk hcheck).filled op hop
  exact noSelf_of_schedule htrapped hf

/-- An accepted batch in another order is accepted exactly when no operation there comes before one that creates a node
it names. -/
theorem accepts_perm {uuid' : Nat → Nat → String}
    (hids : ∀ op ∈ body.operations, op.created ≠ some none) (hacc : Accepts g uuid grant body)
    (hperm : operations.Perm body.operations) :
    Accepts g uuid' grant { body with operations } ↔ CreatorsFirst operations := by
  have hids' : ∀ op ∈ operations, op.created ≠ some none := fun op hop => hids op (hperm.subset hop)
  obtain ⟨hrev, allowed, out, hallowed, hnodup, huuid, hcheck, hagree, htrapped⟩ := (accepts_iff hids).mp hacc
  have heperm : (operations.map Op.explicit).Perm (body.operations.map Op.explicit) := hperm.map _
  have hwalk := checkOps_walk hcheck
  have hself := hacc.noSelf hids
  have hself' : ∀ op ∈ operations.map Op.explicit, op.NoSelf := fun op hop => hself op (heperm.subset hop)
  have hfresh : Fresh ⟨allowed, namedBranch (body.operations.map Op.explicit)⟩ (body.operations.map Op.explicit) :=
    ⟨hnodup, fun x hx hin => (huuid x hin).2 (allowedNodes_has hallowed x hx).used⟩
  have hfresh' : Fresh ⟨allowed, namedBranch (operations.map Op.explicit)⟩ (operations.map Op.explicit) :=
    hfresh.perm heperm rfl
  rw [← nodesFirst_explicit hids']
  constructor
  · intro hacc'
    obtain ⟨-, allowed', out', hallowed', -, -, hcheck', -, -⟩ := (accepts_iff hids').mp hacc'
    obtain rfl : allowed = allowed' := by simpa [hallowed] using hallowed'
    exact (checkOps_walk hcheck').nodesFirst hfresh' hself'
  · intro hfirst
    obtain ⟨hout, hsettled⟩ := hwalk.settled hfresh hself
    generalize hend : Checked.final ⟨allowed, namedBranch (body.operations.map Op.explicit)⟩ out = t at hout hsettled
    have hscope : ∀ op ∈ operations.map Op.explicit, ∀ r ∈ op.refs,
        r ∈ allowed ∨ r ∈ (operations.map Op.explicit).filterMap Op.contained := by
      intro op hop r hr
      obtain ⟨_, haccepted⟩ := hsettled op (heperm.subset hop)
      have hin := haccepted.refs (hself' op hop) r hr
      rw [← hend] at hin
      refine (mem_final.mp hin).imp_right (fun hnew => ?_)
      obtain ⟨q', hq', hcontained⟩ := List.mem_filterMap.mp hnew
      rw [hout] at hq'
      obtain ⟨q, hq, rfl⟩ := List.mem_map.mp hq'
      exact List.mem_filterMap.mpr ⟨q, heperm.mem_iff.mpr hq, fill_contained.symm.trans hcontained⟩
    have hwalk' := walk_of_settled (s := ⟨allowed, namedBranch (operations.map Op.explicit)⟩) hfirst hself'
      (fun op hop => hsettled op (heperm.subset hop)) rfl hscope
      (fun r hr hn => absurd hn (allowedNodes_has hallowed r hr).snapshot)
    have hcheck' := ((@snapshotOf_perm (fun _ => g) grant.projectId _ _ heperm).walk hwalk').checkOps hself'
    have hsub : (operations.map Op.explicit).map (Op.fill t.branchOf) ⊆ out := by
      rw [hout]
      exact (heperm.map _).subset
    refine (accepts_iff hids').mpr ⟨hrev, allowed, _, hallowed, hfresh'.nodup, ?_, hcheck', ?_, ?_⟩
    · exact fun id hid => huuid id ((heperm.filterMap _).mem_iff.mp hid)
    · refine hagree.mono (fun x hx => ?_)
      obtain ⟨op, hop, hx⟩ := List.mem_flatMap.mp hx
      exact List.mem_flatMap.mpr ⟨op, hsub hop, hx⟩
    · rintro ⟨p, hne, hp, hneeds⟩
      exact htrapped ⟨p, hne, fun x hx => hsub (hp hx), hneeds⟩

theorem creatorsFirst_of_all
    (h : ∀ op ∈ operations, ∀ q ∈ operations, ∀ r ∈ op.refs, q.newNode.map Prod.fst ≠ some (some r)) :
    CreatorsFirst operations :=
  List.pairwise_of_forall_mem_list (fun op hop q hq => h op hop q hq)

/-- The order of an accepted batch does not matter exactly when no operation names a node that the batch creates. -/
theorem acceptance_of_order {g : Graph} {uuid uuid' : Nat → Nat → String} {body : Batch}
    (hids : ∀ op ∈ body.operations, op.created ≠ some none) (hacc : Accepts g uuid grant body) :
    (∀ operations : List (Op (Option String)), operations.Perm body.operations →
      (Accepts g uuid' grant { body with operations } ↔ CreatorsFirst operations)) ∧
    ((∀ operations : List (Op (Option String)), operations.Perm body.operations →
        Accepts g uuid' grant { body with operations }) ↔
      ∀ op ∈ body.operations, ∀ q ∈ body.operations, ∀ r ∈ op.refs, q.newNode.map Prod.fst ≠ some (some r)) := by
  refine ⟨fun _ hperm => accepts_perm hids hacc hperm, fun hall op hop q hq r hr hnew => ?_, fun hnone operations hperm => ?_⟩
  · have hpermuted := List.perm_cons_erase hop
    have hfirst : CreatorsFirst (op :: body.operations.erase op) := (accepts_perm hids hacc hpermuted.symm).mp (hall _ hpermuted.symm)
    rcases List.mem_cons.mp (hpermuted.subset hq) with rfl | hq'
    · have hcreated : q.explicit.created = some r := by
        cases q with
        | createNode id parent b title summary nodeType =>
          obtain rfl : id = some r := Option.some.inj hnew
          rfl
        | _ => cases hnew
      have hnamed : r ∈ q.explicit.refs := by
        cases q <;> exact hr
      exact absurd hnamed (hacc.noSelf hids _ (List.mem_map_of_mem hq) r hcreated)
    · exact List.rel_of_pairwise_cons hfirst hq' r hr hnew
  · refine (accepts_perm hids hacc hperm).mpr (creatorsFirst_of_all ?_)
    exact fun op hop q hq => hnone op (hperm.subset hop) q (hperm.subset hq)

def projectGrant : Grant := ⟨"g", sampleId 0, .write, none, none, "agent"⟩

def nodeWithContent : Batch where
  expectedProjectRevision := ⟨2, one_le_two⟩
  idempotencyKey := "key-0001"
  operations := [.createNode (some (sampleId 3)) (some (sampleId 1, ⟨2, one_le_two⟩)) none "Idea" "" "idea",
    .createContentBlock (some (sampleId 4)) (sampleId 3) ⟨1, one_le_one⟩ "text" (.json "{}") 0]

theorem accepts_of_isOk
    (h : (prepareBatch (fun _ => g) uuid grant body).isOk = true) : Accepts g uuid grant body := by
  cases hr : prepareBatch (fun _ => g) uuid grant body with
  | error =>
    rw [hr] at h
    cases h
  | ok r => exact ⟨r.1, r.2, hr⟩

theorem nodeWithContent_accepted : Accepts (Runs.run Graph.after Graph.empty sampleProject) (fun _ _ => sampleId 5)
    projectGrant nodeWithContent := accepts_of_isOk (by decide +kernel)

/-- The content is refused before the node. -/
theorem acceptance_depends_on_order :
    Accepts (Runs.run Graph.after Graph.empty sampleProject) (fun _ _ => sampleId 5) projectGrant nodeWithContent ∧
      nodeWithContent.operations.reverse.Perm nodeWithContent.operations ∧
      prepareBatch (fun _ => Runs.run Graph.after Graph.empty sampleProject) (fun _ _ => sampleId 5) projectGrant
        { nodeWithContent with operations := nodeWithContent.operations.reverse } =
          .error (scopeDenied "Every operation reference must be in scope") :=
  ⟨nodeWithContent_accepted, List.reverse_perm _, by decide +kernel⟩

theorem acceptance_of_order_sample :
    ((∀ operations : List (Op (Option String)), operations.Perm nodeWithContent.operations →
        Accepts (Runs.run Graph.after Graph.empty sampleProject) (fun _ _ => sampleId 5) projectGrant
          { nodeWithContent with operations }) ↔
      ∀ op ∈ nodeWithContent.operations, ∀ q ∈ nodeWithContent.operations, ∀ r ∈ op.refs,
        q.newNode.map Prod.fst ≠ some (some r)) :=
  (acceptance_of_order (by decide) nodeWithContent_accepted).2

end GrowthMap.Canon
