import GrowthMap.Canon.Validation
import GrowthMap.Lib.Waves

/- The order in which a batch is executed.

   The scheduler sorts the operations by waves: it is a topological sort, it is stuck exactly on a
   cyclic batch, and of two operations the first of the caller stays first exactly when no chain of
   references that leads to it is longer than those of the other. -/
namespace GrowthMap.Canon

open Relational

def cyclicBatch : Err := .coded 422 "CYCLIC_BATCH_DEPENDENCY" "Atomic batch contains cyclic create dependencies"

/-- The second operation creates what the first refers to. -/
def needsOp (op q : Op String × Nat) : Bool := q.1.created.any (fun id => id ∈ op.1.dependsOn)

/-- Operation `i` refers to what operation `j` creates: a parent, a branch, a source, an endpoint or an owner. -/
def DependsOn (ops : List (Op String)) (i j : Nat) : Prop :=
  ∃ op q id, ops[i]? = some op ∧ ops[j]? = some q ∧ q.created = some id ∧ id ∈ op.dependsOn

/-- A chain of `n` references leads from the operation to operations of the batch. -/
inductive Chain (ops : List (Op String)) : Nat → Nat → Prop
  | here {i : Nat} : i < ops.length → Chain ops 0 i
  | refers {i j n : Nat} : DependsOn ops i j → Chain ops n j → Chain ops (n + 1) i

/-- Neither operation depends on the other, directly or through others. -/
def Independent (ops : List (Op String)) (i j : Nat) : Prop :=
  ¬ Relation.TransGen (DependsOn ops) i j ∧ ¬ Relation.TransGen (DependsOn ops) j i

/-- The indices of the batch, each once, and every operation after those it depends on. -/
def TopologicalOrder (ops : List (Op String)) (order : List Nat) : Prop :=
  order.Perm (List.range ops.length) ∧ ∀ i j, DependsOn ops i j → [j, i].Sublist order

/-! The scheduler as the sort by waves -/

theorem free_needsOp (pending : List (Op String × Nat)) : Waves.free needsOp pending = isReady pending := by
  funext op
  simp only [Waves.free, isReady, needsOp]
  congr 1
  funext q
  cases q.1.created with
  | none => rfl
  | some => simp

def scheduled : Option (List (Op String × Nat)) → Except Err (List (Op String × Nat))
  | none => .error cyclicBatch
  | some order => .ok order

variable {n i j : Nat} {x y : Op String × Nat} {order : List (Op String × Nat)}

/-- As many rounds as there are operations are enough, and more change nothing. -/
theorem schedule_of_loop {pending : List (Op String × Nat)} {r : Option (List (Op String × Nat))}
    (h : Waves.Loop needsOp pending r) (hn : pending.length ≤ n) : schedule n pending = scheduled r := by
  induction h generalizing n with
  | done => cases n <;> rfl
  | @stuck pending hne hready =>
    obtain ⟨op, ops, rfl⟩ := List.exists_cons_of_ne_nil hne
    cases n with
    | zero => rfl
    | succ =>
      rw [Waves.ready, free_needsOp] at hready
      simp only [schedule, hready]
      rfl
  | @round pending r hready _ ih =>
    cases pending with
    | nil => exact absurd rfl hready
    | cons =>
      obtain ⟨n, rfl⟩ : ∃ m, n = m + 1 := ⟨n - 1, by simp only [List.length_cons] at hn; omega⟩
      have hlt := Waves.length_next hready
      have hrest := ih (n := n) (by omega)
      rw [Waves.ready, free_needsOp] at hready
      rw [Waves.next, free_needsOp] at hrest
      rw [Waves.ready, free_needsOp]
      simp only [schedule, List.isEmpty_iff, hready, if_false, hrest]
      cases r <;> rfl

/-! The operations of a batch and their places -/

variable {ops : List (Op String)}

theorem needs_zipIdx :
    Waves.Needs needsOp ops.zipIdx x y ↔ x ∈ ops.zipIdx ∧ y ∈ ops.zipIdx ∧ DependsOn ops x.2 y.2 := by
  constructor
  · rintro ⟨hx, hy, h⟩
    obtain ⟨id, hcreated, hdepends⟩ := Option.any_eq_true _ _ |>.mp h
    exact ⟨hx, hy, x.1, y.1, id, List.mem_zipIdx_iff_getElem?.mp hx, List.mem_zipIdx_iff_getElem?.mp hy, hcreated,
      of_decide_eq_true hdepends⟩
  · rintro ⟨hx, hy, op, q, id, hop, hq, hcreated, hdepends⟩
    have hxop : x.1 = op := Option.some.inj ((List.mem_zipIdx_iff_getElem?.mp hx).symm.trans hop)
    have hyq : y.1 = q := Option.some.inj ((List.mem_zipIdx_iff_getElem?.mp hy).symm.trans hq)
    refine ⟨hx, hy, Option.any_eq_true _ _ |>.mpr ⟨id, by rw [hyq, hcreated], ?_⟩⟩
    exact decide_eq_true (hxop ▸ hdepends)

theorem exists_place (hi : i < ops.length) : ∃ op, (op, i) ∈ ops.zipIdx :=
  ⟨_, List.mem_zipIdx_iff_getElem?.mpr (List.getElem?_eq_getElem hi)⟩

theorem DependsOn.left (h : DependsOn ops i j) : ∃ op, (op, i) ∈ ops.zipIdx := by
  obtain ⟨op, _, _, hop, -⟩ := h
  exact ⟨op, List.mem_zipIdx_iff_getElem?.mpr hop⟩

theorem DependsOn.right (h : DependsOn ops i j) : ∃ op, (op, j) ∈ ops.zipIdx := by
  obtain ⟨_, q, _, _, hq, -⟩ := h
  exact ⟨q, List.mem_zipIdx_iff_getElem?.mpr hq⟩

theorem place_unique (hx : x ∈ ops.zipIdx) (hy : y ∈ ops.zipIdx) (h : x.2 = y.2) : x = y := by
  have hop := List.mem_zipIdx_iff_getElem?.mp hx
  rw [h, List.mem_zipIdx_iff_getElem?.mp hy] at hop
  exact Prod.ext (Option.some.inj hop).symm h

theorem chain_zipIdx (hx : x ∈ ops.zipIdx) :
    Waves.Chain needsOp ops.zipIdx n x ↔ Chain ops n x.2 := by
  constructor
  · intro h
    induction h with
    | here hx => exact .here (List.getElem?_eq_some_iff.mp (List.mem_zipIdx_iff_getElem?.mp hx)).1
    | after hx hxy hy ih => exact .refers (needs_zipIdx.mp ⟨hx, hy.mem, hxy⟩).2.2 (ih hy.mem)
  · intro h
    induction n generalizing x with
    | zero => exact .here hx
    | succ n ih =>
      cases h with
      | refers hdepends h =>
        obtain ⟨q, hq⟩ := hdepends.right
        exact .after hx (needs_zipIdx.mpr ⟨hx, hq, hdepends⟩).2.2 (ih hq h)

theorem nodup_zipIdx : ops.zipIdx.Nodup := by
  refine List.Nodup.of_map Prod.snd ?_
  rw [List.zipIdx_map_snd]
  exact List.nodup_range'

theorem places_sublist (hperm : order.Perm ops.zipIdx)
    (hx : x ∈ ops.zipIdx) (hy : y ∈ ops.zipIdx) : [x.2, y.2].Sublist (order.map Prod.snd) ↔ [x, y].Sublist order := by
  constructor
  · intro h
    obtain ⟨l, hl, heq⟩ := List.sublist_map_iff.mp h
    obtain ⟨x', y', rfl⟩ : ∃ x' y', l = [x', y'] := by
      refine List.length_eq_two.mp ?_
      simpa using (congrArg List.length heq).symm
    obtain ⟨hxx, hyy⟩ : x.2 = x'.2 ∧ y.2 = y'.2 := by simpa using heq
    rwa [place_unique hx (hperm.subset (hl.subset (by simp))) hxx,
      place_unique hy (hperm.subset (hl.subset (by simp))) hyy]
  · exact fun h => h.map Prod.snd

theorem cycle_zipIdx : (∃ x, Relation.TransGen (Waves.Needs needsOp ops.zipIdx) x x) ↔
    ∃ i, Relation.TransGen (DependsOn ops) i i := by
  constructor
  · rintro ⟨x, hx⟩
    exact ⟨x.2, hx.lift Prod.snd (fun _ _ h => (needs_zipIdx.mp h).2.2)⟩
  · rintro ⟨i, hi⟩
    have hlift : ∀ i j, Relation.TransGen (DependsOn ops) i j → ∀ x ∈ ops.zipIdx, x.2 = i →
        ∃ y ∈ ops.zipIdx, y.2 = j ∧ Relation.TransGen (Waves.Needs needsOp ops.zipIdx) x y := by
      intro i j h x hx hxi
      induction h with
      | single h =>
        obtain ⟨q, hq⟩ := h.right
        exact ⟨_, hq, rfl, .single (needs_zipIdx.mpr ⟨hx, hq, hxi ▸ h⟩)⟩
      | tail _ h ih =>
        obtain ⟨y, hy, hyj, hxy⟩ := ih
        obtain ⟨q, hq⟩ := h.right
        exact ⟨_, hq, rfl, hxy.tail (needs_zipIdx.mpr ⟨hy, hq, hyj ▸ h⟩)⟩
    obtain ⟨op, hop⟩ : ∃ op, (op, i) ∈ ops.zipIdx := by
      cases hi using Relation.TransGen.head_induction_on with
      | single h => exact h.left
      | head h => exact h.left
    obtain ⟨y, hy, hyi, hcycle⟩ := hlift i i hi (op, i) hop rfl
    rw [place_unique hy hop hyi] at hcycle
    exact ⟨_, hcycle⟩

/-! The theorems -/

/-- The scheduler is a topological sort: its loop ends, whatever fuel from the number of operations on it is given; an
order has every operation once and after those it depends on; and it fails exactly on a cycle. -/
theorem schedule_sorts (ops : List (Op String)) :
    (∃ r, Waves.Loop needsOp ops.zipIdx r ∧ ∀ n, ops.length ≤ n → schedule n ops.zipIdx = scheduled r) ∧
      (∀ order, schedule ops.length ops.zipIdx = .ok order →
        order.Perm ops.zipIdx ∧ TopologicalOrder ops (order.map Prod.snd)) ∧
      (∀ e, schedule ops.length ops.zipIdx = .error e → e = cyclicBatch) ∧
      (schedule ops.length ops.zipIdx = .error cyclicBatch ↔ ∃ i, Relation.TransGen (DependsOn ops) i i) := by
  obtain ⟨r, hloop⟩ : ∃ r, Waves.Loop needsOp ops.zipIdx r := Waves.loop_ends
  have hfuel : ∀ n, ops.length ≤ n → schedule n ops.zipIdx = scheduled r :=
    fun n hn => schedule_of_loop hloop (by simpa using hn)
  have hcycle := hloop.stuck_iff.trans cycle_zipIdx
  refine ⟨⟨r, hloop, hfuel⟩, ?_, ?_, ?_⟩
  · intro order horder
    rw [hfuel _ (Nat.le_refl _)] at horder
    cases r with
    | none => cases horder
    | some out =>
      cases horder
      have hperm := hloop.perm order rfl
      refine ⟨hperm, ?_, fun i j hij => ?_⟩
      · have hplaces := hperm.map Prod.snd
        rwa [List.zipIdx_map_snd, ← List.range_eq_range'] at hplaces
      · obtain ⟨op, hop⟩ := hij.left
        obtain ⟨q, hq⟩ := hij.right
        exact (hloop.before (needs_zipIdx.mpr ⟨hop, hq, hij⟩) order rfl).map Prod.snd
  · intro e he
    rw [hfuel _ (Nat.le_refl _)] at he
    cases r with
    | none => exact (Except.error.inj he).symm
    | some out => cases he
  · rw [hfuel _ (Nat.le_refl _), ← hcycle]
    cases r with
    | none => simp [scheduled]
    | some out => simp [scheduled]

theorem executeAll_places {uuid : Nat → Nat → String} {now : Int} {projectId actor : String}
    {s s' : Session} {results : List (OpResult × Nat)}
    (h : executeAll uuid now projectId actor order s = .ok (s', results)) : results.map Prod.snd = order.map Prod.snd := by
  induction order generalizing s results with
  | nil =>
    cases h
    rfl
  | cons x order ih =>
    obtain ⟨⟨s₁, result⟩, -, h⟩ := Fallible.bind_ok h
    obtain ⟨⟨s₂, rest⟩, hrest, h⟩ := Fallible.bind_ok h
    cases h
    rw [List.map_cons, List.map_cons, ih hrest]

/-- Of two independent operations the first of the caller is executed first exactly when no chain of references from it
is longer than those from the other. -/
theorem schedule_keeps_iff {ops : List (Op String)} {order : List (Op String × Nat)}
    (h : schedule ops.length ops.zipIdx = .ok order) {i j : Nat} (hij : i < j) (hj : j < ops.length) :
    (Independent ops i j →
      ([i, j].Sublist (order.map Prod.snd) ↔ ∀ n, Chain ops n i → Chain ops n j)) ∧
    ∀ (uuid : Nat → Nat → String) (now : Int) (projectId actor : String) (s s' : Session) (results : List (OpResult × Nat)),
      executeAll uuid now projectId actor order s = .ok (s', results) →
        results.map Prod.snd = order.map Prod.snd := by
  refine ⟨fun _ => ?_, fun uuid now projectId actor s s' results hrun => executeAll_places hrun⟩
  obtain ⟨r, hloop⟩ : ∃ r, Waves.Loop needsOp ops.zipIdx r := Waves.loop_ends
  have hrun := schedule_of_loop (n := ops.length) hloop (by simp)
  rw [h] at hrun
  cases r with
  | none => cases hrun
  | some out =>
    cases hrun
    obtain ⟨x, hx⟩ := exists_place (hij.trans hj)
    obtain ⟨y, hy⟩ := exists_place hj
    -- the operations stand in the batch as their places do
    have hcaller : [(x, i), (y, j)].Sublist ops.zipIdx := by
      refine (places_sublist (List.Perm.refl _) hx hy).mp ?_
      rw [List.zipIdx_map_snd, ← List.range_eq_range']
      have hlast : [i, j].Sublist (List.range j ++ [j]) :=
        (List.singleton_sublist.mpr (List.mem_range.mpr hij)).append (List.Sublist.refl [j])
      rw [← List.range_succ] at hlast
      exact hlast.trans (List.range_sublist.mpr hj)
    have hkeeps := hloop.keeps_iff nodup_zipIdx hcaller order rfl
    rw [← places_sublist (hloop.perm order rfl) hx hy] at hkeeps
    rw [hkeeps]
    exact forall_congr' (fun n => by rw [chain_zipIdx hx, chain_zipIdx hy])

/-- A new node, its content, and a branch from the node above it. -/
def lateContent : List (Op String) :=
  [.createNode "00000000-0000-4000-8000-000000000001" (some ("root", ⟨1, one_le_one⟩)) none "Idea" "" "idea",
    .createContentBlock "00000000-0000-4000-8000-000000000002" "00000000-0000-4000-8000-000000000001" ⟨1, one_le_one⟩ "text"
      (.json "\x7b\x7d") 0,
    .createBranch "00000000-0000-4000-8000-000000000003" "root" ⟨1, one_le_one⟩ "Variant" ""]

theorem lateContent_no_branch : ¬ DependsOn lateContent i 2 := by
  rintro ⟨op, q, id, hop, hq, hcreated, hdepends⟩
  cases hq
  cases hcreated
  have hnone : ∀ op ∈ lateContent, "00000000-0000-4000-8000-000000000003" ∉ op.dependsOn := by decide
  exact hnone op (List.mem_of_getElem? hop) hdepends

theorem lateContent_branch : ¬ DependsOn lateContent 2 j := by
  rintro ⟨op, q, id, hop, hq, hcreated, hdepends⟩
  cases hop
  obtain rfl : id = "root" := by simpa [Op.dependsOn] using hdepends
  have hnone : ∀ q ∈ lateContent, q.created ≠ some "root" := by decide
  exact hnone q (List.mem_of_getElem? hq) hcreated

theorem lateContent_independent : Independent lateContent 1 2 := by
  constructor
  · intro h
    cases h with
    | single h => exact lateContent_no_branch h
    | tail _ h => exact lateContent_no_branch h
  · intro h
    cases h using Relation.TransGen.head_induction_on with
    | single h => exact lateContent_branch h
    | head h => exact lateContent_branch h

/-- The branch is executed before the content, so its copy of the new node has none. -/
theorem schedule_reorders : ∃ order, schedule lateContent.length lateContent.zipIdx = .ok order ∧
    Independent lateContent 1 2 ∧ ¬ [1, 2].Sublist (order.map Prod.snd) :=
  ⟨_, rfl, lateContent_independent, by decide⟩

theorem schedule_keeps_iff_lateContent : ∃ order, schedule lateContent.length lateContent.zipIdx = .ok order ∧
    ([1, 2].Sublist (order.map Prod.snd) ↔ ∀ n, Chain lateContent n 1 → Chain lateContent n 2) :=
  ⟨_, rfl, (schedule_keeps_iff rfl (by decide) (by decide)).1 lateContent_independent⟩

end GrowthMap.Canon
