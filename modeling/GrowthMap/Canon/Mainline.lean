import GrowthMap.Canon.Errors
import GrowthMap.Canon.Application

/- The mainline of a node.

   A parent has one mainline child, and the schema enforces it: a write that would make a
   second one fails. No request fails so. What the proof follows through a request is kept by
   each of its writes, and with it that the revision of no block falls. -/
namespace GrowthMap.Canon

open Relational Fallible Table

/-! The invariant -/

def Edge.LeadsFrom (e : Edge) (x : String) : Prop := e.isContainment = true ∧ e.isMainline = true ∧ e.fromNodeId = x

def Graph.OneMainline (g : Graph) : Prop :=
  ∀ e ∈ g.edges.rows, ∀ e' ∈ g.edges.rows, ∀ x, e.LeadsFrom x → e'.LeadsFrom x → e = e'

def Graph.Rooted (g : Graph) : Prop := ∀ e ∈ g.edges.rows, (g.nodes.get e.fromNodeId).isSome = true

def Aged (start : Graph) (b : ContentBlock) : Prop := 1 ≤ b.revision ∨ ∃ b₀ ∈ start.blocks.rows, b₀.revision ≤ b.revision

structure Tidy (start g : Graph) : Prop where
  mainline : g.OneMainline
  rooted : g.Rooted
  grown : ∀ b ∈ g.blocks.rows, Aged start b

/-- A second mainline child is refused by the schema. -/
abbrev Clash (e : Err) : Prop := e = .mainline

abbrev Orderly (start : Graph) (x : Except Err Graph) : Prop := Meets Clash (Tidy start) x

theorem duplicateMainline_eq_false {g : Graph} {e : Edge} :
    duplicateMainline g e = false ↔
      ∀ x ∈ g.edges.rows, ∀ p, x.LeadsFrom p → e.LeadsFrom p → x.id = e.id := by
  unfold duplicateMainline Edge.LeadsFrom
  constructor
  · rintro h x hx p ⟨hc, hm, hfrom⟩ ⟨hc', hm', hfrom'⟩
    by_contra hne
    have hany : g.edges.rows.any (fun x => decide (x.id ≠ e.id) && x.isContainment && x.isMainline &&
        decide (x.fromNodeId = e.fromNodeId)) = true :=
      List.any_eq_true.mpr ⟨x, hx, by simp [hne, hc, hm, hfrom, hfrom']⟩
    rw [hc', hm', hany] at h
    cases h
  · intro h
    by_contra htrue
    rw [Bool.not_eq_false, Bool.and_eq_true, Bool.and_eq_true, List.any_eq_true] at htrue
    obtain ⟨⟨hc', hm'⟩, x, hx, htrue⟩ := htrue
    simp only [Bool.and_eq_true, decide_eq_true_eq] at htrue
    obtain ⟨⟨⟨hne, hc⟩, hm⟩, hfrom⟩ := htrue
    exact hne (h x hx e.fromNodeId ⟨hc, hm, hfrom⟩ ⟨hc', hm', rfl⟩)

section Writes

variable {start g g' : Graph}

theorem Tidy.of_rows (h : Tidy start g) (hedges : g'.edges = g.edges) (hblocks : g'.blocks = g.blocks)
    (hnodes : ∀ x, (g.nodes.get x).isSome = true → (g'.nodes.get x).isSome = true) : Tidy start g' := by
  refine ⟨?_, ?_, hblocks ▸ h.grown⟩
  · unfold Graph.OneMainline
    rw [hedges]
    exact h.mainline
  · unfold Graph.Rooted
    rw [hedges]
    exact fun e he => hnodes _ (h.rooted e he)

theorem Tidy.of_fewer (h : Tidy start g) (hedges : ∀ e ∈ g'.edges.rows, e ∈ g.edges.rows ∧ (g'.nodes.get e.fromNodeId).isSome = true)
    (hblocks : ∀ b ∈ g'.blocks.rows, b ∈ g.blocks.rows) : Tidy start g' where
  mainline e he e' he' := h.mainline e (hedges e he).1 e' (hedges e' he').1
  rooted e he := (hedges e he).2
  grown b hb := h.grown b (hblocks b hb)

theorem claim_orderly (h : Tidy start g) (p : String) (expected : Int) : Orderly start (claimProjectRevision p expected g) := by
  unfold claimProjectRevision
  split
  · exact meets_error nofun
  · exact meets_guard nofun (fun _ => meets_ok (h.of_rows rfl rfl (fun _ hx => hx)))

theorem insertNode_orderly (h : Tidy start g) (n : Node) : Orderly start (insertNode n g) := by
  refine meets_guard nofun (fun _ => ?_)
  cases hins : g.nodes.insert n with
  | none => exact meets_error nofun
  | some => exact meets_ok (h.of_rows rfl rfl (get_insert_isSome hins))

theorem insertBranch_orderly (h : Tidy start g) (b : Branch) : Orderly start (insertBranch b g) := by
  refine meets_guard nofun (fun _ => ?_)
  split
  · exact meets_error nofun
  · exact meets_ok (h.of_rows rfl rfl (fun _ hx => hx))

theorem insertProject_orderly (h : Tidy start g) (p : Project) : Orderly start (insertProject p g) := by
  refine meets_guard nofun (fun _ => ?_)
  split
  · exact meets_error nofun
  · exact meets_ok (h.of_rows rfl rfl (fun _ hx => hx))

theorem flushNode_orderly (h : Tidy start g) (old new : Node) : Orderly start (flushNode old new g) :=
  meets_guard nofun (fun _ => meets_guard nofun (fun _ => meets_ok (h.of_rows rfl rfl
    (get_update_isSome g.nodes (fun n => decide (n.id = old.id)) (old.patch new) Node.patch_key))))

theorem flushBranch_orderly (h : Tidy start g) (old new : Branch) : Orderly start (flushBranch old new g) :=
  meets_guard nofun (fun _ => meets_ok (h.of_rows rfl rfl (fun _ hx => hx)))

theorem flushProject_orderly (h : Tidy start g) (old new : Project) : Orderly start (flushProject old new g) :=
  meets_guard nofun (fun _ => meets_guard nofun (fun _ => meets_ok (h.of_rows rfl rfl (fun _ hx => hx))))

theorem insertBlock_orderly (h : Tidy start g) {b : ContentBlock} (hrev : 1 ≤ b.revision) : Orderly start (insertBlock b g) := by
  refine meets_guard nofun (fun _ => ?_)
  cases hins : g.blocks.insert b with
  | none => exact meets_error nofun
  | some =>
    refine meets_ok ⟨h.mainline, h.rooted, fun b' hb' => ?_⟩
    rw [insert_rows hins, List.mem_append, List.mem_singleton] at hb'
    rcases hb' with hb' | rfl
    · exact h.grown b' hb'
    · exact .inl hrev

theorem flushBlock_orderly (h : Tidy start g) {old new : ContentBlock} (hnew : Aged start new) :
    Orderly start (flushBlock old new g) := by
  refine meets_guard nofun (fun _ => meets_ok ⟨h.mainline, h.rooted, fun b hb => ?_⟩)
  obtain ⟨row, hrow, ⟨rfl, -⟩ | rfl⟩ := mem_modify_rows ContentBlock.patch_key hb
  · show Aged start (old.patch new row)
    unfold Aged ContentBlock.patch
    dsimp only
    split
    · exact h.grown row hrow
    · exact hnew
  · exact h.grown b hrow

theorem insertEdge_orderly (h : Tidy start g) {e : Edge} (hfree : ∀ x ∈ g.edges.rows, ∀ p, x.LeadsFrom p → ¬ e.LeadsFrom p) :
    Orderly start (insertEdge e g) := by
  have hdup : duplicateMainline g e = false :=
    duplicateMainline_eq_false.mpr (fun x hx p hp hp' => absurd hp' (hfree x hx p hp))
  unfold insertEdge
  rw [hdup]
  simp only [Bool.false_eq_true, if_false]
  split
  · exact meets_error (by rintro ⟨⟩)
  · rename_i hends
    cases hins : g.edges.insert e with
    | none => exact meets_error (by rintro ⟨⟩)
    | some =>
      have hrows := insert_rows hins
      refine meets_ok ⟨?_, ?_, h.grown⟩
      · intro a ha b hb x hax hbx
        rw [hrows, List.mem_append, List.mem_singleton] at ha hb
        rcases ha with ha | rfl
        · rcases hb with hb | rfl
          · exact h.mainline a ha b hb x hax hbx
          · exact absurd hbx (hfree a ha x hax)
        · rcases hb with hb | rfl
          · exact absurd hax (hfree b hb x hbx)
          · rfl
      · intro a ha
        rw [hrows, List.mem_append, List.mem_singleton] at ha
        rcases ha with ha | rfl
        · exact h.rooted a ha
        · have hfrom : ¬ (g.nodes.get a.fromNodeId).isNone = true := fun hnone => hends (.inr (.inl hnone))
          rwa [Bool.not_eq_true, Option.isNone_eq_false_iff] at hfrom

theorem flushEdge_orderly (h : Tidy start g) {old new : Edge} (hfree : ∀ row, g.edges.get old.id = some row →
    ∀ p, (old.patch new row).LeadsFrom p → ∀ x ∈ g.edges.rows, x.LeadsFrom p → x.id = old.id) :
    Orderly start (flushEdge old new g) := by
  unfold flushEdge
  cases hrow : g.edges.get old.id with
  | none => exact meets_error nofun
  | some row =>
    have hid : row.id = old.id := get_key hrow
    have hdup : duplicateMainline g (old.patch new row) = false := by
      rw [duplicateMainline_eq_false]
      intro x hx p hp hp'
      exact (hfree row hrow p hp' x hx hp).trans hid.symm
    dsimp only
    rw [hdup]
    simp only [Bool.false_eq_true, if_false]
    have hrows : ∀ e ∈ (g.edges.modify old.id (old.patch new) Edge.patch_key).rows,
        e = old.patch new row ∨ e ∈ g.edges.rows := by
      intro e he
      obtain ⟨row', hrow', ⟨rfl, hkey⟩ | rfl⟩ := mem_modify_rows Edge.patch_key he
      · have hget := get_of_mem hrow'
        rw [hkey, hrow] at hget
        cases hget
        exact .inl rfl
      · exact .inr hrow'
    refine meets_ok ⟨?_, ?_, h.grown⟩
    · intro a ha b hb x hax hbx
      have hsame : a.id = b.id := by
        rcases hrows a ha with rfl | ha
        · rcases hrows b hb with rfl | hb
          · rfl
          · exact hid.trans (hfree row hrow x hax b hb hbx).symm
        · rcases hrows b hb with rfl | hb
          · exact (hfree row hrow x hbx a ha hax).trans hid.symm
          · exact congrArg Edge.id (h.mainline a ha b hb x hax hbx)
      have hget := get_of_mem ha
      rw [hsame, get_of_mem hb] at hget
      exact (Option.some.inj hget).symm
    · intro e he
      rcases hrows e he with rfl | he
      · exact h.rooted row (get_mem hrow)
      · exact h.rooted e he

theorem check_avoids (kind id : String) (revision expected : Int) : Avoids Clash (checkEntityRevision kind id revision expected) :=
  avoids_guard nofun (fun _ => avoids_ok _ _)

theorem harmless_clash : Harmless Clash := ⟨nofun, nofun, nofun⟩

theorem insertChild_orderly (h : Tidy start g) (edgeId projectId parentId childId : String) :
    Orderly start (insertChild edgeId projectId parentId childId g) := by
  refine insertEdge_orderly h ?_
  rintro x hx p ⟨hc, -, hfrom⟩ ⟨-, hm, hp⟩
  have hnone : (g.childEdges parentId).length = 0 := of_decide_eq_true hm
  have hmem : x ∈ g.childEdges parentId :=
    List.mem_filter.mpr ⟨hx, by rw [hc, hfrom, ← hp]; exact decide_eq_true rfl⟩
  rw [List.length_eq_zero_iff.mp hnone] at hmem
  cases hmem

theorem deleteEdges_tidy (h : Tidy start g) (p : Edge → Bool) : Tidy start (deleteEdges p g) := by
  refine h.of_fewer ?_ (fun _ hb => hb)
  intro e he
  have he := List.mem_of_mem_filter he
  exact ⟨he, h.rooted e he⟩

theorem deleteNodes_tidy (h : Tidy start g) (xs : List String) : Tidy start (deleteNodes xs g) := by
  refine h.of_fewer ?_ (fun _ hb => List.mem_of_mem_filter hb)
  intro e he
  obtain ⟨he, hends⟩ := List.mem_filter.mp he
  refine ⟨he, ?_⟩
  show ((g.nodes.keep (fun n => n.id ∉ xs)).get e.fromNodeId).isSome = true
  obtain ⟨n, hn⟩ := Option.isSome_iff_exists.mp (h.rooted e he)
  rw [get_keep_filter, hn, Option.filter_some, get_key hn, if_pos (by simpa using (of_decide_eq_true hends).1)]
  rfl

theorem deleteProjectRow_tidy (h : Tidy start g) (p : String) : Tidy start (deleteProjectRow p g) := by
  refine h.of_fewer ?_ (fun _ hb => List.mem_of_mem_filter hb)
  intro e he
  obtain ⟨he, hends⟩ := List.mem_filter.mp he
  refine ⟨he, ?_⟩
  show ((g.nodes.keep (fun n => decide (n.projectId ≠ p))).get e.fromNodeId).isSome = true
  obtain ⟨n, hn⟩ := Option.isSome_iff_exists.mp (h.rooted e he)
  have hproject : n.projectId ≠ p := by
    intro hp
    simp [hn, hp] at hends
  rw [get_keep_filter, hn, Option.filter_some, if_pos (decide_eq_true hproject)]
  rfl

/-! Demotion -/

/-- The edges are as they were, but for their flags, weights, notes and revisions. -/
def SameEnds (g g' : Graph) : Prop :=
  ∀ x ∈ g'.edges.rows, ∃ y ∈ g.edges.rows, y.id = x.id ∧ y.fromNodeId = x.fromNodeId

/-- The mainline edges out of a node are demoted one by one. -/
theorem demote_each (h : Tidy start g) {parentId : String} {except_ : Option String} {es : List Edge}
    (hes : ∀ e ∈ es, e.isMainline = true)
    (hrest : ∀ x ∈ g.edges.rows, x.LeadsFrom parentId → some x.id = except_ ∨ x.id ∈ es.map Edge.id) :
    Meets Clash (fun g' => Tidy start g' ∧ (∀ x ∈ g'.edges.rows, x.LeadsFrom parentId → some x.id = except_) ∧ SameEnds g g')
      (each (fun e => flushEdge e e.demote) es g) := by
  induction es generalizing g with
  | nil =>
    refine meets_ok ⟨h, fun x hx hlead => ?_, fun x hx => ⟨x, hx, rfl, rfl⟩⟩
    rcases hrest x hx hlead with hex | hmem
    · exact hex
    · cases hmem
  | cons e es ih =>
    have hdemoted : ∀ row, (e.patch e.demote row).isMainline = false := by
      intro row
      simp [Edge.patch, Edge.demote, hes e List.mem_cons_self]
    have hstep : Orderly start (flushEdge e e.demote g) := by
      refine flushEdge_orderly h ?_
      rintro row - p ⟨-, hm, -⟩
      rw [hdemoted row] at hm
      cases hm
    refine hstep.bind (fun g₁ hflush hg₁ => ?_)
    have hrows : ∀ x ∈ g₁.edges.rows, (x.id ≠ e.id ∨ x.isMainline = false) ∧
        ∃ y ∈ g.edges.rows, y.id = x.id ∧ y.fromNodeId = x.fromNodeId ∧ (x.id ≠ e.id → x = y) := by
      intro x hx
      rw [flushEdge_ok hflush] at hx
      have hget := get_of_mem hx
      rcases get_modify_cases Edge.patch_key hget with ⟨hid, row, hrow, rfl⟩ | ⟨hid, hrow⟩
      · exact ⟨.inr (hdemoted row), row, get_mem hrow, rfl, rfl, fun hne => absurd hid hne⟩
      · exact ⟨.inl hid, x, get_mem hrow, rfl, rfl, fun _ => rfl⟩
    have hnext := ih hg₁ (fun x hx => hes x (List.mem_cons_of_mem _ hx)) (by
      intro x hx hlead
      obtain ⟨hne | hm, y, hy, -, -, hsame⟩ := hrows x hx
      · cases hsame hne
        rcases hrest x hy hlead with hex | hmem
        · exact .inl hex
        · rcases List.mem_cons.mp hmem with hid | hmem
          · exact absurd hid hne
          · exact .inr hmem
      · rw [hlead.2.1] at hm
        cases hm)
    refine ⟨hnext.1, fun g' hg' => ?_⟩
    obtain ⟨htidy, hlead, hends⟩ := hnext.2 g' hg'
    refine ⟨htidy, hlead, fun x hx => ?_⟩
    obtain ⟨y, hy, hid, hfrom⟩ := hends x hx
    obtain ⟨-, z, hz, hid', hfrom', -⟩ := hrows y hy
    exact ⟨z, hz, hid'.trans hid, hfrom'.trans hfrom⟩

theorem demote_orderly (h : Tidy start g) (parentId : String) (except_ : Option String) :
    Meets Clash (fun g' => Tidy start g' ∧ (∀ x ∈ g'.edges.rows, x.LeadsFrom parentId → some x.id = except_) ∧ SameEnds g g')
      (demoteMainlineSiblings parentId except_ g) := by
  refine demote_each h ?_ ?_
  · intro e he
    have hflags := (List.mem_filter.mp he).2
    simp only [Bool.and_eq_true, decide_eq_true_eq] at hflags
    exact hflags.1.2
  · rintro x hx ⟨hc, hm, hfrom⟩
    by_cases hex : some x.id = except_
    · exact .inl hex
    · refine .inr (List.mem_map_of_mem (List.mem_filter.mpr ⟨hx, ?_⟩))
      simp [hfrom, hc, hm, hex]

end Writes

end GrowthMap.Canon
