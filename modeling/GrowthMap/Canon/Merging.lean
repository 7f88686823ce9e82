import GrowthMap.Canon.Changes

/- The merge of a branch.

   The route looks for one root, the first node of the branch without a parent in it, and moves
   that root below the target. What does not hang on the root or the target is left where it is. -/
namespace GrowthMap.Canon

open Relational Relation Table

/-! Branches as sets of nodes -/

def Graph.InBranch (g : Graph) (branchId x : String) : Prop := ∃ n, g.nodes.get x = some n ∧ n.branchId = some branchId

def Graph.Unparented (g : Graph) (branchId x : String) : Prop :=
  ∀ e ∈ g.parentEdges x, ¬ g.InBranch branchId e.fromNodeId

/-- The first node of the branch, in the order of the rows, without a parent in it. -/
structure Graph.FirstEntry (g : Graph) (branchId : String) (r : Node) : Prop where
  member : r.branchId = some branchId
  unparented : g.Unparented branchId r.id
  first : ∃ before after, g.nodes.rows = before ++ r :: after ∧
    ∀ n ∈ before, n.branchId = some branchId → ¬ g.Unparented branchId n.id

variable {x : String}

section Root

variable {g : Graph} {branchId : String}

theorem inBranch_iff : (g.nodes.get x).any (fun n => decide (n.branchId = some branchId)) = true ↔ g.InBranch branchId x := by
  cases hx : g.nodes.get x with
  | none => simp [Graph.InBranch, hx]
  | some => simp [Graph.InBranch, hx]

theorem unparented_iff : (g.edges.rows.any (fun e => e.isContainment &&
    (g.nodes.get e.fromNodeId).any (fun n => decide (n.branchId = some branchId)) && decide (e.toNodeId = x))) = false ↔
    g.Unparented branchId x := by
  rw [List.any_eq_false]
  constructor
  · intro h e he hin
    obtain ⟨hrow, hcond⟩ := List.mem_filter.mp he
    obtain ⟨hc, hto⟩ := Bool.and_eq_true_iff.mp hcond
    exact h e hrow (by rw [hc, inBranch_iff.mpr hin, hto]; rfl)
  · intro h e hrow hcond
    obtain ⟨hleft, hto⟩ := Bool.and_eq_true_iff.mp hcond
    obtain ⟨hc, hin⟩ := Bool.and_eq_true_iff.mp hleft
    exact h e (List.mem_filter.mpr ⟨hrow, by rw [hc, hto]; rfl⟩) (inBranch_iff.mp hin)

theorem branchRoot_iff {r : Node} : branchRoot g branchId = some r ↔ g.FirstEntry branchId r := by
  unfold branchRoot
  dsimp only
  rw [List.find?_filter, List.find?_eq_some_iff_append]
  simp only [Bool.decide_and, Bool.decide_eq_true, Bool.and_eq_true, decide_eq_true_eq, Bool.not_eq_true', Bool.not_and,
    Bool.or_eq_true, unparented_iff]
  constructor
  · rintro ⟨⟨hmember, hentry⟩, before, after, hrows, hbefore⟩
    refine ⟨hmember, hentry, before, after, hrows, ?_⟩
    intro n hn hbranch hnone
    rcases hbefore n hn with hother | hparent
    · simp [hbranch] at hother
    · rw [unparented_iff.mpr hnone] at hparent
      cases hparent
  · rintro ⟨hmember, hentry, before, after, hrows, hbefore⟩
    refine ⟨⟨hmember, hentry⟩, before, after, hrows, ?_⟩
    intro n hn
    by_cases hbranch : n.branchId = some branchId
    · right
      by_contra hparent
      exact hbefore n hn hbranch (unparented_iff.mp (by simpa using hparent))
    · left
      simpa using hbranch

end Root

/-! What a merge does -/

def Node.merged (branchId : String) (n : Node) : Node := if n.branchId = some branchId then n.toMain else n

/-- The nodes of the branch come to the main projection, and all edges into its root are replaced by one from the target. -/
structure Merged (g g' : Graph) (branchId targetId : String) (root : Node) (e : Edge) : Prop where
  target : ¬ g.InBranch branchId targetId
  entry : g.FirstEntry branchId root
  joins : e.Joins targetId root.id
  edges : g'.edges.rows = (detach root.id g).edges.rows ++ [e]
  nodes : ∀ x, x ≠ targetId → g'.nodes.get x = (g.nodes.get x).map (Node.merged branchId)

section Merge

variable {g g' : Graph} {uuid : Nat → String} {branchId : String} {d : BranchMerge}

theorem mergeBranch_merged (hw : Wf g) (h : mergeBranch (fun _ => g) uuid branchId d g = .ok g') :
    ∃ root e, Merged g g' branchId d.targetNodeId root e := by
  obtain ⟨branch, target, root, old, g₁, g₂, g₃, m⟩ := mergeBranch_ok h
  obtain ⟨hnodes, hedges, -, -⟩ := claim_rows m.claimed
  have hr : branchRoot g branchId = some root := by
    rw [← m.rootRow, branchRoot, branchRoot, hnodes, hedges]
  obtain ⟨-, edges, hins, rfl⟩ := insertEdge_ok m.child
  have hg₃ := flushBranch_ok m.status
  subst hg₃
  have hg' := flushNode_ok m.flushed
  subst hg'
  obtain ⟨e, he, hjoins⟩ : ∃ e : Edge, edges.rows = (deleteEdges (fun e => decide (some e.id = old.map Edge.id))
      (mainlined branchId g₁)).edges.rows ++ [e] ∧ e.Joins d.targetNodeId root.id :=
    ⟨_, insert_rows hins, rfl, rfl, rfl⟩
  refine ⟨root, e, ⟨?_, branchRoot_iff.mp hr, hjoins, ?_, ?_⟩⟩
  · rintro ⟨n, hn, hbranch⟩
    rw [← hnodes, m.targetRow] at hn
    cases hn
    rw [m.mainline hw] at hbranch
    cases hbranch
  · have hrows : (detach root.id (mainlined branchId g₁)).edges.rows = (detach root.id g).edges.rows := by
      simp only [detach, deleteEdges, mainlined, hedges]
    rw [← hrows, ← detach_rows m.single]
    exact he
  · intro x hx
    have hid : x ≠ target.id := by
      rw [get_key m.targetRow]
      exact hx
    refine (get_modify_ne Node.patch_key hid).trans ?_
    rw [← hnodes]
    exact (get_update g₁.nodes _ Node.toMain Node.toMain_key x).trans
      (by congr 1; funext n; rw [Node.merged]; simp only [decide_eq_true_eq])

variable {root : Node}

theorem Merged.arc {e : Edge} (h : Merged g g' branchId d.targetNodeId root e) (a b : String) :
    b ∈ g'.children a ↔ b ∈ g.children a ∧ b ≠ root.id ∨ a = d.targetNodeId ∧ b = root.id := by
  obtain ⟨hc, hfrom, hto⟩ := h.joins
  rw [mem_children, mem_children, mem_arcs, mem_arcs, h.edges]
  constructor
  · rintro ⟨x, hx, hxc, rfl, rfl⟩
    rcases List.mem_append.mp hx with hx | hx
    · obtain ⟨hrow, hkeep⟩ := List.mem_filter.mp hx
      have hne : x.toNodeId ≠ root.id := by
        intro heq
        simp [hxc, heq] at hkeep
      exact .inl ⟨⟨x, hrow, hxc, rfl, rfl⟩, hne⟩
    · rw [List.mem_singleton.mp hx]
      exact .inr ⟨hfrom, hto⟩
  · rintro (⟨⟨x, hrow, hxc, rfl, rfl⟩, hne⟩ | ⟨rfl, rfl⟩)
    · refine ⟨x, List.mem_append_left _ (List.mem_filter.mpr ⟨hrow, ?_⟩), hxc, rfl, rfl⟩
      simp [hne]
    · exact ⟨e, List.mem_append_right _ List.mem_cons_self, hc, hfrom, hto⟩

/-- The edges into other nodes stay, and the root has the new one. -/
theorem Merged.parentEdges {e : Edge} (h : Merged g g' branchId d.targetNodeId root e) (x : String) :
    g'.parentEdges x = if x = root.id then [e] else g.parentEdges x := by
  obtain ⟨hc, -, hto⟩ := h.joins
  have hnew : [e].filter (fun e => e.isContainment && decide (e.toNodeId = x)) = if x = root.id then [e] else [] := by
    by_cases hx : x = root.id
    · simp [hc, hto, hx]
    · simp [hc, hto, hx, Ne.symm hx]
  show g'.edges.rows.filter _ = _
  rw [h.edges, List.filter_append, hnew]
  show (g.edges.rows.filter _).filter _ ++ _ = _
  rw [List.filter_filter]
  by_cases hx : x = root.id
  · rw [if_pos hx, if_pos hx]
    have hnil : g.edges.rows.filter (fun a => (a.isContainment && decide (a.toNodeId = x)) &&
        !(a.isContainment && decide (a.toNodeId = root.id))) = [] := by
      refine List.filter_eq_nil_iff.mpr ?_
      intro a _
      rw [hx]
      simp
    rw [hnil, List.nil_append]
  · rw [if_neg hx, if_neg hx, List.append_nil]
    refine List.filter_congr ?_
    intro a _
    by_cases hax : a.toNodeId = x
    · simp [hax, hx]
    · simp [hax]

end Merge

/-! What a merge should do -/

/-- The whole branch hangs below the target, as it was, and nothing else is changed. -/
structure Attached (g g' : Graph) (branchId targetId : String) : Prop where
  main : ∀ x, g.InBranch branchId x → ∃ n, g'.nodes.get x = some n ∧ n.branchId = none
  reach : ∀ x, g.InBranch branchId x → ReflTransGen (fun a b => b ∈ g'.children a) targetId x
  single : ∀ x, g.InBranch branchId x → (g'.parentEdges x).length = 1
  inside : ∀ e : Edge, e.isContainment = true → g.InBranch branchId e.fromNodeId → g.InBranch branchId e.toNodeId →
    (e ∈ g'.edges.rows ↔ e ∈ g.edges.rows)
  outside : ∀ x, ¬ g.InBranch branchId x → x ≠ targetId → g'.nodes.get x = g.nodes.get x

/-- All of the branch but its first entry has one parent, and hangs on that entry or on the target: by edges that do not
lead into the entry. -/
def Graph.Whole (g : Graph) (branchId targetId : String) : Prop :=
  ∀ r, g.FirstEntry branchId r → ∀ x, g.InBranch branchId x → x ≠ r.id → (g.parentEdges x).length = 1 ∧
    (ReflTransGen (fun a b => b ∈ g.children a ∧ b ≠ r.id) targetId x ∨
      ReflTransGen (fun a b => b ∈ g.children a ∧ b ≠ r.id) r.id x)

section Merge

variable {g g' : Graph} {uuid : Nat → String} {branchId : String} {d : BranchMerge} {root : Node} {e : Edge}

theorem Merged.main (h : Merged g g' branchId d.targetNodeId root e) (hx : g.InBranch branchId x) :
    ∃ n, g'.nodes.get x = some n ∧ n.branchId = none := by
  have hne : x ≠ d.targetNodeId := by
    intro heq
    exact h.target (heq ▸ hx)
  obtain ⟨n, hn, hbranch⟩ := hx
  refine ⟨n.toMain, ?_, rfl⟩
  rw [h.nodes x hne, hn, Option.map_some, Node.merged, if_pos hbranch]

theorem Merged.outside (h : Merged g g' branchId d.targetNodeId root e) (hx : ¬ g.InBranch branchId x)
    (hne : x ≠ d.targetNodeId) : g'.nodes.get x = g.nodes.get x := by
  rw [h.nodes x hne]
  cases hn : g.nodes.get x with
  | none => rfl
  | some n =>
    have hbranch : n.branchId ≠ some branchId := fun hbranch => hx ⟨n, hn, hbranch⟩
    rw [Option.map_some, Node.merged, if_neg hbranch]

theorem Merged.inside (h : Merged g g' branchId d.targetNodeId root e) {x : Edge} (hc : x.isContainment = true)
    (hfrom : g.InBranch branchId x.fromNodeId) : x ∈ g'.edges.rows ↔ x ∈ g.edges.rows := by
  rw [h.edges, List.mem_append, List.mem_singleton]
  constructor
  · rintro (hx | rfl)
    · exact (List.mem_filter.mp hx).1
    · rw [h.joins.2.1] at hfrom
      exact absurd hfrom h.target
  · intro hrow
    refine .inl (List.mem_filter.mpr ⟨hrow, ?_⟩)
    -- no edge of the branch leads into its entry
    have hne : x.toNodeId ≠ root.id := by
      intro hto
      exact h.entry.unparented x (List.mem_filter.mpr ⟨hrow, by rw [hc, hto]; simp⟩) hfrom
    simp [hne]

theorem Merged.reach (h : Merged g g' branchId d.targetNodeId root e) (x : String) :
    ReflTransGen (fun a b => b ∈ g'.children a) d.targetNodeId x ↔
      ReflTransGen (fun a b => b ∈ g.children a ∧ b ≠ root.id) d.targetNodeId x ∨
      ReflTransGen (fun a b => b ∈ g.children a ∧ b ≠ root.id) root.id x :=
  Forest.reflTransGen_redirect h.arc

theorem firstEntry_unique {r r' : Node} (h : g.FirstEntry branchId r) (h' : g.FirstEntry branchId r') : r = r' :=
  Option.some.inj ((branchRoot_iff.mpr h).symm.trans (branchRoot_iff.mpr h'))

theorem Merged.attached_iff (h : Merged g g' branchId d.targetNodeId root e) :
    Attached g g' branchId d.targetNodeId ↔ g.Whole branchId d.targetNodeId := by
  constructor
  · intro ha r hr x hx hne
    have hsame : r = root := firstEntry_unique hr h.entry
    subst hsame
    have hsingle := ha.single x hx
    rw [h.parentEdges, if_neg hne] at hsingle
    exact ⟨hsingle, (h.reach x).mp (ha.reach x hx)⟩
  · intro hwhole
    refine ⟨fun x hx => h.main hx, ?_, ?_, fun x hc hfrom _ => h.inside hc hfrom, fun x hx hne => h.outside hx hne⟩
    · intro x hx
      by_cases hne : x = root.id
      · exact (h.reach x).mpr (.inr (hne ▸ .refl))
      · exact (h.reach x).mpr (hwhole root h.entry x hx hne).2
    · intro x hx
      rw [h.parentEdges]
      by_cases hne : x = root.id
      · rw [if_pos hne]
        rfl
      · rw [if_neg hne]
        exact (hwhole root h.entry x hx hne).1

end Merge

/-- From every state that can be reached, a merge attaches the whole branch exactly if the branch was whole. -/
theorem merge_attached_iff (es : List Event) {g' : Graph} {uuid : Nat → String} {branchId : String} {d : BranchMerge}
    (h : mergeBranch (fun _ => Runs.run Graph.after Graph.empty es) uuid branchId d (Runs.run Graph.after Graph.empty es) = .ok g') :
    Attached (Runs.run Graph.after Graph.empty es) g' branchId d.targetNodeId ↔
      (Runs.run Graph.after Graph.empty es).Whole branchId d.targetNodeId := by
  obtain ⟨root, e, hmerged⟩ := mergeBranch_merged (reached_sound es).1 h
  exact hmerged.attached_iff

def sampleMerge (expectedProject : Int) : BranchMerge := ⟨sampleId 1, expectedProject, 1, 2⟩

theorem merge_attached_iff_sample : ∃ g', mergeBranch (fun _ => Runs.run Graph.after Graph.empty sampleBranch)
      (fun i => sampleId (6 + i)) (sampleId 4) (sampleMerge 3) (Runs.run Graph.after Graph.empty sampleBranch) = .ok g' ∧
    (Attached (Runs.run Graph.after Graph.empty sampleBranch) g' (sampleId 4) (sampleId 1) ↔
      (Runs.run Graph.after Graph.empty sampleBranch).Whole (sampleId 4) (sampleId 1)) := by
  have hok : (mergeBranch (fun _ => Runs.run Graph.after Graph.empty sampleBranch) (fun i => sampleId (6 + i)) (sampleId 4)
    (sampleMerge 3) (Runs.run Graph.after Graph.empty sampleBranch)).isOk = true := by decide +kernel
  cases h : mergeBranch (fun _ => Runs.run Graph.after Graph.empty sampleBranch) (fun i => sampleId (6 + i)) (sampleId 4)
    (sampleMerge 3) (Runs.run Graph.after Graph.empty sampleBranch) with
  | error e =>
    rw [h] at hok
    cases hok
  | ok g' => exact ⟨g', rfl, merge_attached_iff sampleBranch h⟩

/-- The sample branch gets a node without a parent. -/
def twoRooted : List Event :=
  sampleBranch ++ [sampleEvent 6 (.createNode (sampleId 0) ⟨3, none, "b", "", "idea", none, some (sampleId 4), "", []⟩)]

/-- After the merge that node is on the mainline, and hangs nowhere. -/
theorem merge_leaves_root : ∃ g', mergeBranch (fun _ => Runs.run Graph.after Graph.empty twoRooted) (fun i => sampleId (8 + i))
      (sampleId 4) (sampleMerge 4) (Runs.run Graph.after Graph.empty twoRooted) = .ok g' ∧
    ¬ Attached (Runs.run Graph.after Graph.empty twoRooted) g' (sampleId 4) (sampleId 1) := by
  have hok : (mergeBranch (fun _ => Runs.run Graph.after Graph.empty twoRooted) (fun i => sampleId (8 + i)) (sampleId 4)
    (sampleMerge 4) (Runs.run Graph.after Graph.empty twoRooted)).toOption.any
      (fun g' => decide ((g'.parentEdges (sampleId 6)).length = 0)) = true := by decide +kernel
  have hin : ((Runs.run Graph.after Graph.empty twoRooted).nodes.get (sampleId 6)).map Node.branchId = some (some (sampleId 4)) := by
    decide +kernel
  cases h : mergeBranch (fun _ => Runs.run Graph.after Graph.empty twoRooted) (fun i => sampleId (8 + i)) (sampleId 4)
    (sampleMerge 4) (Runs.run Graph.after Graph.empty twoRooted) with
  | error e =>
    rw [h] at hok
    cases hok
  | ok g' =>
    rw [h] at hok
    have hnone : (g'.parentEdges (sampleId 6)).length = 0 := of_decide_eq_true hok
    refine ⟨g', rfl, ?_⟩
    intro ha
    have hone := ha.single (sampleId 6) (Option.map_eq_some_iff.mp hin)
    omega

end GrowthMap.Canon
