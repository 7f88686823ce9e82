import GrowthMap.Canon.Containment

/- Containment without cycles over whole runs.

   A node may have several parents and still not be below itself. What keeps a run so is less
   than what keeps it a forest: no request adds an edge whose target leads to its source. -/
namespace GrowthMap.Canon

open Relational Relation Forest

def cycleGuard (g : Graph) (es : List Edge) : Prop :=
  Acyclic (Arc (arcs g.edges.rows)) → Acyclic (Arc (arcs g.edges.rows ++ arcs es))

variable {g : Graph} {e : Edge}

theorem cycleGuard_single (he : e.isContainment = true)
    (hback : ¬ ReflTransGen (Arc (arcs g.edges.rows)) e.toNodeId e.fromNodeId) : cycleGuard g [e] := by
  intro hf
  rw [arcs_single he]
  exact hf.snoc hback

theorem cycleGuard_leaf (hfree : ∀ x ∈ g.edges.rows, x.fromNodeId ≠ e.toNodeId ∧ x.toNodeId ≠ e.toNodeId)
    (hne : e.fromNodeId ≠ e.toNodeId) : cycleGuard g [e] := by
  by_cases he : e.isContainment = true
  · refine cycleGuard_single he ?_
    intro hback
    exact hne (eq_of_reflTransGen (not_mem_arcs_from fun x hx => (hfree x hx).1) hback)
  · intro hf
    simpa [arcs, he] using hf

theorem acyclic_sublist {l l' : List (String × String)} (h : Acyclic (Arc l)) (hsub : l'.Sublist l) : Acyclic (Arc l') :=
  h.mono (fun _ _ hab => hsub.subset hab)

theorem policy_acyclic : Policy cycleGuard := by
  refine ⟨?_, ?_, fun hfree hne _ => cycleGuard_leaf hfree hne, ?_⟩
  · intro g g' es hsimilar hg
    rw [cycleGuard, hsimilar.arcs]
    exact hg
  · intro g es hes hf
    rw [hes, List.append_nil]
    exact hf
  · intro g es l f hes hl hinj hfree _ hf
    rw [hes]
    have hapart := rename_apart (l := l) hfree
    exact hf.append ((acyclic_sublist hf hl).rename hinj) (fun x hx y hy => ⟨(hapart x hx y hy).1, (hapart x hx y hy).2.1⟩)

theorem cycleGuard_detach {x y : String} (he : e.Joins y x) (hne : y ≠ x) (hdesc : y ∉ g.descendants x) :
    cycleGuard (detach x g) [e] := by
  obtain ⟨hc, rfl, rfl⟩ := he
  exact cycleGuard_single hc (not_reaches_detach hne hdesc)

/-- No request puts a node below itself: `create_edge`, alone and in a batch, goes to a node that does not lead to the
source; `move_node` is not to the node itself; the target of a merge is not below the root of the branch; the
containment of an import file has no cycle. -/
def Event.KeepsAcyclic (g : Graph) (e : Event) : Prop :=
  match e.request with
  | .createEdge d => d.relationType = "child_of" → d.fromNodeId ∉ g.descendants d.toNodeId
  | .moveNode nodeId d => d.newParentId ≠ nodeId
  | .mergeBranch branchId d => ∀ root, branchRoot g branchId = some root → d.targetNodeId ∉ g.descendants root.id
  | .importProject _ f => Acyclic (Arc f.contained)
  | .batch _ _ body => ∀ i op a b, (identified (fun i => e.uuid i 0) body.operations)[i]? = some op → op.joined = some (a, b) →
    ¬ ReflTransGen (Arc (otherArcs g (identified (fun i => e.uuid i 0) body.operations) i)) b a
  | _ => True

/-- What a request owes. -/
theorem Event.KeepsAcyclic.obliged {e : Event} (hw : Wf g) (h : e.KeepsAcyclic g) :
    e.request.Obliged cycleGuard e.uuid e.now g := by
  unfold Event.KeepsAcyclic at h
  cases hr : e.request with
  | createEdge =>
    rw [hr] at h
    rintro hrel hne x ⟨hc, hfrom, hto⟩
    refine cycleGuard_single hc ?_
    rw [hfrom, hto]
    exact not_reaches hne (h hrel)
  | moveNode =>
    rw [hr] at h
    exact fun hdesc _ x hx => cycleGuard_detach hx h hdesc
  | reparentNode => exact fun hdesc hne _ x hx => cycleGuard_detach hx hne hdesc
  | mergeBranch branchId =>
    rw [hr] at h
    intro target root htarget hmain hroot _ x hx
    exact cycleGuard_detach (g := mainlined branchId g) hx (target_ne_root htarget hmain hroot) (h root hroot)
  | importProject _ f =>
    rw [hr] at h
    intro g₁ hedges hnew hinj hf
    rw [hedges] at hf ⊢
    rw [arcs_newEdges, rename_contained]
    have hapart := rename_apart (l := f.contained) (fun a c hc => (hnew a c hc).2)
    exact hf.append (Acyclic.rename hinj h) (fun x hx y hy => ⟨(hapart x hx y hy).1, (hapart x hx y hy).2.1⟩)
  | batch =>
    rw [hr] at h
    intro g' ops order results allowed g₁ g₂ ha
    refine ha.guarded hw cycleGuard_leaf ?_
    rintro i op a b hop hjoined s x ⟨hc, rfl, rfl⟩ - hpath
    exact cycleGuard_single hc (fun hback => h i op _ _ hop hjoined (hpath hback))
  | _ => trivial

def Graph.IsAcyclic (g : Graph) : Prop := Acyclic (fun a b => b ∈ g.children a)

theorem isAcyclic_iff : g.IsAcyclic ↔ Acyclic (Arc (arcs g.edges.rows)) := by
  rw [Graph.IsAcyclic, children_arc]

theorem reached_acyclic {es : List Event} (h : Runs.Along Graph.after (fun g e => e.KeepsAcyclic g) Graph.empty es) :
    (Runs.run Graph.after Graph.empty es).IsAcyclic := by
  rw [isAcyclic_iff]
  exact commit_invariant policy_acyclic (I := fun g => Acyclic (Arc (arcs g.edges.rows)))
    (fun _ hf hcommit => arcs_commit acyclic_sublist hf hcommit) (fun g e hw _ hp => hp.obliged hw) isForest_nil.acyclic h

theorem Graph.IsAcyclic.down (h : g.IsAcyclic) : WellFounded (fun b a => Arc (arcs g.edges.rows) a b) := by
  refine (isAcyclic_iff.mp h).wellFounded (g.edges.rows.map Edge.toNodeId).toFinset ?_
  intro a b hab
  obtain ⟨e, he, -, -, rfl⟩ := mem_arcs.mp hab
  exact List.mem_toFinset.mpr (List.mem_map_of_mem he)

theorem Graph.IsAcyclic.up (h : g.IsAcyclic) : WellFounded (Arc (arcs g.edges.rows)) := by
  have hswap : Acyclic (fun a b => Arc (arcs g.edges.rows) b a) := by
    intro a ha
    exact isAcyclic_iff.mp h a (transGen_swap.mp ha)
  refine hswap.wellFounded (g.edges.rows.map Edge.fromNodeId).toFinset ?_
  intro a b hab
  obtain ⟨e, he, -, rfl, -⟩ := mem_arcs.mp hab
  exact List.mem_toFinset.mpr (List.mem_map_of_mem he)

end GrowthMap.Canon
