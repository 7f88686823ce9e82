import GrowthMap.Canon.Deletion

/- What the scope of a grant is.

   `validated_scoped_graph` and the validation of a deletion are one walk under different
   rules. Both accept exactly the trees, and they differ in the size, the branch of the root
   and the roots of projects alone. -/
namespace GrowthMap.Canon

open Relational Relation

def Graph.BranchOf (g : Graph) (projectId : String) (branchId : Option String) : Prop :=
  ∀ b, branchId = some b → ∃ branch, g.branches.get b = some branch ∧ branch.projectId = projectId

/-- The set is a scope: the tree under the root, in the project and in a branch of it, and not too large. -/
structure Graph.Scope (g : Graph) (projectId rootId : String) (limit : Int) (external : Bool) (s : Finset String) : Prop where
  tree : ∃ root, g.nodes.get rootId = some root ∧ root.projectId = projectId ∧ g.BranchOf projectId root.branchId ∧
    g.TreeIn projectId root.branchId rootId s
  top : (g.parentEdges rootId).length ≤ if external then 1 else 0
  size : (s.card : Int) ≤ limit

/-- The rules of `validated_scoped_graph`. -/
def scopeRules (projectId : String) (branchId : Option String) (limit : Int) (external : Bool) : ClosureRules :=
  { projectId, branchId, forbidden := fun _ => false, limit := some limit.toNat, rootParents := if external then 1 else 0,
    source := malformed "Scope source crosses project or branch",
    edge := malformed "Scope graph is not an exact project/branch tree",
    inbound := malformed "Scope graph is not an exact project/branch tree",
    rootOwner := malformed "Scope root has invalid ownership",
    owner := malformed "Scope descendant has invalid ownership",
    tooLarge := .coded 413 "SCOPE_TOO_LARGE" "Scope traversal exceeds limit" }

section Scopes

variable {g : Graph} {projectId rootId : String} {limit : Int} {external : Bool} {out : List String} {s : Finset String}

theorem scopedGraph_ok : scopedGraph g projectId rootId limit external = .ok out ↔
    ∃ root, g.nodes.get rootId = some root ∧ root.projectId = projectId ∧ g.BranchOf projectId root.branchId ∧
      closure (scopeRules projectId root.branchId limit external) g rootId = .ok out := by
  unfold scopedGraph
  cases hroot : g.nodes.get rootId with
  | none => simp
  | some root =>
    have hbranch : ¬ root.branchId.any (fun b => (g.branches.get b).all (fun x => decide (x.projectId ≠ projectId))) = true ↔
        g.BranchOf projectId root.branchId := by
      unfold Graph.BranchOf
      cases root.branchId with
      | none => simp
      | some b =>
        cases hb : g.branches.get b with
        | none => simp [hb]
        | some => simp [hb]
    simp only [Fallible.guard_eq_ok, hbranch, not_not, Option.some.injEq, exists_eq_left']
    exact Iff.rfl

theorem scopeRules_admits {branchId : Option String} (hroot : rootId ∈ s) :
    (scopeRules projectId branchId limit external).Admits g rootId s ↔
      (g.parentEdges rootId).length ≤ (if external then 1 else 0) ∧ (s.card : Int) ≤ limit := by
  have hpos : 0 < s.card := Finset.card_pos.mpr ⟨rootId, hroot⟩
  constructor
  · intro h
    have hsize : s.card ≤ limit.toNat := h.size _ rfl
    exact ⟨h.top, by omega⟩
  · rintro ⟨htop, hsize⟩
    refine ⟨htop, fun _ _ _ => rfl, fun n hn => ?_⟩
    cases hn
    omega

theorem scopedGraph_iff : (∃ out, scopedGraph g projectId rootId limit external = .ok out ∧ ∀ x, x ∈ out ↔ x ∈ s) ↔
    g.Scope projectId rootId limit external s := by
  constructor
  · rintro ⟨out, hok, hs⟩
    obtain ⟨root, hroot, hproject, hbranch, hclosure⟩ := scopedGraph_ok.mp hok
    obtain ⟨htree, hadmits⟩ := closure_iff.mp ⟨out, hclosure, hs⟩
    obtain ⟨htop, hsize⟩ := (scopeRules_admits ((htree.reach rootId).mpr .refl)).mp hadmits
    exact ⟨⟨root, hroot, hproject, hbranch, htree⟩, htop, hsize⟩
  · rintro ⟨⟨root, hroot, hproject, hbranch, htree⟩, htop, hsize⟩
    have hadmits : (scopeRules projectId root.branchId limit external).Admits g rootId s :=
      (scopeRules_admits ((htree.reach rootId).mpr .refl)).mpr ⟨htop, hsize⟩
    obtain ⟨out, hclosure, hs⟩ := closure_iff.mpr ⟨htree, hadmits⟩
    exact ⟨out, scopedGraph_ok.mpr ⟨root, hroot, hproject, hbranch, hclosure⟩, hs⟩

theorem scope_deletable {node : Node} (hnode : g.nodes.get node.id = some node) :
    (∃ out, scopedGraph g node.projectId node.id limit true = .ok out ∧ ∀ x, x ∈ out ↔ x ∈ s) ∧
        (∀ x ∈ s, x ≠ node.id → ∀ p ∈ g.projects.rows, p.rootNodeId ≠ some x) ↔
      (∃ out, validateClosure g node = .ok out ∧ ∀ x, x ∈ out ↔ x ∈ s) ∧ (s.card : Int) ≤ limit ∧
        g.BranchOf node.projectId node.branchId := by
  rw [scopedGraph_iff, validateClosure_iff]
  constructor
  · rintro ⟨⟨⟨root, hroot, -, hbranch, htree⟩, htop, hsize⟩, hbelow⟩
    cases hnode.symm.trans hroot
    exact ⟨⟨htree, htop, hbelow⟩, hsize, hbranch⟩
  · rintro ⟨⟨htree, htop, hbelow⟩, hsize, hbranch⟩
    exact ⟨⟨⟨node, hnode, rfl, hbranch, htree⟩, htop, hsize⟩, hbelow⟩

end Scopes

/-- `validated_scoped_graph` ends, returns exactly the scopes, and accepts what a deletion accepts, apart from the
size, the branch of the root and the roots of projects. -/
theorem scopedGraph_exact (g : Graph) (limit : Int) :
    (∀ projectId rootId external root, g.nodes.get rootId = some root → ∀ n, g.edges.rows.length + 2 ≤ n →
      closureLevels (scopeRules projectId root.branchId limit external) g n [rootId] [rootId] [] =
        closureLevels (scopeRules projectId root.branchId limit external) g (g.edges.rows.length + 2) [rootId] [rootId] []) ∧
    (∀ projectId rootId external s, (∃ out, scopedGraph g projectId rootId limit external = .ok out ∧ ∀ x, x ∈ out ↔ x ∈ s) ↔
      g.Scope projectId rootId limit external s) ∧
    ∀ node (s : Finset String), g.nodes.get node.id = some node →
      ((∃ out, scopedGraph g node.projectId node.id limit true = .ok out ∧ ∀ x, x ∈ out ↔ x ∈ s) ∧
          (∀ x ∈ s, x ≠ node.id → ∀ p ∈ g.projects.rows, p.rootNodeId ≠ some x) ↔
        (∃ out, validateClosure g node = .ok out ∧ ∀ x, x ∈ out ↔ x ∈ s) ∧ (s.card : Int) ≤ limit ∧
          g.BranchOf node.projectId node.branchId) := by
  refine ⟨?_, ?_, ?_⟩
  · intro projectId rootId external root _ n hn
    exact closureLevels_ends _ g rootId hn
  · intro projectId rootId external s
    exact scopedGraph_iff
  · intro node s hnode
    exact scope_deletable hnode

/-! What is not a scope -/

/-- A scope, but for where the edge into its root is from, and for the project of its branch. -/
structure Graph.LooseScope (g : Graph) (projectId rootId : String) (limit : Int) (external : Bool) (s : Finset String) :
    Prop where
  reach : ∀ x, x ∈ s ↔ ReflTransGen (fun a b => b ∈ g.children a) rootId x
  root : ∃ root, g.nodes.get rootId = some root ∧ (∀ b, root.branchId = some b → (g.branches.get b).isSome = true) ∧
    (∀ x ∈ s, g.Inside projectId root.branchId x) ∧
    ∀ x ∈ s, ∀ e ∈ g.parentEdges x, e.projectId = projectId ∧ g.Inside projectId root.branchId e.fromNodeId
  single : ∀ x ∈ s, x ≠ rootId → (g.parentEdges x).length = 1
  top : (g.parentEdges rootId).length ≤ if external then 1 else 0
  size : (s.card : Int) ≤ limit

namespace Malformed

def node (id : String) (branchId : Option String) : Node := ⟨id, "p", branchId, NodeField.default, "human", "human", 1⟩

def edge (id a b : String) : Edge := ⟨id, "p", a, b, "child_of", 1, "", false, 1⟩

def project (id : String) : Project := ⟨id, none, fun _ => .text "", 1⟩

/-- A node and its child, with an edge back to the node. -/
def looped : Graph :=
  { Graph.empty with
    projects := ⟨[project "p"], by decide⟩,
    nodes := ⟨[node "r" none, node "a" none], by decide⟩,
    edges := ⟨[edge "e" "r" "a", edge "f" "a" "r"], by decide⟩ }

/-- A node in a branch of another project. -/
def astray : Graph :=
  { Graph.empty with
    projects := ⟨[project "p", project "q"], by decide⟩,
    nodes := ⟨[node "r" (some "b")], by decide⟩,
    branches := ⟨[⟨"b", "q", "b", "", none, .active, 1⟩], by decide⟩ }

theorem looped_loose : looped.LooseScope "p" "r" 5000 true {"r", "a"} where
  reach := by
    have hr : looped.children "r" = ["a"] := by decide
    have ha : looped.children "a" = ["r"] := by decide
    intro x
    rw [Finset.mem_insert, Finset.mem_singleton]
    constructor
    · rintro (rfl | rfl)
      · exact .refl
      · exact .single (by rw [hr]; exact List.mem_cons_self)
    · intro hx
      induction hx with
      | refl => exact .inl rfl
      | tail _ hstep ih =>
        rcases ih with rfl | rfl
        · rw [hr, List.mem_singleton] at hstep
          exact .inr hstep
        · rw [ha, List.mem_singleton] at hstep
          exact .inl hstep
  root := by
    have hin : ∀ x ∈ ({"r", "a"} : Finset String), looped.Inside "p" none x := by
      intro x hx
      rw [Finset.mem_insert, Finset.mem_singleton] at hx
      rcases hx with rfl | rfl
      · exact ⟨node "r" none, rfl, rfl, rfl⟩
      · exact ⟨node "a" none, rfl, rfl, rfl⟩
    have hends : ∀ e ∈ looped.edges.rows, e.projectId = "p" ∧ e.fromNodeId ∈ ({"r", "a"} : Finset String) := by decide
    refine ⟨node "r" none, rfl, nofun, hin, fun x _ e he => ?_⟩
    obtain ⟨hproject, hfrom⟩ := hends e (mem_parentEdges.mp he).1
    exact ⟨hproject, hin _ hfrom⟩
  single := by decide
  top := by decide
  size := by decide

/-- The edge back to the root is refused; and a node in a branch of another project may be deleted, but is no scope. -/
theorem scope_refused :
    ¬ ((∃ out, scopedGraph looped "p" "r" 5000 true = .ok out ∧ ∀ x, x ∈ out ↔ x ∈ ({"r", "a"} : Finset String)) ↔
      looped.LooseScope "p" "r" 5000 true {"r", "a"}) ∧
    (∃ out, validateClosure astray (node "r" (some "b")) = .ok out) ∧ ∀ out, scopedGraph astray "p" "r" 5000 true ≠ .ok out := by
  refine ⟨?_, ⟨["r"], by decide⟩, ?_⟩
  · intro h
    obtain ⟨out, hout, -⟩ := h.mpr looped_loose
    have hrefused : scopedGraph looped "p" "r" 5000 true =
        .error (malformed "Scope graph is not an exact project/branch tree") := by decide
    cases hrefused.symm.trans hout
  · intro out hout
    have hrefused : scopedGraph astray "p" "r" 5000 true = .error (malformed "Scope branch is outside its project") := by decide
    cases hrefused.symm.trans hout

end Malformed

end GrowthMap.Canon
