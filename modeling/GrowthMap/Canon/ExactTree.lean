import GrowthMap.Canon.Containment

/- Which closures of containment are trees.

   The walk goes down from its root level by level, and then looks at every edge into what it
   has found. It accepts exactly the trees: everything below the root is there once, under one
   parent, in one project and branch. The graph may be any, and the walk ends on every one. -/
namespace GrowthMap.Canon

open Relational Relation Forest Fallible

def Graph.Inside (g : Graph) (projectId : String) (branchId : Option String) (x : String) : Prop :=
  ∃ n, g.nodes.get x = some n ∧ n.projectId = projectId ∧ n.branchId = branchId

/-- The set is what containment leads to from the root, and a tree inside one project and branch. -/
structure Graph.TreeIn (g : Graph) (projectId : String) (branchId : Option String) (root : String) (s : Finset String) :
    Prop where
  reach : ∀ x, x ∈ s ↔ ReflTransGen (fun a b => b ∈ g.children a) root x
  inside : ∀ x ∈ s, g.Inside projectId branchId x
  /-- every edge into it is of the project, and from the project and the branch -/
  inbound : ∀ x ∈ s, ∀ e ∈ g.parentEdges x, e.projectId = projectId ∧ g.Inside projectId branchId e.fromNodeId
  single : ∀ x ∈ s, x ≠ root → (g.parentEdges x).length = 1
  outside : ∀ e ∈ g.parentEdges root, e.fromNodeId ∉ s

/-- What the rules of a walk ask of a tree besides. -/
structure ClosureRules.Admits (r : ClosureRules) (g : Graph) (root : String) (s : Finset String) : Prop where
  top : (g.parentEdges root).length ≤ r.rootParents
  free : ∀ x ∈ s, x ≠ root → r.forbidden x = false
  size : ∀ n ∈ r.limit, s.card ≤ n

variable {x : String} {e : Edge} {frontier out : List String} {es : List Edge}
  {parents parents' : List (String × String)} {n : Nat} {s : Finset String}

theorem ClosureRules.owns_iff_inside {r : ClosureRules} {g : Graph} :
    r.Owns g x ↔ g.Inside r.projectId r.branchId x := by
  simp only [ClosureRules.Owns, ClosureRules.own, decide_eq_true_eq, Graph.Inside]

theorem mem_parentEdges {g : Graph} :
    e ∈ g.parentEdges x ↔ e ∈ g.edges.rows ∧ e.isContainment = true ∧ e.toNodeId = x := by
  simp only [Graph.parentEdges, List.mem_filter, Bool.and_eq_true, decide_eq_true_eq]

theorem rows_nodup (g : Graph) : g.edges.rows.Nodup := g.edges.distinct.of_map _

variable {r : ClosureRules} {g : Graph} {root : String}

/-! Edges of a level -/

def levelEdges (g : Graph) (frontier : List String) : List Edge :=
  g.edges.rows.filter (fun e => e.isContainment && decide (e.fromNodeId ∈ frontier))

theorem mem_levelEdges :
    e ∈ levelEdges g frontier ↔ e ∈ g.edges.rows ∧ e.isContainment = true ∧ e.fromNodeId ∈ frontier := by
  simp only [levelEdges, List.mem_filter, Bool.and_eq_true, decide_eq_true_eq]

def Edge.link (e : Edge) : String × String := (e.toNodeId, e.fromNodeId)

theorem map_link_fst (es : List Edge) : (es.map Edge.link).map Prod.fst = es.map Edge.toNodeId := by
  rw [List.map_map]
  rfl

/-- An edge that leads to something new. -/
structure ClosureRules.Opens (r : ClosureRules) (g : Graph) (out : List String) (e : Edge) : Prop where
  new : e.toNodeId ∉ out
  project : e.projectId = r.projectId
  owns : r.Owns g e.toNodeId
  free : r.forbidden e.toNodeId = false

theorem closureEdges_iff (hnodup : (parents.map Prod.fst).Nodup) :
    closureEdges r g out es parents = .ok parents' ↔ parents' = parents ++ es.map Edge.link ∧
      ((parents ++ es.map Edge.link).map Prod.fst).Nodup ∧ ∀ e ∈ es, r.Opens g out e := by
  induction es generalizing parents with
  | nil =>
    simp only [closureEdges, Except.ok.injEq, List.map_nil, List.append_nil, List.not_mem_nil, false_implies, implies_true,
      and_true]
    exact ⟨fun h => ⟨h.symm, hnodup⟩, fun h => h.1.symm⟩
  | cons e es ih =>
    have hopens : ¬ (e.toNodeId ∈ parents.map Prod.fst ∨ e.toNodeId ∈ out ∨ e.projectId ≠ r.projectId ∨
        (g.nodes.get e.toNodeId).all (fun n => !r.own n) = true ∨ r.forbidden e.toNodeId = true) ↔
        e.toNodeId ∉ parents.map Prod.fst ∧ r.Opens g out e := by
      rw [not_or, not_or, not_or, not_or, not_ne_iff, Bool.not_eq_true, Bool.not_eq_true, ← ClosureRules.owns_iff]
      exact and_congr_right fun _ => ⟨fun ⟨h₁, h₂, h₃, h₄⟩ => ⟨h₁, h₂, h₃, h₄⟩, fun ⟨h₁, h₂, h₃, h₄⟩ => ⟨h₁, h₂, h₃, h₄⟩⟩
    rw [closureEdges, guard_eq_ok, hopens]
    have hsnoc : parents ++ (e :: es).map Edge.link = (parents ++ [e.link]) ++ es.map Edge.link := by
      rw [List.map_cons, List.append_assoc, List.singleton_append]
    have hkeys : ((parents ++ [e.link]).map Prod.fst).Nodup ↔ e.toNodeId ∉ parents.map Prod.fst := by
      rw [List.map_append, List.nodup_append]
      simp only [List.map_cons, List.map_nil, List.nodup_singleton, List.mem_singleton, true_and, hnodup, Edge.link]
      exact ⟨fun h hmem => h _ hmem _ rfl rfl, fun h a ha b hb hab => h (hb ▸ hab ▸ ha)⟩
    constructor
    · rintro ⟨⟨hnew, hopen⟩, h⟩
      obtain ⟨rfl, hnodup', hall⟩ := (ih (hkeys.mpr hnew)).mp h
      exact ⟨hsnoc.symm, hsnoc ▸ hnodup', List.forall_mem_cons.mpr ⟨hopen, hall⟩⟩
    · rintro ⟨rfl, hnodup', hall⟩
      obtain ⟨hopen, hall⟩ := List.forall_mem_cons.mp hall
      rw [hsnoc] at hnodup'
      have hfirst : ((parents ++ [e.link]).map Prod.fst).Nodup := by
        rw [List.map_append] at hnodup'
        exact (List.nodup_append.mp hnodup').1
      exact ⟨⟨hkeys.mp hfirst, hopen⟩, (ih hfirst).mpr ⟨hsnoc, hnodup', hall⟩⟩

/-! Levels -/

/-- What the walk knows before a level: everything found has the edge it was found by, and all
edges out of what is above the level were taken. -/
structure Level (r : ClosureRules) (g : Graph) (root : String) (frontier out : List String)
    (parents : List (String × String)) : Prop where
  links : out = root :: parents.map Prod.fst
  nodup : out.Nodup
  sub : ∀ x ∈ frontier, x ∈ out
  found : ∀ l ∈ parents, l.2 ∈ out ∧ l.2 ∉ frontier ∧
    ∃ e ∈ g.edges.rows, e.isContainment = true ∧ e.link = l ∧ r.forbidden e.toNodeId = false
  taken : ∀ e ∈ g.edges.rows, e.isContainment = true → e.fromNodeId ∈ out → e.fromNodeId ∉ frontier → e.link ∈ parents
  owned : ∀ x ∈ out, x ∉ frontier → r.Owns g x
  reached : ∀ x ∈ out, ReflTransGen (fun a b => b ∈ g.children a) root x

theorem level_start (r : ClosureRules) (g : Graph) (root : String) : Level r g root [root] [root] [] where
  links := rfl
  nodup := List.nodup_singleton root
  sub := fun _ hx => hx
  found := fun _ hl => absurd hl List.not_mem_nil
  taken := fun _ _ _ hin hnot => absurd hin hnot
  owned := fun _ hx hnot => absurd hx hnot
  reached := by
    intro x hx
    rw [List.mem_singleton.mp hx]

section Level

variable {frontier out : List String} {parents parents' : List (String × String)} (h : Level r g root frontier out parents)
include h

theorem Level.keys : (parents.map Prod.fst).Nodup := (List.nodup_cons.mp (h.links ▸ h.nodup)).2

theorem Level.length_le : parents.length ≤ g.edges.rows.length := by
  have hsub : parents.map Prod.fst ⊆ g.edges.rows.map Edge.toNodeId := by
    intro x hx
    obtain ⟨l, hl, rfl⟩ := List.mem_map.mp hx
    obtain ⟨-, -, e, he, -, rfl, -⟩ := h.found l hl
    exact List.mem_map_of_mem he
  have hle := (List.subperm_of_subset h.keys hsub).length_le
  rwa [List.length_map, List.length_map] at hle

/-- A level is done, and its targets are the next one. -/
theorem Level.next (hfrontier : ∀ x ∈ frontier, r.Owns g x)
    (hedges : closureEdges r g out (levelEdges g frontier) parents = .ok parents') :
    parents' = parents ++ (levelEdges g frontier).map Edge.link ∧
      Level r g root ((levelEdges g frontier).map Edge.toNodeId) (out ++ (levelEdges g frontier).map Edge.toNodeId) parents' := by
  obtain ⟨rfl, hnodup, hopens⟩ := (closureEdges_iff h.keys).mp hedges
  have hkeys : (parents ++ (levelEdges g frontier).map Edge.link).map Prod.fst =
      parents.map Prod.fst ++ (levelEdges g frontier).map Edge.toNodeId := by rw [List.map_append, map_link_fst]
  have hnew : ∀ x ∈ (levelEdges g frontier).map Edge.toNodeId, x ∉ out := by
    intro x hx
    obtain ⟨e, he, rfl⟩ := List.mem_map.mp hx
    exact (hopens e he).new
  refine ⟨rfl, ?_, ?_, fun x hx => List.mem_append_right _ hx, ?_, ?_, ?_, ?_⟩
  · rw [hkeys, h.links, List.cons_append]
  · rw [List.nodup_append]
    refine ⟨h.nodup, ?_, fun a ha b hb hab => hnew b hb (hab ▸ ha)⟩
    rw [hkeys] at hnodup
    exact (List.nodup_append.mp hnodup).2.1
  · intro l hl
    rcases List.mem_append.mp hl with hl | hl
    · obtain ⟨hin, -, hedge⟩ := h.found l hl
      exact ⟨List.mem_append_left _ hin, fun hmem => hnew _ hmem hin, hedge⟩
    · obtain ⟨e, he, rfl⟩ := List.mem_map.mp hl
      obtain ⟨hrow, hc, hfrom⟩ := mem_levelEdges.mp he
      exact ⟨List.mem_append_left _ (h.sub _ hfrom), fun hmem => hnew _ hmem (h.sub _ hfrom), e, hrow, hc, rfl, (hopens e he).free⟩
  · intro e he hc hin hnot
    have hout : e.fromNodeId ∈ out := (List.mem_append.mp hin).resolve_right hnot
    by_cases hf : e.fromNodeId ∈ frontier
    · exact List.mem_append_right _ (List.mem_map_of_mem (mem_levelEdges.mpr ⟨he, hc, hf⟩))
    · exact List.mem_append_left _ (h.taken e he hc hout hf)
  · intro x hx hnot
    have hout : x ∈ out := (List.mem_append.mp hx).resolve_right hnot
    by_cases hf : x ∈ frontier
    · exact hfrontier x hf
    · exact h.owned x hout hf
  · intro x hx
    rcases List.mem_append.mp hx with hx | hx
    · exact h.reached x hx
    · obtain ⟨e, he, rfl⟩ := List.mem_map.mp hx
      obtain ⟨hrow, hc, hfrom⟩ := mem_levelEdges.mp he
      exact (h.reached _ (h.sub _ hfrom)).tail (mem_children.mpr (mem_arcs.mpr ⟨e, hrow, hc, rfl, rfl⟩))

end Level

/-! Whole walks -/

theorem closureLevels_succ (n : Nat) (hne : frontier ≠ []) :
    closureLevels r g (n + 1) frontier out parents =
      if frontier.any (fun x => (g.nodes.get x).all (fun n => !r.own n)) then .error r.source
      else (do
        let parents ← closureEdges r g out (levelEdges g frontier) parents
        let targets := (levelEdges g frontier).map Edge.toNodeId
        let out := out ++ targets
        if r.limit.any (fun limit => decide (limit < out.length)) then .error r.tooLarge
        else closureLevels r g n targets out parents) := by
  rw [closureLevels, if_neg (by simpa using hne)]
  rfl

theorem closureLevels_done (n : Nat) :
    closureLevels r g (n + 1) [] out parents = .ok (out, parents) := rfl

theorem sources_iff :
    ¬ frontier.any (fun x => (g.nodes.get x).all (fun n => !r.own n)) = true ↔ ∀ x ∈ frontier, r.Owns g x := by
  simp only [List.any_eq_true, not_exists, not_and, Bool.not_eq_true, ← ClosureRules.owns_iff]

/-- The fuel is enough for the levels that are left: each of them but the last finds something. -/
def Enough (g : Graph) (n : Nat) (frontier : List String) (parents : List (String × String)) : Prop :=
  1 ≤ n ∧ (frontier ≠ [] → g.edges.rows.length + 2 ≤ n + parents.length)

theorem Enough.next
    (h : Enough g (n + 1) frontier parents) (hne : frontier ≠ []) (hnext : Level r g root (es.map Edge.toNodeId) out parents')
    (hparents : parents' = parents ++ es.map Edge.link) : Enough g n (es.map Edge.toNodeId) parents' := by
  have hle := hnext.length_le
  have hlength : parents'.length = parents.length + es.length := by rw [hparents, List.length_append, List.length_map]
  have henough := h.2 hne
  refine ⟨by omega, fun hsome => ?_⟩
  have hpos : 0 < es.length := List.length_pos_iff.mpr (fun hnil => hsome (by rw [hnil]; rfl))
  omega

theorem closureLevels_fuel
    (h : Level r g root frontier out parents) (henough : Enough g n frontier parents) :
    closureLevels r g (n + 1) frontier out parents = closureLevels r g n frontier out parents := by
  induction n generalizing frontier out parents with
  | zero => exact absurd henough.1 (by omega)
  | succ n ih =>
    by_cases hne : frontier = []
    · subst hne
      rw [closureLevels_done, closureLevels_done]
    · rw [closureLevels_succ _ hne, closureLevels_succ _ hne]
      split
      · rfl
      · rename_i hsources
        cases hedges : closureEdges r g out (levelEdges g frontier) parents with
        | error => rfl
        | ok =>
          obtain ⟨hparents, hnext⟩ := h.next (sources_iff.mp hsources) hedges
          simp only [ok_bind]
          rw [ih hnext (henough.next hne hnext hparents)]

theorem closureLevels_ends (r : ClosureRules) (g : Graph) (root : String) (hn : g.edges.rows.length + 2 ≤ n) :
    closureLevels r g n [root] [root] [] = closureLevels r g (g.edges.rows.length + 2) [root] [root] [] := by
  induction n, hn using Nat.le_induction with
  | base => rfl
  | succ n hn ih =>
    rw [← ih]
    exact closureLevels_fuel (level_start r g root) ⟨by omega, fun _ => by rw [List.length_nil]; omega⟩

theorem closureLevels_level {out' : List String}
    (h : Level r g root frontier out parents) (hlimit : frontier = [] → ∀ limit ∈ r.limit, out.length ≤ limit)
    (hwalk : closureLevels r g n frontier out parents = .ok (out', parents')) :
    Level r g root [] out' parents' ∧ ∀ limit ∈ r.limit, out'.length ≤ limit := by
  induction n generalizing frontier out parents with
  | zero => cases hwalk
  | succ n ih =>
    by_cases hne : frontier = []
    · subst hne
      cases hwalk
      exact ⟨h, hlimit rfl⟩
    · rw [closureLevels_succ _ hne] at hwalk
      obtain ⟨hsources, hwalk⟩ := guard_ok hwalk
      obtain ⟨parents₁, hedges, hwalk⟩ := bind_ok hwalk
      obtain ⟨hsize, hwalk⟩ := guard_ok hwalk
      refine ih (h.next (sources_iff.mp hsources) hedges).2 (fun _ limit hmem => ?_) hwalk
      rw [Option.mem_def] at hmem
      rw [hmem, Option.any_some, decide_eq_true_eq, not_lt] at hsize
      exact hsize

/-! Edges into what was found -/

theorem closureOwners_iff (hroot : root ∈ out) :
    closureOwners r g root out parents = .ok () ↔
      (∀ x ∈ out, ∀ e ∈ g.parentEdges x, e.projectId = r.projectId ∧ r.Owns g e.fromNodeId) ∧
      (g.parentEdges root).length ≤ r.rootParents ∧
      ∀ x ∈ out, x ≠ root → ∃ e, g.parentEdges x = [e] ∧ parents.lookup x = some e.fromNodeId := by
  have hinto : ∀ x ∈ out, (g.edges.rows.filter (fun e => e.isContainment && decide (e.toNodeId ∈ out))).filter
      (fun e => decide (e.toNodeId = x)) = g.parentEdges x := by
    intro x hx
    rw [List.filter_filter, Graph.parentEdges]
    apply List.filter_congr
    intro e _
    by_cases he : e.toNodeId = x
    · simp [he, hx]
    · simp [he]
  have hinbound : ¬ (g.edges.rows.filter (fun e => e.isContainment && decide (e.toNodeId ∈ out))).any (fun e =>
      decide (e.projectId ≠ r.projectId) || (g.nodes.get e.fromNodeId).all (fun n => !r.own n)) = true ↔
      ∀ x ∈ out, ∀ e ∈ g.parentEdges x, e.projectId = r.projectId ∧ r.Owns g e.fromNodeId := by
    simp only [List.any_eq_true, List.mem_filter, Bool.and_eq_true, decide_eq_true_eq, Bool.or_eq_true, not_exists, not_and,
      not_or, not_not, Bool.not_eq_true, ← ClosureRules.owns_iff, mem_parentEdges]
    constructor
    · rintro h x hx e ⟨he, hc, rfl⟩
      exact h e ⟨he, hc, hx⟩
    · rintro h e ⟨he, hc, hx⟩
      exact h e.toNodeId hx e ⟨he, hc, rfl⟩
  unfold closureOwners
  simp only
  rw [guard_eq_ok, hinbound, guard_eq_ok, hinto root hroot, not_lt, guard_eq_ok]
  refine and_congr_right fun _ => and_congr_right fun _ => ?_
  simp only [and_true, List.any_eq_true, not_exists, not_and]
  refine forall₂_congr fun x hx => ?_
  rw [hinto x hx, Bool.and_eq_true, decide_eq_true_eq, not_and]
  refine imp_congr_right fun _ => ?_
  cases g.parentEdges x with
  | nil => simp
  | cons e more =>
    cases more with
    | nil => simp
    | cons => simp

/-! Trees -/

theorem Graph.TreeIn.edge_unique {p : String} {b : Option String} (h : g.TreeIn p b root s) {e' : Edge}
    (hin : e.toNodeId ∈ s) (hroot : e.toNodeId ≠ root) (he : e ∈ g.parentEdges e.toNodeId)
    (he' : e' ∈ g.parentEdges e.toNodeId) : e = e' := by
  obtain ⟨a, ha⟩ := List.length_eq_one_iff.mp (h.single _ hin hroot)
  rw [ha, List.mem_singleton] at he he'
  rw [he, he']

/-- What a walk accepts is a tree. -/
theorem closure_tree (h : closure r g root = .ok out) :
    out.Nodup ∧ g.TreeIn r.projectId r.branchId root out.toFinset ∧ r.Admits g root out.toFinset := by
  obtain ⟨⟨out', parents⟩, hwalk, h⟩ := bind_ok h
  obtain ⟨_, howners, h⟩ := bind_ok h
  cases h
  obtain ⟨hlevel, hsize⟩ := closureLevels_level (level_start r g root) (fun hnil => by cases hnil) hwalk
  have hroot : root ∈ out := by
    rw [hlevel.links]
    exact List.mem_cons_self
  obtain ⟨hinbound, htop, hsingle⟩ := (closureOwners_iff hroot).mp howners
  have hkey : ∀ e ∈ g.edges.rows, e.isContainment = true → e.fromNodeId ∈ out → e.toNodeId ∈ parents.map Prod.fst :=
    fun e he hc hfrom => List.mem_map.mpr ⟨e.link, hlevel.taken e he hc hfrom List.not_mem_nil, rfl⟩
  refine ⟨hlevel.nodup, ⟨?_, ?_, ?_, ?_, ?_⟩, ⟨htop, ?_, ?_⟩⟩
  · intro x
    rw [List.mem_toFinset]
    constructor
    · exact hlevel.reached x
    · intro hx
      induction hx with
      | refl => exact hroot
      | tail _ hstep ih =>
        obtain ⟨e, he, hc, rfl, rfl⟩ := mem_arcs.mp (mem_children.mp hstep)
        rw [hlevel.links]
        exact List.mem_cons_of_mem _ (hkey e he hc ih)
  · intro x hx
    exact ClosureRules.owns_iff_inside.mp (hlevel.owned x (List.mem_toFinset.mp hx) List.not_mem_nil)
  · intro x hx e he
    obtain ⟨hproject, howns⟩ := hinbound x (List.mem_toFinset.mp hx) e he
    exact ⟨hproject, ClosureRules.owns_iff_inside.mp howns⟩
  · intro x hx hne
    obtain ⟨e, he, -⟩ := hsingle x (List.mem_toFinset.mp hx) hne
    rw [he, List.length_singleton]
  · intro e he hin
    obtain ⟨hrow, hc, hto⟩ := mem_parentEdges.mp he
    have hmem := hkey e hrow hc (List.mem_toFinset.mp hin)
    rw [hto] at hmem
    exact (List.nodup_cons.mp (hlevel.links ▸ hlevel.nodup)).1 hmem
  · intro x hx hne
    rw [List.mem_toFinset, hlevel.links] at hx
    obtain ⟨l, hl, rfl⟩ := List.mem_map.mp ((List.mem_cons.mp hx).resolve_left hne)
    obtain ⟨-, -, e, -, -, rfl, hfree⟩ := hlevel.found l hl
    exact hfree
  · intro n hn
    rw [List.toFinset_card_of_nodup hlevel.nodup]
    exact hsize n hn

section Accepts

variable {s : Finset String} (htree : g.TreeIn r.projectId r.branchId root s) (hadmits : r.Admits g root s)
include htree hadmits

/-- A level of a tree is taken. -/
theorem Level.accepted (h : Level r g root frontier out parents) (hout : ∀ x ∈ out, x ∈ s) :
    closureEdges r g out (levelEdges g frontier) parents = .ok (parents ++ (levelEdges g frontier).map Edge.link) := by
  have hto : ∀ e ∈ levelEdges g frontier, e.toNodeId ∈ s := by
    intro e he
    obtain ⟨hrow, hc, hfrom⟩ := mem_levelEdges.mp he
    exact (htree.reach _).mpr ((h.reached _ (h.sub _ hfrom)).tail (mem_children.mpr (mem_arcs.mpr ⟨e, hrow, hc, rfl, rfl⟩)))
  have hinto : ∀ e ∈ levelEdges g frontier, e ∈ g.parentEdges e.toNodeId := by
    intro e he
    obtain ⟨hrow, hc, -⟩ := mem_levelEdges.mp he
    exact mem_parentEdges.mpr ⟨hrow, hc, rfl⟩
  have hroot : ∀ e ∈ levelEdges g frontier, e.toNodeId ≠ root := by
    intro e he heq
    have hfrom := (mem_levelEdges.mp he).2.2
    exact htree.outside e (heq ▸ hinto e he) (hout _ (h.sub _ hfrom))
  -- a target that was found before was found by an edge from above this level
  have hnew : ∀ e ∈ levelEdges g frontier, e.toNodeId ∉ out := by
    intro e he hmem
    rw [h.links] at hmem
    obtain ⟨l, hl, heq⟩ := List.mem_map.mp ((List.mem_cons.mp hmem).resolve_left (hroot e he))
    obtain ⟨-, hnot, e', hrow, hc, rfl, -⟩ := h.found l hl
    have hsame : e = e' :=
      htree.edge_unique (hto e he) (hroot e he) (hinto e he) (mem_parentEdges.mpr ⟨hrow, hc, heq⟩)
    subst hsame
    exact hnot (mem_levelEdges.mp he).2.2
  refine (closureEdges_iff h.keys).mpr ⟨rfl, ?_, ?_⟩
  · rw [List.map_append, map_link_fst, List.nodup_append]
    refine ⟨h.keys, ?_, ?_⟩
    · refine List.Nodup.map_on ?_ ((rows_nodup g).filter _)
      intro e he e' he' heq
      exact htree.edge_unique (hto e he) (hroot e he) (hinto e he) (heq ▸ hinto e' he')
    · intro a ha b hb hab
      obtain ⟨e, he, rfl⟩ := List.mem_map.mp hb
      refine hnew e he ?_
      rw [h.links, ← hab]
      exact List.mem_cons_of_mem _ ha
  · intro e he
    exact ⟨hnew e he, (htree.inbound _ (hto e he) e (hinto e he)).1, ClosureRules.owns_iff_inside.mpr (htree.inside _ (hto e he)),
      hadmits.free _ (hto e he) (hroot e he)⟩

theorem closureLevels_accepts
    (h : Level r g root frontier out parents) (hout : ∀ x ∈ out, x ∈ s) (henough : Enough g n frontier parents) :
    ∃ out' parents', closureLevels r g n frontier out parents = .ok (out', parents') := by
  induction n generalizing frontier out parents with
  | zero => exact absurd henough.1 (by omega)
  | succ n ih =>
    by_cases hne : frontier = []
    · subst hne
      exact ⟨out, parents, rfl⟩
    · have hedges := h.accepted htree hadmits hout
      have hfrontier : ∀ x ∈ frontier, r.Owns g x :=
        fun x hx => ClosureRules.owns_iff_inside.mpr (htree.inside x (hout x (h.sub x hx)))
      obtain ⟨-, hnext⟩ := h.next hfrontier hedges
      have hout' : ∀ x ∈ out ++ (levelEdges g frontier).map Edge.toNodeId, x ∈ s :=
        fun x hx => (htree.reach x).mpr (hnext.reached x hx)
      have hsize : ¬ r.limit.any (fun limit => decide (limit < (out ++ (levelEdges g frontier).map Edge.toNodeId).length)) = true := by
        rw [Option.any_eq_true]
        rintro ⟨limit, hlimit, hlt⟩
        have hcard : (out ++ (levelEdges g frontier).map Edge.toNodeId).toFinset.card ≤ s.card :=
          Finset.card_le_card fun x hx => hout' x (List.mem_toFinset.mp hx)
        rw [List.toFinset_card_of_nodup hnext.nodup] at hcard
        have hle := hadmits.size limit hlimit
        rw [decide_eq_true_eq] at hlt
        omega
      rw [closureLevels_succ _ hne, if_neg (sources_iff.mpr hfrontier), hedges]
      simp only [ok_bind]
      rw [if_neg hsize]
      exact ih hnext hout' (henough.next hne hnext rfl)

/-- Every tree is accepted. -/
theorem closure_accepts : ∃ out, closure r g root = .ok out := by
  have henough : Enough g (g.edges.rows.length + 2) [root] [] := ⟨by omega, fun _ => Nat.le_refl _⟩
  have hroot : root ∈ s := (htree.reach root).mpr .refl
  obtain ⟨out, parents, hwalk⟩ := closureLevels_accepts htree hadmits (level_start r g root)
    (fun x hx => by rwa [List.mem_singleton.mp hx]) henough
  obtain ⟨hlevel, -⟩ := closureLevels_level (level_start r g root) (fun hnil => by cases hnil) hwalk
  have hout : ∀ x ∈ out, x ∈ s := fun x hx => (htree.reach x).mpr (hlevel.reached x hx)
  have howners : closureOwners r g root out parents = .ok () := by
    refine (closureOwners_iff (by rw [hlevel.links]; exact List.mem_cons_self)).mpr ⟨?_, hadmits.top, ?_⟩
    · intro x hx e he
      obtain ⟨hproject, hinside⟩ := htree.inbound x (hout x hx) e he
      exact ⟨hproject, ClosureRules.owns_iff_inside.mpr hinside⟩
    · intro x hx hne
      have hmem := hx
      rw [hlevel.links] at hmem
      obtain ⟨l, hl, rfl⟩ := List.mem_map.mp ((List.mem_cons.mp hmem).resolve_left hne)
      obtain ⟨q, hq⟩ := Option.isSome_iff_exists.mp (List.lookup_isSome_iff.mpr ⟨l, hl, beq_self_eq_true _⟩)
      obtain ⟨before, after, heq, -⟩ := List.lookup_eq_some_iff.mp hq
      obtain ⟨-, -, e, hrow, hc, hlink, -⟩ := hlevel.found (l.1, q) (by rw [heq]; simp)
      obtain ⟨hto, hfrom⟩ := Prod.mk.inj hlink
      obtain ⟨a, ha⟩ := List.length_eq_one_iff.mp (htree.single _ (hout _ hx) hne)
      have hsame : e = a := by
        have hin : e ∈ g.parentEdges l.1 := mem_parentEdges.mpr ⟨hrow, hc, hto⟩
        rwa [ha, List.mem_singleton] at hin
      subst hsame
      exact ⟨e, ha, by rw [hq, hfrom]⟩
  refine ⟨out, ?_⟩
  rw [closure, hwalk]
  simp only [ok_bind, howners]
  rfl

end Accepts

theorem closure_iff : (∃ out, closure r g root = .ok out ∧ ∀ x, x ∈ out ↔ x ∈ s) ↔
    g.TreeIn r.projectId r.branchId root s ∧ r.Admits g root s := by
  constructor
  · rintro ⟨out, h, hs⟩
    have hout : out.toFinset = s := by
      ext x
      rw [List.mem_toFinset, hs]
    exact hout ▸ (closure_tree h).2
  · rintro ⟨htree, hadmits⟩
    obtain ⟨out, h⟩ := closure_accepts htree hadmits
    refine ⟨out, h, fun x => ?_⟩
    rw [htree.reach, ← (closure_tree h).2.1.reach, List.mem_toFinset]

end GrowthMap.Canon
