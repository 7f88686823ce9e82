import GrowthMap.Canon.Effects

/- The walk over a containment closure: what it returns, and what it depends on. -/
namespace GrowthMap.Canon

open Relational Fallible

/-- The node is there, in the project and branch of the closure. -/
def ClosureRules.Owns (r : ClosureRules) (g : Graph) (x : String) : Prop := ∃ n, g.nodes.get x = some n ∧ r.own n = true

variable {x : String} {out frontier out' : List String} {parents parents' : List (String × String)}

theorem ClosureRules.Owns.has {r : ClosureRules} {g : Graph} (h : r.Owns g x) : g.Has r.projectId x := by
  obtain ⟨n, hn, hown⟩ := h
  simp only [ClosureRules.own, decide_eq_true_eq] at hown
  exact ⟨n, hn, hown.1⟩

theorem ClosureRules.owns_iff {r : ClosureRules} {g : Graph} :
    r.Owns g x ↔ (g.nodes.get x).all (fun n => !r.own n) = false := by
  cases hn : g.nodes.get x with
  | none => simp [ClosureRules.Owns, hn]
  | some => simp [ClosureRules.Owns, hn]

variable {r : ClosureRules} {g : Graph}

theorem closureEdges_ok {es : List Edge} (h : closureEdges r g out es parents = .ok parents') :
    ∀ e ∈ es, r.Owns g e.toNodeId ∧ r.forbidden e.toNodeId = false ∧ e.toNodeId ∉ out := by
  induction es generalizing parents with
  | nil => simp
  | cons e es ih =>
    obtain ⟨hno, h⟩ := guard_ok h
    intro x hx
    rcases List.mem_cons.mp hx with rfl | hx
    · refine ⟨ClosureRules.owns_iff.mpr ?_, ?_, ?_⟩
      · simpa using fun hall => hno (.inr (.inr (.inr (.inl hall))))
      · simpa using fun hforbidden => hno (.inr (.inr (.inr (.inr hforbidden))))
      · exact fun hout => hno (.inr (.inl hout))
    · exact ih h x hx

def Closed (g : Graph) (out : List String) : Prop :=
  ∀ e ∈ g.edges.rows, e.isContainment = true → e.fromNodeId ∈ out → e.toNodeId ∈ out

theorem closureLevels_ok {n : Nat}
    (hsub : ∀ x ∈ frontier, x ∈ out) (hown : ∀ x ∈ out, x ∉ frontier → r.Owns g x)
    (hclosed : ∀ e ∈ g.edges.rows, e.isContainment = true → e.fromNodeId ∈ out → e.fromNodeId ∉ frontier → e.toNodeId ∈ out)
    (h : closureLevels r g n frontier out parents = .ok (out', parents')) :
    (∀ x ∈ out, x ∈ out') ∧ (∀ x ∈ out', r.Owns g x) ∧ Closed g out' := by
  induction n generalizing frontier out parents with
  | zero => cases h
  | succ n ih =>
    unfold closureLevels at h
    by_cases hempty : frontier.isEmpty = true
    · rw [if_pos hempty] at h
      cases h
      have hnil : frontier = [] := List.isEmpty_iff.mp hempty
      subst hnil
      exact ⟨fun _ hx => hx, fun x hx => hown x hx (by simp), fun e he hc hf => hclosed e he hc hf (by simp)⟩
    · rw [if_neg hempty] at h
      obtain ⟨hsources, h⟩ := guard_ok h
      obtain ⟨parents₁, hedges, h⟩ := bind_ok h
      obtain ⟨-, h⟩ := guard_ok h
      have hfrontier : ∀ x ∈ frontier, r.Owns g x := by
        intro x hx
        rw [ClosureRules.owns_iff]
        have hall := hsources
        simp only [List.any_eq_true, not_exists, not_and] at hall
        simpa using hall x hx
      have hchild := closureEdges_ok hedges
      -- the next level: its targets are new, what was before is done
      have hdone : ∀ e ∈ g.edges.rows, e.isContainment = true → e.fromNodeId ∈ out →
          e.toNodeId ∈ out ∨ e.toNodeId ∈ (g.edges.rows.filter
            (fun e => e.isContainment && decide (e.fromNodeId ∈ frontier))).map Edge.toNodeId := by
        intro e he hc hf
        by_cases hin : e.fromNodeId ∈ frontier
        · exact .inr (List.mem_map.mpr ⟨e, List.mem_filter.mpr ⟨he, by simp [hc, hin]⟩, rfl⟩)
        · exact .inl (hclosed e he hc hf hin)
      obtain ⟨hkeep, hall, hcl⟩ := ih
        (fun x hx => List.mem_append_right _ hx)
        (fun x hx hnot => by
          rcases List.mem_append.mp hx with hx | hx
          · by_cases hin : x ∈ frontier
            · exact hfrontier x hin
            · exact hown x hx hin
          · exact absurd hx hnot)
        (fun e he hc hf hnot => by
          rcases List.mem_append.mp hf with hf | hf
          · exact List.mem_append.mpr (hdone e he hc hf)
          · exact absurd hf hnot)
        h
      exact ⟨fun x hx => hkeep x (List.mem_append_left _ hx), hall, hcl⟩

theorem closureLevels_free {n : Nat}
    (h : closureLevels r g n frontier out parents = .ok (out', parents')) :
    ∀ x ∈ out', x ∈ out ∨ r.forbidden x = false := by
  induction n generalizing frontier out parents with
  | zero => cases h
  | succ n ih =>
    unfold closureLevels at h
    split at h
    · cases h
      exact fun x hx => .inl hx
    · obtain ⟨-, h⟩ := guard_ok h
      obtain ⟨parents₁, hedges, h⟩ := bind_ok h
      obtain ⟨-, h⟩ := guard_ok h
      intro x hx
      rcases ih h x hx with hx | hx
      · rcases List.mem_append.mp hx with hx | hx
        · exact .inl hx
        · obtain ⟨e, he, rfl⟩ := List.mem_map.mp hx
          exact .inr (closureEdges_ok hedges e he).2.1
      · exact .inr hx

variable {root : String}

theorem closure_free (h : closure r g root = .ok out) :
    ∀ x ∈ out, x = root ∨ r.forbidden x = false := by
  obtain ⟨⟨out', parents⟩, hlevels, h⟩ := bind_ok h
  obtain ⟨_, -, h⟩ := bind_ok h
  cases h
  intro x hx
  rcases closureLevels_free hlevels x hx with hx | hx
  · exact .inl (List.mem_singleton.mp hx)
  · exact .inr hx

theorem closure_ok (h : closure r g root = .ok out) :
    root ∈ out ∧ (∀ x ∈ out, r.Owns g x) ∧ Closed g out := by
  obtain ⟨⟨out', parents⟩, hlevels, h⟩ := bind_ok h
  obtain ⟨_, -, h⟩ := bind_ok h
  cases h
  obtain ⟨hkeep, hown, hclosed⟩ := closureLevels_ok (by simp) (by simp)
    (fun e _ _ hf hnot => absurd hf hnot) hlevels
  exact ⟨hkeep root (by simp), hown, hclosed⟩

end GrowthMap.Canon
