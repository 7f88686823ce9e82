import GrowthMap.Canon.Steps

/- The errors of the parts of a request.

   What a request reads and checks ends in errors of its own, so that a failure of another
   kind, a constraint of the schema or a stale revision, does not come from there. -/
namespace GrowthMap.Canon

open Relational Fallible

/-- The failures are none of reads and checks. -/
structure Harmless (bad : Err → Prop) : Prop where
  http : ∀ status detail, ¬ bad (.http status detail)
  coded : ∀ status code message, ¬ bad (.coded status code message)
  several : ¬ bad .multipleResults

section Parts

variable {bad : Err → Prop} {g : Graph}

theorem oneOrNone_avoids (hbad : Harmless bad) {α : Type} (l : List α) : Avoids bad (oneOrNone l) := by
  match l with
  | [] => exact avoids_ok _ _
  | [_] => exact avoids_ok _ _
  | _ :: _ :: _ => exact avoids_error hbad.several

theorem checkActiveBranch_avoids (hbad : Harmless bad) (projectId : String) (branchId : Option String) :
    Avoids bad (checkActiveBranch g projectId branchId) := by
  unfold checkActiveBranch
  split
  · exact avoids_ok _ _
  · split
    · exact avoids_error (hbad.http _ _)
    · exact avoids_guard (hbad.http _ _) (fun _ => avoids_ok _ _)

theorem requireActiveProjectSeat_avoids (hbad : Harmless bad) (seats : Option Nat) (status : Nat) :
    Avoids bad (requireActiveProjectSeat seats status g) := by
  unfold requireActiveProjectSeat
  dsimp only
  split
  · exact avoids_ok _ _
  · exact avoids_guard (hbad.http _ _) (fun _ => avoids_ok _ _)

/-- The errors of a walk that checks a closure are not bad. -/
structure ClosureRules.Harmless (bad : Err → Prop) (r : ClosureRules) : Prop where
  source : ¬ bad r.source
  edge : ¬ bad r.edge
  inbound : ¬ bad r.inbound
  rootOwner : ¬ bad r.rootOwner
  owner : ¬ bad r.owner
  tooLarge : ¬ bad r.tooLarge

variable {r : ClosureRules}

theorem closureEdges_avoids (hr : r.Harmless bad) (out : List String) (es : List Edge)
    (parents : List (String × String)) : Avoids bad (closureEdges r g out es parents) := by
  induction es generalizing parents with
  | nil => exact avoids_ok _ _
  | cons e es ih => exact avoids_guard hr.edge (fun _ => ih _)

theorem closureLevels_avoids (hr : r.Harmless bad) (n : Nat) (frontier out : List String)
    (parents : List (String × String)) : Avoids bad (closureLevels r g n frontier out parents) := by
  induction n generalizing frontier out parents with
  | zero => exact avoids_error hr.tooLarge
  | succ n ih =>
    unfold closureLevels
    split
    · exact avoids_ok _ _
    · refine avoids_guard hr.source (fun _ => ?_)
      refine (closureEdges_avoids hr _ _ _).bind (fun parents _ => ?_)
      exact avoids_guard hr.tooLarge (fun _ => ih _ _ _)

theorem closure_avoids (hr : r.Harmless bad) (root : String) : Avoids bad (closure r g root) := by
  refine (closureLevels_avoids hr _ _ _ _).bind (fun x _ => ?_)
  have howners : Avoids bad (closureOwners r g root x.1 x.2) :=
    avoids_guard hr.inbound (fun _ => avoids_guard hr.rootOwner (fun _ => avoids_guard hr.owner (fun _ => avoids_ok _ _)))
  exact howners.bind (fun _ _ => avoids_ok _ _)

theorem validateClosure_avoids (hbad : Harmless bad) (node : Node) : Avoids bad (validateClosure g node) :=
  closure_avoids ⟨hbad.http _ _, hbad.http _ _, hbad.http _ _, hbad.http _ _, hbad.http _ _, hbad.http _ _⟩ _

theorem loadMove_avoids (hbad : Harmless bad) {see : Nat → Graph} {root missing foreign : Err} (hroot : ¬ bad root)
    (hmissing : ¬ bad missing) (hforeign : ¬ bad foreign) (nodeId : String) (d : NodeMove) :
    Avoids bad (loadMove root missing foreign see nodeId d) := by
  unfold loadMove
  split
  · exact avoids_error (hbad.http _ _)
  · refine avoids_guard hroot (fun _ => ?_)
    split
    · exact avoids_error hmissing
    · exact avoids_guard hforeign (fun _ => (oneOrNone_avoids hbad _).bind (fun _ _ => avoids_ok _ _))

end Parts

end GrowthMap.Canon
