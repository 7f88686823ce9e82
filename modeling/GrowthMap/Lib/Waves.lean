import Mathlib.Data.Fintype.Card
import Mathlib.Data.List.Nodup
import Mathlib.Data.Set.Finite.Basic
import Mathlib.Logic.Function.Iterate
import Mathlib.Logic.Relation
import Mathlib.Order.WellFounded
import Mathlib.Tactic.Common

/- Topological sorting by waves.

   A list of tasks is pending; `needs a b` says that `a` can only go after `b`. Every round takes
   the tasks that need nothing pending, in their order, and the sort is stuck when a round takes
   none. A task goes in round `n` when the longest chain of needs that leads to it has `n` links,
   and the sort is stuck exactly on a cycle. -/
namespace Waves

variable {α : Type} (needs : α → α → Bool)

def free (pending : List α) (a : α) : Bool := pending.all (fun b => !needs a b)

/-- The tasks of a round. -/
def ready (pending : List α) : List α := pending.filter (free needs pending)

/-- The tasks that wait for a later round. -/
def next (pending : List α) : List α := pending.filter (fun a => !free needs pending a)

/-- The loop: `none` says that it is stuck. -/
inductive Loop : List α → Option (List α) → Prop
  | done : Loop [] (some [])
  | stuck {pending : List α} : pending ≠ [] → ready needs pending = [] → Loop pending none
  | round {pending : List α} {r : Option (List α)} : ready needs pending ≠ [] → Loop (next needs pending) r →
      Loop pending (r.map (ready needs pending ++ ·))

/-- A chain of `n` needs leads to the task. -/
inductive Chain (l : List α) : Nat → α → Prop
  | here {a : α} : a ∈ l → Chain l 0 a
  | after {a b : α} {n : Nat} : a ∈ l → needs a b = true → Chain l n b → Chain l (n + 1) a

/-- A need between two tasks of the list. -/
def Needs (l : List α) (a b : α) : Prop := a ∈ l ∧ b ∈ l ∧ needs a b = true

variable {needs} {l : List α} {a b : α} {n : Nat} {p : List α} {r : Option (List α)}

theorem not_free_iff : (!free needs l a) = true ↔ ∃ b ∈ l, needs a b = true := by
  simp [free]

theorem mem_next : a ∈ next needs l ↔ a ∈ l ∧ ∃ b ∈ l, needs a b = true := by
  rw [next, List.mem_filter, not_free_iff]

theorem mem_ready : a ∈ ready needs l ↔ a ∈ l ∧ a ∉ next needs l := by
  simp only [ready, next, List.mem_filter]
  cases free needs l a <;> simp

theorem ready_append_next : (ready needs l ++ next needs l).Perm l := List.filter_append_perm _ _

theorem length_next (h : ready needs l ≠ []) : (next needs l).length < l.length := by
  have hsum : (ready needs l ++ next needs l).length = l.length := ready_append_next.length_eq
  have hpos := List.length_pos_of_ne_nil h
  simp only [List.length_append] at hsum
  omega

/-! Chains -/

theorem Chain.mem (h : Chain needs l n a) : a ∈ l := by
  cases h with
  | here h => exact h
  | after h => exact h

theorem Chain.shorter (h : Chain needs l (n + 1) a) : Chain needs l n a := by
  induction n generalizing a with
  | zero => exact .here h.mem
  | succ n ih =>
    cases h with
    | after ha hab hb => exact .after ha hab (ih hb)

/-- What waits after `n` rounds is where a chain of `n` needs leads. -/
theorem mem_iterate : a ∈ (next needs)^[n] l ↔ Chain needs l n a := by
  induction n generalizing a with
  | zero =>
    constructor
    · exact .here
    · exact Chain.mem
  | succ n ih =>
    rw [Function.iterate_succ_apply', mem_next, ih]
    constructor
    · rintro ⟨ha, b, hb, hab⟩
      exact .after ha.mem hab (ih.mp hb)
    · intro h
      refine ⟨h.shorter, ?_⟩
      cases h with
      | after _ hab hb => exact ⟨_, ih.mpr hb, hab⟩

theorem chain_next : Chain needs (next needs l) n a ↔ Chain needs l (n + 1) a := by
  rw [← mem_iterate, ← mem_iterate, Function.iterate_succ_apply]

theorem chain_one : Chain needs l 1 a ↔ a ∈ next needs l := by
  rw [← mem_iterate, Function.iterate_one]

theorem Chain.along (h : Relation.TransGen (Needs needs l) a b) (hb : Chain needs l n b) :
    Chain needs l (n + 1) a := by
  induction h using Relation.TransGen.head_induction_on with
  | single hab => exact .after hab.1 hab.2.2 hb
  | head hac _ ih => exact (Chain.after hac.1 hac.2.2 ih).shorter

theorem Chain.of_cycle (h : Relation.TransGen (Needs needs l) a a) (n : Nat) : Chain needs l n a := by
  induction n with
  | zero =>
    cases h using Relation.TransGen.head_induction_on with
    | single h => exact .here h.1
    | head h => exact .here h.1
  | succ n ih => exact ih.along h

theorem exists_cycle (hne : p ≠ []) (h : ∀ a ∈ p, ∃ b ∈ p, needs a b = true) :
    ∃ a, Relation.TransGen (Needs needs p) a a := by
  by_contra hno
  -- on the finite type of the tasks the paths would be a well-founded order
  let path : {a // a ∈ p} → {a // a ∈ p} → Prop := fun b a => Relation.TransGen (Needs needs p) a.1 b.1
  have : Finite {a // a ∈ p} := (List.finite_toSet p).to_subtype
  have : IsTrans _ path := ⟨fun _ _ _ hab hbc => hbc.trans hab⟩
  have : Std.Irrefl path := ⟨fun a ha => hno ⟨a.1, ha⟩⟩
  have hwf : WellFounded path := Finite.wellFounded_of_trans_of_irrefl path
  obtain ⟨x, hx⟩ := List.exists_mem_of_ne_nil p hne
  obtain ⟨⟨a, ha⟩, -, hmin⟩ := hwf.has_min Set.univ ⟨⟨x, hx⟩, trivial⟩
  obtain ⟨b, hb, hab⟩ := h a ha
  exact hmin ⟨b, hb⟩ trivial (.single ⟨ha, hb, hab⟩)

theorem cycle_mono (h : p ⊆ l) (hab : Relation.TransGen (Needs needs p) a b) :
    Relation.TransGen (Needs needs l) a b :=
  hab.lift id (fun _ _ hxy => ⟨h hxy.1, h hxy.2.1, hxy.2.2⟩)

/-! The loop -/

theorem loop_ends : ∃ r, Loop needs l r := by
  induction hn : l.length using Nat.strong_induction_on generalizing l with
  | _ n ih =>
    by_cases hl : l = []
    · subst hl
      exact ⟨_, .done⟩
    · by_cases hready : ready needs l = []
      · exact ⟨_, .stuck hl hready⟩
      · obtain ⟨r, hr⟩ := ih _ (hn ▸ length_next hready) rfl
        exact ⟨_, .round hready hr⟩

theorem Loop.perm (h : Loop needs l r) : ∀ out ∈ r, out.Perm l := by
  induction h with
  | done => simp
  | stuck => simp
  | round _ _ ih =>
    intro out hout
    obtain ⟨rest, hrest, rfl⟩ := Option.mem_map.mp hout
    exact ((ih rest hrest).append_left _).trans ready_append_next

theorem Loop.before (h : Loop needs l r) (hab : Needs needs l b a) :
    ∀ out ∈ r, [a, b].Sublist out := by
  induction h with
  | done => exact absurd hab.1 List.not_mem_nil
  | stuck => simp
  | @round pending r _ hloop ih =>
    intro out hout
    obtain ⟨rest, hrest, rfl⟩ := Option.mem_map.mp hout
    have hb : b ∈ next needs pending := mem_next.mpr ⟨hab.1, a, hab.2.1, hab.2.2⟩
    by_cases ha : a ∈ next needs pending
    · exact (ih ⟨hb, ha, hab.2.2⟩ rest hrest).trans (List.sublist_append_right _ _)
    · have hfirst : [a].Sublist (ready needs pending) := List.singleton_sublist.mpr (mem_ready.mpr ⟨hab.2.1, ha⟩)
      have hthen : [b].Sublist rest := List.singleton_sublist.mpr ((hloop.perm rest hrest).mem_iff.mpr hb)
      exact hfirst.append hthen

theorem Loop.stuck_on (h : Loop needs l r) (hr : r = none) :
    ∃ p, p ≠ [] ∧ p ⊆ l ∧ ∀ a ∈ p, ∃ b ∈ p, needs a b = true := by
  induction h with
  | done => cases hr
  | @stuck pending hne hready =>
    refine ⟨pending, hne, List.Subset.refl _, fun a ha => ?_⟩
    have hnot : a ∉ ready needs pending := by simp [hready]
    by_contra hfree
    exact hnot (mem_ready.mpr ⟨ha, fun hnext => hfree (mem_next.mp hnext).2⟩)
  | @round pending r _ _ ih =>
    obtain ⟨p, hne, hsub, hp⟩ := ih (by simpa using hr)
    exact ⟨p, hne, fun a ha => (mem_next.mp (hsub ha)).1, hp⟩

theorem Loop.ends_empty (h : Loop needs l r) : ∀ out ∈ r, ∃ n, (next needs)^[n] l = [] := by
  induction h with
  | done => exact fun _ _ => ⟨0, rfl⟩
  | stuck => simp
  | round _ _ ih =>
    intro out hout
    obtain ⟨rest, hrest, -⟩ := Option.mem_map.mp hout
    obtain ⟨n, hn⟩ := ih rest hrest
    exact ⟨n + 1, by rw [Function.iterate_succ_apply, hn]⟩

theorem Loop.stuck_iff (h : Loop needs l r) :
    r = none ↔ ∃ a, Relation.TransGen (Needs needs l) a a := by
  constructor
  · intro hr
    obtain ⟨p, hne, hsub, hp⟩ := h.stuck_on hr
    obtain ⟨a, ha⟩ := exists_cycle hne hp
    exact ⟨a, cycle_mono hsub ha⟩
  · rintro ⟨a, ha⟩
    cases r with
    | none => rfl
    | some out =>
      obtain ⟨n, hn⟩ := h.ends_empty out rfl
      have hmem := mem_iterate.mpr (Chain.of_cycle ha n)
      rw [hn] at hmem
      exact absurd hmem List.not_mem_nil

theorem Loop.stuck_iff_trapped (h : Loop needs l r) :
    r = none ↔ ∃ p, p ≠ [] ∧ p ⊆ l ∧ ∀ a ∈ p, ∃ b ∈ p, needs a b = true := by
  refine ⟨h.stuck_on, ?_⟩
  rintro ⟨p, hne, hsub, hp⟩
  obtain ⟨a, ha⟩ := exists_cycle hne hp
  exact h.stuck_iff.mpr ⟨a, cycle_mono hsub ha⟩

theorem not_both_orders {out : List α} (hout : out.Nodup) (hab : [a, b].Sublist out) : ¬ [b, a].Sublist out := by
  intro hba
  induction out with
  | nil => cases hab
  | cons x xs ih =>
    obtain ⟨hx, hxs⟩ := List.nodup_cons.mp hout
    cases hab with
    | cons _ hab =>
      cases hba with
      | cons _ hba => exact ih hxs hab hba
      | cons_cons => exact hx (hab.subset (by simp))
    | cons_cons _ hb =>
      cases hba with
      | cons _ hba => exact hx (hba.subset (by simp))
      | cons_cons => exact hx (hb.subset (by simp))

theorem sublist_of_append {xs ys : List α} (ha : a ∉ xs) (h : [a, b].Sublist (xs ++ ys)) : [a, b].Sublist ys := by
  obtain ⟨l₁, l₂, hsplit, h₁, h₂⟩ := List.sublist_append_iff.mp h
  cases l₁ with
  | nil => rwa [hsplit]
  | cons =>
    obtain ⟨rfl, -⟩ := List.cons.inj hsplit
    exact absurd (h₁.subset (by simp)) ha

/-- The order of two tasks is kept exactly when every chain that leads to the first is as long as one that leads to
the second. -/
theorem Loop.keeps_iff (h : Loop needs l r) (hl : l.Nodup) (hab : [a, b].Sublist l) :
    ∀ out ∈ r, ([a, b].Sublist out ↔ ∀ n, Chain needs l n a → Chain needs l n b) := by
  induction h with
  | done => cases hab
  | stuck => simp
  | @round pending r _ hloop ih =>
    intro out hout
    obtain ⟨rest, hrest, rfl⟩ := Option.mem_map.mp hout
    have hperm := hloop.perm rest hrest
    have ha : a ∈ pending := hab.subset (by simp)
    have hb : b ∈ pending := hab.subset (by simp)
    by_cases hanext : a ∈ next needs pending
    · by_cases hbnext : b ∈ next needs pending
      · -- both wait: the chains of the rest are shorter by one
        have hfilter := hab.filter (fun x => !free needs pending x)
        have hsub : [a, b].Sublist (next needs pending) := by
          rwa [List.filter_eq_self.mpr] at hfilter
          intro x hx
          rcases List.mem_pair.mp hx with rfl | rfl
          · exact (List.mem_filter.mp hanext).2
          · exact (List.mem_filter.mp hbnext).2
        have hstep := ih (hl.filter _) hsub rest hrest
        calc [a, b].Sublist (ready needs pending ++ rest)
            ↔ [a, b].Sublist rest :=
              ⟨sublist_of_append (fun h => (mem_ready.mp h).2 hanext), fun h => h.trans (List.sublist_append_right _ _)⟩
          _ ↔ ∀ n, Chain needs (next needs pending) n a → Chain needs (next needs pending) n b := hstep
          _ ↔ ∀ n, Chain needs pending (n + 1) a → Chain needs pending (n + 1) b := by simp only [chain_next]
          _ ↔ ∀ n, Chain needs pending n a → Chain needs pending n b := by
            constructor
            · intro hn n
              cases n with
              | zero => exact fun _ => .here hb
              | succ n => exact hn n
            · exact fun hn n => hn (n + 1)
      · -- the second goes now and the first waits
        have hready : [b].Sublist (ready needs pending) := List.singleton_sublist.mpr (mem_ready.mpr ⟨hb, hbnext⟩)
        have hrestmem : [a].Sublist rest := List.singleton_sublist.mpr (hperm.mem_iff.mpr hanext)
        have hout : (ready needs pending ++ rest).Nodup := (((hperm.append_left _).trans ready_append_next).nodup_iff).mpr hl
        constructor
        · intro hkept
          exact absurd hkept (not_both_orders hout (hready.append hrestmem))
        · intro hn
          exact absurd (chain_one.mp (hn 1 (chain_one.mpr hanext))) hbnext
    · -- the first goes now
      have hshort : ∀ n, Chain needs pending n a → Chain needs pending n b := by
        intro n hn
        cases n with
        | zero => exact .here hb
        | succ =>
          cases hn with
          | after _ hac hc => exact absurd (mem_next.mpr ⟨ha, _, hc.mem, hac⟩) hanext
      refine iff_of_true ?_ hshort
      have hready : a ∈ ready needs pending := mem_ready.mpr ⟨ha, hanext⟩
      by_cases hbnext : b ∈ next needs pending
      · exact (List.singleton_sublist.mpr hready).append (List.singleton_sublist.mpr (hperm.mem_iff.mpr hbnext))
      · have hfilter := hab.filter (free needs pending)
        have hkept : [a, b].Sublist (ready needs pending) := by
          rwa [List.filter_eq_self.mpr] at hfilter
          intro x hx
          rcases List.mem_pair.mp hx with rfl | rfl
          · exact (List.mem_filter.mp hready).2
          · exact (List.mem_filter.mp (mem_ready.mpr ⟨hb, hbnext⟩)).2
        exact hkept.trans (List.sublist_append_left _ _)

end Waves
