import Mathlib.Logic.Relation
import Mathlib.Data.Finset.Card
import Mathlib.Tactic.Common

/- Reachability in finite directed graphs, and relations without cycles.

   A graph is a successor function to lists. `walk` is the worklist traversal of a program
   that keeps a set of the nodes it has seen; with as much fuel as there are nodes it finds
   exactly what can be reached. `preorder` is the traversal that keeps the order. A relation without cycles stays so when an edge is added
   whose target does not lead to its source, and when it is pulled back along a map. -/
namespace Forest

open Relation

variable {α β : Type}

/-! Relations without cycles -/

def Acyclic (r : α → α → Prop) : Prop := ∀ a, ¬ TransGen r a a

variable {r r' : α → α → Prop} {a b x y : α} {l l' : List (α × α)} {f : α → Option β} {ys stack seen : List α}
  {s : List α × List α} {u : Finset α} {p : α → Prop} {n : Nat}

theorem Acyclic.mono (h : Acyclic r') (hr : ∀ a b, r a b → r' a b) : Acyclic r := by
  intro a ha
  exact h a (TransGen.mono hr a a ha)

theorem transGen_insert (hr : ∀ x y, r' x y → r x y ∨ x = a ∧ y = b)
    (h : TransGen r' x y) : TransGen r x y ∨ ReflTransGen r x a ∧ ReflTransGen r b y := by
  induction h with
  | single hxy =>
    rcases hr _ _ hxy with hold | ⟨rfl, rfl⟩
    · exact .inl (.single hold)
    · exact .inr ⟨.refl, .refl⟩
  | tail _ hyz ih =>
    rcases hr _ _ hyz with hold | ⟨rfl, rfl⟩
    · rcases ih with ih | ⟨hxa, hby⟩
      · exact .inl (ih.tail hold)
      · exact .inr ⟨hxa, hby.tail hold⟩
    · rcases ih with ih | ⟨hxa, -⟩
      · exact .inr ⟨ih.to_reflTransGen, .refl⟩
      · exact .inr ⟨hxa, .refl⟩

theorem Acyclic.insert (h : Acyclic r) (hr : ∀ x y, r' x y → r x y ∨ x = a ∧ y = b)
    (hba : ¬ ReflTransGen r b a) : Acyclic r' := by
  intro x hx
  rcases transGen_insert hr hx with hx | ⟨hxa, hbx⟩
  · exact h x hx
  · exact hba (hbx.trans hxa)

theorem eq_of_reflTransGen (hleaf : ∀ c, ¬ r a c) (h : ReflTransGen r a b) : b = a :=
  (reflTransGen_iff_eq hleaf).mp h

/-- What can be reached once all that leads to `b` is one step from `a`: the new step is the last of its kind or was not taken. -/
theorem reflTransGen_redirect (hr : ∀ x y, r' x y ↔ r x y ∧ y ≠ b ∨ x = a ∧ y = b) :
    ReflTransGen r' a y ↔ ReflTransGen (fun x y => r x y ∧ y ≠ b) a y ∨ ReflTransGen (fun x y => r x y ∧ y ≠ b) b y := by
  have hkeep : ∀ x y, ReflTransGen (fun x y => r x y ∧ y ≠ b) x y → ReflTransGen r' x y := by
    intro x y h
    exact ReflTransGen.mono (fun c d hcd => (hr c d).mpr (.inl hcd)) x y h
  constructor
  · intro h
    induction h with
    | refl => exact .inl .refl
    | tail _ hstep ih =>
      rcases (hr _ _).mp hstep with hold | ⟨-, rfl⟩
      · exact ih.imp (fun hpath => hpath.tail hold) (fun hpath => hpath.tail hold)
      · exact .inr .refl
  · rintro (h | h)
    · exact hkeep a y h
    · exact .head ((hr a b).mpr (.inr ⟨rfl, rfl⟩)) (hkeep b y h)

/-! Forests -/

/-- The relation of a list of arcs. -/
def Arc (l : List (α × α)) (a b : α) : Prop := (a, b) ∈ l

/-- No two arcs have one target, and there is no cycle. -/
structure IsForest (l : List (α × α)) : Prop where
  single : (l.map Prod.snd).Nodup
  acyclic : Acyclic (Arc l)

theorem isForest_nil : IsForest ([] : List (α × α)) := by
  refine ⟨List.nodup_nil, ?_⟩
  intro a ha
  obtain ⟨b, hb, -⟩ := TransGen.head'_iff.mp ha
  cases hb

theorem IsForest.subperm (h : IsForest l) (hsub : l'.Subperm l) : IsForest l' := by
  refine ⟨?_, h.acyclic.mono (fun _ _ hab => hsub.subset hab)⟩
  obtain ⟨m, hperm, hm⟩ := hsub
  have hnodup : (m.map Prod.snd).Nodup := (hm.map Prod.snd).nodup h.single
  exact (hperm.map Prod.snd).nodup_iff.mp hnodup

theorem IsForest.sublist (h : IsForest l) (hsub : l'.Sublist l) : IsForest l' := h.subperm hsub.subperm

theorem Acyclic.snoc (h : Acyclic (Arc l)) (hba : ¬ ReflTransGen (Arc l) b a) :
    Acyclic (Arc (l ++ [(a, b)])) := by
  refine h.insert ?_ hba
  intro x y hxy
  rcases List.mem_append.mp hxy with hold | hnew
  · exact .inl hold
  · exact .inr (by simpa using hnew)

theorem IsForest.snoc (h : IsForest l) (hb : ∀ x, (x, b) ∉ l)
    (hba : ¬ ReflTransGen (Arc l) b a) : IsForest (l ++ [(a, b)]) := by
  refine ⟨?_, h.acyclic.snoc hba⟩
  rw [List.map_append, List.nodup_append]
  refine ⟨h.single, by simp, ?_⟩
  intro x hx y hy hxy
  obtain ⟨⟨z, w⟩, hmem, rfl⟩ := List.mem_map.mp hx
  have hy : y = b := by simpa using hy
  have hw : w = b := hxy.trans hy
  exact hb z (hw ▸ hmem)

theorem transGen_append (hdis : ∀ x ∈ l, ∀ y ∈ l', x.2 ≠ y.1 ∧ y.2 ≠ x.1)
    (h : TransGen (Arc (l ++ l')) a b) :
    TransGen (Arc l) a b ∧ (∃ x ∈ l, x.2 = b) ∨ TransGen (Arc l') a b ∧ ∃ y ∈ l', y.2 = b := by
  induction h with
  | single hab =>
    rcases List.mem_append.mp hab with hab | hab
    · exact .inl ⟨.single hab, _, hab, rfl⟩
    · exact .inr ⟨.single hab, _, hab, rfl⟩
  | tail _ hbc ih =>
    rcases ih with ⟨hab, x, hx, hxb⟩ | ⟨hab, y, hy, hyb⟩
    · rcases List.mem_append.mp hbc with hbc | hbc
      · exact .inl ⟨hab.tail hbc, _, hbc, rfl⟩
      · exact absurd hxb (hdis x hx _ hbc).1
    · rcases List.mem_append.mp hbc with hbc | hbc
      · exact absurd hyb (hdis _ hbc y hy).2
      · exact .inr ⟨hab.tail hbc, _, hbc, rfl⟩

theorem Acyclic.append (h : Acyclic (Arc l)) (h' : Acyclic (Arc l'))
    (hdis : ∀ x ∈ l, ∀ y ∈ l', x.2 ≠ y.1 ∧ y.2 ≠ x.1) : Acyclic (Arc (l ++ l')) := by
  intro a ha
  rcases transGen_append hdis ha with ⟨ha, -⟩ | ⟨ha, -⟩
  · exact h a ha
  · exact h' a ha

theorem IsForest.append (h : IsForest l) (h' : IsForest l')
    (hdis : ∀ x ∈ l, ∀ y ∈ l', x.2 ≠ y.1 ∧ y.2 ≠ x.1 ∧ x.2 ≠ y.2) : IsForest (l ++ l') := by
  refine ⟨?_, h.acyclic.append h'.acyclic (fun x hx y hy => ⟨(hdis x hx y hy).1, (hdis x hx y hy).2.1⟩)⟩
  rw [List.map_append, List.nodup_append]
  refine ⟨h.single, h'.single, ?_⟩
  intro a ha b hb hab
  obtain ⟨x, hx, rfl⟩ := List.mem_map.mp ha
  obtain ⟨y, hy, rfl⟩ := List.mem_map.mp hb
  exact (hdis x hx y hy).2.2 hab

/-- The arcs between the nodes a partial map knows, renamed by it. -/
def rename (f : α → Option β) (l : List (α × α)) : List (β × β) :=
  l.filterMap (fun x => (f x.1).bind (fun a => (f x.2).map (fun b => (a, b))))

theorem mem_rename {y : β × β} :
    y ∈ rename f l ↔ ∃ x ∈ l, f x.1 = some y.1 ∧ f x.2 = some y.2 := by
  simp only [rename, List.mem_filterMap, Option.bind_eq_some_iff, Option.map_eq_some_iff]
  constructor
  · rintro ⟨x, hx, a, ha, b, hb, rfl⟩
    exact ⟨x, hx, ha, hb⟩
  · rintro ⟨x, hx, ha, hb⟩
    exact ⟨x, hx, y.1, ha, y.2, hb, rfl⟩

theorem transGen_rename (hinj : ∀ a b c, f a = some c → f b = some c → a = b) {a b : β}
    (h : TransGen (Arc (rename f l)) a b) : ∃ a' b', f a' = some a ∧ f b' = some b ∧ TransGen (Arc l) a' b' := by
  induction h with
  | single hab =>
    obtain ⟨x, hx, ha, hb⟩ := mem_rename.mp hab
    exact ⟨x.1, x.2, ha, hb, .single hx⟩
  | tail _ hbc ih =>
    obtain ⟨a', b', ha, hb, hpath⟩ := ih
    obtain ⟨x, hx, hb', hc⟩ := mem_rename.mp hbc
    have heq : b' = x.1 := hinj _ _ _ hb hb'
    subst heq
    exact ⟨a', x.2, ha, hc, hpath.tail hx⟩

theorem Acyclic.rename (hinj : ∀ a b c, f a = some c → f b = some c → a = b)
    (h : Acyclic (Arc l)) : Acyclic (Arc (rename f l)) := by
  intro a ha
  obtain ⟨a', b', ha', hb', hpath⟩ := transGen_rename hinj ha
  have heq : a' = b' := hinj _ _ _ ha' hb'
  subst heq
  exact h a' hpath

theorem IsForest.rename (hinj : ∀ a b c, f a = some c → f b = some c → a = b)
    (h : IsForest l) : IsForest (rename f l) := by
  refine ⟨?_, h.acyclic.rename hinj⟩
  have hnodup : l.Pairwise (fun x y => x.2 ≠ y.2) := List.pairwise_map.mp h.single
  rw [List.Nodup, List.pairwise_map, Forest.rename, List.pairwise_filterMap]
  refine hnodup.imp ?_
  intro x y hxy c hc d hd hcd
  obtain ⟨a, ha, hc⟩ := Option.bind_eq_some_iff.mp hc
  obtain ⟨b, hb, rfl⟩ := Option.map_eq_some_iff.mp hc
  obtain ⟨a', ha', hd⟩ := Option.bind_eq_some_iff.mp hd
  obtain ⟨b', hb', rfl⟩ := Option.map_eq_some_iff.mp hd
  simp only at hcd
  subst hcd
  exact hxy (hinj _ _ _ hb hb')

/-! Descent -/

theorem Acyclic.wellFounded [DecidableEq α] (h : Acyclic r) (u : Finset α) (hu : ∀ a b, r a b → b ∈ u) :
    WellFounded (fun b a => r a b) := by
  classical
  -- what can be reached gets smaller with each step
  let reach : α → Finset α := fun a => u.filter (fun b => TransGen r a b)
  refine Subrelation.wf (r := InvImage (· < ·) (fun a => (reach a).card)) ?_ (InvImage.wf _ wellFounded_lt)
  intro b a hab
  refine Finset.card_lt_card ⟨?_, ?_⟩
  · intro c hc
    obtain ⟨hc, hbc⟩ := Finset.mem_filter.mp hc
    exact Finset.mem_filter.mpr ⟨hc, .head hab hbc⟩
  · intro hsub
    have hb : b ∈ reach a := Finset.mem_filter.mpr ⟨hu a b hab, .single hab⟩
    exact h b (Finset.mem_filter.mp (hsub hb)).2

/-! Traversal -/

variable [DecidableEq α]

/-- A neighbour that was not seen is remembered and put on the stack. -/
def visit (s : List α × List α) (y : α) : List α × List α :=
  if y ∈ s.1 then s else (y :: s.1, y :: s.2)

/-- Pop a node, visit its successors, go on; the nodes seen at the end. -/
def walk (next : α → List α) : Nat → List α → List α → List α
  | 0, _, seen => seen
  | _ + 1, [], seen => seen
  | n + 1, x :: stack, seen =>
    let s := (next x).foldl visit (seen, stack)
    walk next n s.2 s.1

theorem foldl_visit_seen :
    y ∈ (ys.foldl visit s).1 ↔ y ∈ s.1 ∨ y ∈ ys := by
  induction ys generalizing s with
  | nil => simp
  | cons z ys ih =>
    rw [List.foldl_cons, ih]
    unfold visit
    by_cases hz : z ∈ s.1
    · simp only [hz, if_true, List.mem_cons]
      constructor
      · rintro (h | h)
        · exact .inl h
        · exact .inr (.inr h)
      · rintro (h | rfl | h)
        · exact .inl h
        · exact .inl hz
        · exact .inr h
    · simp only [hz, if_false, List.mem_cons]
      tauto

theorem foldl_visit_stack (h : y ∈ (ys.foldl visit s).2) :
    y ∈ s.2 ∨ y ∉ s.1 ∧ y ∈ ys := by
  induction ys generalizing s with
  | nil => exact .inl h
  | cons z ys ih =>
    rw [List.foldl_cons] at h
    unfold visit at h
    by_cases hz : z ∈ s.1
    · rw [if_pos hz] at h
      rcases ih h with h | ⟨h, hy⟩
      · exact .inl h
      · exact .inr ⟨h, List.mem_cons_of_mem _ hy⟩
    · rw [if_neg hz] at h
      rcases ih h with h | ⟨h, hy⟩
      · rcases List.mem_cons.mp h with rfl | h
        · exact .inr ⟨hz, List.mem_cons_self⟩
        · exact .inl h
      · exact .inr ⟨fun hs => h (List.mem_cons_of_mem _ hs), List.mem_cons_of_mem _ hy⟩

theorem foldl_visit_keep (h : y ∈ s.2) : y ∈ (ys.foldl visit s).2 := by
  induction ys generalizing s with
  | nil => exact h
  | cons z ys ih =>
    rw [List.foldl_cons]
    apply ih
    unfold visit
    split
    · exact h
    · exact List.mem_cons_of_mem _ h

theorem foldl_visit_new (h : y ∈ (ys.foldl visit s).1) (hs : y ∉ s.1) :
    y ∈ (ys.foldl visit s).2 := by
  induction ys generalizing s with
  | nil => exact absurd h hs
  | cons z ys ih =>
    rw [List.foldl_cons] at h ⊢
    unfold visit at h ⊢
    by_cases hz : z ∈ s.1
    · rw [if_pos hz] at h ⊢
      exact ih h hs
    · rw [if_neg hz] at h ⊢
      by_cases hy : y = z
      · subst hy
        exact foldl_visit_keep List.mem_cons_self
      · exact ih h (by simp [hy, hs])

theorem foldl_visit_measure (hu : ∀ y ∈ ys, y ∈ u) :
    (ys.foldl visit s).2.length + (u \ (ys.foldl visit s).1.toFinset).card = s.2.length + (u \ s.1.toFinset).card := by
  induction ys generalizing s with
  | nil => rfl
  | cons z ys ih =>
    rw [List.foldl_cons, ih (fun y hy => hu y (List.mem_cons_of_mem _ hy))]
    unfold visit
    split
    · rfl
    · rename_i hz
      have hmem : z ∈ u \ s.1.toFinset := by simp [hu z List.mem_cons_self, hz]
      have herase : u \ (z :: s.1).toFinset = (u \ s.1.toFinset).erase z := by
        ext x
        simp only [Finset.mem_sdiff, List.toFinset_cons, Finset.mem_insert, Finset.mem_erase]
        tauto
      rw [herase, Finset.card_erase_of_mem hmem, List.length_cons]
      have := Finset.card_pos.mpr ⟨z, hmem⟩
      omega

variable {next : α → List α} {cost : List α → Nat}

theorem walk_sound (hp : ∀ x y, p x → y ∈ next x → p y)
    (hstack : ∀ x ∈ stack, p x) {q : α → Prop} (hseen : ∀ x ∈ seen, q x) (hq : ∀ x y, p x → y ∈ next x → q y) :
    ∀ y ∈ walk next n stack seen, q y := by
  induction n generalizing stack seen with
  | zero => exact hseen
  | succ n ih =>
    cases stack with
    | nil => exact hseen
    | cons x =>
      have hx := hstack x List.mem_cons_self
      refine ih ?_ ?_
      · intro y hy
        rcases foldl_visit_stack hy with hy | ⟨-, hy⟩
        · exact hstack y (List.mem_cons_of_mem _ hy)
        · exact hp x y hx hy
      · intro y hy
        rcases foldl_visit_seen.mp hy with hy | hy
        · exact hseen y hy
        · exact hq x y hx hy

theorem walk_mono (hy : y ∈ seen) : y ∈ walk next n stack seen := by
  induction n generalizing stack seen with
  | zero => exact hy
  | succ n ih =>
    cases stack with
    | nil => exact hy
    | cons => exact ih (foldl_visit_seen.mpr (.inl hy))

/-- With enough fuel the successors of what is on the stack, and of all that is found, are found. -/
theorem walk_closed (hu : ∀ x y, y ∈ next x → y ∈ u)
    (hfuel : stack.length + (u \ seen.toFinset).card ≤ n)
    (hdone : ∀ x ∈ seen, x ∈ stack ∨ ∀ y ∈ next x, y ∈ seen) :
    (∀ x ∈ stack, ∀ y ∈ next x, y ∈ walk next n stack seen) ∧
      ∀ x ∈ walk next n stack seen, ∀ y ∈ next x, y ∈ walk next n stack seen := by
  induction n generalizing stack seen with
  | zero =>
    have hnil : stack = [] := List.length_eq_zero_iff.mp (by omega)
    subst hnil
    refine ⟨by simp, ?_⟩
    intro x hx
    exact (hdone x hx).resolve_left (by simp)
  | succ n ih =>
    cases stack with
    | nil =>
      refine ⟨by simp, ?_⟩
      intro x hx
      exact (hdone x hx).resolve_left (by simp)
    | cons x stack =>
      have hmeasure := foldl_visit_measure (s := (seen, stack)) (hu x)
      have hless : ((next x).foldl visit (seen, stack)).2.length +
          (u \ ((next x).foldl visit (seen, stack)).1.toFinset).card ≤ n := by
        rw [hmeasure]
        simp only [List.length_cons] at hfuel ⊢
        omega
      suffices hinv : ∀ z ∈ ((next x).foldl visit (seen, stack)).1, z ∈ ((next x).foldl visit (seen, stack)).2 ∨
          ∀ y ∈ next z, y ∈ ((next x).foldl visit (seen, stack)).1 by
        obtain ⟨hstack, hfound⟩ := ih hless hinv
        refine ⟨?_, hfound⟩
        intro z hz y hy
        rcases List.mem_cons.mp hz with rfl | hz
        · show y ∈ walk next n _ _
          exact walk_mono (foldl_visit_seen.mpr (.inr hy))
        · exact hstack z (foldl_visit_keep hz) y hy
      · -- what was seen is done, is still on the stack, or is new and on it
        intro z hz
        by_cases hold : z ∈ seen
        · rcases hdone z hold with hstack | hnext
          · rcases List.mem_cons.mp hstack with rfl | hstack
            · exact .inr (fun y hy => foldl_visit_seen.mpr (.inr hy))
            · exact .inl (foldl_visit_keep hstack)
          · exact .inr (fun y hy => foldl_visit_seen.mpr (.inl (hnext y hy)))
        · exact .inl (foldl_visit_new hz hold)

theorem mem_walk (hu : ∀ x y, y ∈ next x → y ∈ u) (hfuel : u.card + 1 ≤ n)
    : y ∈ walk next n [x] [] ↔ TransGen (fun a b => b ∈ next a) x y := by
  constructor
  · intro h
    exact walk_sound (p := ReflTransGen (fun a b => b ∈ next a) x) (fun _ _ hp hy => hp.tail hy) (by simp [ReflTransGen.refl])
      (q := TransGen (fun a b => b ∈ next a) x) (by simp) (fun _ _ hp hy => .tail' hp hy) y h
  · intro h
    have henough : [x].length + (u \ ([] : List α).toFinset).card ≤ n := by
      simp
      omega
    obtain ⟨hstart, hclosed⟩ := walk_closed hu henough (by simp)
    induction h with
    | single hxy => exact hstart x List.mem_cons_self _ hxy
    | tail _ hyz ih => exact hclosed _ ih _ hyz

/-- The nodes in the order a stack of unvisited nodes yields them, children before siblings. -/
def preorder (next : α → List α) : Nat → List α → List α → List α
  | 0, _, seen => seen
  | _ + 1, [], seen => seen
  | n + 1, x :: stack, seen =>
    if x ∈ seen then preorder next n stack seen else preorder next n (next x ++ stack) (seen ++ [x])

theorem preorder_sound (hp : ∀ x y, p x → y ∈ next x → p y)
    (hstack : ∀ x ∈ stack, p x) (hseen : ∀ x ∈ seen, p x) : ∀ y ∈ preorder next n stack seen, p y := by
  induction n generalizing stack seen with
  | zero => exact hseen
  | succ n ih =>
    cases stack with
    | nil => exact hseen
    | cons x stack =>
      have hx := hstack x List.mem_cons_self
      have hrest : ∀ y ∈ stack, p y := fun y hy => hstack y (List.mem_cons_of_mem _ hy)
      unfold preorder
      split
      · exact ih hrest hseen
      · apply ih
        · intro y hy
          rcases List.mem_append.mp hy with hy | hy
          · exact hp x y hx hy
          · exact hrest y hy
        · intro y hy
          rcases List.mem_append.mp hy with hy | hy
          · exact hseen y hy
          · rw [List.mem_singleton.mp hy]
            exact hx

theorem preorder_nodup (hseen : seen.Nodup) :
    (preorder next n stack seen).Nodup := by
  induction n generalizing stack seen with
  | zero => exact hseen
  | succ n ih =>
    cases stack with
    | nil => exact hseen
    | cons x =>
      unfold preorder
      split
      · exact ih hseen
      · rename_i hx
        exact ih (List.nodup_append.mpr ⟨hseen, List.nodup_singleton x, by
          intro a ha b hb hab
          rw [List.mem_singleton.mp hb] at hab
          exact hx (hab ▸ ha)⟩)

/-- What is left to do: the stack, and what the unvisited nodes will put on it. -/
def Bounded (next : α → List α) (cost : List α → Nat) : Prop :=
  ∀ x seen, x ∉ seen → (next x).length + cost (seen ++ [x]) ≤ cost seen

theorem bounded_edges (l : List β) (src dst : β → α) : Bounded (fun x => (l.filter (fun e => decide (src e = x))).map dst)
    (fun seen => (l.filter (fun e => decide (src e ∉ seen))).length) := by
  intro x seen hx
  rw [List.length_map]
  show (l.filter (fun e => decide (src e = x))).length + (l.filter (fun e => decide (src e ∉ seen ++ [x]))).length ≤
    (l.filter (fun e => decide (src e ∉ seen))).length
  induction l with
  | nil => exact le_refl 0
  | cons e l ih =>
    by_cases he : src e = x
    · subst he
      simp only [List.filter_cons, hx, decide_true, not_true_eq_false, not_false_eq_true, decide_false, if_true,
        Bool.false_eq_true, if_false, List.length_cons, List.mem_append, List.mem_singleton, or_true] at ih ⊢
      omega
    · have hiff : src e ∈ seen ++ [x] ↔ src e ∈ seen := by simp [he]
      simp only [List.filter_cons, he, hiff, decide_false, Bool.false_eq_true, if_false]
      split
      · rw [List.length_cons, List.length_cons]
        omega
      · exact ih

/-- With enough fuel the stack is emptied, and more changes nothing. -/
theorem preorder_ends (hcost : Bounded next cost) {m : Nat}
    (hfuel : stack.length + cost seen ≤ n) (hnm : n ≤ m) : preorder next m stack seen = preorder next n stack seen := by
  induction n generalizing m stack seen with
  | zero =>
    have hnil : stack = [] := List.length_eq_zero_iff.mp (by omega)
    subst hnil
    cases m with
    | zero => rfl
    | succ => rfl
  | succ n ih =>
    obtain ⟨m, rfl⟩ : ∃ k, m = k + 1 := ⟨m - 1, by omega⟩
    cases stack with
    | nil => rfl
    | cons x =>
      rw [List.length_cons] at hfuel
      unfold preorder
      split
      · exact ih (by omega) (by omega)
      · rename_i hx
        have hless := hcost x seen hx
        exact ih (by rw [List.length_append]; omega) (by omega)

/-- With enough fuel all that is on the stack is found, and with each node its successors. -/
theorem preorder_closed {next : α → List α} {cost : List α → Nat} (hcost : Bounded next cost) {n : Nat} {stack seen : List α}
    (hfuel : stack.length + cost seen ≤ n) (hdone : ∀ x ∈ seen, ∀ y ∈ next x, y ∈ seen ∨ y ∈ stack) :
    (∀ x, x ∈ seen ∨ x ∈ stack → x ∈ preorder next n stack seen) ∧
      ∀ x ∈ preorder next n stack seen, ∀ y ∈ next x, y ∈ preorder next n stack seen := by
  induction n generalizing stack seen with
  | zero =>
    have hnil : stack = [] := List.length_eq_zero_iff.mp (by omega)
    subst hnil
    exact ⟨fun x hx => hx.resolve_right List.not_mem_nil,
      fun x hx y hy => (hdone x hx y hy).resolve_right List.not_mem_nil⟩
  | succ n ih =>
    cases stack with
    | nil =>
      exact ⟨fun x hx => hx.resolve_right List.not_mem_nil,
        fun x hx y hy => (hdone x hx y hy).resolve_right List.not_mem_nil⟩
    | cons x stack =>
      rw [List.length_cons] at hfuel
      unfold preorder
      split
      · rename_i hx
        have hless : stack.length + cost seen ≤ n := by omega
        obtain ⟨hfound, hclosed⟩ := ih hless (by
          intro z hz y hy
          rcases hdone z hz y hy with hseen | hstack
          · exact .inl hseen
          · rcases List.mem_cons.mp hstack with rfl | hstack
            · exact .inl hx
            · exact .inr hstack)
        refine ⟨?_, hclosed⟩
        rintro z (hz | hz)
        · exact hfound z (.inl hz)
        · rcases List.mem_cons.mp hz with rfl | hz
          · exact hfound z (.inl hx)
          · exact hfound z (.inr hz)
      · rename_i hx
        have hless : (next x ++ stack).length + cost (seen ++ [x]) ≤ n := by
          have := hcost x seen hx
          rw [List.length_append]
          omega
        obtain ⟨hfound, hclosed⟩ := ih hless (by
          intro z hz y hy
          rcases List.mem_append.mp hz with hz | hz
          · rcases hdone z hz y hy with hseen | hstack
            · exact .inl (List.mem_append_left _ hseen)
            · rcases List.mem_cons.mp hstack with rfl | hstack
              · exact .inl (List.mem_append_right _ List.mem_cons_self)
              · exact .inr (List.mem_append_right _ hstack)
          · rw [List.mem_singleton.mp hz] at hy
            exact .inr (List.mem_append_left _ hy))
        refine ⟨?_, hclosed⟩
        rintro z (hz | hz)
        · exact hfound z (.inl (List.mem_append_left _ hz))
        · rcases List.mem_cons.mp hz with rfl | hz
          · exact hfound z (.inl (List.mem_append_right _ List.mem_cons_self))
          · exact hfound z (.inr (List.mem_append_right _ hz))

theorem mem_preorder (hcost : Bounded next cost) (hfuel : 1 + cost [] ≤ n)
    : y ∈ preorder next n [x] [] ↔ ReflTransGen (fun a b => b ∈ next a) x y := by
  constructor
  · intro h
    exact preorder_sound (p := ReflTransGen (fun a b => b ∈ next a) x) (fun _ _ hp hy => hp.tail hy)
      (by simp [ReflTransGen.refl]) (by simp) y h
  · intro h
    obtain ⟨hfound, hclosed⟩ := @preorder_closed _ _ next cost hcost n [x] [] hfuel (by simp)
    induction h with
    | refl => exact hfound x (.inr List.mem_cons_self)
    | tail _ hyz ih => exact hclosed _ ih _ hyz

/-! Levels -/

/-- A node is reached in at most so many steps. -/
inductive Within (next : α → List α) : Nat → α → α → Prop where
  | refl (n : Nat) (a : α) : Within next n a a
  | head {n : Nat} {a b c : α} : b ∈ next a → Within next n b c → Within next (n + 1) a c

/-- A node that is new is seen and comes to the next level. -/
def reachNew (s : List α × List α) (y : α) : List α × List α :=
  if y ∈ s.1 then s else (s.1 ++ [y], s.2 ++ [y])

/-- The nodes seen after so many levels. -/
def levels (next : α → List α) : Nat → List α × List α → List α
  | 0, s => s.1
  | n + 1, s => levels next n ((s.2.flatMap next).foldl reachNew (s.1, []))

theorem foldl_reachNew :
    (y ∈ (ys.foldl reachNew s).1 ↔ y ∈ s.1 ∨ y ∈ ys) ∧ (y ∈ (ys.foldl reachNew s).1 → y ∈ s.1 ∨ y ∈ (ys.foldl reachNew s).2) ∧
      (y ∈ s.2 → y ∈ (ys.foldl reachNew s).2) := by
  induction ys generalizing s with
  | nil => exact ⟨by simp, .inl, id⟩
  | cons z ys ih =>
    rw [List.foldl_cons]
    obtain ⟨hseen, hnew, hkeep⟩ := @ih (reachNew s z)
    by_cases hz : z ∈ s.1
    · have hsame : reachNew s z = s := if_pos hz
      rw [hsame] at hseen hnew hkeep ⊢
      refine ⟨?_, hnew, hkeep⟩
      rw [hseen, List.mem_cons]
      constructor
      · exact fun h => h.imp_right .inr
      · rintro (h | rfl | h)
        · exact .inl h
        · exact .inl hz
        · exact .inr h
    · have hadd : reachNew s z = (s.1 ++ [z], s.2 ++ [z]) := if_neg hz
      rw [hadd] at hseen hnew hkeep ⊢
      refine ⟨?_, ?_, fun h => hkeep (List.mem_append_left _ h)⟩
      · rw [hseen, List.mem_append, List.mem_singleton, List.mem_cons, or_assoc]
      · intro h
        rcases hnew h with h | h
        · rcases List.mem_append.mp h with h | h
          · exact .inl h
          · exact .inr (hkeep (List.mem_append_right _ h))
        · exact .inr h

theorem mem_levels_of_seen (hy : y ∈ s.1) : y ∈ levels next n s := by
  induction n generalizing s with
  | zero => exact hy
  | succ n ih => exact ih (foldl_reachNew.1.mpr (.inl hy))

/-- So many levels find all that is reached in as many steps. -/
theorem mem_levels
    (hdone : ∀ x ∈ s.1, x ∈ s.2 ∨ ∀ y ∈ next x, y ∈ s.1) (hx : x ∈ s.1) (h : Within next n x y) : y ∈ levels next n s := by
  induction n generalizing s x with
  | zero =>
    cases h
    exact hx
  | succ n ih =>
    cases h with
    | refl => exact mem_levels_of_seen hx
    | head hb hrest =>
      -- the successors of all that was seen are seen after one more level
      have hnext : ∀ z ∈ s.1, ∀ y ∈ next z, y ∈ ((s.2.flatMap next).foldl reachNew (s.1, [])).1 := by
        intro z hz y hy
        rcases hdone z hz with hfront | hall
        · exact foldl_reachNew.1.mpr (.inr (List.mem_flatMap.mpr ⟨z, hfront, hy⟩))
        · exact foldl_reachNew.1.mpr (.inl (hall y hy))
      refine ih ?_ (hnext x hx _ hb) hrest
      intro z hz
      rcases foldl_reachNew.2.1 hz with hz | hz
      · exact .inr (hnext z hz)
      · exact .inl hz

end Forest
