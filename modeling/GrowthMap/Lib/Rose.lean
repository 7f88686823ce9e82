import Mathlib.Data.List.Basic
import Mathlib.Tactic.Common

/- Labelled trees with ordered children.

   An edit of a tree is one of two recursions: `alter` rewrites every topmost subtree whose
   label is selected and leaves the rest, `prune` takes out every subtree below the root whose
   label is selected. Both are described by what they do to the labels, so that an invariant
   over labels never looks at the shape of the tree. -/

inductive Rose (α : Type) where
  | node (label : α) (children : List (Rose α))

namespace Rose

variable {α β : Type}

def label : Rose α → α
  | .node a _ => a

def children : Rose α → List (Rose α)
  | .node _ ts => ts

@[simp] theorem label_node (a : α) (ts : List (Rose α)) : (node a ts).label = a := rfl

@[simp] theorem children_node (a : α) (ts : List (Rose α)) : (node a ts).children = ts := rfl

theorem induction {P : Rose α → Prop} (h : ∀ a ts, (∀ t ∈ ts, P t) → P (.node a ts)) (t : Rose α) : P t := by
  refine @Rose.rec α P (fun ts => ∀ t ∈ ts, P t) (fun a ts ih => h a ts ih) ?_ ?_ t
  · intro t ht
    cases ht
  · intro t ts ht hts u hu
    rcases List.mem_cons.mp hu with rfl | hu
    · exact ht
    · exact hts u hu

/-! Labels -/

mutual
/-- The labels of a tree, the root first. -/
def labels : Rose α → List α
  | .node a ts => a :: labelsAll ts
def labelsAll : List (Rose α) → List α
  | [] => []
  | t :: ts => t.labels ++ labelsAll ts
end

variable {a b : α} {ts : List (Rose α)} {p : α → Bool} {f : Rose α → Rose α}

theorem mem_labelsAll : a ∈ labelsAll ts ↔ ∃ t ∈ ts, a ∈ t.labels := by
  induction ts with
  | nil => simp [labelsAll]
  | cons t ts ih => simp [labelsAll, ih]

theorem mem_labels : a ∈ (node b ts).labels ↔ a = b ∨ ∃ t ∈ ts, a ∈ t.labels := by
  rw [labels, List.mem_cons, mem_labelsAll]

theorem label_mem_labels (t : Rose α) : t.label ∈ t.labels := by
  cases t with
  | node => exact mem_labels.mpr (.inl rfl)

mutual
/-- The subtrees of a tree, itself first. -/
def subtrees : Rose α → List (Rose α)
  | .node a ts => .node a ts :: subtreesAll ts
def subtreesAll : List (Rose α) → List (Rose α)
  | [] => []
  | t :: ts => t.subtrees ++ subtreesAll ts
end

theorem subtreesAll_eq (ts : List (Rose α)) : subtreesAll ts = ts.flatMap subtrees := by
  induction ts with
  | nil => rfl
  | cons t ts ih => rw [subtreesAll, ih, List.flatMap_cons]

theorem subtrees_eq (t : Rose α) : t.subtrees = t :: t.children.flatMap subtrees := by
  cases t with
  | node => rw [subtrees, subtreesAll_eq, children_node]

/-! Relabelling -/

mutual
/-- The tree with its labels changed. -/
def map (f : α → β) : Rose α → Rose β
  | .node a ts => .node (f a) (mapAll f ts)
def mapAll (f : α → β) : List (Rose α) → List (Rose β)
  | [] => []
  | t :: ts => t.map f :: mapAll f ts
end

theorem mapAll_eq (f : α → β) (ts : List (Rose α)) : mapAll f ts = ts.map (map f) := by
  induction ts with
  | nil => rfl
  | cons t ts ih => rw [mapAll, ih, List.map_cons]

theorem map_node (f : α → β) (a : α) (ts : List (Rose α)) : (node a ts).map f = .node (f a) (ts.map (map f)) := by
  rw [map, mapAll_eq]

/-! Search -/

mutual
/-- The first subtree, the root first, whose label is selected. -/
def find? (p : α → Bool) : Rose α → Option (Rose α)
  | .node a ts => if p a then some (.node a ts) else findAll? p ts
def findAll? (p : α → Bool) : List (Rose α) → Option (Rose α)
  | [] => none
  | t :: ts => (t.find? p).or (findAll? p ts)
end

/-! Edits below a label -/

mutual
/-- Every topmost subtree whose label is selected, rewritten. -/
def alter (p : α → Bool) (f : Rose α → Rose α) : Rose α → Rose α
  | .node a ts => if p a then f (.node a ts) else .node a (alterAll p f ts)
def alterAll (p : α → Bool) (f : Rose α → Rose α) : List (Rose α) → List (Rose α)
  | [] => []
  | t :: ts => t.alter p f :: alterAll p f ts
end

theorem alterAll_eq (p : α → Bool) (f : Rose α → Rose α) (ts : List (Rose α)) : alterAll p f ts = ts.map (alter p f) := by
  induction ts with
  | nil => rfl
  | cons t ts ih => rw [alterAll, ih, List.map_cons]

theorem alter_node (p : α → Bool) (f : Rose α → Rose α) (a : α) (ts : List (Rose α)) :
    (node a ts).alter p f = if p a then f (node a ts) else node a (ts.map (alter p f)) := by
  rw [alter, alterAll_eq]

/-- What the rewriting keeps of a subtree, up to `q`, `alter` keeps of the tree. -/
theorem exists_mem_alter {q : α → α → Prop} (hq : ∀ a, q a a)
    (hf : ∀ s, p s.label = true → ∀ a ∈ s.labels, ∃ b ∈ (f s).labels, q a b) (t : Rose α) :
    ∀ a ∈ t.labels, ∃ b ∈ (t.alter p f).labels, q a b := by
  induction t using Rose.induction with
  | h c ts ih =>
    intro a ha
    rw [alter_node]
    split
    · exact hf (node c ts) ‹_› a ha
    · rcases mem_labels.mp ha with rfl | ⟨t, ht, hat⟩
      · exact ⟨a, mem_labels.mpr (.inl rfl), hq a⟩
      · obtain ⟨b, hb, hab⟩ := ih t ht a hat
        exact ⟨b, mem_labels.mpr (.inr ⟨_, List.mem_map_of_mem ht, hb⟩), hab⟩

theorem mem_alter_of_selected (hf : ∀ s, p s.label = true → b ∈ (f s).labels) (t : Rose α) :
    (∃ a ∈ t.labels, p a = true) → b ∈ (t.alter p f).labels := by
  induction t using Rose.induction with
  | h c ts ih =>
    rintro ⟨a, ha, hpa⟩
    rw [alter_node]
    split
    · exact hf (node c ts) ‹_›
    · rcases mem_labels.mp ha with rfl | ⟨t, ht, hat⟩
      · contradiction
      · exact mem_labels.mpr (.inr ⟨_, List.mem_map_of_mem ht, ih t ht ⟨a, hat, hpa⟩⟩)

/-! Removal -/

mutual
/-- Every subtree below the root whose label is selected, taken out. -/
def prune (p : α → Bool) : Rose α → Rose α
  | .node a ts => .node a (pruneAll p ts)
def pruneAll (p : α → Bool) : List (Rose α) → List (Rose α)
  | [] => []
  | t :: ts => if p t.label then pruneAll p ts else t.prune p :: pruneAll p ts
end

theorem pruneAll_eq (p : α → Bool) (ts : List (Rose α)) :
    pruneAll p ts = (ts.filter (fun t => !p t.label)).map (prune p) := by
  induction ts with
  | nil => rfl
  | cons t ts ih =>
    rw [pruneAll, ih, List.filter_cons]
    cases p t.label with
    | true => rfl
    | false => rfl

theorem prune_node (p : α → Bool) (a : α) (ts : List (Rose α)) :
    (node a ts).prune p = node a ((ts.filter (fun t => !p t.label)).map (prune p)) := by
  rw [prune, pruneAll_eq]

mutual
/-- The labels of the topmost subtrees whose label is selected. -/
def under (p : α → Bool) : Rose α → List α
  | .node a ts => if p a then (node a ts).labels else underAll p ts
def underAll (p : α → Bool) : List (Rose α) → List α
  | [] => []
  | t :: ts => t.under p ++ underAll p ts
end

theorem mem_underAll : a ∈ underAll p ts ↔ ∃ t ∈ ts, a ∈ t.under p := by
  induction ts with
  | nil => simp [underAll]
  | cons t ts ih => simp [underAll, ih]

theorem under_of_selected {t : Rose α} (h : p t.label = true) : t.under p = t.labels := by
  cases t with
  | node =>
    rw [label_node] at h
    rw [under, if_pos h]

theorem mem_prune_or_under (t : Rose α) : ∀ a ∈ t.labels, a ∈ (t.prune p).labels ∨ a ∈ t.under p := by
  induction t using Rose.induction with
  | h c ts ih =>
    intro a ha
    rw [prune_node, under]
    split
    · exact .inr ha
    · rcases mem_labels.mp ha with rfl | ⟨t, ht, hat⟩
      · exact .inl (mem_labels.mpr (.inl rfl))
      · cases hp : p t.label with
        | true =>
          right
          exact mem_underAll.mpr ⟨t, ht, by rw [under_of_selected hp]; exact hat⟩
        | false =>
          have hkept : t ∈ ts.filter (fun t => !p t.label) := List.mem_filter.mpr ⟨ht, by rw [hp]; rfl⟩
          rcases ih t ht a hat with hin | hout
          · exact .inl (mem_labels.mpr (.inr ⟨_, List.mem_map_of_mem hkept, hin⟩))
          · exact .inr (mem_underAll.mpr ⟨t, ht, hout⟩)

end Rose
