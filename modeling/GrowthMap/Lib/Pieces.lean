import Mathlib.Data.List.SplitBy

/- Lists cut where neighbours do not stick together, the blanks dropped.

   The pieces of a list are the longest runs of neighbours that stick together.
   A blank sticks to nothing, so blanks between two pieces can be added or dropped
   as long as the pieces do not come to stick. -/
namespace Pieces

/-- Which neighbours stick together, and which elements are blank. -/
structure Cutter (α : Type) where
  glues : α → α → Bool
  blank : α → Bool
  blank_left : ∀ x y, blank x = true → glues x y = false
  blank_right : ∀ x y, blank y = true → glues x y = false

variable {α : Type} (C : Cutter α)

/-- Something of it is not blank. -/
def Cutter.solid (p : List α) : Bool := !p.all C.blank

def Cutter.pieces (s : List α) : List (List α) := (s.splitBy C.glues).filter C.solid

/-- Nothing sticks together where the two lists meet. -/
def Cutter.Apart (a b : List α) : Prop := ∀ x ∈ a.getLast?, ∀ y ∈ b.head?, C.glues x y = false

variable {C} {a b w s : List α} {x y : α}

@[simp] theorem pieces_nil : C.pieces [] = [] := rfl

theorem pieces_append (h : C.Apart a b) : C.pieces (a ++ b) = C.pieces a ++ C.pieces b := by
  rw [Cutter.pieces, List.splitBy_append h, List.filter_append]
  rfl

theorem apart_blank_left (hx : C.blank x = true) : C.Apart (a ++ [x]) b := by
  intro z hz y hy
  rw [List.getLast?_concat] at hz
  cases hz
  exact C.blank_left x y hx

theorem apart_blank_right (hx : C.blank x = true) : C.Apart a (x :: b) := by
  intro z _ y hy
  cases hy
  exact C.blank_right z x hx

theorem pieces_singleton (h : C.blank x = false) : C.pieces [x] = [[x]] := by
  simp [Cutter.pieces, Cutter.solid, List.splitBy, List.splitBy.loop, h]

theorem pieces_blank_singleton (h : C.blank x = true) : C.pieces [x] = [] := by
  simp [Cutter.pieces, Cutter.solid, List.splitBy, List.splitBy.loop, h]

theorem pieces_cons_blank (h : C.blank x = true) : C.pieces (x :: s) = C.pieces s := by
  have happart : C.Apart ([] ++ [x]) s := apart_blank_left h
  calc C.pieces (x :: s) = C.pieces [x] ++ C.pieces s := pieces_append happart
    _ = C.pieces s := by rw [pieces_blank_singleton h, List.nil_append]

theorem pieces_blanks (hw : ∀ x ∈ w, C.blank x = true) : C.pieces (w ++ s) = C.pieces s := by
  induction w with
  | nil => rfl
  | cons x w ih =>
    rw [List.cons_append, pieces_cons_blank (hw x List.mem_cons_self)]
    exact ih (fun y hy => hw y (List.mem_cons_of_mem _ hy))

theorem pieces_gap (h : C.blank x = true) : C.pieces (a ++ x :: b) = C.pieces a ++ C.pieces b := by
  rw [pieces_append (apart_blank_right h), pieces_cons_blank h]

theorem pieces_concat_blank (h : C.blank x = true) : C.pieces (a ++ [x]) = C.pieces a := by
  rw [pieces_gap h, pieces_nil, List.append_nil]

theorem solid_of_mem (hx : x ∈ s) (h : C.blank x = false) : C.solid s = true := by
  rw [Cutter.solid, Bool.not_eq_true', List.all_eq_false]
  exact ⟨x, hx, by simp [h]⟩

theorem exists_piece (hx : x ∈ s) (h : C.blank x = false) : ∃ p ∈ C.pieces s, x ∈ p := by
  rw [← List.flatten_splitBy C.glues s, List.mem_flatten] at hx
  obtain ⟨p, hp, hx⟩ := hx
  exact ⟨p, List.mem_filter.mpr ⟨hp, solid_of_mem hx h⟩, hx⟩

theorem pieces_cons (h : C.blank x = false) : ∃ p ps, C.pieces (x :: s) = (x :: p) :: ps := by
  have hjoin := List.flatten_splitBy C.glues (x :: s)
  cases hsplit : (x :: s).splitBy C.glues with
  | nil =>
    rw [hsplit] at hjoin
    cases hjoin
  | cons p ps =>
    have hne : p ≠ [] := List.ne_nil_of_mem_splitBy (hsplit ▸ List.mem_cons_self)
    obtain ⟨y, p, rfl⟩ := List.exists_cons_of_ne_nil hne
    rw [hsplit] at hjoin
    obtain rfl : y = x := (List.cons.inj hjoin).1
    refine ⟨p, ps.filter C.solid, ?_⟩
    rw [Cutter.pieces, hsplit, List.filter_cons_of_pos (solid_of_mem List.mem_cons_self h)]

theorem pieces_concat (h : C.blank x = false) : ∃ ps p, C.pieces (s ++ [x]) = ps ++ [p ++ [x]] := by
  have hjoin := List.flatten_splitBy C.glues (s ++ [x])
  rcases List.eq_nil_or_concat ((s ++ [x]).splitBy C.glues) with hsplit | ⟨ps, p, hsplit⟩
  · rw [hsplit] at hjoin
    simp at hjoin
  · rw [List.concat_eq_append] at hsplit
    have hne : p ≠ [] := List.ne_nil_of_mem_splitBy (hsplit ▸ List.mem_append_right _ List.mem_cons_self)
    obtain ⟨p, y, rfl⟩ := (List.eq_nil_or_concat p).resolve_left hne
    rw [List.concat_eq_append] at hsplit
    rw [hsplit, List.flatten_append, List.flatten_singleton, ← List.append_assoc] at hjoin
    obtain rfl : y = x := by simpa using (List.append_inj' hjoin rfl).2
    refine ⟨ps.filter C.solid, p, ?_⟩
    have hsolid : C.solid (p ++ [y]) = true := solid_of_mem (List.mem_append_right _ List.mem_cons_self) h
    rw [Cutter.pieces, hsplit, List.filter_append, List.filter_cons_of_pos hsolid, List.filter_nil]

end Pieces
