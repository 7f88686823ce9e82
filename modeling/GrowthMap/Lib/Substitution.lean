import Mathlib.Algebra.BigOperators.Group.List.Basic
import Mathlib.Data.List.Infix
import Mathlib.Tactic.Linarith

/- Replacement of the matches in a list, from the left and without overlaps.

   A matcher looks at the start of a list; where it matches, it says what to put in place
   and how many elements the match takes beyond the first. `replaceAll` replaces every
   match, and `run` does so for one matcher after the other.

   A matcher that lowers a weight by `k` at least wherever it matches replaces nothing,
   or exactly one match, or lowers the weight twice (`replaceAll_cases`). So a run that
   changes the list and lowers its weight by less than `2 * k` has replaced one match: no
   matcher before it, none after it, and the one itself nowhere else (`run_once`). -/
namespace Substitution

variable {α : Type*}

/-- What a match puts in place, and how many elements it takes beyond the first. -/
abbrev Matcher (α : Type*) := List α → Option (List α × Nat)

/-- The list with its matches replaced, after so many elements that are taken already. -/
def replaceFrom (m : Matcher α) : Nat → List α → List α
  | _, [] => []
  | n + 1, _ :: s => replaceFrom m n s
  | 0, c :: s =>
    match m (c :: s) with
    | none => c :: replaceFrom m 0 s
    | some (put, n) => put ++ replaceFrom m n s

def replaceAll (m : Matcher α) (s : List α) : List α := replaceFrom m 0 s

/-- One matcher after the other. -/
def run (ms : List (Matcher α)) (s : List α) : List α := ms.foldl (fun s m => replaceAll m s) s

/-- The matcher matches somewhere in the list. -/
def Occurs (m : Matcher α) (s : List α) : Prop := ∃ c t, c :: t <:+ s ∧ (m (c :: t)).isSome = true

/-- One match replaced, with none in what follows it. -/
def Once (m : Matcher α) (s t : List α) : Prop :=
  ∃ pre c suf put n, s = pre ++ c :: suf ∧ m (c :: suf) = some (put, n) ∧ ¬ Occurs m (suf.drop n) ∧
    t = pre ++ (put ++ suf.drop n)

/-! Steps -/

variable {ms : List (Matcher α)}

section Steps

variable {m : Matcher α} {c : α} {s put : List α} {n : Nat}

theorem replaceFrom_eq (n : Nat) (s : List α) : replaceFrom m n s = replaceAll m (s.drop n) := by
  induction s generalizing n with
  | nil => cases n <;> simp [replaceFrom, replaceAll]
  | cons c s ih =>
    cases n with
    | zero => rfl
    | succ => rw [replaceFrom, ih, List.drop_succ_cons]

@[simp] theorem replaceAll_nil : replaceAll m [] = [] := by simp [replaceAll, replaceFrom]

theorem replaceAll_none (h : m (c :: s) = none) : replaceAll m (c :: s) = c :: replaceAll m s := by
  simp [replaceAll, replaceFrom, h]

theorem replaceAll_some (h : m (c :: s) = some (put, n)) : replaceAll m (c :: s) = put ++ replaceAll m (s.drop n) := by
  rw [← replaceFrom_eq]
  simp [replaceAll, replaceFrom, h]

theorem not_occurs_nil : ¬ Occurs m [] := by
  intro hoccurs
  obtain ⟨c, t, h, -⟩ := hoccurs
  simp at h

theorem occurs_cons : Occurs m (c :: s) ↔ (m (c :: s)).isSome = true ∨ Occurs m s := by
  constructor
  · rintro ⟨d, t, h, hmatch⟩
    obtain h | h := List.suffix_cons_iff.mp h
    · exact .inl (h ▸ hmatch)
    · exact .inr ⟨d, t, h, hmatch⟩
  · rintro (h | ⟨d, t, h, hmatch⟩)
    · exact ⟨c, s, List.suffix_rfl, h⟩
    · exact ⟨d, t, List.suffix_cons_iff.mpr (.inr h), hmatch⟩

theorem replaceAll_of_not_occurs (h : ¬ Occurs m s) : replaceAll m s = s := by
  induction s with
  | nil => simp
  | cons c s ih =>
    rw [occurs_cons, not_or] at h
    rw [replaceAll_none (by simpa using h.1), ih h.2]

/-- Matches do not reach into what follows, so the two parts are replaced apart. -/
theorem replaceAll_append (a b : List α) (hm : ∀ t, t ≠ [] → m (t ++ b) = m t)
    (hn : ∀ c s put n, m (c :: s) = some (put, n) → n ≤ s.length) :
    replaceAll m (a ++ b) = replaceAll m a ++ replaceAll m b := by
  induction hlength : a.length using Nat.strong_induction_on generalizing a with
  | _ len ih =>
    subst hlength
    cases a with
    | nil => simp
    | cons c s =>
      have hsame : m (c :: (s ++ b)) = m (c :: s) := hm (c :: s) (List.cons_ne_nil c s)
      rw [List.cons_append]
      cases hmatch : m (c :: s) with
      | none =>
        rw [replaceAll_none (hsame.trans hmatch), replaceAll_none hmatch, ih s.length (by simp) s rfl, List.cons_append]
      | some found =>
        obtain ⟨put, n⟩ := found
        have hle := hn c s put n hmatch
        have hshort : (s.drop n).length < (c :: s).length := by
          rw [List.length_drop, List.length_cons]
          omega
        rw [replaceAll_some (hsame.trans hmatch), replaceAll_some hmatch, List.drop_append_of_le_length hle,
          ih _ hshort (s.drop n) rfl, List.append_assoc]

theorem run_append (ms ms' : List (Matcher α)) (s : List α) : run (ms ++ ms') s = run ms' (run ms s) :=
  List.foldl_append

theorem run_cons (m : Matcher α) (ms : List (Matcher α)) (s : List α) : run (m :: ms) s = run ms (replaceAll m s) := rfl

theorem run_of_not_occurs (h : ∀ m ∈ ms, ¬ Occurs m s) : run ms s = s := by
  induction ms with
  | nil => rfl
  | cons m ms ih =>
    rw [run, List.foldl_cons, replaceAll_of_not_occurs (h m List.mem_cons_self)]
    exact ih fun m hm => h m (List.mem_cons_of_mem _ hm)

end Steps

/-! Weights -/

section Weights

variable (ω : α → Int)

def weight (s : List α) : Int := (s.map ω).sum

variable {ω}

@[simp] theorem weight_nil : weight ω [] = 0 := rfl

@[simp] theorem weight_cons (c : α) (s : List α) : weight ω (c :: s) = ω c + weight ω s := by
  simp [weight]

@[simp] theorem weight_append (s t : List α) : weight ω (s ++ t) = weight ω s + weight ω t := by
  simp [weight]

variable (ω)

/-- Every match of the matcher lowers the weight by `k` at least. -/
def Lowers (k : Int) (m : Matcher α) : Prop :=
  ∀ c s put n, m (c :: s) = some (put, n) → weight ω put + weight ω (s.drop n) + k ≤ weight ω (c :: s)

variable {ω} {k : Int} {m : Matcher α}

/-- No match, one match, or at least two. -/
theorem replaceAll_cases (hk : 0 < k) (hm : Lowers ω k m) (s : List α) :
    (¬ Occurs m s ∧ replaceAll m s = s) ∨
      (Once m s (replaceAll m s) ∧ weight ω (replaceAll m s) + k ≤ weight ω s) ∨
      weight ω (replaceAll m s) + 2 * k ≤ weight ω s := by
  -- on the length, since a match goes on behind all that it takes
  induction hlength : s.length using Nat.strong_induction_on generalizing s with
  | _ len ih =>
    cases s with
    | nil => exact .inl ⟨not_occurs_nil, replaceAll_nil⟩
    | cons c s =>
      subst hlength
      cases hmatch : m (c :: s) with
      | none =>
        rw [replaceAll_none hmatch, weight_cons, weight_cons]
        obtain ⟨hnone, hsame⟩ | ⟨⟨pre, d, suf, put, n, hs, hd, hnone, hout⟩, hweight⟩ | hweight :=
          ih s.length (by simp) s rfl
        · refine .inl ⟨?_, by rw [hsame]⟩
          rw [occurs_cons, not_or]
          exact ⟨by simp [hmatch], hnone⟩
        · refine .inr (.inl ⟨⟨c :: pre, d, suf, put, n, ?_, hd, hnone, ?_⟩, by linarith⟩)
          · rw [hs, List.cons_append]
          · rw [hout, List.cons_append]
        · exact .inr (.inr (by linarith))
      | some found =>
        obtain ⟨put, n⟩ := found
        have hlower := hm c s put n hmatch
        have hshort : (s.drop n).length < (c :: s).length := by
          rw [List.length_drop, List.length_cons]
          omega
        rw [replaceAll_some hmatch, weight_append]
        obtain ⟨hnone, hsame⟩ | ⟨-, hweight⟩ | hweight := ih _ hshort (s.drop n) rfl
        · refine .inr (.inl ⟨⟨[], c, s, put, n, rfl, hmatch, hnone, ?_⟩, ?_⟩)
          · rw [hsame, List.nil_append]
          · rw [hsame]
            exact hlower
        · exact .inr (.inr (by linarith))
        · exact .inr (.inr (by linarith))

theorem weight_replaceAll (hk : 0 < k) (hm : Lowers ω k m) (s : List α) :
    weight ω (replaceAll m s) ≤ weight ω s := by
  obtain ⟨-, h⟩ | ⟨-, h⟩ | h := replaceAll_cases hk hm s
  · rw [h]
  · linarith
  · linarith

theorem weight_run (hk : 0 < k) (hms : ∀ m ∈ ms, Lowers ω k m) (s : List α) :
    weight ω (run ms s) ≤ weight ω s := by
  induction ms generalizing s with
  | nil => exact le_refl _
  | cons m ms ih =>
    calc weight ω (run (m :: ms) s) = weight ω (run ms (replaceAll m s)) := rfl
      _ ≤ weight ω (replaceAll m s) := ih (fun m hm => hms m (List.mem_cons_of_mem _ hm)) _
      _ ≤ weight ω s := weight_replaceAll hk (hms m List.mem_cons_self) s

variable {s : List α}

/-- A run that lowers the weight by less than `k` changes nothing. -/
theorem run_unchanged (hk : 0 < k) (hms : ∀ m ∈ ms, Lowers ω k m)
    (hweight : weight ω s < weight ω (run ms s) + k) : ∀ m ∈ ms, ¬ Occurs m s := by
  induction ms with
  | nil => simp
  | cons m ms ih =>
    have hrest : ∀ m ∈ ms, Lowers ω k m := fun m hm => hms m (List.mem_cons_of_mem _ hm)
    have hrun : weight ω (run (m :: ms) s) ≤ weight ω (replaceAll m s) := weight_run hk hrest _
    obtain ⟨hnone, hsame⟩ | ⟨-, h⟩ | h := replaceAll_cases hk (hms m List.mem_cons_self) s
    · have hnext : run (m :: ms) s = run ms s := by rw [run, List.foldl_cons, hsame, run]
      rw [hnext] at hweight
      exact List.forall_mem_cons.mpr ⟨hnone, ih hrest hweight⟩
    · linarith
    · linarith

/-- A run that changes the list, and lowers its weight by less than `2 * k`, replaces one match. -/
theorem run_once (hk : 0 < k) (hms : ∀ m ∈ ms, Lowers ω k m)
    (hchanged : run ms s ≠ s) (hweight : weight ω s < weight ω (run ms s) + 2 * k) :
    ∃ before m after, ms = before ++ m :: after ∧ (∀ b ∈ before, ¬ Occurs b s) ∧ Once m s (run ms s) ∧
      ∀ a ∈ after, ¬ Occurs a (run ms s) := by
  induction ms with
  | nil => exact absurd rfl hchanged
  | cons m ms ih =>
    have hrest : ∀ m ∈ ms, Lowers ω k m := fun m hm => hms m (List.mem_cons_of_mem _ hm)
    have hnext : run (m :: ms) s = run ms (replaceAll m s) := rfl
    have hrun : weight ω (run ms (replaceAll m s)) ≤ weight ω (replaceAll m s) := weight_run hk hrest _
    obtain ⟨hnone, hsame⟩ | ⟨honce, h⟩ | h := replaceAll_cases hk (hms m List.mem_cons_self) s
    · rw [hnext, hsame] at hchanged hweight ⊢
      obtain ⟨before, m', after, rfl, hbefore, honce, hafter⟩ := ih hrest hchanged hweight
      exact ⟨m :: before, m', after, rfl, List.forall_mem_cons.mpr ⟨hnone, hbefore⟩, honce, hafter⟩
    · -- the rest of the run lowers the weight by less than `k`
      have hafter : ∀ a ∈ ms, ¬ Occurs a (replaceAll m s) :=
        run_unchanged hk hrest (by rw [hnext] at hweight; linarith)
      rw [hnext, run_of_not_occurs hafter]
      exact ⟨[], m, ms, rfl, by simp, honce, hafter⟩
    · rw [hnext] at hweight
      linarith

end Weights

end Substitution
