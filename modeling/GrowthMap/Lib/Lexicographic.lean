import Mathlib.Order.Compare
import Mathlib.Tactic.Common
import Mathlib.Tactic.Ring

/- Orders decided piece by piece.

   `cmpNat` compares two numbers, `List.compareLex cmpNat` two texts of codes, and `then` asks
   the next piece where the first one ties. Two facts say how these meet: pieces of equal
   length are compared one after the other (`compareLex_append`), and a number made of a
   quotient and a remainder is compared by its quotient first (`cmpNat_radix`). `binary` is
   the order of two texts by the bytes of their UTF-8 form, as a database compares them. -/
namespace Lexicographic

def cmpNat (a b : Nat) : Ordering := @cmp Nat instLTNat Nat.decLt a b

@[simp] theorem cmpNat_self (a : Nat) : cmpNat a a = .eq := cmp_self_eq_eq a

variable {a b : Nat} {xs ys : List Nat}

theorem cmpNat_eq_lt : cmpNat a b = .lt ↔ a < b := cmp_eq_lt_iff a b

theorem cmpNat_eq_gt : cmpNat a b = .gt ↔ b < a := cmp_eq_gt_iff a b

theorem cmpNat_eq_eq : cmpNat a b = .eq ↔ a = b := cmp_eq_eq_iff a b

theorem cmpNat_split {v v' q q' r r' : Nat} (hlt : q < q' → v < v') (hgt : q' < q → v' < v)
    (htie : q = q' → cmpNat v v' = cmpNat r r') : cmpNat v v' = (cmpNat q q').then (cmpNat r r') := by
  rcases Nat.lt_trichotomy q q' with h | h | h
  · rw [cmpNat_eq_lt.mpr h, cmpNat_eq_lt.mpr (hlt h), Ordering.lt_then]
  · rw [cmpNat_eq_eq.mpr h, Ordering.eq_then, htie h]
  · rw [cmpNat_eq_gt.mpr h, cmpNat_eq_gt.mpr (hgt h), Ordering.gt_then]

theorem cmpNat_add_left (a b c : Nat) : cmpNat (a + b) (a + c) = cmpNat b c := by
  rcases Nat.lt_trichotomy b c with h | h | h
  · rw [cmpNat_eq_lt.mpr h, cmpNat_eq_lt.mpr (Nat.add_lt_add_left h a)]
  · rw [h, cmpNat_self, cmpNat_self]
  · rw [cmpNat_eq_gt.mpr h, cmpNat_eq_gt.mpr (Nat.add_lt_add_left h a)]

theorem cmpNat_radix {k q q' r r' : Nat} (hr : r < k) (hr' : r' < k) :
    cmpNat (q * k + r) (q' * k + r') = (cmpNat q q').then (cmpNat r r') := by
  have hstep : ∀ {a b s t : Nat}, s < k → a < b → a * k + s < b * k + t := by
    intro a b s t hs hab
    calc a * k + s < a * k + k := Nat.add_lt_add_left hs _
      _ = (a + 1) * k := (Nat.succ_mul a k).symm
      _ ≤ b * k := Nat.mul_le_mul_right k hab
      _ ≤ b * k + t := Nat.le_add_right _ _
  refine cmpNat_split (hstep hr) (hstep hr') ?_
  intro h
  rw [h, cmpNat_add_left]

theorem cmpNat_div_mod {k : Nat} (hk : 0 < k) (a b : Nat) :
    cmpNat a b = (cmpNat (a / k) (b / k)).then (cmpNat (a % k) (b % k)) := by
  have h := @cmpNat_radix k (a / k) (b / k) (a % k) (b % k) (Nat.mod_lt a hk) (Nat.mod_lt b hk)
  rwa [Nat.div_add_mod', Nat.div_add_mod'] at h

variable {α : Type} {c : α → α → Ordering}

theorem compareLex_append {xs ys us vs : List α} (h : xs.length = ys.length) :
    List.compareLex c (xs ++ us) (ys ++ vs) = (List.compareLex c xs ys).then (List.compareLex c us vs) := by
  induction xs generalizing ys with
  | nil =>
    rw [List.eq_nil_of_length_eq_zero h.symm]
    rfl
  | cons x xs ih =>
    cases ys with
    | nil => cases h
    | cons =>
      rw [List.cons_append, List.cons_append, List.compareLex_cons_cons, List.compareLex_cons_cons,
        ih (Nat.succ.inj h), Ordering.then_assoc]

theorem compareLex_singleton (x y : α) : List.compareLex c [x] [y] = c x y := by
  rw [List.compareLex_cons_cons, List.compareLex_nil_nil, Ordering.then_eq]

theorem compareLex_self : List.compareLex cmpNat xs xs = .eq := by
  induction xs with
  | nil => rfl
  | cons x xs ih => rw [List.compareLex_cons_cons, cmpNat_self, Ordering.eq_then, ih]

theorem compareLex_eq_eq : List.compareLex cmpNat xs ys = .eq ↔ xs = ys := by
  constructor
  · induction xs generalizing ys with
    | nil =>
      cases ys with
      | nil => exact fun _ => rfl
      | cons =>
        intro h
        cases h
    | cons x xs ih =>
      cases ys with
      | nil =>
        intro h
        cases h
      | cons =>
        rw [List.compareLex_cons_cons, Ordering.then_eq_eq, cmpNat_eq_eq]
        rintro ⟨rfl, htail⟩
        rw [ih htail]
  · rintro rfl
    exact compareLex_self

theorem compareLex_eq_lt : List.compareLex cmpNat xs ys = .lt ↔ List.Lex (· < ·) xs ys := by
  induction xs generalizing ys with
  | nil =>
    cases ys with
    | nil => simp [List.compareLex_nil_nil]
    | cons => simp [List.compareLex_nil_cons]
  | cons x xs ih =>
    cases ys with
    | nil => simp [List.compareLex_cons_nil]
    | cons =>
      rw [List.compareLex_cons_cons, Ordering.then_eq_lt, cmpNat_eq_lt, cmpNat_eq_eq, List.cons_lex_cons_iff, ih]

/-! Texts -/

/-- The bytes of a text. -/
def utf8 (s : String) : List Nat := (s.toList.flatMap String.utf8EncodeChar).map UInt8.toNat

/-- `memcmp` of two texts, a proper prefix first. -/
def binary (a b : String) : Ordering := List.compareLex cmpNat (utf8 a) (utf8 b)

theorem utf8EncodeChar_ascii {c : Char} (h : c.toNat < 128) :
    (String.utf8EncodeChar c).map UInt8.toNat = [c.toNat] := by
  have hsize : c.utf8Size = 1 := by
    rw [Char.utf8Size_eq_one_iff, UInt32.le_iff_toNat_le]
    exact Nat.le_of_lt_succ h
  have hcode : c.val.toNat % 256 = c.val.toNat := Nat.mod_eq_of_lt (Nat.lt_trans h (by decide))
  rw [String.utf8EncodeChar_eq_singleton hsize, List.map_singleton, UInt32.toNat_toUInt8, hcode]
  rfl

theorem utf8_ascii {cs : List Char} (h : ∀ c ∈ cs, c.toNat < 128) : utf8 (String.ofList cs) = cs.map Char.toNat := by
  rw [utf8, String.toList_ofList]
  induction cs with
  | nil => rfl
  | cons c cs ih =>
    rw [List.flatMap_cons, List.map_append, utf8EncodeChar_ascii (h c List.mem_cons_self),
      ih (fun d hd => h d (List.mem_cons_of_mem c hd)), List.map_cons, List.singleton_append]

end Lexicographic
