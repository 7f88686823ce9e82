import GrowthMap.Lib.Decimal
import Mathlib.Tactic.LinearCombination

/- The amount of a PayPal attestation (service.py, `paypal_minor`).

   A decimal text becomes an integer number of cents. Reading is exact, and what has
   more than two decimal places is refused, so `quantize` only ever appends zeros; with
   the 28 digits of the default context it fails where that makes a coefficient of more
   than 28, and its `InvalidOperation` is not the `ValueError` that everything else
   wrong with a text is. The product by a hundred then has up to 30 digits, but the two
   that are cut off are zeros. So below 10^26 the cents are exact, and from there on the
   wrong exception escapes (`paypal_minor_iff`). -/
namespace GrowthMap.Payments.Paypal
open PyDecimal

inductive Raised where
  | valueError (message : String)
  | invalidOperation
  deriving DecidableEq

/-- `getcontext().prec`, by default. -/
def prec : Nat := 28

section Amount

variable (T : Tables)

/-- `paypal_minor`, of a string. -/
def paypalMinor (value : Text) : Except Raised Int :=
  if value.any (fun n => n == 101 || n == 69) then .error (.valueError "PayPal amount must be a decimal string")
  else match ofString T value with
    | none => .error (.valueError "invalid PayPal amount")
    | some (.finite d) =>
      if d.negative || d.coefficient == 0 || d.exponent < -2 then
        .error (.valueError "PayPal amount must have at most two decimal places")
      else match quantize prec d (-2) with
        | none => .error .invalidOperation
        | some d => .ok (toInt (mul prec d ⟨false, 100, 0⟩))
    | some _ => .error (.valueError "PayPal amount must have at most two decimal places")

/-- The text is read exactly or refused with a `ValueError`. -/
def Exact (value : Text) : Prop :=
  match paypalMinor T value with
  | .ok n => ∃ d, ofString T value = some (.finite d) ∧ d.value = (n : Rat) / 100
  | .error (.valueError _) => True
  | .error .invalidOperation => False

/-- A positive number with two decimal places at most, of 10^26 or more. -/
def Huge (value : Text) : Prop :=
  value.any (fun n => n == 101 || n == 69) = false ∧ ∃ d, ofString T value = some (.finite d) ∧ -2 ≤ d.exponent ∧ (10 : Rat) ^ 26 ≤ d.value

end Amount

variable {T : Tables} {value : Text} {d : Finite}

/-- The number of cents is what `quantize` makes of the coefficient. -/
theorem value_cents (hpos : d.negative = false) (hexp : -2 ≤ d.exponent) :
    d.value * 100 = (d.coefficient * 10 ^ (d.exponent - -2).toNat : Nat) := by
  have hshift := zpow_sub_toNat (e := d.exponent) (q := -2) hexp
  have hhundred : (10 : Rat) ^ (-2 : Int) * 100 = 1 := by norm_num
  rw [Finite.value, hpos, if_neg Bool.false_ne_true, one_mul, ← hshift]
  push_cast
  linear_combination (d.coefficient : Rat) * (10 : Rat) ^ (d.exponent - -2).toNat * hhundred

theorem mul_hundred_value (h : d.coefficient < 10 ^ prec) :
    (mul prec d ⟨false, 100, 0⟩).value = d.value * 100 := by
  have hdigits : numDigits (d.coefficient * 100) - prec ≤ 2 := by
    have hlt : d.coefficient * 100 < 10 ^ (prec + 2) := by
      rw [Nat.pow_add]
      exact Nat.mul_lt_mul_of_pos_right h (by decide)
    have hle := (numDigits_le (Nat.succ_pos _)).mpr hlt
    omega
  rw [mul, rounded_value (by decide)]
  · simp only [Finite.value, Bool.bne_false, add_zero]
    push_cast
    ring
  · have hpow : 10 ^ (numDigits (d.coefficient * 100) - prec) ∣ 10 ^ 2 := Nat.pow_dvd_pow 10 hdigits
    exact hpow.trans ⟨d.coefficient, Nat.mul_comm _ _⟩

theorem huge_iff (he : value.any (fun n => n == 101 || n == 69) = false) (hd : ofString T value = some (.finite d)) :
    Huge T value ↔ -2 ≤ d.exponent ∧ (10 : Rat) ^ 26 ≤ d.value := by
  rw [Huge, hd]
  constructor
  · rintro ⟨-, d', hd', h⟩
    cases hd'
    exact h
  · exact fun h => ⟨he, d, rfl, h⟩

/-- A positive number with two decimal places at most is exact in cents, if they have 28 digits at most. -/
theorem exact_cents (hneg : d.negative = false) (hexp : -2 ≤ d.exponent) :
    match quantize prec d (-2) with
    | none => (10 : Rat) ^ 26 ≤ d.value
    | some d' => d.value < (10 : Rat) ^ 26 ∧ d.value = (toInt (mul prec d' ⟨false, 100, 0⟩) : Rat) / 100 := by
  obtain ⟨hsome, hfits⟩ := quantize_value (show 0 < prec by decide) hexp
  have hcents := value_cents hneg hexp
  have hbound : d.coefficient * 10 ^ (d.exponent - -2).toNat < 10 ^ prec ↔ d.value < (10 : Rat) ^ 26 := by
    have hcast : ((10 ^ prec : Nat) : Rat) = (10 : Rat) ^ 26 * 100 := by norm_num [prec]
    rw [← @Nat.cast_lt Rat, ← hcents, hcast]
    exact mul_lt_mul_iff_of_pos_right (by norm_num)
  cases hq : quantize prec d (-2) with
  | none =>
    rw [hq] at hfits
    have hnot : ¬ d.value < (10 : Rat) ^ 26 := fun h => by simpa using hfits.mpr (hbound.mpr h)
    exact not_lt.mp hnot
  | some d' =>
    obtain ⟨hvalue, -, -, hshort⟩ := hsome d' hq
    rw [hq] at hfits
    refine ⟨hbound.mp (hfits.mp rfl), ?_⟩
    have hprod : (mul prec d' ⟨false, 100, 0⟩).value = ((d.coefficient * 10 ^ (d.exponent - -2).toNat : Nat) : Int) := by
      rw [mul_hundred_value hshort, hvalue, hcents, Int.cast_natCast]
    rw [toInt_of_value hprod, Int.cast_natCast, ← hcents]
    linarith

/-- Every text is read exactly or refused, but the huge ones. -/
theorem paypal_minor_iff (T : Tables) (value : Text) : Exact T value ↔ ¬ Huge T value := by
  rw [Exact]
  cases he : value.any (fun n => n == 101 || n == 69) with
  | true =>
    rw [paypalMinor, if_pos he]
    exact iff_of_true trivial fun h => by rw [Huge, he] at h; exact Bool.noConfusion h.1
  | false =>
    have hnone : (∀ d, ofString T value ≠ some (.finite d)) → ¬ Huge T value := fun h hhuge => by
      obtain ⟨-, d, hd, -⟩ := hhuge
      exact h d hd
    rw [paypalMinor, if_neg (by rw [he]; exact Bool.false_ne_true)]
    cases hd : ofString T value with
    | none => exact iff_of_true trivial (hnone fun d h => by rw [hd] at h; cases h)
    | some read =>
      cases read with
      | infinite negative => exact iff_of_true trivial (hnone fun d h => by rw [hd] at h; cases h)
      | nan => exact iff_of_true trivial (hnone fun d h => by rw [hd] at h; cases h)
      | finite d =>
        rw [huge_iff he hd]
        dsimp only
        by_cases hrefused : (d.negative || d.coefficient == 0 || decide (d.exponent < -2)) = true
        · rw [if_pos hrefused]
          refine iff_of_true trivial ?_
          rintro ⟨hexp, hvalue⟩
          rw [Bool.or_eq_true, Bool.or_eq_true, beq_iff_eq, decide_eq_true_eq] at hrefused
          have hpow : (0 : Rat) < (10 : Rat) ^ d.exponent := zpow_pos (by norm_num) _
          rcases hrefused with (hneg | hzero) | hplaces
          · have hnonpos : d.value ≤ 0 := by
              rw [Finite.value, if_pos hneg]
              have hprod : 0 ≤ (d.coefficient : Rat) * (10 : Rat) ^ d.exponent := mul_nonneg (Nat.cast_nonneg _) hpow.le
              linarith
            linarith [show (0 : Rat) < (10 : Rat) ^ 26 by norm_num]
          · have hnil : d.value = 0 := by rw [Finite.value, hzero]; simp
            linarith [show (0 : Rat) < (10 : Rat) ^ 26 by norm_num]
          · omega
        · rw [if_neg hrefused]
          rw [Bool.or_eq_true, Bool.or_eq_true, not_or, not_or, Bool.not_eq_true, beq_iff_eq, decide_eq_true_eq, not_lt] at hrefused
          obtain ⟨⟨hneg, -⟩, hexp⟩ := hrefused
          have hcents := exact_cents hneg hexp
          cases hq : quantize prec d (-2) with
          | none =>
            rw [hq] at hcents
            exact iff_of_false id fun h => h ⟨hexp, hcents⟩
          | some d' =>
            rw [hq] at hcents
            refine iff_of_true ⟨d, rfl, hcents.2⟩ ?_
            rintro ⟨-, hvalue⟩
            linarith [hcents.1]

def asciiTables : Tables := ⟨fun n => n == 32 || (9 ≤ n && n ≤ 13) || (28 ≤ n && n ≤ 31), fun _ => none⟩

/-- A one and twenty-six zeros. -/
theorem huge_amount_escapes : paypalMinor asciiTables (49 :: List.replicate 26 48) = .error .invalidOperation ∧
    ¬ Exact asciiTables (49 :: List.replicate 26 48) := by
  have hraised : paypalMinor asciiTables (49 :: List.replicate 26 48) = .error .invalidOperation := by
    decide +kernel
  refine ⟨hraised, ?_⟩
  rw [Exact, hraised]
  exact id

end GrowthMap.Payments.Paypal
