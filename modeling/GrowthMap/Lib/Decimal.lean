import Mathlib.Algebra.Order.Field.Power
import Mathlib.Algebra.Order.Field.Rat
import Mathlib.Tactic.FieldSimp
import Mathlib.Tactic.Linarith
import Mathlib.Tactic.Ring

/- Decimal numbers of a bounded precision (Python's `decimal`).

   A number is a sign, a coefficient and a power of ten, and reading a text loses
   nothing. Operations round their result half to even to `prec` digits; `quantize`
   alone does not round what is too long but fails. So where nothing is cut off the
   value is exact (`quantize_value`, `rounded_value`), and an integer value is the
   integer that the conversion gives (`toInt_of_value`).

   Texts are lists of code points. Which of them are blanks and which are digits is a
   table of Unicode and a parameter, except that ASCII stands for itself. -/
namespace PyDecimal

abbrev Text := List Nat

structure Finite where
  negative : Bool
  coefficient : Nat
  exponent : Int
  deriving DecidableEq

inductive Decimal where
  | finite (d : Finite)
  | infinite (negative : Bool)
  | nan

def Finite.value (d : Finite) : Rat := (if d.negative then -1 else 1) * d.coefficient * (10 : Rat) ^ d.exponent

/-! Reading -/

structure Tables where
  isSpace : Nat → Bool
  digit : Nat → Option (Fin 10)

def units (s : String) : Text := s.toList.map Char.toNat

def isDigit (n : Nat) : Bool := 48 ≤ n && n ≤ 57

def strip (isSpace : Nat → Bool) (s : Text) : Text := ((s.dropWhile isSpace).reverse.dropWhile isSpace).reverse

/-- One character in ASCII; `none` where there is no such. -/
def asciiOf (T : Tables) (n : Nat) : Option Nat :=
  if 0 < n ∧ n ≤ 127 then some n
  else if T.isSpace n then some 32
  else (T.digit n).map (fun d => 48 + d.val)

/-- Blanks at the ends and underscores are dropped. -/
def asAscii (T : Tables) (s : Text) : Option Text := ((strip T.isSpace s).filter (· ≠ 95)).mapM (asciiOf T)

def readSign : Text → Bool × Text
  | [] => (false, [])
  | n :: s => if n = 45 then (true, s) else if n = 43 then (false, s) else (false, n :: s)

def decimalOf (ds : Text) : Nat := ds.foldl (fun n d => 10 * n + (d - 48)) 0

/-- Digits, and after a point more digits; one at least in all. -/
def readNumeral (negative : Bool) (s : Text) : Option Decimal :=
  let whole := s.takeWhile isDigit
  let fraction := match s.dropWhile isDigit with
    | [] => some []
    | n :: f => if n = 46 ∧ f.all isDigit then some f else none
  fraction.bind fun f =>
    if (whole ++ f).isEmpty then none else some (.finite ⟨negative, decimalOf (whole ++ f), -(f.length : Int)⟩)

def lower (n : Nat) : Nat := if 65 ≤ n ∧ n ≤ 90 then n + 32 else n

def isNan (word : Text) : Bool :=
  (units "nan" == word.take 3 && (word.drop 3).all isDigit) || (units "snan" == word.take 4 && (word.drop 4).all isDigit)

/-- `Decimal(s)`, of a text without an exponent; `none` is `InvalidOperation`. -/
def ofString (T : Tables) (s : Text) : Option Decimal := do
  let s ← asAscii T s
  let (negative, s) := readSign s
  let word := s.map lower
  if word = units "inf" ∨ word = units "infinity" then some (.infinite negative)
  else if isNan word then some .nan
  else readNumeral negative s

/-! Arithmetic -/

def numDigits (c : Nat) : Nat := (Nat.toDigits 10 c).length

/-- `c / 10 ^ k`, half to even. -/
def roundHalfEven (c k : Nat) : Nat :=
  let q := c / 10 ^ k
  let r := c % 10 ^ k
  if 10 ^ k < 2 * r ∨ (2 * r = 10 ^ k ∧ q % 2 = 1) then q + 1 else q

/-- A result cut to the precision. -/
def rounded (prec : Nat) (d : Finite) : Finite :=
  if numDigits d.coefficient ≤ prec then d
  else
    let k := numDigits d.coefficient - prec
    let q := roundHalfEven d.coefficient k
    if numDigits q ≤ prec then { d with coefficient := q, exponent := d.exponent + k }
    else { d with coefficient := q / 10, exponent := d.exponent + k + 1 }

def mul (prec : Nat) (a b : Finite) : Finite :=
  rounded prec ⟨a.negative != b.negative, a.coefficient * b.coefficient, a.exponent + b.exponent⟩

/-- `d.quantize(...)` to an exponent; `none` is `InvalidOperation`. -/
def quantize (prec : Nat) (d : Finite) (exponent : Int) : Option Finite :=
  let c := if exponent ≤ d.exponent then d.coefficient * 10 ^ (d.exponent - exponent).toNat
    else roundHalfEven d.coefficient (exponent - d.exponent).toNat
  if numDigits c ≤ prec then some { d with coefficient := c, exponent } else none

/-- `int(d)`, towards zero. -/
def toInt (d : Finite) : Int :=
  let n := if 0 ≤ d.exponent then d.coefficient * 10 ^ d.exponent.toNat else d.coefficient / 10 ^ (-d.exponent).toNat
  if d.negative then -(n : Int) else n

/-! Exact results -/

variable {c prec : Nat}

theorem numDigits_le (hprec : 0 < prec) : numDigits c ≤ prec ↔ c < 10 ^ prec :=
  Nat.length_toDigits_le_iff (by decide) hprec

theorem zpow_sub_toNat {e q : Int} (h : q ≤ e) : (10 : Rat) ^ (e - q).toNat * (10 : Rat) ^ q = (10 : Rat) ^ e := by
  have hnat : ((e - q).toNat : Int) = e - q := Int.toNat_of_nonneg (by omega)
  rw [← zpow_natCast, hnat, ← zpow_add₀ (by norm_num)]
  congr 1
  omega

variable {d : Finite}

theorem quantize_value (hprec : 0 < prec) {exponent : Int} (h : exponent ≤ d.exponent) :
    (∀ d', quantize prec d exponent = some d' → d'.value = d.value ∧ d'.exponent = exponent ∧ d'.negative = d.negative ∧
      d'.coefficient < 10 ^ prec) ∧
    ((quantize prec d exponent).isSome = true ↔ d.coefficient * 10 ^ (d.exponent - exponent).toNat < 10 ^ prec) := by
  rw [quantize, if_pos h]
  split
  · rename_i hlen
    have hlen := (numDigits_le hprec).mp hlen
    refine ⟨?_, iff_of_true rfl hlen⟩
    intro d' hd'
    cases hd'
    refine ⟨?_, rfl, rfl, hlen⟩
    simp only [Finite.value]
    push_cast
    rw [mul_assoc, mul_assoc _ ((10 : Rat) ^ _), zpow_sub_toNat h, mul_assoc]
  · rename_i hlen
    refine ⟨fun d' hd' => absurd hd' (by simp), iff_of_false (by simp) ?_⟩
    rwa [← numDigits_le hprec]

theorem roundHalfEven_exact {k : Nat} (h : 10 ^ k ∣ c) : roundHalfEven c k = c / 10 ^ k := by
  have hmod : c % 10 ^ k = 0 := Nat.mod_eq_zero_of_dvd h
  have hpos : 0 < 10 ^ k := Nat.pow_pos (by decide)
  rw [roundHalfEven, hmod]
  apply if_neg
  omega

/-- What ends in as many zeros as are cut off keeps its value. -/
theorem rounded_value (hprec : 0 < prec) (h : 10 ^ (numDigits d.coefficient - prec) ∣ d.coefficient) :
    (rounded prec d).value = d.value := by
  rw [rounded]
  split
  · rfl
  · rename_i hlen
    have hlong : d.coefficient < 10 ^ numDigits d.coefficient := (numDigits_le (by omega)).mp (Nat.le_refl _)
    have hsplit : numDigits d.coefficient = (numDigits d.coefficient - prec) + prec := by omega
    rw [hsplit, Nat.pow_add] at hlong
    generalize numDigits d.coefficient - prec = k at h hlong
    obtain ⟨m, hm⟩ := h
    have hpos : 0 < 10 ^ k := Nat.pow_pos (by decide)
    have hquot : d.coefficient / 10 ^ k = m := by
      rw [hm, Nat.mul_div_cancel_left m hpos]
    have hshort : numDigits m ≤ prec := by
      rw [numDigits_le hprec]
      rw [hm] at hlong
      exact Nat.lt_of_mul_lt_mul_left hlong
    dsimp only
    rw [roundHalfEven_exact ⟨m, hm⟩, hquot, if_pos hshort]
    simp only [Finite.value, hm]
    rw [zpow_add₀ (by norm_num), zpow_natCast]
    push_cast
    ring

theorem zpow_neg_toNat {e : Int} (h : e ≤ 0) : (10 : Rat) ^ e * (10 : Rat) ^ (-e).toNat = 1 := by
  have hnat : ((-e).toNat : Int) = -e := Int.toNat_of_nonneg (by omega)
  rw [← zpow_natCast, hnat, ← zpow_add₀ (by norm_num), add_neg_cancel, zpow_zero]

/-- An integer value is what the conversion gives. -/
theorem toInt_of_value {n : Int} (h : d.value = n) : toInt d = n := by
  rw [Finite.value] at h
  rw [toInt]
  -- what the coefficient stands for, without the sign
  have habs : ∀ m : Int, ((d.coefficient : Rat) * (10 : Rat) ^ d.exponent = m) →
      (((if 0 ≤ d.exponent then d.coefficient * 10 ^ d.exponent.toNat else d.coefficient / 10 ^ (-d.exponent).toNat) : Nat) : Int) = m := by
    intro m hm
    split
    · rename_i he
      have hnat : ((d.exponent.toNat : Nat) : Int) = d.exponent := Int.toNat_of_nonneg he
      rw [← hnat, zpow_natCast] at hm
      have hint : ((d.coefficient * 10 ^ d.exponent.toNat : Nat) : Rat) = m := by
        push_cast
        exact hm
      exact_mod_cast hint
    · rename_i he
      have hone := zpow_neg_toNat (e := d.exponent) (by omega)
      have hpos : 0 < 10 ^ (-d.exponent).toNat := Nat.pow_pos (by decide)
      have hmul : (d.coefficient : Rat) = m * (10 : Rat) ^ (-d.exponent).toNat := by
        rw [← hm, mul_assoc, hone, mul_one]
      have hint : (d.coefficient : Int) = m * (10 : Int) ^ (-d.exponent).toNat := by exact_mod_cast hmul
      push_cast
      rw [hint, Int.mul_ediv_cancel _ (by positivity)]
  split
  · rename_i hneg
    rw [if_pos hneg, neg_one_mul, neg_mul] at h
    rw [habs (-n) (by push_cast; linarith), neg_neg]
  · rename_i hpos
    rw [if_neg hpos, one_mul] at h
    exact habs n h

end PyDecimal
