import GrowthMap.Lib.IsoTime
import GrowthMap.Lib.Lexicographic

/- The texts of `isoformat()` are in the order of their instants.

   Both are decided field by field: the instant because every field is smaller than the
   radix above it (`cmp_micros`), the text because every field but the fraction has a
   fixed width (`binary_isoformat`). The fraction is there only when it is not zero; the
   character after the seconds is then `.`, which is past the `+` of a whole second. -/
namespace IsoTime

open Lexicographic

/-! Instants -/

/-- `instant` as a number. -/
def DateTime.micros (d : DateTime) : Nat :=
  (((d.ordinal * 24 + d.hour) * 60 + d.minute) * 60 + d.second) * 1000000 + d.microsecond

theorem DateTime.instant_eq (d : DateTime) : d.instant = (d.micros : Int) := rfl

theorem daysBeforeMonth_mono {y m n : Nat} (h : m ≤ n) : daysBeforeMonth y m ≤ daysBeforeMonth y n := by
  induction n, h using Nat.le_induction with
  | base => exact le_refl _
  | succ n _ ih => exact ih.trans (Nat.le_add_right _ _)

theorem DateTime.day_before (d : DateTime) :
    daysBeforeMonth d.year (d.month - 1) + (d.day - 1) < daysBeforeMonth d.year d.month := by
  have hsucc : daysBeforeMonth d.year d.month =
      daysBeforeMonth d.year (d.month - 1) + daysInMonth d.year d.month := by
    conv_lhs => rw [← Nat.sub_add_cancel d.month_pos, daysBeforeMonth, Nat.sub_add_cancel d.month_pos]
  have := d.day_le
  have := d.day_pos
  omega

theorem DateTime.ordinal_lt (d : DateTime) : d.ordinal < daysBefore d.year := by
  have hyear : daysBefore d.year = daysBefore (d.year - 1) + daysBeforeMonth d.year 12 := by
    conv_lhs => rw [← Nat.sub_add_cancel d.year_pos, daysBefore_succ, Nat.sub_add_cancel d.year_pos]
  have hmonth := @daysBeforeMonth_mono d.year _ _ d.month_le
  have hday := d.day_before
  unfold DateTime.ordinal
  omega

theorem DateTime.le_ordinal (d : DateTime) : daysBefore (d.year - 1) ≤ d.ordinal := by
  unfold DateTime.ordinal
  omega

variable {a b : DateTime} {m n : Nat}

theorem ordinal_lt_of_year (h : a.year < b.year) : a.ordinal < b.ordinal :=
  calc a.ordinal < daysBefore a.year := a.ordinal_lt
    _ ≤ daysBefore (b.year - 1) := daysBefore_mono (Nat.le_sub_one_of_lt h)
    _ ≤ b.ordinal := b.le_ordinal

theorem ordinal_lt_of_month (hyear : a.year = b.year) (h : a.month < b.month) :
    a.ordinal < b.ordinal := by
  have hday := a.day_before
  have hmonth := @daysBeforeMonth_mono a.year _ _ (Nat.le_sub_one_of_lt h)
  unfold DateTime.ordinal
  rw [hyear] at hday hmonth ⊢
  omega

theorem cmp_ordinal (a b : DateTime) :
    cmpNat a.ordinal b.ordinal =
      (cmpNat a.year b.year).then ((cmpNat a.month b.month).then (cmpNat a.day b.day)) := by
  rcases Nat.lt_trichotomy a.year b.year with hyear | hyear | hyear
  · rw [cmpNat_eq_lt.mpr hyear, Ordering.lt_then, cmpNat_eq_lt.mpr (ordinal_lt_of_year hyear)]
  · rw [cmpNat_eq_eq.mpr hyear, Ordering.eq_then]
    refine cmpNat_split (ordinal_lt_of_month hyear) (ordinal_lt_of_month hyear.symm) ?_
    intro hmonth
    have hday : a.day = a.day - 1 + 1 ∧ b.day = b.day - 1 + 1 :=
      ⟨(Nat.sub_add_cancel a.day_pos).symm, (Nat.sub_add_cancel b.day_pos).symm⟩
    rw [hday.1, hday.2, Nat.add_comm _ 1, Nat.add_comm _ 1, cmpNat_add_left]
    unfold DateTime.ordinal
    rw [hyear, hmonth, cmpNat_add_left]
  · rw [cmpNat_eq_gt.mpr hyear, Ordering.gt_then, cmpNat_eq_gt.mpr (ordinal_lt_of_year hyear)]

theorem cmp_micros (a b : DateTime) :
    cmpNat a.micros b.micros =
      (cmpNat a.year b.year).then ((cmpNat a.month b.month).then ((cmpNat a.day b.day).then
        ((cmpNat a.hour b.hour).then ((cmpNat a.minute b.minute).then ((cmpNat a.second b.second).then
          (cmpNat a.microsecond b.microsecond)))))) := by
  unfold DateTime.micros
  rw [cmpNat_radix a.microsecond_lt b.microsecond_lt, cmpNat_radix a.second_lt b.second_lt,
    cmpNat_radix a.minute_lt b.minute_lt, cmpNat_radix a.hour_lt b.hour_lt, cmp_ordinal]
  simp only [Ordering.then_assoc]

/-! Texts -/

/-- The order of two texts by the codes of their characters. -/
def codeOrder (xs ys : List Char) : Ordering :=
  List.compareLex cmpNat (xs.map Char.toNat) (ys.map Char.toNat)

theorem codeOrder_append {xs ys us vs : List Char} (h : xs.length = ys.length) :
    codeOrder (xs ++ us) (ys ++ vs) = (codeOrder xs ys).then (codeOrder us vs) := by
  unfold codeOrder
  rw [List.map_append, List.map_append, compareLex_append (by rw [List.length_map, List.length_map, h])]

theorem codeOrder_cons (c : Char) (us vs : List Char) : codeOrder (c :: us) (c :: vs) = codeOrder us vs := by
  unfold codeOrder
  rw [List.map_cons, List.map_cons, List.compareLex_cons_cons, cmpNat_self, Ordering.eq_then]

theorem codeOrder_self (xs : List Char) : codeOrder xs xs = .eq := compareLex_self

theorem toNat_digitChar : ∀ n < 10, (digitChar n).toNat = 48 + n := by decide

theorem codeOrder_digits (w : Nat) (hm : m < 10 ^ w) (hn : n < 10 ^ w) :
    codeOrder (digits w m) (digits w n) = cmpNat m n := by
  induction w generalizing m n with
  | zero =>
    have hzero : m = n := by omega
    rw [hzero, codeOrder_self, cmpNat_self]
  | succ w ih =>
    have hdiv : ∀ {k : Nat}, k < 10 ^ (w + 1) → k / 10 < 10 ^ w := by
      intro k hk
      rw [Nat.div_lt_iff_lt_mul (by decide), ← Nat.pow_succ]
      exact hk
    have hlast : codeOrder [digitChar (m % 10)] [digitChar (n % 10)] = cmpNat (m % 10) (n % 10) := by
      unfold codeOrder
      rw [List.map_singleton, List.map_singleton, compareLex_singleton,
        toNat_digitChar _ (Nat.mod_lt m (by decide)), toNat_digitChar _ (Nat.mod_lt n (by decide)),
        cmpNat_add_left]
    rw [digits, digits, codeOrder_append (by rw [digits_length, digits_length]), ih (hdiv hm) (hdiv hn), hlast,
      ← cmpNat_div_mod (by decide)]

theorem codeOrder_field (w : Nat) (hm : m < 10 ^ w) (hn : n < 10 ^ w) (us vs : List Char) :
    codeOrder (digits w m ++ us) (digits w n ++ vs) = (cmpNat m n).then (codeOrder us vs) := by
  rw [codeOrder_append (by rw [digits_length, digits_length]), codeOrder_digits w hm hn]

/-- `isoformat`'s fraction and offset. -/
def fraction (us : Nat) : List Char := (if us = 0 then [] else '.' :: digits 6 us) ++ ['+', '0', '0', ':', '0', '0']

/-- A whole second is before the fractions of it: `+` is before `.`. -/
theorem codeOrder_fraction (hm : m < 1000000) (hn : n < 1000000) :
    codeOrder (fraction m) (fraction n) = cmpNat m n := by
  have hplus : ∀ (xs ys : List Char), codeOrder ('+' :: xs) ('.' :: ys) = .lt := fun _ _ => rfl
  have hpoint : ∀ (xs ys : List Char), codeOrder ('.' :: xs) ('+' :: ys) = .gt := fun _ _ => rfl
  unfold fraction
  by_cases hzero : m = 0
  · by_cases hzero' : n = 0
    · rw [hzero, hzero', codeOrder_self, cmpNat_self]
    · rw [if_pos hzero, if_neg hzero', List.nil_append, List.cons_append, hplus]
      exact (cmpNat_eq_lt.mpr (by omega)).symm
  · by_cases hzero' : n = 0
    · rw [if_neg hzero, if_pos hzero', List.nil_append, List.cons_append, hpoint]
      exact (cmpNat_eq_gt.mpr (by omega)).symm
    · rw [if_neg hzero, if_neg hzero', List.cons_append, List.cons_append, codeOrder_cons,
        codeOrder_field 6 hm hn, codeOrder_self, Ordering.then_eq]

/-- The characters of `isoformat()`. -/
def DateTime.chars (d : DateTime) : List Char := d.stamp ++ ['+', '0', '0', ':', '0', '0']

theorem DateTime.chars_eq (d : DateTime) :
    d.chars = digits 4 d.year ++ '-' :: (digits 2 d.month ++ '-' :: (digits 2 d.day ++ 'T' :: (digits 2 d.hour ++
      ':' :: (digits 2 d.minute ++ ':' :: (digits 2 d.second ++ fraction d.microsecond))))) := by
  unfold DateTime.chars DateTime.stamp fraction
  simp only [List.append_assoc, List.cons_append]

theorem codeOrder_chars (a b : DateTime) : codeOrder a.chars b.chars = cmpNat a.micros b.micros := by
  have hyear : ∀ d : DateTime, d.year < 10 ^ 4 := fun d => Nat.lt_of_le_of_lt d.year_le (by decide)
  have hmonth : ∀ d : DateTime, d.month < 10 ^ 2 := fun d => Nat.lt_of_le_of_lt d.month_le (by decide)
  have hhour : ∀ d : DateTime, d.hour < 10 ^ 2 := fun d => d.hour_lt.trans (by decide)
  have hminute : ∀ d : DateTime, d.minute < 10 ^ 2 := fun d => d.minute_lt.trans (by decide)
  have hsecond : ∀ d : DateTime, d.second < 10 ^ 2 := fun d => d.second_lt.trans (by decide)
  rw [a.chars_eq, b.chars_eq, cmp_micros]
  rw [codeOrder_field 4 (hyear a) (hyear b), codeOrder_cons, codeOrder_field 2 (hmonth a) (hmonth b), codeOrder_cons,
    codeOrder_field 2 a.day_lt b.day_lt, codeOrder_cons, codeOrder_field 2 (hhour a) (hhour b), codeOrder_cons,
    codeOrder_field 2 (hminute a) (hminute b), codeOrder_cons, codeOrder_field 2 (hsecond a) (hsecond b),
    codeOrder_fraction a.microsecond_lt b.microsecond_lt]

theorem digits_ascii (w n : Nat) : ∀ c ∈ digits w n, c.toNat < 128 := by
  intro c hc
  have hdigit := digits_isDigit w n c hc
  unfold isDigit digitVal at hdigit
  split at hdigit
  · omega
  · cases hdigit

theorem DateTime.chars_ascii (d : DateTime) : ∀ c ∈ d.chars, c.toNat < 128 := by
  have hfraction : ∀ c ∈ fraction d.microsecond, c.toNat < 128 := by
    intro c hc
    rcases List.mem_append.mp hc with hc | hc
    · split at hc
      · cases hc
      · rcases List.mem_cons.mp hc with rfl | hc
        · decide
        · exact digits_ascii 6 _ c hc
    · simp only [List.mem_cons, List.not_mem_nil, or_false] at hc
      rcases hc with rfl | rfl | rfl | rfl | rfl | rfl <;> decide
  rw [d.chars_eq]
  simp only [List.forall_mem_append, List.forall_mem_cons]
  exact ⟨digits_ascii 4 _, by decide, digits_ascii 2 _, by decide, digits_ascii 2 _, by decide, digits_ascii 2 _,
    by decide, digits_ascii 2 _, by decide, digits_ascii 2 _, hfraction⟩

theorem binary_isoformat (a b : DateTime) : binary a.isoformat b.isoformat = cmpNat a.micros b.micros := by
  have hcodes : ∀ d : DateTime, utf8 d.isoformat = d.chars.map Char.toNat := fun d => utf8_ascii d.chars_ascii
  unfold binary
  rw [hcodes a, hcodes b]
  exact codeOrder_chars a b

end IsoTime
