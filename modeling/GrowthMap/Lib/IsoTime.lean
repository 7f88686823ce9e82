import Mathlib.Data.Nat.Find
import Mathlib.Tactic.Common
import Mathlib.Tactic.Ring

/- Instants and their ISO 8601 text, as Python's `datetime` in UTC has them.

   A `DateTime` is the seven fields of an aware `datetime` in UTC, with the proof that
   they name a day and a time of it. `instant` counts microseconds from the start of
   year 1, `ofInstant` reads the fields back, and the two are inverse in the range of
   `datetime`. `isoformat` writes six digits of fraction only when there is one and
   ends in `+00:00`; `zulu` ends in `Z` instead; `parse` reads both. -/
namespace IsoTime

/-! The calendar -/

def isLeap (y : Nat) : Bool := decide (y % 4 = 0) && (decide (y % 100 ≠ 0) || decide (y % 400 = 0))

/-- Days before the first of January of year `y + 1`. -/
def daysBefore (y : Nat) : Nat := y * 365 + y / 4 - y / 100 + y / 400

def daysInMonth (y m : Nat) : Nat :=
  if m = 2 then (if isLeap y then 29 else 28)
  else if m = 4 ∨ m = 6 ∨ m = 9 ∨ m = 11 then 30
  else 31

/-- Days of year `y` before month `m + 1`. -/
def daysBeforeMonth (y : Nat) : Nat → Nat
  | 0 => 0
  | m + 1 => daysBeforeMonth y m + daysInMonth y (m + 1)

theorem daysBeforeMonth_twelve (y : Nat) : daysBeforeMonth y 12 = if isLeap y then 366 else 365 := by
  simp only [daysBeforeMonth, daysInMonth]
  cases isLeap y <;> simp

theorem daysBefore_succ (y : Nat) :
    daysBefore (y + 1) = daysBefore y + daysBeforeMonth (y + 1) 12 := by
  have hle : y / 100 ≤ y / 4 := Nat.div_le_div_left (by decide) (by decide)
  have h400 : 400 ∣ y + 1 → 100 ∣ y + 1 := fun h => Nat.dvd_trans (by decide) h
  have h100 : 100 ∣ y + 1 → 4 ∣ y + 1 := fun h => Nat.dvd_trans (by decide) h
  rw [daysBeforeMonth_twelve]
  unfold daysBefore isLeap
  rw [Nat.succ_div, Nat.succ_div, Nat.succ_div]
  simp only [← Nat.dvd_iff_mod_eq_zero, ne_eq]
  generalize y / 4 = a at hle ⊢
  generalize y / 100 = b at hle ⊢
  generalize y / 400 = c
  by_cases h1 : 4 ∣ y + 1 <;> by_cases h2 : 100 ∣ y + 1 <;> by_cases h3 : 400 ∣ y + 1 <;>
    simp [h1, h2, h3] at h400 h100 ⊢ <;> omega

theorem daysInMonth_pos (y m : Nat) : 0 < daysInMonth y m := by
  unfold daysInMonth
  split
  · split <;> omega
  · split <;> omega

theorem daysBefore_lt (y : Nat) : daysBefore y < daysBefore (y + 1) := by
  rw [daysBefore_succ]
  have := daysInMonth_pos (y + 1) (0 + 1)
  simp only [daysBeforeMonth]
  omega

theorem daysBefore_mono {y z : Nat} (h : y ≤ z) : daysBefore y ≤ daysBefore z := by
  induction z, h using Nat.le_induction with
  | base => exact le_refl _
  | succ z _ ih => exact ih.trans (daysBefore_lt z).le

theorem le_daysBefore (y : Nat) : y * 365 ≤ daysBefore y := by
  unfold daysBefore
  omega

/-! Date and time -/

/-- An aware `datetime` in UTC. -/
structure DateTime where
  year : Nat
  month : Nat
  day : Nat
  hour : Nat
  minute : Nat
  second : Nat
  microsecond : Nat
  year_pos : 1 ≤ year
  year_le : year ≤ 9999
  month_pos : 1 ≤ month
  month_le : month ≤ 12
  day_pos : 1 ≤ day
  day_le : day ≤ daysInMonth year month
  hour_lt : hour < 24
  minute_lt : minute < 60
  second_lt : second < 60
  microsecond_lt : microsecond < 1000000
  deriving DecidableEq

/-- Days since the first of January of year 1. -/
def DateTime.ordinal (d : DateTime) : Nat :=
  daysBefore (d.year - 1) + daysBeforeMonth d.year (d.month - 1) + (d.day - 1)

/-- Microseconds since the start of year 1. -/
def DateTime.instant (d : DateTime) : Int :=
  ((((d.ordinal * 24 + d.hour) * 60 + d.minute) * 60 + d.second) * 1000000 + d.microsecond : Nat)

/-- The first instant past the range of `datetime`. -/
def maxInstant : Int := (daysBefore 9999 * 24 * 60 * 60 * 1000000 : Nat)

/-- The full years of an ordinal. -/
def yearOf (n : Nat) : Nat := Nat.findGreatest (fun y => daysBefore y ≤ n) n

/-- The days past them. -/
def restOf (n : Nat) : Nat := n - daysBefore (yearOf n)

/-- The full months among those. -/
def monthOf (n : Nat) : Nat := Nat.findGreatest (fun m => daysBeforeMonth (yearOf n + 1) m ≤ restOf n) 11

/-- The days past the months. -/
def dayOf (n : Nat) : Nat := restOf n - daysBeforeMonth (yearOf n + 1) (monthOf n)

theorem daysBefore_yearOf_le (n : Nat) : daysBefore (yearOf n) ≤ n :=
  Nat.findGreatest_spec (P := fun y => daysBefore y ≤ n) (Nat.zero_le n) (by simp [daysBefore])

theorem lt_daysBefore_yearOf (n : Nat) : n < daysBefore (yearOf n + 1) := by
  by_contra h
  have hle : daysBefore (yearOf n + 1) ≤ n := by omega
  have hbound : yearOf n + 1 ≤ n := (Nat.le_mul_of_pos_right _ (by decide)).trans ((le_daysBefore _).trans hle)
  have := Nat.le_findGreatest (P := fun y => daysBefore y ≤ n) hbound hle
  have hdef : yearOf n = Nat.findGreatest (fun y => daysBefore y ≤ n) n := rfl
  omega

theorem restOf_lt (n : Nat) : restOf n < daysBeforeMonth (yearOf n + 1) 12 := by
  have h1 := lt_daysBefore_yearOf n
  have h2 := daysBefore_yearOf_le n
  rw [daysBefore_succ] at h1
  unfold restOf
  omega

theorem monthOf_le (n : Nat) : monthOf n ≤ 11 := Nat.findGreatest_le 11

theorem daysBeforeMonth_monthOf_le (n : Nat) : daysBeforeMonth (yearOf n + 1) (monthOf n) ≤ restOf n :=
  Nat.findGreatest_spec (P := fun m => daysBeforeMonth (yearOf n + 1) m ≤ restOf n) (Nat.zero_le 11) (Nat.zero_le _)

theorem dayOf_lt (n : Nat) : dayOf n < daysInMonth (yearOf n + 1) (monthOf n + 1) := by
  by_contra h
  have hspec := daysBeforeMonth_monthOf_le n
  have hle : daysBeforeMonth (yearOf n + 1) (monthOf n + 1) ≤ restOf n := by
    unfold dayOf at h
    simp only [daysBeforeMonth]
    omega
  rcases Nat.lt_or_ge (monthOf n) 11 with hlt | hge
  · have := Nat.le_findGreatest (P := fun m => daysBeforeMonth (yearOf n + 1) m ≤ restOf n) hlt hle
    have hdef : monthOf n = Nat.findGreatest (fun m => daysBeforeMonth (yearOf n + 1) m ≤ restOf n) 11 := rfl
    omega
  · have heq : monthOf n = 11 := Nat.le_antisymm (monthOf_le n) hge
    rw [heq] at hle
    exact absurd (restOf_lt n) (not_lt.mpr hle)

theorem yearOf_lt {n : Nat} (h : n < daysBefore 9999) : yearOf n < 9999 := by
  by_contra hge
  have hmono := daysBefore_mono (not_lt.mp hge)
  have hle := daysBefore_yearOf_le n
  omega

/-- The fields of an instant in the range of `datetime`. -/
def ofInstant (t : Int) : Option DateTime :=
  if h : 0 ≤ t ∧ t.toNat / 86400000000 < daysBefore 9999 then
    some
      { year := yearOf (t.toNat / 86400000000) + 1, month := monthOf (t.toNat / 86400000000) + 1,
        day := dayOf (t.toNat / 86400000000) + 1, hour := t.toNat / 3600000000 % 24,
        minute := t.toNat / 60000000 % 60, second := t.toNat / 1000000 % 60, microsecond := t.toNat % 1000000,
        year_pos := Nat.succ_pos _, year_le := yearOf_lt h.2, month_pos := Nat.succ_pos _,
        month_le := Nat.succ_le_succ (monthOf_le _), day_pos := Nat.succ_pos _, day_le := dayOf_lt _,
        hour_lt := Nat.mod_lt _ (by decide), minute_lt := Nat.mod_lt _ (by decide),
        second_lt := Nat.mod_lt _ (by decide), microsecond_lt := Nat.mod_lt _ (by decide) }
  else none

theorem ofInstant_isSome {t : Int} (h0 : 0 ≤ t) (h : t < maxInstant) : ∃ d, ofInstant t = some d := by
  unfold ofInstant
  rw [dif_pos]
  · exact ⟨_, rfl⟩
  · refine ⟨h0, ?_⟩
    unfold maxInstant at h
    rw [Nat.div_lt_iff_lt_mul (by decide)]
    omega

/-! Digits -/

def digitChar (n : Nat) : Char := Char.ofNat (48 + n)

def digitVal (c : Char) : Option Nat :=
  if 48 ≤ c.toNat ∧ c.toNat ≤ 57 then some (c.toNat - 48) else none

theorem digitVal_digitChar : ∀ n < 10, digitVal (digitChar n) = some n := by decide

/-- The last `w` decimal digits. -/
def digits : Nat → Nat → List Char
  | 0, _ => []
  | w + 1, n => digits w (n / 10) ++ [digitChar (n % 10)]

/-- Exactly `w` digits, after what was read before them. -/
def readDigits : Nat → Nat → List Char → Option (Nat × List Char)
  | 0, acc, cs => some (acc, cs)
  | _ + 1, _, [] => none
  | w + 1, acc, c :: cs =>
    match digitVal c with
    | none => none
    | some v => readDigits w (acc * 10 + v) cs

theorem readDigits_add (w v acc : Nat) (cs : List Char) :
    readDigits (w + v) acc cs = (readDigits w acc cs).bind (fun p => readDigits v p.1 p.2) := by
  induction w generalizing acc cs with
  | zero => simp [readDigits]
  | succ w ih =>
    rw [Nat.succ_add]
    cases cs with
    | nil => rfl
    | cons c cs =>
      simp only [readDigits]
      cases digitVal c with
      | none => rfl
      | some v => exact ih (acc * 10 + v) cs

theorem readDigits_digits (w n acc : Nat) (rest : List Char) (h : n < 10 ^ w) :
    readDigits w acc (digits w n ++ rest) = some (acc * 10 ^ w + n, rest) := by
  induction w generalizing n rest with
  | zero =>
    have hzero : n = 0 := by simpa using h
    simp [readDigits, digits, hzero]
  | succ w ih =>
    have hdiv : n / 10 < 10 ^ w := by
      rw [Nat.div_lt_iff_lt_mul (by decide), ← Nat.pow_succ]
      exact h
    rw [readDigits_add, digits, List.append_assoc, ih (n / 10) _ hdiv]
    simp only [Option.bind_some, List.singleton_append, readDigits]
    rw [digitVal_digitChar (n % 10) (Nat.mod_lt n (by decide))]
    simp only
    congr 2
    rw [Nat.pow_succ]
    have := Nat.div_add_mod n 10
    ring_nf
    omega

theorem digits_length (w n : Nat) : (digits w n).length = w := by
  induction w generalizing n with
  | zero => rfl
  | succ w ih => rw [digits, List.length_append, ih, List.length_singleton]

def isDigit (c : Char) : Bool := (digitVal c).isSome

theorem digits_isDigit (w n : Nat) : ∀ c ∈ digits w n, isDigit c = true := by
  induction w generalizing n with
  | zero =>
    intro c hc
    cases hc
  | succ w ih =>
    intro c hc
    rcases List.mem_append.mp hc with hc | hc
    · exact ih (n / 10) c hc
    · rw [List.mem_singleton.mp hc, isDigit, digitVal_digitChar (n % 10) (Nat.mod_lt n (by decide))]
      rfl

/-! Text -/

/-- The text up to the seconds, and the fraction if there is one. -/
def DateTime.stamp (d : DateTime) : List Char :=
  digits 4 d.year ++ '-' :: (digits 2 d.month ++ '-' :: (digits 2 d.day ++ 'T' :: (digits 2 d.hour ++
    ':' :: (digits 2 d.minute ++ ':' :: (digits 2 d.second ++
      if d.microsecond = 0 then [] else '.' :: digits 6 d.microsecond)))))

/-- `isoformat()` -/
def DateTime.isoformat (d : DateTime) : String := String.ofList (d.stamp ++ ['+', '0', '0', ':', '0', '0'])

/-- `isoformat().replace("+00:00","Z")` -/
def DateTime.zulu (d : DateTime) : String := String.ofList (d.stamp ++ ['Z'])

def expect (c : Char) : List Char → Option (List Char)
  | [] => none
  | x :: cs => if x = c then some cs else none

/-- A fraction of one to six digits, in microseconds; none is zero. -/
def readFraction : List Char → Option (Nat × List Char)
  | '.' :: cs =>
    let w := (cs.takeWhile isDigit).length
    if 1 ≤ w ∧ w ≤ 6 then (readDigits w 0 cs).map (fun p => (p.1 * 10 ^ (6 - w), p.2)) else none
  | cs => some (0, cs)

/-- The fields, if they name a day and a time of it. -/
def DateTime.make (y m d h mi s us : Nat) : Option DateTime :=
  if hv : (1 ≤ y ∧ y ≤ 9999) ∧ (1 ≤ m ∧ m ≤ 12) ∧ (1 ≤ d ∧ d ≤ daysInMonth y m) ∧ h < 24 ∧ mi < 60 ∧ s < 60 ∧
      us < 1000000 then
    some ⟨y, m, d, h, mi, s, us, hv.1.1, hv.1.2, hv.2.1.1, hv.2.1.2, hv.2.2.1.1, hv.2.2.1.2, hv.2.2.2.1,
      hv.2.2.2.2.1, hv.2.2.2.2.2.1, hv.2.2.2.2.2.2⟩
  else none

/-- `YYYY-MM-DDTHH:MM:SS`, an optional fraction, then `Z` or `+00:00`. -/
def parse (text : String) : Option DateTime := do
  let (y, cs) ← readDigits 4 0 text.toList
  let cs ← expect '-' cs
  let (m, cs) ← readDigits 2 0 cs
  let cs ← expect '-' cs
  let (d, cs) ← readDigits 2 0 cs
  let cs ← expect 'T' cs
  let (h, cs) ← readDigits 2 0 cs
  let cs ← expect ':' cs
  let (mi, cs) ← readDigits 2 0 cs
  let cs ← expect ':' cs
  let (s, cs) ← readDigits 2 0 cs
  let (us, cs) ← readFraction cs
  if cs = ['Z'] ∨ cs = ['+', '0', '0', ':', '0', '0'] then DateTime.make y m d h mi s us else none

theorem DateTime.make_self (d : DateTime) :
    DateTime.make d.year d.month d.day d.hour d.minute d.second d.microsecond = some d := by
  unfold DateTime.make
  rw [dif_pos ⟨⟨d.year_pos, d.year_le⟩, ⟨d.month_pos, d.month_le⟩, ⟨d.day_pos, d.day_le⟩, d.hour_lt, d.minute_lt,
    d.second_lt, d.microsecond_lt⟩]

theorem DateTime.day_lt (d : DateTime) : d.day < 10 ^ 2 := by
  have h := d.day_le
  unfold daysInMonth at h
  split at h
  · split at h <;> omega
  · split at h <;> omega

theorem readFraction_written {us : Nat} (h : us < 1000000) {c : Char} (hc : isDigit c = false) (hdot : c ≠ '.')
    (rest : List Char) :
    readFraction ((if us = 0 then [] else '.' :: digits 6 us) ++ c :: rest) = some (us, c :: rest) := by
  by_cases hz : us = 0
  · rw [if_pos hz, hz, List.nil_append]
    unfold readFraction
    split
    · rename_i cs heq
      cases heq
      exact absurd rfl hdot
    · rfl
  · have hwidth : ((digits 6 us ++ c :: rest).takeWhile isDigit).length = 6 := by
      rw [List.takeWhile_append_of_pos (digits_isDigit 6 us), List.takeWhile_cons_of_neg (by simp [hc]),
        List.append_nil, digits_length]
    rw [if_neg hz, List.cons_append, readFraction]
    simp only [hwidth, readDigits_digits 6 us 0 (c :: rest) (by omega)]
    simp

theorem expect_cons (c : Char) (cs : List Char) : expect c (c :: cs) = some cs := if_pos rfl

theorem parse_stamp (d : DateTime) {c : Char} {rest : List Char} (hc : isDigit c = false) (hdot : c ≠ '.')
    (hend : c :: rest = ['Z'] ∨ c :: rest = ['+', '0', '0', ':', '0', '0']) :
    parse (String.ofList (d.stamp ++ c :: rest)) = some d := by
  have hread : ∀ w n tail, n < 10 ^ w → readDigits w 0 (digits w n ++ tail) = some (n, tail) := by
    intro w n tail h
    rw [readDigits_digits w n 0 tail h, Nat.zero_mul, Nat.zero_add]
  have hyear : d.year < 10 ^ 4 := Nat.lt_of_le_of_lt d.year_le (by decide)
  have hmonth : d.month < 10 ^ 2 := Nat.lt_of_le_of_lt d.month_le (by decide)
  have hhour : d.hour < 10 ^ 2 := d.hour_lt.trans (by decide)
  have hminute : d.minute < 10 ^ 2 := d.minute_lt.trans (by decide)
  have hsecond : d.second < 10 ^ 2 := d.second_lt.trans (by decide)
  have hfraction := readFraction_written d.microsecond_lt hc hdot rest
  unfold parse DateTime.stamp
  rw [String.toList_ofList]
  generalize (if d.microsecond = 0 then [] else '.' :: digits 6 d.microsecond) = fraction at hfraction ⊢
  simp only [List.append_assoc, List.cons_append]
  rw [hread 4 _ _ hyear, Option.bind_eq_bind, Option.bind_some]
  simp only [expect_cons, Option.bind_eq_bind, Option.bind_some, hread 2 _ _ hmonth, hread 2 _ _ d.day_lt,
    hread 2 _ _ hhour, hread 2 _ _ hminute, hread 2 _ _ hsecond, hfraction]
  rw [if_pos hend, DateTime.make_self]

@[simp] theorem parse_isoformat (d : DateTime) : parse d.isoformat = some d :=
  parse_stamp d (by decide) (by decide) (.inr rfl)

end IsoTime
