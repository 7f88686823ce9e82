import Mathlib.Data.UInt
import Mathlib.Logic.Function.Basic
import Mathlib.Tactic.Common

/- Base64 with padding.

   Three bytes are four digits of six bits; one or two bytes at the end are two or three
   digits, filled up with `=`. What was encoded is decoded again (`decode_encode`), so the
   text of bytes is theirs alone (`encode_injective`). The other way round a text may be
   decoded that no bytes have: its last digit can carry bits that are dropped. -/
namespace Base64

def digit (n : Nat) : Char :=
  if n < 26 then Char.ofNat (65 + n)
  else if n < 52 then Char.ofNat (71 + n)
  else if n < 62 then Char.ofNat (n - 4)
  else if n = 62 then '+' else '/'

def encode : List UInt8 → List Char
  | [] => []
  | [a] => [digit (a.toNat / 4), digit (a.toNat % 4 * 16), '=', '=']
  | [a, b] => [digit (a.toNat / 4), digit (a.toNat % 4 * 16 + b.toNat / 16), digit (b.toNat % 16 * 4), '=']
  | a :: b :: c :: rest =>
    digit (a.toNat / 4) :: digit (a.toNat % 4 * 16 + b.toNat / 16) ::
      digit (b.toNat % 16 * 4 + c.toNat / 64) :: digit (c.toNat % 64) :: encode rest

def value (c : Char) : Option Nat :=
  if 'A' ≤ c ∧ c ≤ 'Z' then some (c.toNat - 65)
  else if 'a' ≤ c ∧ c ≤ 'z' then some (c.toNat - 71)
  else if '0' ≤ c ∧ c ≤ '9' then some (c.toNat + 4)
  else if c = '+' then some 62
  else if c = '/' then some 63
  else none

/-- The first byte of a group, from its first two digits. -/
def first (a b : Nat) : UInt8 := UInt8.ofNat (a * 4 + b / 16)

def second (b c : Nat) : UInt8 := UInt8.ofNat (b % 16 * 16 + c / 4)

def third (c d : Nat) : UInt8 := UInt8.ofNat (c % 4 * 64 + d)

/-- Groups of four; only the last one is padded. -/
def decode : List Char → Option (List UInt8)
  | [] => some []
  | p :: q :: r :: s :: rest => do
    let a ← value p
    let b ← value q
    if rest = [] ∧ r = '=' ∧ s = '=' then some [first a b]
    else do
      let c ← value r
      if rest = [] ∧ s = '=' then some [first a b, second b c]
      else do
        let d ← value s
        let bytes ← decode rest
        some (first a b :: second b c :: third c d :: bytes)
  | _ => none

theorem value_digit : ∀ n < 64, value (digit n) = some n := by decide

theorem digit_ne_pad : ∀ n < 64, digit n ≠ '=' := by decide

theorem digit_visible : ∀ n < 64, (digit n).toNat < 127 := by decide

section Bytes

variable (a b c : UInt8)

theorem first_encoded : first (a.toNat / 4) (a.toNat % 4 * 16 + b.toNat / 16) = a := by
  have hb := b.toNat_lt
  have hsplit : a.toNat / 4 * 4 + (a.toNat % 4 * 16 + b.toNat / 16) / 16 = a.toNat := by omega
  rw [first, hsplit, UInt8.ofNat_toNat]

theorem first_alone : first (a.toNat / 4) (a.toNat % 4 * 16) = a := by
  have hsplit : a.toNat / 4 * 4 + a.toNat % 4 * 16 / 16 = a.toNat := by omega
  rw [first, hsplit, UInt8.ofNat_toNat]

theorem second_encoded : second (a.toNat % 4 * 16 + b.toNat / 16) (b.toNat % 16 * 4 + c.toNat / 64) = b := by
  have hb := b.toNat_lt
  have hc := c.toNat_lt
  have hsplit : (a.toNat % 4 * 16 + b.toNat / 16) % 16 * 16 + (b.toNat % 16 * 4 + c.toNat / 64) / 4 = b.toNat := by omega
  rw [second, hsplit, UInt8.ofNat_toNat]

theorem second_alone : second (a.toNat % 4 * 16 + b.toNat / 16) (b.toNat % 16 * 4) = b := by
  have hb := b.toNat_lt
  have hsplit : (a.toNat % 4 * 16 + b.toNat / 16) % 16 * 16 + b.toNat % 16 * 4 / 4 = b.toNat := by omega
  rw [second, hsplit, UInt8.ofNat_toNat]

theorem third_encoded : third (b.toNat % 16 * 4 + c.toNat / 64) (c.toNat % 64) = c := by
  have hc := c.toNat_lt
  have hsplit : (b.toNat % 16 * 4 + c.toNat / 64) % 4 * 64 + c.toNat % 64 = c.toNat := by omega
  rw [third, hsplit, UInt8.ofNat_toNat]

end Bytes

theorem decode_encode (bytes : List UInt8) : decode (encode bytes) = some bytes := by
  fun_induction encode bytes with
  | case1 => rfl
  | case2 a =>
    have ha := a.toNat_lt
    simp only [decode, value_digit (a.toNat / 4) (by omega), value_digit (a.toNat % 4 * 16) (by omega), Option.bind_eq_bind,
      Option.bind_some, and_self, if_true, first_alone]
  | case3 a b =>
    have ha := a.toNat_lt
    have hb := b.toNat_lt
    have hpad := digit_ne_pad (b.toNat % 16 * 4) (by omega)
    simp only [decode, value_digit (a.toNat / 4) (by omega), value_digit (a.toNat % 4 * 16 + b.toNat / 16) (by omega),
      value_digit (b.toNat % 16 * 4) (by omega), Option.bind_eq_bind, Option.bind_some, hpad, and_self, and_false, false_and,
      if_true, if_false, first_encoded, second_alone]
  | case4 a b c rest ih =>
    have ha := a.toNat_lt
    have hb := b.toNat_lt
    have hc := c.toNat_lt
    have hpad := digit_ne_pad (b.toNat % 16 * 4 + c.toNat / 64) (by omega)
    have hpad' := digit_ne_pad (c.toNat % 64) (by omega)
    simp only [decode, value_digit (a.toNat / 4) (by omega), value_digit (a.toNat % 4 * 16 + b.toNat / 16) (by omega),
      value_digit (b.toNat % 16 * 4 + c.toNat / 64) (by omega), value_digit (c.toNat % 64) (by omega), Option.bind_eq_bind,
      Option.bind_some, hpad, hpad', and_false, false_and, if_false, first_encoded, second_encoded, third_encoded, ih]

theorem encode_injective : Function.Injective encode := by
  intro bytes bytes' h
  exact Option.some.inj ((decode_encode bytes).symm.trans ((congrArg decode h).trans (decode_encode bytes')))

theorem encode_visible (bytes : List UInt8) : ∀ c ∈ encode bytes, c.toNat < 127 := by
  fun_induction encode bytes with
  | case1 => simp
  | case2 a =>
    have ha := a.toNat_lt
    simp only [List.forall_mem_cons, List.not_mem_nil, false_implies, implies_true, and_true]
    exact ⟨digit_visible _ (by omega), digit_visible _ (by omega), by decide, by decide⟩
  | case3 a b =>
    have ha := a.toNat_lt
    have hb := b.toNat_lt
    simp only [List.forall_mem_cons, List.not_mem_nil, false_implies, implies_true, and_true]
    exact ⟨digit_visible _ (by omega), digit_visible _ (by omega), digit_visible _ (by omega), by decide⟩
  | case4 a b c rest ih =>
    have ha := a.toNat_lt
    have hb := b.toNat_lt
    have hc := c.toNat_lt
    simp only [List.forall_mem_cons]
    exact ⟨digit_visible _ (by omega), digit_visible _ (by omega), digit_visible _ (by omega), digit_visible _ (by omega), ih⟩

end Base64
