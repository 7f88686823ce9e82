import Mathlib.Data.List.TakeWhile
import Mathlib.Data.List.Infix
import Mathlib.Tactic.Common

/- The grammar of JSON texts.

   A text is a list of UTF-16 code units. The grammar is that of the standard,
   except that the words which stand for a value (`true`, `null`) are a parameter:
   some readers know more of them. -/
namespace JsonGrammar

abbrev Text := List Nat

/-- The code unit of an ASCII character. -/
abbrev unit (c : Char) : Nat := c.toNat

def units (s : String) : Text := s.toList.map unit

/-- What a text says: words and numbers as they stand, strings decoded, the
members of an object in their order. -/
inductive Tree where
  | word (w : Text)
  | num (lexeme : Text)
  | str (s : Text)
  | arr (items : List Tree)
  | obj (members : List (Text × Tree))

/-! Characters -/

def isBlank (n : Nat) : Bool := n == unit ' ' || n == unit '\t' || n == unit '\r' || n == unit '\n'

def isDigit (n : Nat) : Bool := unit '0' ≤ n && n ≤ unit '9'

def hexVal (n : Nat) : Option Nat :=
  if isDigit n then some (n - unit '0')
  else if unit 'a' ≤ n ∧ n ≤ unit 'f' then some (n - unit 'a' + 10)
  else if unit 'A' ≤ n ∧ n ≤ unit 'F' then some (n - unit 'A' + 10)
  else none

/-- The code unit of `\uXXXX`. -/
def hex4 (a b c d : Nat) : Option Nat := do
  let a ← hexVal a
  let b ← hexVal b
  let c ← hexVal c
  let d ← hexVal d
  return a * 4096 + b * 256 + c * 16 + d

/-- The code unit of a two-character escape. -/
def unescape (e : Nat) : Option Nat :=
  if e = unit '"' ∨ e = unit '\\' ∨ e = unit '/' then some e
  else if e = unit 'b' then some 8
  else if e = unit 'f' then some 12
  else if e = unit 'n' then some 10
  else if e = unit 'r' then some 13
  else if e = unit 't' then some 9
  else none

/-! The grammar -/

def Blanks (w : Text) : Prop := ∀ n ∈ w, isBlank n = true

/-- The characters of a string and what they stand for. -/
inductive Chars : Text → Text → Prop where
  | nil : Chars [] []
  | plain {c : Nat} {s d : Text} : 32 ≤ c → c ≠ unit '"' → c ≠ unit '\\' → Chars s d → Chars (c :: s) (c :: d)
  | escape {e n : Nat} {s d : Text} : unescape e = some n → Chars s d → Chars (unit '\\' :: e :: s) (n :: d)
  | code {w x y z n : Nat} {s d : Text} :
      hex4 w x y z = some n → Chars s d → Chars (unit '\\' :: unit 'u' :: w :: x :: y :: z :: s) (n :: d)

/-- One digit or more. -/
def Digits (ds : Text) : Prop := ds ≠ [] ∧ ∀ n ∈ ds, isDigit n = true

/-- The whole part of a number: no zero in front. -/
inductive Whole : Text → Prop where
  | zero : Whole [unit '0']
  | many {d : Nat} {ds : Text} : isDigit d = true → d ≠ unit '0' → (∀ n ∈ ds, isDigit n = true) → Whole (d :: ds)

inductive Fraction : Text → Prop where
  | none : Fraction []
  | some {ds : Text} : Digits ds → Fraction (unit '.' :: ds)

inductive Exponent : Text → Prop where
  | none : Exponent []
  | plain {e : Nat} {ds : Text} : e = unit 'e' ∨ e = unit 'E' → Digits ds → Exponent (e :: ds)
  | signed {e s : Nat} {ds : Text} : e = unit 'e' ∨ e = unit 'E' → s = unit '+' ∨ s = unit '-' → Digits ds → Exponent (e :: s :: ds)

inductive Unsigned : Text → Prop where
  | mk {w f e : Text} : Whole w → Fraction f → Exponent e → Unsigned (w ++ (f ++ e))

inductive Number : Text → Prop where
  | plain {t : Text} : Unsigned t → Number t
  | minus {t : Text} : Unsigned t → Number (unit '-' :: t)

/-- A word of the grammar starts like no other value. -/
def startsWell : Text → Bool
  | [] => false
  | c :: s => !isBlank c && !isDigit c && !(['"', '[', ']', '\x7b', '\x7d'].any (fun d => c == unit d)) &&
    (c != unit '-' || s.head?.any (fun d => !isDigit d))

/-- The words that stand for a value. -/
structure Words where
  list : List Text
  startsWell : ∀ w ∈ list, startsWell w = true
  prefixFree : ∀ w ∈ list, ∀ w' ∈ list, w <+: w' → w = w'

/-- A key in its quotes and its colon, with the blanks around. -/
inductive Key : Text → Text → Prop where
  | mk {w k key w' : Text} : Blanks w → Chars k key → Blanks w' → Key (w ++ unit '"' :: (k ++ unit '"' :: (w' ++ [unit ':']))) key

mutual

inductive Value (words : Words) : Text → Tree → Prop where
  | word {w : Text} : w ∈ words.list → Value words w (.word w)
  | num {t : Text} : Number t → Value words t (.num t)
  | str {s d : Text} : Chars s d → Value words (unit '"' :: (s ++ [unit '"'])) (.str d)
  | noItems {w : Text} : Blanks w → Value words (unit '[' :: (w ++ [unit ']'])) (.arr [])
  | arr {t : Text} {items : List Tree} : Items words t items → Value words (unit '[' :: (t ++ [unit ']'])) (.arr items)
  | noMembers {w : Text} : Blanks w → Value words (unit '\x7b' :: (w ++ [unit '\x7d'])) (.obj [])
  | obj {t : Text} {members : List (Text × Tree)} :
      Members words t members → Value words (unit '\x7b' :: (t ++ [unit '\x7d'])) (.obj members)

/-- One item or more. -/
inductive Items (words : Words) : Text → List Tree → Prop where
  | last {w t w' : Text} {j : Tree} : Blanks w → Value words t j → Blanks w' → Items words (w ++ (t ++ w')) [j]
  | cons {w t w' s : Text} {j : Tree} {items : List Tree} :
      Blanks w → Value words t j → Blanks w' → Items words s items → Items words (w ++ (t ++ (w' ++ unit ',' :: s))) (j :: items)

/-- One member or more. -/
inductive Members (words : Words) : Text → List (Text × Tree) → Prop where
  | last {k key w t w' : Text} {j : Tree} :
      Key k key → Blanks w → Value words t j → Blanks w' → Members words (k ++ (w ++ (t ++ w'))) [(key, j)]
  | cons {k key w t w' s : Text} {j : Tree} {members : List (Text × Tree)} :
      Key k key → Blanks w → Value words t j → Blanks w' → Members words s members →
        Members words (k ++ (w ++ (t ++ (w' ++ unit ',' :: s)))) ((key, j) :: members)

end

/-- A document: a value between blanks. -/
inductive JsonText (words : Words) : Text → Tree → Prop where
  | mk {w t w' : Text} {j : Tree} : Blanks w → Value words t j → Blanks w' → JsonText words (w ++ (t ++ w')) j

/-! What stands at any depth of a tree -/

/-- A tree and all trees inside it. -/
inductive Within : Tree → Tree → Prop where
  | self {j : Tree} : Within j j
  | item {i j : Tree} {items : List Tree} : i ∈ items → Within j i → Within j (.arr items)
  | member {m : Text × Tree} {j : Tree} {members : List (Text × Tree)} : m ∈ members → Within j m.2 → Within j (.obj members)

/-- A property of trees holds at every depth. -/
def Throughout (P : Tree → Prop) (j : Tree) : Prop := ∀ i, Within i j → P i

section Throughout

variable {P : Tree → Prop}

theorem throughout_word {w : Text} : Throughout P (.word w) ↔ P (.word w) := by
  refine ⟨fun h => h _ .self, fun h i hi => ?_⟩
  cases hi
  exact h

theorem throughout_num {t : Text} : Throughout P (.num t) ↔ P (.num t) := by
  refine ⟨fun h => h _ .self, fun h i hi => ?_⟩
  cases hi
  exact h

theorem throughout_str {s : Text} : Throughout P (.str s) ↔ P (.str s) := by
  refine ⟨fun h => h _ .self, fun h i hi => ?_⟩
  cases hi
  exact h

theorem throughout_arr {items : List Tree} : Throughout P (.arr items) ↔ P (.arr items) ∧ ∀ j ∈ items, Throughout P j := by
  constructor
  · intro h
    exact ⟨h _ .self, fun j hj i hi => h i (.item hj hi)⟩
  · rintro ⟨hP, h⟩ i hi
    cases hi with
    | self => exact hP
    | item hj hi => exact h _ hj i hi

theorem throughout_obj {members : List (Text × Tree)} :
    Throughout P (.obj members) ↔ P (.obj members) ∧ ∀ m ∈ members, Throughout P m.2 := by
  constructor
  · intro h
    exact ⟨h _ .self, fun m hm i hi => h i (.member hm hi)⟩
  · rintro ⟨hP, h⟩ i hi
    cases hi with
    | self => exact hP
    | member hm hi => exact h _ hm i hi

end Throughout

/-! Grammars that differ in their words -/

/-- The words of a tree are words of the grammar. -/
def Spoken (words : Words) : Tree → Prop
  | .word w => w ∈ words.list
  | _ => True

section Spoken

variable {words words' : Words}

mutual

theorem Value.spoken {t : Text} {j : Tree} : Value words t j → Throughout (Spoken words) j
  | .word hw => throughout_word.mpr hw
  | .num _ => throughout_num.mpr trivial
  | .str _ => throughout_str.mpr trivial
  | .noItems _ => throughout_arr.mpr ⟨trivial, by simp⟩
  | .arr hs => throughout_arr.mpr ⟨trivial, hs.spoken⟩
  | .noMembers _ => throughout_obj.mpr ⟨trivial, by simp⟩
  | .obj hs => throughout_obj.mpr ⟨trivial, hs.spoken⟩

theorem Items.spoken {t : Text} {items : List Tree} : Items words t items → ∀ j ∈ items, Throughout (Spoken words) j
  | .last _ hv _ => by simpa using hv.spoken
  | .cons _ hv _ hs => by simpa using ⟨hv.spoken, hs.spoken⟩

theorem Members.spoken {t : Text} {members : List (Text × Tree)} :
    Members words t members → ∀ m ∈ members, Throughout (Spoken words) m.2
  | .last _ _ hv _ => by simpa using hv.spoken
  | .cons _ _ hv _ hs => List.forall_mem_cons.mpr ⟨hv.spoken, hs.spoken⟩

end

mutual

theorem Value.narrow {t : Text} {j : Tree} : Value words t j → Throughout (Spoken words') j → Value words' t j
  | .word _, h => .word (throughout_word.mp h)
  | .num hn, _ => .num hn
  | .str hs, _ => .str hs
  | .noItems hw, _ => .noItems hw
  | .arr hs, h => .arr (hs.narrow (throughout_arr.mp h).2)
  | .noMembers hw, _ => .noMembers hw
  | .obj hs, h => .obj (hs.narrow (throughout_obj.mp h).2)

theorem Items.narrow {t : Text} {items : List Tree} :
    Items words t items → (∀ j ∈ items, Throughout (Spoken words') j) → Items words' t items
  | .last hw hv hw', h => .last hw (hv.narrow (h _ List.mem_cons_self)) hw'
  | .cons hw hv hw' hs, h =>
    .cons hw (hv.narrow (h _ List.mem_cons_self)) hw' (hs.narrow fun j hj => h j (List.mem_cons_of_mem _ hj))

theorem Members.narrow {t : Text} {members : List (Text × Tree)} :
    Members words t members → (∀ m ∈ members, Throughout (Spoken words') m.2) → Members words' t members
  | .last hk hw hv hw', h => .last hk hw (hv.narrow (h _ List.mem_cons_self)) hw'
  | .cons hk hw hv hw' hs, h =>
    .cons hk hw (hv.narrow (h _ List.mem_cons_self)) hw' (hs.narrow fun m hm => h m (List.mem_cons_of_mem _ hm))

end

theorem throughout_mono {P Q : Tree → Prop} (h : ∀ j, P j → Q j) {j : Tree} (hj : Throughout P j) : Throughout Q j :=
  fun i hi => h i (hj i hi)

theorem jsonText_narrow (h : words'.list ⊆ words.list) {t : Text} {j : Tree} :
    JsonText words' t j ↔ JsonText words t j ∧ Throughout (Spoken words') j := by
  constructor
  · rintro ⟨hw, hv, hw'⟩
    have hspoken : Throughout (Spoken words) _ := throughout_mono (P := Spoken words') (fun i hi => by
      cases i with
      | word => exact h hi
      | num => trivial
      | str => trivial
      | arr => trivial
      | obj => trivial) hv.spoken
    exact ⟨.mk hw (hv.narrow hspoken) hw', hv.spoken⟩
  · rintro ⟨⟨hw, hv, hw'⟩, hspoken⟩
    exact .mk hw (hv.narrow hspoken) hw'

end Spoken

end JsonGrammar
