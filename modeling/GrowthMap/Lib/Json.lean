import Mathlib.Data.List.Sort
import Mathlib.Data.String.Basic
import Mathlib.Tactic.Common

/- JSON values and their compact text.

   An object is the list of its fields; a document read into a dictionary has no
   key twice. A number that is not an integer is kept as its text. `render` is `json.dumps` with sorted keys,
   no blanks and characters outside ASCII written as they are. -/

inductive Json where
  | null
  | bool (b : Bool)
  | int (n : Int)
  | real (text : String)
  | str (s : String)
  | arr (items : List Json)
  | obj (fields : List (String × Json))
  deriving Repr

namespace Json

/-- The value of a field of an object. -/
def field : Json → String → Option Json
  | .obj fields, key => fields.lookup key
  | _, _ => none

/-- The value is this string. -/
def is (j : Json) (s : String) : Bool :=
  match j with
  | .str t => decide (t = s)
  | _ => false

def hexDigit (n : Nat) : Char := Char.ofNat (if n < 10 then 48 + n else 87 + n)

/-- One character inside a string. -/
def escapeChar (c : Char) : List Char :=
  if c = '"' then ['\\', '"']
  else if c = '\\' then ['\\', '\\']
  else if c = '\n' then ['\\', 'n']
  else if c = '\r' then ['\\', 'r']
  else if c = '\t' then ['\\', 't']
  else if c = Char.ofNat 8 then ['\\', 'b']
  else if c = Char.ofNat 12 then ['\\', 'f']
  else if c.toNat < 32 then ['\\', 'u', '0', '0', hexDigit (c.toNat / 16), hexDigit (c.toNat % 16)]
  else [c]

def renderString (s : String) : List Char := '"' :: (s.toList.flatMap escapeChar ++ ['"'])

def renderInt (n : Int) : List Char :=
  if n < 0 then '-' :: Nat.toDigits 10 n.natAbs else Nat.toDigits 10 n.natAbs

/-- Texts with commas between them. -/
def commas : List (List Char) → List Char
  | [] => []
  | [x] => x
  | x :: y :: rest => x ++ ',' :: commas (y :: rest)

/-- A field and its value. -/
def pairText (field : String × List Char) : List Char := renderString field.1 ++ ':' :: field.2

mutual

def render : Json → List Char
  | .null => ['n', 'u', 'l', 'l']
  | .bool true => ['t', 'r', 'u', 'e']
  | .bool false => ['f', 'a', 'l', 's', 'e']
  | .int n => renderInt n
  | .real text => text.toList
  | .str s => renderString s
  | .arr items => '[' :: (commas (renderItems items) ++ [']'])
  | .obj fields =>
    -- the keys are sorted; a stable sort of distinct keys has one result
    '\x7b' :: (commas (((renderFields fields).insertionSort (fun a b => a.1 ≤ b.1)).map pairText) ++ ['\x7d'])

def renderItems : List Json → List (List Char)
  | [] => []
  | j :: rest => render j :: renderItems rest

def renderFields : List (String × Json) → List (String × List Char)
  | [] => []
  | (key, j) :: rest => (key, render j) :: renderFields rest

end

/-- The text of a value. -/
def text (j : Json) : String := String.ofList (render j)

end Json
