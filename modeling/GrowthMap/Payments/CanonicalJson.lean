import GrowthMap.Desktop.JsonAgreement
import GrowthMap.Lib.Json
import Mathlib.Data.List.Lex
import Mathlib.Data.List.Sort

/- JSON on the wire of the sidecars (`json.loads`, and `_canonical` of sidecar_server.py).

   A document is read from bytes with no hook, so the last of two members with one key
   stays. It is written with sorted keys, no blanks and characters outside ASCII as they
   are; the writing fails on a surrogate that stands alone, which a reader can bring in
   with an escape, and on an integer of too many digits. It never fails on a flat
   document of ASCII strings (`canonical_flat`).

   Strings are lists of code units, as the reader has them. What a float is, its text
   and whether it is zero, is a parameter. -/
namespace GrowthMap.PyJson
open JsonGrammar StrictJson

abbrev Bytes := List UInt8

/-! Reading -/

def utf16 (c : Char) : Text :=
  if c.toNat < 0x10000 then [c.toNat]
  else [0xD800 + (c.toNat - 0x10000) / 0x400, 0xDC00 + (c.toNat - 0x10000) % 0x400]

/-- `raw.decode("utf-8","strict")` -/
def decode (raw : Bytes) : Option Text := (String.fromUTF8? ⟨raw.toArray⟩).map (fun s => s.toList.flatMap utf16)

/-- `d[key] = value`: a key that is there keeps its place. -/
def setItem (key : Text) (v : PyValue) : List (Text × PyValue) → List (Text × PyValue)
  | [] => [(key, v)]
  | item :: items => if item.1 = key then (key, v) :: items else item :: setItem key v items

/-- `dict` of the pairs of an object. -/
def dictOf (items : List (Text × PyValue)) : List (Text × PyValue) :=
  items.foldl (fun d item => setItem item.1 item.2 d) []

mutual

def value : Tree → Except String PyValue
  | .word w => .ok (.constant w)
  | .num lexeme => number lexeme
  | .str s => .ok (.str s)
  | .arr items => (valueItems items).map .list
  | .obj members => (valueMembers members).map (fun items => .dict (dictOf items))

def valueItems : List Tree → Except String (List PyValue)
  | [] => .ok []
  | j :: items => do
    let v ← value j
    (valueItems items).map (v :: ·)

def valueMembers : List (Text × Tree) → Except String (List (Text × PyValue))
  | [] => .ok []
  | (key, j) :: members => do
    let v ← value j
    (valueMembers members).map ((key, v) :: ·)

end

/-- `json.loads(raw.decode("utf-8","strict"))`; `none` where either raises. -/
def loads (raw : Bytes) : Option PyValue := do
  let text ← decode raw
  let tree ← readText pyWords text
  (value tree).toOption

/-! Writing -/

/-- What is left of a float: its text, and if it is zero. -/
structure Floats where
  repr : Text → Text
  isZero : Text → Bool

def escapeUnit (n : Nat) : Text :=
  if n = unit '"' then units "\\\""
  else if n = unit '\\' then units "\\\\"
  else if n = 10 then units "\\n"
  else if n = 13 then units "\\r"
  else if n = 9 then units "\\t"
  else if n = 8 then units "\\b"
  else if n = 12 then units "\\f"
  else if n < 32 then units "\\u00" ++ [unit (Json.hexDigit (n / 16)), unit (Json.hexDigit (n % 16))]
  else [n]

def quoted (s : Text) : Text := unit '"' :: (s.flatMap escapeUnit ++ [unit '"'])

def commas : List Text → Text
  | [] => []
  | [x] => x
  | x :: y :: rest => x ++ unit ',' :: commas (y :: rest)

/-- The code points of a string: a surrogate that stands alone is one. -/
def points : Text → List Nat
  | [] => []
  | [a] => [a]
  | a :: b :: s =>
    if 0xD800 ≤ a ∧ a < 0xDC00 ∧ 0xDC00 ≤ b ∧ b < 0xE000 then (0x10000 + (a - 0xD800) * 0x400 + (b - 0xDC00)) :: points s
    else a :: points (b :: s)

def keyLe (a b : Text × Text) : Prop := points a.1 ≤ points b.1

instance : DecidableRel keyLe := fun a b => inferInstanceAs (Decidable (points a.1 ≤ points b.1))

section Dumps

variable (floats : Floats)

mutual

/-- `json.dumps(value, sort_keys=True, separators=(",", ":"), ensure_ascii=False)` -/
def dumps : PyValue → Option Text
  | .constant w => some w
  | .int n => if maxStrDigits < (Nat.toDigits 10 n.natAbs).length then none else some ((Json.renderInt n).map unit)
  | .float lexeme => some (floats.repr lexeme)
  | .str s => some (quoted s)
  | .list items => do
    let texts ← dumpsItems items
    return unit '[' :: (commas texts ++ [unit ']'])
  | .dict items => do
    let texts ← dumpsMembers items
    return unit '\x7b' :: (commas ((texts.insertionSort keyLe).map (fun t => quoted t.1 ++ unit ':' :: t.2)) ++ [unit '\x7d'])

def dumpsItems : List PyValue → Option (List Text)
  | [] => some []
  | v :: items => do
    let t ← dumps v
    return t :: (← dumpsItems items)

def dumpsMembers : List (Text × PyValue) → Option (List (Text × Text))
  | [] => some []
  | (key, v) :: items => do
    let t ← dumps v
    return (key, t) :: (← dumpsMembers items)

end

end Dumps

def encodePoint (n : Nat) : Option Bytes :=
  if n < 0x80 then some [n.toUInt8]
  else if n < 0x800 then some [(0xC0 + n / 0x40).toUInt8, (0x80 + n % 0x40).toUInt8]
  else if 0xD800 ≤ n ∧ n < 0xE000 then none
  else if n < 0x10000 then some [(0xE0 + n / 0x1000).toUInt8, (0x80 + n / 0x40 % 0x40).toUInt8, (0x80 + n % 0x40).toUInt8]
  else some [(0xF0 + n / 0x40000).toUInt8, (0x80 + n / 0x1000 % 0x40).toUInt8, (0x80 + n / 0x40 % 0x40).toUInt8,
    (0x80 + n % 0x40).toUInt8]

/-- `.encode()` -/
def encode (s : Text) : Option Bytes := ((points s).mapM encodePoint).map List.flatten

/-- `_canonical` -/
def canonical (floats : Floats) (v : PyValue) : Option Bytes := (dumps floats v).bind encode

/-! Flat documents -/

def Ascii (s : Text) : Prop := ∀ n ∈ s, n < 0x80

instance (s : Text) : Decidable (Ascii s) := inferInstanceAs (Decidable (∀ n ∈ s, n < 0x80))

variable {s : Text} {items : List (Text × PyValue)}

theorem Ascii.append {t : Text} (hs : Ascii s) (ht : Ascii t) : Ascii (s ++ t) := by
  intro n hn
  cases List.mem_append.mp hn with
  | inl hn => exact hs n hn
  | inr hn => exact ht n hn

theorem Ascii.cons {s : Text} {n : Nat} (hn : n < 0x80) (hs : Ascii s) : Ascii (n :: s) := by
  intro m hm
  cases hm with
  | head => exact hn
  | tail _ hm => exact hs m hm

theorem ascii_nil : Ascii [] := fun _ h => absurd h List.not_mem_nil

theorem points_ascii (h : Ascii s) : points s = s := by
  induction s with
  | nil => rfl
  | cons a s ih =>
    have hs : Ascii s := fun n hn => h n (List.mem_cons_of_mem _ hn)
    cases s with
    | nil => rfl
    | cons =>
      have ha := h a List.mem_cons_self
      rw [points, if_neg (by omega), ih hs]

theorem encode_ascii (h : Ascii s) : (encode s).isSome = true := by
  rw [encode, points_ascii h, Option.isSome_map]
  induction s with
  | nil => rfl
  | cons a s ih =>
    have ha : encodePoint a = some [a.toUInt8] := if_pos (h a List.mem_cons_self)
    have hs := ih fun n hn => h n (List.mem_cons_of_mem _ hn)
    obtain ⟨bs, hbs⟩ := Option.isSome_iff_exists.mp hs
    rw [List.mapM_cons, ha, hbs]
    rfl

theorem hexDigit_ascii {n : Nat} (h : n < 16) : unit (Json.hexDigit n) < 0x80 := by
  revert n
  decide

theorem escapeUnit_ascii {n : Nat} (h : n < 0x80) : Ascii (escapeUnit n) := by
  unfold escapeUnit
  split
  · decide
  split
  · decide
  split
  · decide
  split
  · decide
  split
  · decide
  split
  · decide
  split
  · decide
  split
  · have hhigh : n / 16 < 16 := by omega
    have hlow : n % 16 < 16 := by omega
    exact Ascii.append (by decide) (.cons (hexDigit_ascii hhigh) (.cons (hexDigit_ascii hlow) ascii_nil))
  · exact .cons h ascii_nil

theorem quoted_ascii (h : Ascii s) : Ascii (quoted s) := by
  refine .cons (by decide) (Ascii.append ?_ (.cons (by decide) ascii_nil))
  intro n hn
  obtain ⟨m, hm, hn⟩ := List.mem_flatMap.mp hn
  exact escapeUnit_ascii (h m hm) n hn

theorem commas_ascii {ts : List Text} (h : ∀ t ∈ ts, Ascii t) : Ascii (commas ts) := by
  induction ts with
  | nil => exact ascii_nil
  | cons t ts ih =>
    have hrest := ih fun u hu => h u (List.mem_cons_of_mem _ hu)
    cases ts with
    | nil => exact h t List.mem_cons_self
    | cons =>
      rw [commas]
      exact (h t List.mem_cons_self).append (.cons (by decide) hrest)

/-- A value that is written without a member of its own and in ASCII. -/
def Plain : PyValue → Prop
  | .constant w => Ascii w
  | .str s => Ascii s
  | _ => False

theorem dumps_plain (floats : Floats) {v : PyValue} (h : Plain v) : ∃ t, dumps floats v = some t ∧ Ascii t := by
  cases v with
  | constant w => exact ⟨w, by rw [dumps], h⟩
  | str s => exact ⟨quoted s, by rw [dumps], quoted_ascii h⟩
  | int => exact absurd h id
  | float => exact absurd h id
  | list => exact absurd h id
  | dict => exact absurd h id

theorem dumpsMembers_plain (floats : Floats) (h : ∀ item ∈ items, Ascii item.1 ∧ Plain item.2) :
    ∃ texts, dumpsMembers floats items = some texts ∧ ∀ t ∈ texts, Ascii t.1 ∧ Ascii t.2 := by
  induction items with
  | nil => exact ⟨[], by rw [dumpsMembers], fun _ h => absurd h List.not_mem_nil⟩
  | cons item items ih =>
    obtain ⟨key, v⟩ := item
    obtain ⟨hkey, hv⟩ := h _ List.mem_cons_self
    obtain ⟨t, ht, hta⟩ := dumps_plain floats hv
    obtain ⟨texts, htexts, hall⟩ := ih fun item hitem => h item (List.mem_cons_of_mem _ hitem)
    refine ⟨(key, t) :: texts, ?_, ?_⟩
    · rw [dumpsMembers, ht, htexts]
      rfl
    · intro u hu
      cases hu with
      | head => exact ⟨hkey, hta⟩
      | tail _ hu => exact hall u hu

theorem canonical_flat (floats : Floats) (h : ∀ item ∈ items, Ascii item.1 ∧ Plain item.2) :
    (canonical floats (.dict items)).isSome = true := by
  obtain ⟨texts, htexts, hall⟩ := dumpsMembers_plain floats h
  rw [canonical, dumps, htexts]
  refine encode_ascii (.cons (by decide) (Ascii.append (commas_ascii ?_) (.cons (by decide) ascii_nil)))
  intro t ht
  obtain ⟨u, hu, rfl⟩ := List.mem_map.mp ht
  obtain ⟨hkey, hv⟩ := hall u ((List.mem_insertionSort keyLe).mp hu)
  exact (quoted_ascii hkey).append (.cons (by decide) hv)

end GrowthMap.PyJson
