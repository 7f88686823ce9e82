import GrowthMap.Lib.Json

/- Reading and writing JSON text.

   A `Layout` is what a writer is free to choose: where it puts blanks, and how it
   writes a character inside a string. `write` is the text of a value in a layout,
   and `parse` reads the grammar of the standard. A value is read back from its
   text in every layout (`parse_stringify`).

   An object keeps the order of its fields. `parse` keeps a key that stands twice
   as it stands; `loads` makes the dictionary of it that a program sees. A lone
   surrogate is in no string here, so `parse` refuses one. -/
namespace Json

/-! Characters -/

def isBlank (c : Char) : Bool := c == ' ' || c == '\n' || c == '\r' || c == '\t'

def skip (cs : List Char) : List Char := cs.dropWhile isBlank

variable {bs rest : List Char} {c : Char} {j : Json}

theorem skip_blanks (h : bs.all isBlank) (cs : List Char) : skip (bs ++ cs) = skip cs := by
  induction bs with
  | nil => rfl
  | cons b bs ih =>
    obtain ⟨hb, hbs⟩ := Bool.and_eq_true_iff.mp h
    simp only [skip, List.cons_append, List.dropWhile_cons, hb, if_true]
    exact ih hbs

theorem skip_cons (h : isBlank c = false) (cs : List Char) : skip (c :: cs) = c :: cs := by
  simp [skip, h]

def hexVal (c : Char) : Option Nat :=
  if '0' ≤ c ∧ c ≤ '9' then some (c.toNat - 48)
  else if 'a' ≤ c ∧ c ≤ 'f' then some (c.toNat - 87)
  else if 'A' ≤ c ∧ c ≤ 'F' then some (c.toNat - 55)
  else none

theorem hexVal_hexDigit : ∀ n < 16, hexVal (hexDigit n) = some n := by decide

/-- The code unit of `\uXXXX`. -/
def hex4 (a b c d : Char) : Option Nat := do
  let a ← hexVal a
  let b ← hexVal b
  let c ← hexVal c
  let d ← hexVal d
  return a * 4096 + b * 256 + c * 16 + d

/-- The code unit of a two-character escape. -/
def unescape (c : Char) : Option Nat :=
  if c = '"' ∨ c = '\\' ∨ c = '/' then some c.toNat
  else if c = 'b' then some 8
  else if c = 'f' then some 12
  else if c = 'n' then some 10
  else if c = 'r' then some 13
  else if c = 't' then some 9
  else none

/-! Reading -/

/-- The code units of a string, up to its closing quote. -/
def readUnits : List Char → Option (List Nat × List Char)
  | [] => none
  | c :: rest =>
    if c = '"' then some ([], rest)
    else if c = '\\' then
      match rest with
      | [] => none
      | e :: rest =>
        if e = 'u' then
          match rest with
          | w :: x :: y :: z :: rest => do
            let n ← hex4 w x y z
            let (units, rest) ← readUnits rest
            return (n :: units, rest)
          | _ => none
        else do
          let n ← unescape e
          let (units, rest) ← readUnits rest
          return (n :: units, rest)
    else if c.toNat < 32 then none
    else do
      let (units, rest) ← readUnits rest
      return (c.toNat :: units, rest)

def isHigh (n : Nat) : Bool := decide (0xD800 ≤ n ∧ n < 0xDC00)

def isLow (n : Nat) : Bool := decide (0xDC00 ≤ n ∧ n < 0xE000)

/-- The characters of the code units: two surrogates are one character. -/
def joinUnits : List Nat → Option (List Char)
  | [] => some []
  | n :: rest =>
    if isHigh n then
      match rest with
      | [] => none
      | m :: rest =>
        if isLow m then
          (joinUnits rest).map (Char.ofNat (0x10000 + (n - 0xD800) * 0x400 + (m - 0xDC00)) :: ·)
        else none
    else if isLow n then none
    else (joinUnits rest).map (Char.ofNat n :: ·)

/-- A string, from the character after its opening quote. -/
def readString (cs : List Char) : Option (String × List Char) := do
  let (units, rest) ← readUnits cs
  let chars ← joinUnits units
  return (String.ofList chars, rest)

/-- The digits a text begins with. -/
def digitsOf (cs : List Char) : List Char := cs.takeWhile Char.isDigit

def afterDigits (cs : List Char) : List Char := cs.dropWhile Char.isDigit

/-- The fraction and the exponent of a number. -/
def readFraction : List Char → Option (List Char × List Char)
  | '.' :: rest => if digitsOf rest = [] then none else some ('.' :: digitsOf rest, afterDigits rest)
  | cs => some ([], cs)

def readExponent : List Char → Option (List Char × List Char)
  | c :: rest =>
    if c = 'e' ∨ c = 'E' then
      match rest with
      | s :: rest' =>
        if s = '+' ∨ s = '-' then
          if digitsOf rest' = [] then none else some (c :: s :: digitsOf rest', afterDigits rest')
        else if digitsOf rest = [] then none
        else some (c :: digitsOf rest, afterDigits rest)
      | [] => none
    else some ([], c :: rest)
  | [] => some ([], [])

/-- A number without its sign. -/
def readUnsigned (negative : Bool) (cs : List Char) : Option (Json × List Char) := do
  let ds := digitsOf cs
  if ds = [] ∨ (ds.head? = some '0' ∧ 1 < ds.length) then none
  let (fraction, rest) ← readFraction (afterDigits cs)
  let (exponent, rest) ← readExponent rest
  let n := Nat.ofDigitChars 10 ds 0
  if fraction = [] ∧ exponent = [] then
    return (.int (if negative then -(n : Int) else n), rest)
  let sign := if negative then ['-'] else []
  return (.real (String.ofList (sign ++ ds ++ fraction ++ exponent)), rest)

def readNumber : List Char → Option (Json × List Char)
  | '-' :: rest => readUnsigned true rest
  | cs => readUnsigned false cs

def readWord : List Char → Option (Json × List Char)
  | 'n' :: 'u' :: 'l' :: 'l' :: rest => some (.null, rest)
  | 't' :: 'r' :: 'u' :: 'e' :: rest => some (.bool true, rest)
  | 'f' :: 'a' :: 'l' :: 's' :: 'e' :: rest => some (.bool false, rest)
  | _ => none

mutual

def readValue : Nat → List Char → Option (Json × List Char)
  | 0, _ => none
  | fuel + 1, cs =>
    match skip cs with
    | [] => none
    | c :: rest =>
      if c = '"' then (readString rest).map (fun p => (.str p.1, p.2))
      else if c = '[' then
        if (skip rest).head? = some ']' then some (.arr [], (skip rest).tail)
        else do
          let (j, rest) ← readValue fuel rest
          let (items, rest) ← readItems fuel rest
          return (.arr (j :: items), rest)
      else if c = '\x7b' then
        if (skip rest).head? = some '\x7d' then some (.obj [], (skip rest).tail)
        else do
          let (field, rest) ← readField fuel rest
          let (fields, rest) ← readFields fuel rest
          return (.obj (field :: fields), rest)
      else if c = '-' ∨ c.isDigit then readNumber (c :: rest)
      else readWord (c :: rest)

/-- The items after the first, and the closing bracket. -/
def readItems : Nat → List Char → Option (List Json × List Char)
  | 0, _ => none
  | fuel + 1, cs =>
    match skip cs with
    | [] => none
    | c :: rest =>
      if c = ']' then some ([], rest)
      else if c = ',' then do
        let (j, rest) ← readValue fuel rest
        let (items, rest) ← readItems fuel rest
        return (j :: items, rest)
      else none

def readField : Nat → List Char → Option ((String × Json) × List Char)
  | 0, _ => none
  | fuel + 1, cs =>
    match skip cs with
    | [] => none
    | c :: rest =>
      if c = '"' then do
        let (key, rest) ← readString rest
        match skip rest with
        | [] => none
        | d :: rest =>
          if d = ':' then do
            let (j, rest) ← readValue fuel rest
            return ((key, j), rest)
          else none
      else none

/-- The fields after the first, and the closing brace. -/
def readFields : Nat → List Char → Option (List (String × Json) × List Char)
  | 0, _ => none
  | fuel + 1, cs =>
    match skip cs with
    | [] => none
    | c :: rest =>
      if c = '\x7d' then some ([], rest)
      else if c = ',' then do
        let (field, rest) ← readField fuel rest
        let (fields, rest) ← readFields fuel rest
        return (field :: fields, rest)
      else none

end

/-- The document: one value, with nothing after it but blanks. -/
def parse (t : String) : Option Json :=
  match readValue (t.toList.length + 1) t.toList with
  | some (j, rest) => if skip rest = [] then some j else none
  | none => none

/-! Writing -/

/-- What a writer chooses: the blanks before an item or a field and before the
closing bracket, at a depth; the blanks after a colon; and the characters that
stand for one character of a string. -/
structure Layout where
  line : Nat → List Char
  colon : List Char
  escape : Char → List Char
  line_blank : ∀ d, (line d).all isBlank
  colon_blank : colon.all isBlank
  escape_read : ∀ c rest, readUnits (escape c ++ rest) = (readUnits rest).map (fun p => (c.toNat :: p.1, p.2))

/-- A string in its quotes. -/
def Layout.quote (l : Layout) (s : String) : List Char := '"' :: (s.toList.flatMap l.escape ++ ['"'])

mutual

def write (l : Layout) (d : Nat) : Json → List Char
  | .null => ['n', 'u', 'l', 'l']
  | .bool true => ['t', 'r', 'u', 'e']
  | .bool false => ['f', 'a', 'l', 's', 'e']
  | .int n => renderInt n
  | .real text => text.toList
  | .str s => l.quote s
  | .arr [] => ['[', ']']
  | .arr (j :: items) => '[' :: (l.line (d + 1) ++ (write l (d + 1) j ++ writeItems l d items))
  | .obj [] => ['\x7b', '\x7d']
  | .obj ((key, j) :: fields) =>
    '\x7b' :: (l.line (d + 1) ++ (l.quote key ++ ':' :: (l.colon ++ (write l (d + 1) j ++ writeFields l d fields))))

def writeItems (l : Layout) (d : Nat) : List Json → List Char
  | [] => l.line d ++ [']']
  | j :: items => ',' :: (l.line (d + 1) ++ (write l (d + 1) j ++ writeItems l d items))

def writeFields (l : Layout) (d : Nat) : List (String × Json) → List Char
  | [] => l.line d ++ ['\x7d']
  | (key, j) :: fields =>
    ',' :: (l.line (d + 1) ++ (l.quote key ++ ':' :: (l.colon ++ (write l (d + 1) j ++ writeFields l d fields))))

end

/-- The text of a value in a layout. -/
def stringify (l : Layout) (j : Json) : String := String.ofList (write l 0 j)

/-! Strings -/

theorem readUnits_escapeChar (c : Char) (rest : List Char) :
    readUnits (escapeChar c ++ rest) = (readUnits rest).map (fun p => (c.toNat :: p.1, p.2)) := by
  have hshort : ∀ e n, unescape e = some n → e ≠ 'u' →
      readUnits ('\\' :: e :: rest) = (readUnits rest).map (fun p => (n :: p.1, p.2)) := by
    intro e n he hu
    rw [readUnits.eq_def]
    simp only [Char.reduceEq, if_false, if_true, hu, he]
    cases readUnits rest <;> rfl
  unfold escapeChar
  split
  · next h => subst h; exact hshort '"' 34 (by decide) (by decide)
  split
  · next h => subst h; exact hshort '\\' 92 (by decide) (by decide)
  split
  · next h => subst h; exact hshort 'n' 10 (by decide) (by decide)
  split
  · next h => subst h; exact hshort 'r' 13 (by decide) (by decide)
  split
  · next h => subst h; exact hshort 't' 9 (by decide) (by decide)
  split
  · next h => subst h; exact hshort 'b' 8 (by decide) (by decide)
  split
  · next h => subst h; exact hshort 'f' 12 (by decide) (by decide)
  split
  · next h =>
    -- the other control characters are written with their code
    have h1 := hexVal_hexDigit (c.toNat / 16) (by omega)
    have h2 := hexVal_hexDigit (c.toNat % 16) (by omega)
    have h0 : hexVal '0' = some 0 := by decide
    have hsum : 0 * 4096 + 0 * 256 + c.toNat / 16 * 16 + c.toNat % 16 = c.toNat := by omega
    have hcode : hex4 '0' '0' (hexDigit (c.toNat / 16)) (hexDigit (c.toNat % 16)) = some c.toNat := by
      simp only [hex4, h0, h1, h2, Option.bind_eq_bind, Option.bind_some, hsum]
      rfl
    rw [readUnits.eq_def]
    simp only [List.cons_append, List.nil_append, Char.reduceEq, if_false, if_true, hcode]
    cases readUnits rest <;> rfl
  · next hquote hslash _ _ _ _ _ hplain =>
    rw [readUnits.eq_def]
    simp only [List.cons_append, List.nil_append, hquote, hslash, hplain, if_false]
    cases readUnits rest <;> rfl

/-- No blanks, and characters outside ASCII as they are: `json.dumps` with
`separators=(",", ":")` and `ensure_ascii=False`. -/
def compact : Layout := ⟨fun _ => [], [], escapeChar, fun _ => rfl, rfl, readUnits_escapeChar⟩

theorem readUnits_written (l : Layout) (cs rest : List Char) :
    readUnits (cs.flatMap l.escape ++ '"' :: rest) = some (cs.map Char.toNat, rest) := by
  induction cs with
  | nil =>
    rw [readUnits.eq_def]
    simp
  | cons c cs ih =>
    rw [List.flatMap_cons, List.append_assoc, l.escape_read, ih]
    rfl

theorem toNat_not_surrogate (c : Char) : isHigh c.toNat = false ∧ isLow c.toNat = false := by
  have h := c.valid
  simp only [isHigh, isLow, decide_eq_false_iff_not]
  simp only [UInt32.isValidChar, Nat.isValidChar] at h
  have hval : c.val.toNat = c.toNat := rfl
  rw [hval] at h
  omega

theorem joinUnits_chars (cs : List Char) : joinUnits (cs.map Char.toNat) = some cs := by
  induction cs with
  | nil => rfl
  | cons c cs ih =>
    obtain ⟨hhigh, hlow⟩ := toNat_not_surrogate c
    rw [joinUnits.eq_def]
    simp [hhigh, hlow, ih]

theorem readString_written (l : Layout) (s : String) (rest : List Char) :
    readString (s.toList.flatMap l.escape ++ '"' :: rest) = some (s, rest) := by
  simp only [readString, readUnits_written, Option.bind_eq_bind, Option.bind_some, joinUnits_chars]
  simp

/-! Numbers -/

/-- A text in front of which a number ends. -/
def Stops (cs : List Char) : Prop := ∀ c ∈ cs.head?, c.isDigit = false ∧ c ≠ '.' ∧ c ≠ 'e' ∧ c ≠ 'E'

theorem stops_nil : Stops [] := by
  intro c hc
  cases hc

theorem stops_cons {cs : List Char} (h : c.isDigit = false ∧ c ≠ '.' ∧ c ≠ 'e' ∧ c ≠ 'E') : Stops (c :: cs) := by
  intro d hd
  cases hd
  exact h

theorem stops_blanks {bs cs : List Char} (hb : bs.all isBlank) (h : Stops cs) : Stops (bs ++ cs) := by
  cases bs with
  | nil => exact h
  | cons =>
    obtain ⟨hb, -⟩ := Bool.and_eq_true_iff.mp hb
    refine stops_cons ?_
    simp only [isBlank, Bool.or_eq_true, beq_iff_eq] at hb
    rcases hb with ((rfl | rfl) | rfl) | rfl <;> decide

theorem digits_append {ds : List Char} (h : ∀ c ∈ ds, c.isDigit) (hr : Stops rest) :
    digitsOf (ds ++ rest) = ds ∧ afterDigits (ds ++ rest) = rest := by
  induction ds with
  | nil =>
    cases rest with
    | nil => exact ⟨rfl, rfl⟩
    | cons c =>
      have hc := (hr c rfl).1
      simp [digitsOf, afterDigits, hc]
  | cons d ds ih =>
    obtain ⟨hd, hds⟩ := List.forall_mem_cons.mp h
    obtain ⟨h1, h2⟩ := ih hds
    simp only [digitsOf, afterDigits, List.cons_append, List.takeWhile_cons, List.dropWhile_cons, hd, if_true] at *
    exact ⟨by rw [h1], h2⟩

/-- Decimal digits begin with a zero only in `0` itself. -/
theorem toDigits_head (n : Nat) : ¬ ((Nat.toDigits 10 n).head? = some '0' ∧ 1 < (Nat.toDigits 10 n).length) := by
  induction n using Nat.strongRecOn with
  | ind n ih =>
    by_cases hn : n < 10
    · rw [Nat.toDigits_of_lt_base hn]
      simp
    · rw [Nat.toDigits_of_base_le (by omega) (by omega)]
      rintro ⟨hhead, -⟩
      rw [List.head?_append_of_ne_nil _ Nat.toDigits_ne_nil] at hhead
      have hshort := ih (n / 10) (by omega)
      have hone : (Nat.toDigits 10 (n / 10)).length ≤ 1 := by
        by_contra hlong
        exact hshort ⟨hhead, by omega⟩
      have hlt : n / 10 < 10 := by
        have := (Nat.length_toDigits_le_iff (by omega) (by omega)).mp hone
        simpa using this
      rw [Nat.toDigits_of_lt_base hlt] at hhead
      have hzero : ∀ m < 10, [Nat.digitChar m].head? = some '0' → m = 0 := by decide
      have := hzero (n / 10) hlt hhead
      omega

theorem readUnsigned_written (negative : Bool) (n : Nat) (hr : Stops rest) :
    readUnsigned negative (Nat.toDigits 10 n ++ rest) = some (.int (if negative then -(n : Int) else n), rest) := by
  have hdigits : ∀ c ∈ Nat.toDigits 10 n, c.isDigit := fun c hc => Nat.isDigit_of_mem_toDigits (by omega) (by omega) hc
  obtain ⟨h1, h2⟩ := digits_append hdigits hr
  have hguard : ¬ (Nat.toDigits 10 n = [] ∨ ((Nat.toDigits 10 n).head? = some '0' ∧ 1 < (Nat.toDigits 10 n).length)) := by
    rintro (h | h)
    · exact Nat.toDigits_ne_nil h
    · exact toDigits_head n h
  have hfraction : readFraction rest = some ([], rest) := by
    cases rest with
    | nil => rfl
    | cons c =>
      have hc := (hr c rfl).2.1
      unfold readFraction
      split
      · next h => exact absurd (List.cons.inj h).1 hc
      · rfl
  have hexponent : readExponent rest = some ([], rest) := by
    cases rest with
    | nil => rfl
    | cons c =>
      obtain ⟨-, -, he, hE⟩ := hr c rfl
      simp [readExponent, he, hE]
  simp only [readUnsigned, h1, h2, if_neg hguard, hfraction, hexponent, Nat.ofDigitChars_ten_toDigits, Option.pure_def,
    Option.bind_eq_bind, Option.bind_some, and_self, if_true]

theorem readNumber_written (n : Int) (hr : Stops rest) :
    readNumber (renderInt n ++ rest) = some (.int n, rest) := by
  unfold renderInt
  split
  · next h =>
    rw [List.cons_append, readNumber, readUnsigned_written true _ hr]
    have hn : -(n.natAbs : Int) = n := by omega
    simp only [hn, if_true]
  · next h =>
    have hplain : readNumber (Nat.toDigits 10 n.natAbs ++ rest) = readUnsigned false (Nat.toDigits 10 n.natAbs ++ rest) := by
      unfold readNumber
      split
      · next heq =>
        have hmem : '-' ∈ Nat.toDigits 10 n.natAbs := by
          cases hd : Nat.toDigits 10 n.natAbs with
          | nil => exact absurd hd Nat.toDigits_ne_nil
          | cons =>
            rw [hd] at heq
            rw [(List.cons.inj heq).1]
            exact List.mem_cons_self
        have := Nat.isDigit_of_mem_toDigits (by omega) (by omega) hmem
        exact absurd this (by decide)
      · rfl
    rw [hplain, readUnsigned_written false _ hr]
    have hn : (n.natAbs : Int) = n := by omega
    simp [hn]

/-! Values -/

mutual

/-- Every number of the value is an integer. -/
def plain : Json → Bool
  | .real _ => false
  | .arr items => plainItems items
  | .obj fields => plainFields fields
  | _ => true

def plainItems : List Json → Bool
  | [] => true
  | j :: items => j.plain && plainItems items

def plainFields : List (String × Json) → Bool
  | [] => true
  | (_, j) :: fields => j.plain && plainFields fields

end

variable {fields : List (String × Json)}

section RoundTrip

variable (l : Layout)

theorem renderInt_head (n : Int) : ∃ c t, renderInt n = c :: t ∧ (c = '-' ∨ c.isDigit) := by
  unfold renderInt
  split
  · exact ⟨_, _, rfl, .inl rfl⟩
  · cases hd : Nat.toDigits 10 n.natAbs with
    | nil => exact absurd hd Nat.toDigits_ne_nil
    | cons c t =>
      have hmem : c ∈ Nat.toDigits 10 n.natAbs := by
        rw [hd]
        exact List.mem_cons_self
      exact ⟨c, t, rfl, .inr (Nat.isDigit_of_mem_toDigits (by omega) (by omega) hmem)⟩

theorem isDigit_facts (h : c = '-' ∨ c.isDigit) :
    isBlank c = false ∧ c ≠ ']' ∧ c ≠ '"' ∧ c ≠ '[' ∧ c ≠ '\x7b' := by
  have hne : ∀ d : Char, d ≠ '-' → d.isDigit = false → c ≠ d := by
    rintro d hd hdigit rfl
    rcases h with h | h
    · exact hd h
    · rw [hdigit] at h
      cases h
  refine ⟨?_, hne _ (by decide) (by decide), hne _ (by decide) (by decide), hne _ (by decide) (by decide),
    hne _ (by decide) (by decide)⟩
  simp only [isBlank, Bool.or_eq_false_iff, beq_eq_false_iff_ne]
  exact ⟨⟨⟨hne _ (by decide) (by decide), hne _ (by decide) (by decide)⟩, hne _ (by decide) (by decide)⟩,
    hne _ (by decide) (by decide)⟩

theorem write_head (j : Json) (d : Nat) (h : j.plain) : ∃ c t, write l d j = c :: t ∧ isBlank c = false ∧ c ≠ ']' := by
  cases j with
  | null => exact ⟨_, _, rfl, by decide, by decide⟩
  | bool b => cases b <;> exact ⟨_, _, rfl, by decide, by decide⟩
  | int n =>
    obtain ⟨c, t, heq, hc⟩ := renderInt_head n
    obtain ⟨hblank, hclose, -⟩ := isDigit_facts hc
    exact ⟨c, t, heq, hblank, hclose⟩
  | real => cases h
  | str => exact ⟨_, _, rfl, by decide, by decide⟩
  | arr items => cases items <;> exact ⟨_, _, rfl, by decide, by decide⟩
  | obj fields => cases fields <;> exact ⟨_, _, rfl, by decide, by decide⟩

theorem skip_write (h : j.plain) (d : Nat) (hbs : bs.all isBlank) (rest : List Char) :
    skip (bs ++ (write l d j ++ rest)) = write l d j ++ rest := by
  obtain ⟨c, t, heq, hblank, -⟩ := write_head l j d h
  rw [skip_blanks hbs, heq, List.cons_append, skip_cons hblank]

theorem stops_writeItems (items : List Json) (d : Nat) (rest : List Char) : Stops (writeItems l d items ++ rest) := by
  cases items with
  | nil =>
    rw [writeItems, List.append_assoc]
    exact stops_blanks (l.line_blank d) (stops_cons (by decide))
  | cons => exact stops_cons (by decide)

theorem stops_writeFields (fields : List (String × Json)) (d : Nat) (rest : List Char) :
    Stops (writeFields l d fields ++ rest) := by
  cases fields with
  | nil =>
    rw [writeFields, List.append_assoc]
    exact stops_blanks (l.line_blank d) (stops_cons (by decide))
  | cons => exact stops_cons (by decide)

/-- With this fuel, what was written is read back. -/
structure ReadsBack (fuel : Nat) : Prop where
  value : ∀ j d bs rest, plain j → bs.all isBlank → Stops rest → (write l d j).length ≤ fuel →
    readValue fuel (bs ++ (write l d j ++ rest)) = some (j, rest)
  items : ∀ items d rest, plainItems items → (writeItems l d items).length ≤ fuel →
    readItems fuel (writeItems l d items ++ rest) = some (items, rest)
  field : ∀ key j d bs rest, plain j → bs.all isBlank → Stops rest → (write l d j).length + 1 ≤ fuel →
    readField fuel (bs ++ (l.quote key ++ ':' :: (l.colon ++ (write l d j ++ rest)))) = some ((key, j), rest)
  fields : ∀ fields d rest, plainFields fields → (writeFields l d fields).length ≤ fuel →
    readFields fuel (writeFields l d fields ++ rest) = some (fields, rest)

variable {l} {fuel : Nat} {d : Nat}

theorem ReadsBack.readField (ih : ReadsBack l fuel) {key : String}
    (hplain : plain j) (hbs : bs.all isBlank) (hrest : Stops rest) (hlen : (write l d j).length + 1 ≤ fuel + 1) :
    readField (fuel + 1) (bs ++ (l.quote key ++ ':' :: (l.colon ++ (write l d j ++ rest)))) = some ((key, j), rest) := by
  have hskip : skip (bs ++ (l.quote key ++ ':' :: (l.colon ++ (write l d j ++ rest)))) =
      '"' :: (key.toList.flatMap l.escape ++ '"' :: ':' :: (l.colon ++ (write l d j ++ rest))) := by
    rw [skip_blanks hbs, Layout.quote]
    simp only [List.cons_append, List.append_assoc, List.nil_append]
    exact skip_cons (by decide) _
  have hcolon : skip (':' :: (l.colon ++ (write l d j ++ rest))) = ':' :: (l.colon ++ (write l d j ++ rest)) :=
    skip_cons (by decide) _
  rw [Json.readField.eq_def]
  simp only [hskip, if_true, readString_written, Option.bind_eq_bind, Option.bind_some, hcolon]
  rw [ih.value j d l.colon rest hplain l.colon_blank hrest (by omega)]
  rfl

theorem ReadsBack.readItems (ih : ReadsBack l fuel) {items : List Json}
    (hplain : plainItems items) (hlen : (writeItems l d items).length ≤ fuel + 1) :
    readItems (fuel + 1) (writeItems l d items ++ rest) = some (items, rest) := by
  rw [Json.readItems.eq_def]
  cases items with
  | nil =>
    have hskip : skip (writeItems l d [] ++ rest) = ']' :: rest := by
      rw [writeItems, List.append_assoc, skip_blanks (l.line_blank d)]
      exact skip_cons (by decide) _
    simp only [hskip, if_true]
  | cons j items =>
    obtain ⟨hj, hitems⟩ := Bool.and_eq_true_iff.mp hplain
    simp only [writeItems, List.length_cons, List.length_append] at hlen
    have hskip : skip (writeItems l d (j :: items) ++ rest) =
        ',' :: (l.line (d + 1) ++ (write l (d + 1) j ++ (writeItems l d items ++ rest))) := by
      simp only [writeItems, List.cons_append, List.append_assoc]
      exact skip_cons (by decide) _
    simp only [hskip, Char.reduceEq, if_false, if_true]
    rw [ih.value j (d + 1) _ _ hj (l.line_blank _) (stops_writeItems l items d rest) (by omega)]
    simp only [Option.bind_eq_bind, Option.bind_some]
    rw [ih.items items d rest hitems (by omega)]
    rfl

theorem ReadsBack.readFields (ih : ReadsBack l fuel)
    (hplain : plainFields fields) (hlen : (writeFields l d fields).length ≤ fuel + 1) :
    readFields (fuel + 1) (writeFields l d fields ++ rest) = some (fields, rest) := by
  rw [Json.readFields.eq_def]
  cases fields with
  | nil =>
    have hskip : skip (writeFields l d [] ++ rest) = '\x7d' :: rest := by
      rw [writeFields, List.append_assoc, skip_blanks (l.line_blank d)]
      exact skip_cons (by decide) _
    simp only [hskip, if_true]
  | cons f fields =>
    obtain ⟨key, j⟩ := f
    obtain ⟨hj, hfields⟩ := Bool.and_eq_true_iff.mp hplain
    simp only [writeFields, Layout.quote, List.length_cons, List.length_append] at hlen
    have hskip : skip (writeFields l d ((key, j) :: fields) ++ rest) = ',' :: (l.line (d + 1) ++ (l.quote key ++
        ':' :: (l.colon ++ (write l (d + 1) j ++ (writeFields l d fields ++ rest))))) := by
      simp only [writeFields, List.cons_append, List.append_assoc]
      exact skip_cons (by decide) _
    simp only [hskip, Char.reduceEq, if_false, if_true]
    rw [ih.field key j (d + 1) _ _ hj (l.line_blank _) (stops_writeFields l fields d rest) (by omega)]
    simp only [Option.bind_eq_bind, Option.bind_some]
    rw [ih.fields fields d rest hfields (by omega)]
    rfl

theorem ReadsBack.readValue (ih : ReadsBack l fuel) (hplain : plain j)
    (hbs : bs.all isBlank) (hrest : Stops rest) (hlen : (write l d j).length ≤ fuel + 1) :
    readValue (fuel + 1) (bs ++ (write l d j ++ rest)) = some (j, rest) := by
  rw [Json.readValue.eq_def]
  simp only [skip_write l hplain d hbs rest]
  cases j with
  | null => rfl
  | bool b => cases b <;> rfl
  | int n =>
    obtain ⟨c, t, heq, hc⟩ := renderInt_head n
    obtain ⟨-, -, hquote, hopen, hbrace⟩ := isDigit_facts hc
    have hread := readNumber_written n hrest
    rw [heq, List.cons_append] at hread
    simp only [write, heq, List.cons_append, hquote, hopen, hbrace, hc, if_false, if_true, hread]
  | real => cases hplain
  | str =>
    simp only [write, Layout.quote, List.cons_append, List.append_assoc, List.nil_append, if_true, readString_written]
    rfl
  | arr items =>
    cases items with
    | nil => rfl
    | cons j items =>
      obtain ⟨hj, hitems⟩ := Bool.and_eq_true_iff.mp hplain
      simp only [write, List.length_cons, List.length_append] at hlen
      have hopen : (skip (l.line (d + 1) ++ (write l (d + 1) j ++ (writeItems l d items ++ rest)))).head? ≠ some ']' := by
        obtain ⟨c, t, heq, -, hclose⟩ := write_head l j (d + 1) hj
        rw [skip_write l hj (d + 1) (l.line_blank _), heq]
        simpa using hclose
      simp only [write, List.cons_append, List.append_assoc, Char.reduceEq, if_false, if_true, hopen]
      rw [ih.value j (d + 1) _ _ hj (l.line_blank _) (stops_writeItems l items d rest) (by omega)]
      simp only [Option.bind_eq_bind, Option.bind_some]
      rw [ih.items items d rest hitems (by omega)]
      rfl
  | obj fields =>
    cases fields with
    | nil => rfl
    | cons f fields =>
      obtain ⟨key, j⟩ := f
      obtain ⟨hj, hfields⟩ := Bool.and_eq_true_iff.mp hplain
      simp only [write, Layout.quote, List.length_cons, List.length_append] at hlen
      have hopen : (skip (l.line (d + 1) ++ (l.quote key ++ ':' :: (l.colon ++ (write l (d + 1) j ++
          (writeFields l d fields ++ rest)))))).head? ≠ some '\x7d' := by
        rw [skip_blanks (l.line_blank _), Layout.quote, List.cons_append, skip_cons (by decide)]
        simp
      simp only [write, List.cons_append, List.append_assoc, Char.reduceEq, if_false, if_true, hopen]
      rw [ih.field key j (d + 1) _ _ hj (l.line_blank _) (stops_writeFields l fields d rest) (by omega)]
      simp only [Option.bind_eq_bind, Option.bind_some]
      rw [ih.fields fields d rest hfields (by omega)]
      rfl

theorem readsBack (l : Layout) (fuel : Nat) : ReadsBack l fuel := by
  induction fuel with
  | zero =>
    refine ⟨?_, ?_, ?_, ?_⟩
    · intro j d bs rest hplain _ _ hlen
      obtain ⟨c, t, heq, -⟩ := write_head l j d hplain
      simp [heq] at hlen
    · intro items d rest _ hlen
      cases items <;> simp [writeItems] at hlen
    · intro key j d bs rest _ _ _ hlen
      omega
    · intro fields d rest _ hlen
      cases fields <;> simp [writeFields] at hlen
  | succ fuel ih =>
    exact ⟨fun _ _ _ _ => ih.readValue, fun _ _ _ => ih.readItems, fun _ _ _ _ _ => ih.readField,
      fun _ _ _ => ih.readFields⟩

theorem parse_stringify (l : Layout) (h : j.plain) : parse (stringify l j) = some j := by
  have hread := (readsBack l ((write l 0 j).length + 1)).value j 0 [] [] h rfl stops_nil (by omega)
  rw [List.nil_append, List.append_nil] at hread
  simp only [parse, stringify, String.toList_ofList, hread]
  rfl

end RoundTrip

/-! Dictionaries -/

/-- A dictionary takes the last value of a key, in the place of the first. -/
def setField (fields : List (String × Json)) (f : String × Json) : List (String × Json) :=
  if fields.any (fun g => g.1 == f.1) then fields.map (fun g => if g.1 = f.1 then f else g) else fields ++ [f]

mutual

/-- The value with every object read into a dictionary. -/
def collapse : Json → Json
  | .arr items => .arr (collapseItems items)
  | .obj fields => .obj ((collapseFields fields).foldl setField [])
  | j => j

def collapseItems : List Json → List Json
  | [] => []
  | j :: items => collapse j :: collapseItems items

def collapseFields : List (String × Json) → List (String × Json)
  | [] => []
  | (key, j) :: fields => (key, collapse j) :: collapseFields fields

end

mutual

/-- No object of the value has a key twice. -/
def distinct : Json → Bool
  | .arr items => distinctItems items
  | .obj fields => decide (fields.map Prod.fst).Nodup && distinctFields fields
  | _ => true

def distinctItems : List Json → Bool
  | [] => true
  | j :: items => j.distinct && distinctItems items

def distinctFields : List (String × Json) → Bool
  | [] => true
  | (_, j) :: fields => j.distinct && distinctFields fields

end

theorem foldl_setField {acc : List (String × Json)} (h : ((acc ++ fields).map Prod.fst).Nodup) :
    fields.foldl setField acc = acc ++ fields := by
  induction fields generalizing acc with
  | nil => simp
  | cons f fields ih =>
    have hnew : acc.any (fun g => g.1 == f.1) = false := by
      rw [List.any_eq_false]
      intro g hg heq
      rw [List.map_append, List.nodup_append] at h
      exact h.2.2 g.1 (List.mem_map_of_mem hg) f.1 (by simp) (by simpa using heq)
    rw [List.foldl_cons, setField, hnew, if_neg (by simp), ih (by simpa using h)]
    simp

mutual

theorem collapse_of_distinct : ∀ j : Json, j.distinct → collapse j = j
  | .null, _ | .bool _, _ | .int _, _ | .real _, _ | .str _, _ => rfl
  | .arr items, h => by rw [collapse, collapseItems_of_distinct items h]
  | .obj fields, h => by
    obtain ⟨hnodup, hfields⟩ := Bool.and_eq_true_iff.mp h
    rw [collapse, collapseFields_of_distinct fields hfields, foldl_setField (by simpa using hnodup), List.nil_append]

theorem collapseItems_of_distinct : ∀ items : List Json, distinctItems items → collapseItems items = items
  | [], _ => rfl
  | j :: items, h => by
    obtain ⟨hj, hitems⟩ := Bool.and_eq_true_iff.mp h
    rw [collapseItems, collapse_of_distinct j hj, collapseItems_of_distinct items hitems]

theorem collapseFields_of_distinct : ∀ fields : List (String × Json), distinctFields fields → collapseFields fields = fields
  | [], _ => rfl
  | (key, j) :: fields, h => by
    obtain ⟨hj, hfields⟩ := Bool.and_eq_true_iff.mp h
    rw [collapseFields, collapse_of_distinct j hj, collapseFields_of_distinct fields hfields]

end

/-- `json.loads` and `JSON.parse` -/
def loads (t : String) : Option Json := (parse t).map collapse

theorem loads_stringify (l : Layout) (hplain : j.plain) (hdistinct : j.distinct) :
    loads (stringify l j) = some j := by
  rw [loads, parse_stringify l hplain, Option.map_some, collapse_of_distinct j hdistinct]

end Json
