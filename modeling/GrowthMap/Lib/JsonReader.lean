import GrowthMap.Lib.JsonGrammar

/- A reader of JSON texts.

   It reads by descent, on a fuel that the length of the text bounds. `readText`
   reads the texts of the grammar, all of them and no others, each to the tree it
   derives (`readText_iff`): what was read derives from what was consumed
   (`Sound`), and what derives is read up to where it ends (`Complete`), the two
   by induction on the fuel. -/
namespace JsonGrammar

/-! The reader -/

def skip (cs : Text) : Text := cs.dropWhile isBlank

/-- The characters of a string up to its closing quote, and the rest. -/
def readChars : Text → Option (Text × Text)
  | [] => none
  | c :: rest =>
    if c = unit '"' then some ([], rest)
    else if c = unit '\\' then
      match rest with
      | [] => none
      | e :: rest =>
        if e = unit 'u' then
          match rest with
          | w :: x :: y :: z :: rest => do
            let n ← hex4 w x y z
            let (d, rest) ← readChars rest
            return (n :: d, rest)
          | _ => none
        else do
          let n ← unescape e
          let (d, rest) ← readChars rest
          return (n :: d, rest)
    else if c < 32 then none
    else do
      let (d, rest) ← readChars rest
      return (c :: d, rest)

/-- `0|[1-9]\d*` -/
def matchWhole : Text → Option (Text × Text)
  | [] => none
  | c :: rest =>
    if c = unit '0' then some ([c], rest)
    else if isDigit c then some (c :: rest.takeWhile isDigit, rest.dropWhile isDigit)
    else none

/-- `(?:\.\d+)?` -/
def matchFraction : Text → Text × Text
  | [] => ([], [])
  | c :: rest =>
    if c = unit '.' ∧ rest.takeWhile isDigit ≠ [] then (c :: rest.takeWhile isDigit, rest.dropWhile isDigit)
    else ([], c :: rest)

/-- `(?:[eE][+-]?\d+)?` -/
def matchExponent : Text → Text × Text
  | [] => ([], [])
  | c :: rest =>
    if c = unit 'e' ∨ c = unit 'E' then
      match rest with
      | [] => ([], c :: rest)
      | s :: rest' =>
        if (s = unit '+' ∨ s = unit '-') ∧ rest'.takeWhile isDigit ≠ [] then
          (c :: s :: rest'.takeWhile isDigit, rest'.dropWhile isDigit)
        else if rest.takeWhile isDigit ≠ [] then (c :: rest.takeWhile isDigit, rest.dropWhile isDigit)
        else ([], c :: rest)
    else ([], c :: rest)

def matchUnsigned (cs : Text) : Option (Text × Text) := do
  let (w, rest) ← matchWhole cs
  let (f, rest) := matchFraction rest
  let (e, rest) := matchExponent rest
  return (w ++ (f ++ e), rest)

/-- The longest number a text begins with. -/
def matchNumber (cs : Text) : Option (Text × Text) :=
  if cs.head? = some (unit '-') then (matchUnsigned cs.tail).map (fun p => (unit '-' :: p.1, p.2)) else matchUnsigned cs

/-- A word a text begins with, or a number. -/
def readScalar (words : Words) (cs : Text) : Option (Tree × Text) :=
  match words.list.find? (fun w => w.isPrefixOf cs) with
  | some w => some (.word w, cs.drop w.length)
  | none => (matchNumber cs).map (fun p => (.num p.1, p.2))

/-- A key, up to its colon. -/
def readKey (cs : Text) : Option (Text × Text) :=
  match skip cs with
  | [] => none
  | c :: rest =>
    if c = unit '"' then do
      let (key, rest) ← readChars rest
      match skip rest with
      | [] => none
      | c :: rest => if c = unit ':' then some (key, rest) else none
    else none

section Reader

variable (words : Words)

mutual

/-- The value a text begins with. -/
def readValue : Nat → Text → Option (Tree × Text)
  | 0, _ => none
  | fuel + 1, cs =>
    match cs with
    | [] => none
    | c :: rest =>
      if c = unit '"' then (readChars rest).map (fun p => (.str p.1, p.2))
      else if c = unit '[' then
        if (skip rest).head? = some (unit ']') then some (.arr [], (skip rest).tail)
        else (readItems fuel rest).map (fun p => (.arr p.1, p.2))
      else if c = unit '\x7b' then
        if (skip rest).head? = some (unit '\x7d') then some (.obj [], (skip rest).tail)
        else (readMembers fuel rest).map (fun p => (.obj p.1, p.2))
      else readScalar words (c :: rest)

/-- The items up to the closing bracket, and the bracket. -/
def readItems : Nat → Text → Option (List Tree × Text)
  | 0, _ => none
  | fuel + 1, cs => do
    let (j, rest) ← readValue fuel (skip cs)
    match skip rest with
    | [] => none
    | c :: rest =>
      if c = unit ']' then some ([j], rest)
      else if c = unit ',' then (readItems fuel rest).map (fun p => (j :: p.1, p.2))
      else none

/-- The members up to the closing brace, and the brace. -/
def readMembers : Nat → Text → Option (List (Text × Tree) × Text)
  | 0, _ => none
  | fuel + 1, cs => do
    let (key, rest) ← readKey cs
    let (j, rest) ← readValue fuel (skip rest)
    match skip rest with
    | [] => none
    | c :: rest =>
      if c = unit '\x7d' then some ([(key, j)], rest)
      else if c = unit ',' then (readMembers fuel rest).map (fun p => ((key, j) :: p.1, p.2))
      else none

end

def readText (t : Text) : Option Tree :=
  match readValue words (t.length + 1) (skip t) with
  | some (j, rest) => if skip rest = [] then some j else none
  | none => none

end Reader

/-! Blanks -/

variable {n c fuel : Nat} {w cs d rest ds f e t k : Text} {j : Tree} {items : List Tree}
  {members : List (Text × Tree)}

theorem isBlank_iff : isBlank n = true ↔ n = 32 ∨ n = 9 ∨ n = 13 ∨ n = 10 := by
  simp [isBlank, unit, or_assoc]

theorem isDigit_iff : isDigit n = true ↔ 48 ≤ n ∧ n ≤ 57 := by
  simp [isDigit, unit]

theorem skip_append (h : Blanks w) (cs : Text) : skip (w ++ cs) = skip cs :=
  List.dropWhile_append_of_pos h

theorem skip_cons (h : isBlank c = false) (cs : Text) : skip (c :: cs) = c :: cs := by
  simp [skip, h]

theorem skip_eq_nil : skip cs = [] ↔ Blanks cs := List.dropWhile_eq_nil_iff

theorem skip_split (cs : Text) : ∃ w, Blanks w ∧ cs = w ++ skip cs :=
  ⟨cs.takeWhile isBlank, fun _ h => List.mem_takeWhile_imp h, List.takeWhile_append_dropWhile.symm⟩

theorem skip_found {r : Text} (h : skip cs = c :: r) : ∃ w, Blanks w ∧ cs = w ++ c :: r := by
  obtain ⟨w, hw, hcs⟩ := skip_split cs
  exact ⟨w, hw, h ▸ hcs⟩

theorem skip_mark (h : Blanks w) (hc : isBlank c = false) (cs : Text) :
    skip (w ++ c :: cs) = c :: cs := by
  rw [skip_append h, skip_cons hc]

/-! Strings -/

theorem unescape_u : unescape (unit 'u') = none := by decide

/-- What was read as the characters of a string are the characters of a string. -/
theorem readChars_sound (h : readChars cs = some (d, rest)) :
    ∃ s, cs = s ++ unit '"' :: rest ∧ Chars s d := by
  fun_induction readChars cs generalizing d rest with
  | case1 => cases h
  | case2 cs =>
    obtain ⟨rfl, rfl⟩ := Prod.mk.inj (Option.some.inj h)
    exact ⟨[], rfl, .nil⟩
  | case3 => cases h
  | case4 w x y z cs _ ih =>
    obtain ⟨n, hn, h⟩ := Option.bind_eq_some_iff.mp h
    obtain ⟨⟨e, r⟩, hr, h⟩ := Option.bind_eq_some_iff.mp h
    obtain ⟨rfl, rfl⟩ := Prod.mk.inj (Option.some.inj h)
    obtain ⟨s, rfl, hs⟩ := ih hr
    exact ⟨unit '\\' :: unit 'u' :: w :: x :: y :: z :: s, rfl, .code hn hs⟩
  | case5 => cases h
  | case6 e cs hu _ ih =>
    obtain ⟨n, hn, h⟩ := Option.bind_eq_some_iff.mp h
    obtain ⟨⟨d', r⟩, hr, h⟩ := Option.bind_eq_some_iff.mp h
    obtain ⟨rfl, rfl⟩ := Prod.mk.inj (Option.some.inj h)
    obtain ⟨s, rfl, hs⟩ := ih hr
    exact ⟨unit '\\' :: e :: s, rfl, .escape hn hs⟩
  | case7 => cases h
  | case8 c cs hq hb hc ih =>
    obtain ⟨⟨e, r⟩, hr, h⟩ := Option.bind_eq_some_iff.mp h
    obtain ⟨rfl, rfl⟩ := Prod.mk.inj (Option.some.inj h)
    obtain ⟨s, rfl, hs⟩ := ih hr
    exact ⟨c :: s, rfl, .plain (Nat.le_of_not_lt hc) hq hb hs⟩

/-- The characters of a string are read up to the quote that closes it. -/
theorem readChars_complete {s : Text} (h : Chars s d) (rest : Text) :
    readChars (s ++ unit '"' :: rest) = some (d, rest) := by
  induction h with
  | nil =>
    rw [readChars.eq_def]
    simp
  | plain hc hq hb _ ih =>
    rw [readChars.eq_def]
    simp [hq, hb, Nat.not_lt.mpr hc, ih]
  | @escape e n s d he _ ih =>
    have hu : e ≠ unit 'u' := by
      rintro rfl
      rw [unescape_u] at he
      cases he
    rw [readChars.eq_def]
    simp [unit] at hu ih ⊢
    simp [hu, he, ih]
  | code hn _ ih =>
    rw [readChars.eq_def]
    simp [unit] at ih ⊢
    simp [hn, ih]

/-! Numbers -/

/-- A text a run of digits can end at. -/
def NoDigit (rest : Text) : Prop := ∀ c ∈ rest.head?, isDigit c = false

/-- A text a number can end at. -/
def Stops (rest : Text) : Prop :=
  ∀ c ∈ rest.head?, isDigit c = false ∧ c ≠ unit '.' ∧ c ≠ unit 'e' ∧ c ≠ unit 'E'

theorem Stops.noDigit (h : Stops rest) : NoDigit rest := fun c hc => (h c hc).1

theorem takeWhile_digits (h : ∀ n ∈ ds, isDigit n = true) (hr : NoDigit rest) :
    (ds ++ rest).takeWhile isDigit = ds := by
  rw [List.takeWhile_append_of_pos h]
  cases rest with
  | nil => simp
  | cons c => simp [hr c rfl]

theorem dropWhile_digits (h : ∀ n ∈ ds, isDigit n = true) (hr : NoDigit rest) :
    (ds ++ rest).dropWhile isDigit = rest := by
  rw [List.dropWhile_append_of_pos h]
  cases rest with
  | nil => rfl
  | cons c => simp [hr c rfl]

theorem digits_takeWhile (h : cs.takeWhile isDigit ≠ []) : Digits (cs.takeWhile isDigit) :=
  ⟨h, fun _ hn => List.mem_takeWhile_imp hn⟩

theorem matchWhole_sound (h : matchWhole cs = some (w, rest)) : cs = w ++ rest ∧ Whole w := by
  unfold matchWhole at h
  split at h
  · cases h
  · split at h
    · next c cs hz =>
      obtain ⟨rfl, rfl⟩ := Prod.mk.inj (Option.some.inj h)
      exact ⟨rfl, hz ▸ .zero⟩
    · split at h
      · next c cs hz hd =>
        obtain ⟨rfl, rfl⟩ := Prod.mk.inj (Option.some.inj h)
        refine ⟨by simp, .many hd hz fun _ hn => List.mem_takeWhile_imp hn⟩
      · cases h

theorem matchWhole_complete (h : Whole w) (hr : NoDigit rest) :
    matchWhole (w ++ rest) = some (w, rest) := by
  cases h with
  | zero => simp [matchWhole]
  | many hd hz hds => simp [matchWhole, hd, hz, takeWhile_digits hds hr, dropWhile_digits hds hr]

theorem matchFraction_sound (cs : Text) : cs = (matchFraction cs).1 ++ (matchFraction cs).2 ∧ Fraction (matchFraction cs).1 := by
  unfold matchFraction
  split
  · exact ⟨rfl, .none⟩
  · split
    · next c cs h =>
      refine ⟨by simp, ?_⟩
      rw [h.1]
      exact .some (digits_takeWhile h.2)
    · exact ⟨rfl, .none⟩

theorem matchFraction_complete (h : Fraction f) (hd : NoDigit rest)
    (hr : ∀ c ∈ rest.head?, c ≠ unit '.') : matchFraction (f ++ rest) = (f, rest) := by
  cases h with
  | none =>
    cases rest with
    | nil => rfl
    | cons c => simp [matchFraction, hr c rfl]
  | some hds =>
    obtain ⟨hne, hds⟩ := hds
    simp [matchFraction, takeWhile_digits hds hd, dropWhile_digits hds hd, hne]

theorem matchExponent_sound (cs : Text) : cs = (matchExponent cs).1 ++ (matchExponent cs).2 ∧ Exponent (matchExponent cs).1 := by
  unfold matchExponent
  split
  · exact ⟨rfl, .none⟩
  · split
    · next c cs he =>
      split
      · exact ⟨rfl, .none⟩
      · split
        · next h => exact ⟨by simp, .signed he h.1 (digits_takeWhile h.2)⟩
        · split
          · next h => exact ⟨by simp, .plain he (digits_takeWhile h)⟩
          · exact ⟨rfl, .none⟩
    · exact ⟨rfl, .none⟩

theorem isDigit_sign {s : Nat} (h : s = unit '+' ∨ s = unit '-') : isDigit s = false := by
  rcases h with rfl | rfl <;> rfl

theorem matchExponent_complete (h : Exponent e) (hr : Stops rest) :
    matchExponent (e ++ rest) = (e, rest) := by
  cases h with
  | none =>
    cases rest with
    | nil => rfl
    | cons c =>
      obtain ⟨-, -, he, hE⟩ := hr c rfl
      simp [matchExponent, he, hE]
  | @plain c ds he hds =>
    obtain ⟨hne, hds⟩ := hds
    cases ds with
    | nil => exact absurd rfl hne
    | cons d =>
      have hd : ¬ (d = unit '+' ∨ d = unit '-') := fun h => by
        have := hds d (by simp)
        rw [isDigit_sign h] at this
        cases this
      have ht := takeWhile_digits hds hr.noDigit
      have hw := dropWhile_digits hds hr.noDigit
      simp only [List.cons_append] at ht hw ⊢
      simp [matchExponent, he, hd, ht, hw]
  | @signed c s ds he hs hds =>
    obtain ⟨hne, hds⟩ := hds
    simp [matchExponent, he, hs, takeWhile_digits hds hr.noDigit, dropWhile_digits hds hr.noDigit, hne]

theorem Exponent.noDigit (h : Exponent e) (hr : Stops rest) : NoDigit (e ++ rest) := by
  cases h with
  | none => exact hr.noDigit
  | plain he =>
    intro c hc
    cases hc
    rcases he with rfl | rfl <;> rfl
  | signed he =>
    intro c hc
    cases hc
    rcases he with rfl | rfl <;> rfl

theorem Exponent.noPoint (h : Exponent e) (hr : Stops rest) : ∀ c ∈ (e ++ rest).head?, c ≠ unit '.' := by
  cases h with
  | none => exact fun c hc => (hr c hc).2.1
  | plain he =>
    intro c hc
    cases hc
    rcases he with rfl | rfl <;> decide
  | signed he =>
    intro c hc
    cases hc
    rcases he with rfl | rfl <;> decide

theorem Fraction.noDigit (h : Fraction f) (hr : NoDigit rest) : NoDigit (f ++ rest) := by
  cases h with
  | none => exact hr
  | some =>
    intro c hc
    cases hc
    rfl

theorem matchUnsigned_sound (h : matchUnsigned cs = some (t, rest)) : cs = t ++ rest ∧ Unsigned t := by
  obtain ⟨⟨w, r⟩, hw, h⟩ := Option.bind_eq_some_iff.mp h
  obtain ⟨ht, hrest⟩ := Prod.mk.inj (Option.some.inj h)
  obtain ⟨hcs, hw⟩ := matchWhole_sound hw
  obtain ⟨hf, hf'⟩ := matchFraction_sound r
  obtain ⟨he, he'⟩ := matchExponent_sound (matchFraction r).2
  change w ++ ((matchFraction r).1 ++ (matchExponent (matchFraction r).2).1) = t at ht
  change (matchExponent (matchFraction r).2).2 = rest at hrest
  refine ⟨?_, ht ▸ .mk hw hf' he'⟩
  calc cs = w ++ r := hcs
    _ = w ++ ((matchFraction r).1 ++ (matchFraction r).2) := by rw [← hf]
    _ = w ++ ((matchFraction r).1 ++ ((matchExponent (matchFraction r).2).1 ++ rest)) := by rw [← hrest, ← he]
    _ = t ++ rest := by simp only [← ht, List.append_assoc]

theorem matchUnsigned_complete (h : Unsigned t) (hr : Stops rest) :
    matchUnsigned (t ++ rest) = some (t, rest) := by
  obtain ⟨hw, hf, he⟩ := h
  have hd := he.noDigit hr
  simp only [matchUnsigned, List.append_assoc, matchWhole_complete hw (hf.noDigit hd), Option.bind_eq_bind, Option.bind_some,
    matchFraction_complete hf hd (he.noPoint hr), matchExponent_complete he hr, pure]

theorem Unsigned.head (h : Unsigned t) : ∃ d s, t = d :: s ∧ isDigit d = true := by
  obtain ⟨hw, -, -⟩ := h
  cases hw with
  | zero => exact ⟨_, _, rfl, rfl⟩
  | many hd _ _ => exact ⟨_, _, rfl, hd⟩

theorem matchNumber_sound (h : matchNumber cs = some (t, rest)) : cs = t ++ rest ∧ Number t := by
  unfold matchNumber at h
  split at h
  · next hm =>
    obtain ⟨⟨u, r⟩, hu, h⟩ := Option.map_eq_some_iff.mp h
    obtain ⟨rfl, rfl⟩ := Prod.mk.inj h
    obtain ⟨htail, hn⟩ := matchUnsigned_sound hu
    obtain ⟨cs', rfl⟩ := List.head?_eq_some_iff.mp hm
    exact ⟨congrArg (unit '-' :: ·) htail, .minus hn⟩
  · obtain ⟨rfl, hu⟩ := matchUnsigned_sound h
    exact ⟨rfl, .plain hu⟩

theorem matchNumber_complete (h : Number t) (hr : Stops rest) : matchNumber (t ++ rest) = some (t, rest) := by
  cases h with
  | plain hu =>
    obtain ⟨d, s, rfl, hd⟩ := hu.head
    have hm : d ≠ unit '-' := by
      rintro rfl
      cases hd
    have := matchUnsigned_complete hu hr
    simpa [matchNumber, hm] using this
  | minus hu => simp [matchNumber, matchUnsigned_complete hu hr]


/-! Words -/

variable {words : Words}

theorem readScalar_sound (h : readScalar words cs = some (j, rest)) :
    ∃ t, cs = t ++ rest ∧ Value words t j := by
  unfold readScalar at h
  split at h
  · next w hw =>
    obtain ⟨rfl, rfl⟩ := Prod.mk.inj (Option.some.inj h)
    have hp : w <+: cs := List.isPrefixOf_iff_prefix.mp (List.find?_some (p := fun w' : Text => w'.isPrefixOf cs) hw)
    obtain ⟨s, rfl⟩ := hp
    exact ⟨w, by simp, .word (List.mem_of_find?_eq_some hw)⟩
  · obtain ⟨⟨t, r⟩, ht, h⟩ := Option.map_eq_some_iff.mp h
    obtain ⟨rfl, rfl⟩ := Prod.mk.inj h
    obtain ⟨rfl, hn⟩ := matchNumber_sound ht
    exact ⟨t, rfl, .num hn⟩

theorem readScalar_tree (h : readScalar words cs = some (j, rest)) :
    (∃ w, j = .word w) ∨ ∃ t, j = .num t := by
  unfold readScalar at h
  split at h
  · obtain ⟨rfl, rfl⟩ := Prod.mk.inj (Option.some.inj h)
    exact .inl ⟨_, rfl⟩
  · obtain ⟨⟨t, r⟩, ht, h⟩ := Option.map_eq_some_iff.mp h
    obtain ⟨rfl, rfl⟩ := Prod.mk.inj h
    exact .inr ⟨_, rfl⟩

theorem readScalar_word (h : w ∈ words.list) (rest : Text) :
    readScalar words (w ++ rest) = some (.word w, rest) := by
  have hfind : words.list.find? (fun w' => w'.isPrefixOf (w ++ rest)) = some w := by
    cases hw : words.list.find? (fun w' => w'.isPrefixOf (w ++ rest)) with
    | none => simpa using List.find?_eq_none.mp hw w h
    | some w' =>
      have hm := List.mem_of_find?_eq_some hw
      have hp : w' <+: w ++ rest := List.isPrefixOf_iff_prefix.mp (List.find?_some (p := fun w' : Text => w'.isPrefixOf (w ++ rest)) hw)
      rcases List.prefix_or_prefix_of_prefix hp (List.prefix_append w rest) with hp | hp
      · rw [words.prefixFree w' hm w h hp]
      · rw [words.prefixFree w h w' hm hp]
  simp [readScalar, hfind]

/-- No word is the beginning of a number. -/
theorem Number.no_word (h : Number t) (hw : w ∈ words.list) (rest : Text) :
    ¬ w <+: t ++ rest := by
  intro hp
  have hs := words.startsWell w hw
  cases w with
  | nil => cases hs
  | cons c w =>
    simp only [startsWell, Bool.and_eq_true, Bool.not_eq_true'] at hs
    obtain ⟨⟨⟨-, hc⟩, -⟩, hm⟩ := hs
    cases h with
    | plain hu =>
      obtain ⟨d, s, rfl, hd⟩ := hu.head
      obtain ⟨rfl, -⟩ := List.cons_prefix_cons.mp hp
      rw [hd] at hc
      cases hc
    | minus hu =>
      obtain ⟨d, s, rfl, hd⟩ := hu.head
      obtain ⟨rfl, hp'⟩ := List.cons_prefix_cons.mp hp
      cases w with
      | nil => simp at hm
      | cons c' =>
        have hc' : c' = d := (List.cons_prefix_cons.mp hp').1
        simp [hc', hd] at hm

theorem readScalar_num {t rest : Text} (h : Number t) (hr : Stops rest) :
    readScalar words (t ++ rest) = some (.num t, rest) := by
  have hfind : words.list.find? (fun w => w.isPrefixOf (t ++ rest)) = none := by
    refine List.find?_eq_none.mpr fun w hw hp => ?_
    exact h.no_word hw rest (List.isPrefixOf_iff_prefix.mp hp)
  simp [readScalar, hfind, matchNumber_complete h hr]

/-! Where a value starts -/

/-- The characters no word and no number starts with. -/
def Opens (c : Nat) : Prop := isBlank c = true ∨ c = unit '"' ∨ c = unit '[' ∨ c = unit ']' ∨ c = unit '\x7b' ∨ c = unit '\x7d'

theorem word_head (h : w ∈ words.list) : ∃ c s, w = c :: s ∧ ¬ Opens c := by
  have hs := words.startsWell w h
  cases w with
  | nil => cases hs
  | cons c s =>
    refine ⟨c, s, rfl, ?_⟩
    simp [startsWell] at hs
    simp [Opens, hs]

theorem Number.head (h : Number t) : ∃ c s, t = c :: s ∧ ¬ Opens c := by
  cases h with
  | plain hu =>
    obtain ⟨d, s, rfl, hd⟩ := hu.head
    rw [isDigit_iff] at hd
    refine ⟨d, s, rfl, ?_⟩
    simp only [Opens, isBlank_iff, unit, Char.reduceToNat]
    omega
  | minus _ => exact ⟨_, _, rfl, by simp [Opens, isBlank, unit]⟩

theorem Value.head (h : Value words t j) :
    ∃ c s, t = c :: s ∧ isBlank c = false ∧ c ≠ unit ']' := by
  cases h with
  | word hw =>
    obtain ⟨c, s, rfl, hc⟩ := word_head hw
    exact ⟨c, s, rfl, by simpa using fun h => hc (.inl h), fun h => hc (by simp [Opens, h])⟩
  | num hn =>
    obtain ⟨c, s, rfl, hc⟩ := hn.head
    exact ⟨c, s, rfl, by simpa using fun h => hc (.inl h), fun h => hc (by simp [Opens, h])⟩
  | str _ => exact ⟨_, _, rfl, rfl, by decide⟩
  | noItems _ => exact ⟨_, _, rfl, rfl, by decide⟩
  | arr _ => exact ⟨_, _, rfl, rfl, by decide⟩
  | noMembers _ => exact ⟨_, _, rfl, rfl, by decide⟩
  | obj _ => exact ⟨_, _, rfl, rfl, by decide⟩

theorem Value.skip (h : Value words t j) (hw : Blanks w) (rest : Text) :
    skip (w ++ (t ++ rest)) = t ++ rest := by
  obtain ⟨c, s, rfl, hc, -⟩ := h.head
  exact skip_mark hw hc (s ++ rest)

theorem Items.start (h : Items words t items) (rest : Text) :
    (JsonGrammar.skip (t ++ rest)).head? ≠ some (unit ']') := by
  have value : ∀ {w t j} (rest : Text), Blanks w → Value words t j → (JsonGrammar.skip (w ++ (t ++ rest))).head? ≠ some (unit ']') := by
    intro w t j rest hw hv
    obtain ⟨c, s, rfl, hc, hb⟩ := hv.head
    rw [hv.skip hw]
    simpa using hb
  cases h with
  | last hw hv _ =>
    simp only [List.append_assoc]
    exact value _ hw hv
  | cons hw hv _ _ =>
    simp only [List.append_assoc]
    exact value _ hw hv

variable {key : Text}

theorem Key.skip (h : Key k key) (rest : Text) : ∃ s, JsonGrammar.skip (k ++ rest) = unit '"' :: s := by
  obtain ⟨hw, -, -⟩ := h
  simp only [List.append_assoc]
  exact ⟨_, skip_mark hw rfl _⟩

theorem Members.start (h : Members words t members) (rest : Text) :
    (JsonGrammar.skip (t ++ rest)).head? ≠ some (unit '\x7d') := by
  cases h with
  | last hk _ _ _ =>
    simp only [List.append_assoc]
    obtain ⟨s, hs⟩ := hk.skip _
    rw [hs]
    exact fun h => absurd (Option.some.inj h) (by decide)
  | cons hk _ _ _ _ =>
    simp only [List.append_assoc]
    obtain ⟨s, hs⟩ := hk.skip _
    rw [hs]
    exact fun h => absurd (Option.some.inj h) (by decide)

/-! Keys -/

theorem readKey_cases (h : readKey cs = some (key, rest)) :
    ∃ r r', skip cs = unit '"' :: r ∧ readChars r = some (key, r') ∧ skip r' = unit ':' :: rest := by
  unfold readKey at h
  split at h
  · cases h
  · next c r hskip =>
    split at h
    · next hq =>
      obtain ⟨⟨key', r'⟩, hr, h⟩ := Option.bind_eq_some_iff.mp h
      dsimp only at h
      split at h
      · cases h
      · next c' r'' hskip' =>
        split at h
        · next hcolon =>
          obtain ⟨rfl, rfl⟩ := Prod.mk.inj (Option.some.inj h)
          exact ⟨r, r', hq ▸ hskip, hr, hcolon ▸ hskip'⟩
        · cases h
    · cases h

theorem readKey_sound (h : readKey cs = some (key, rest)) : ∃ k, cs = k ++ rest ∧ Key k key := by
  obtain ⟨r, r', hskip, hr, hskip'⟩ := readKey_cases h
  obtain ⟨w, hw, rfl⟩ := skip_found hskip
  obtain ⟨s, rfl, hs⟩ := readChars_sound hr
  obtain ⟨w', hw', rfl⟩ := skip_found hskip'
  exact ⟨w ++ unit '"' :: (s ++ unit '"' :: (w' ++ [unit ':'])), by simp, .mk hw hs hw'⟩

theorem readKey_complete (h : Key k key) (rest : Text) : readKey (k ++ rest) = some (key, rest) := by
  obtain ⟨hw, hk, hw'⟩ := h
  simp only [List.append_assoc, List.cons_append, List.nil_append]
  have hcolon : isBlank (unit ':') = false := rfl
  rw [readKey, skip_mark hw rfl]
  simp only [if_pos, readChars_complete hk, Option.bind_eq_bind, Option.bind_some, skip_mark hw' hcolon]

/-! What a reader can have done -/

/-- The ways a value was read. -/
inductive ValueRead (words : Words) (fuel : Nat) : Text → Tree → Text → Prop where
  | str {s d rest : Text} : readChars s = some (d, rest) → ValueRead words fuel (unit '"' :: s) (.str d) rest
  | noItems {s rest : Text} : skip s = unit ']' :: rest → ValueRead words fuel (unit '[' :: s) (.arr []) rest
  | arr {s rest : Text} {items : List Tree} : (skip s).head? ≠ some (unit ']') → readItems words fuel s = some (items, rest) →
      ValueRead words fuel (unit '[' :: s) (.arr items) rest
  | noMembers {s rest : Text} : skip s = unit '\x7d' :: rest → ValueRead words fuel (unit '\x7b' :: s) (.obj []) rest
  | obj {s rest : Text} {members : List (Text × Tree)} : (skip s).head? ≠ some (unit '\x7d') →
      readMembers words fuel s = some (members, rest) → ValueRead words fuel (unit '\x7b' :: s) (.obj members) rest
  | scalar {c : Nat} {s rest : Text} {j : Tree} : c ≠ unit '"' → c ≠ unit '[' → c ≠ unit '\x7b' →
      readScalar words (c :: s) = some (j, rest) → ValueRead words fuel (c :: s) j rest

theorem readValue_cases (h : readValue words (fuel + 1) cs = some (j, rest)) :
    ValueRead words fuel cs j rest := by
  unfold readValue at h
  split at h
  · cases h
  · next c s =>
    split at h
    · next hc =>
      obtain ⟨⟨d, r⟩, hr, h⟩ := Option.map_eq_some_iff.mp h
      obtain ⟨rfl, rfl⟩ := Prod.mk.inj h
      exact hc ▸ .str hr
    · next hq =>
      split at h
      · next hc =>
        split at h
        · next hb =>
          obtain ⟨r, hr⟩ := List.head?_eq_some_iff.mp hb
          rw [hr] at h
          obtain ⟨rfl, rfl⟩ := Prod.mk.inj (Option.some.inj h)
          exact hc ▸ .noItems hr
        · next hb =>
          obtain ⟨⟨items, r⟩, hr, h⟩ := Option.map_eq_some_iff.mp h
          obtain ⟨rfl, rfl⟩ := Prod.mk.inj h
          exact hc ▸ .arr hb hr
      · next ha =>
        split at h
        · next hc =>
          split at h
          · next hb =>
            obtain ⟨r, hr⟩ := List.head?_eq_some_iff.mp hb
            rw [hr] at h
            obtain ⟨rfl, rfl⟩ := Prod.mk.inj (Option.some.inj h)
            exact hc ▸ .noMembers hr
          · next hb =>
            obtain ⟨⟨members, r⟩, hr, h⟩ := Option.map_eq_some_iff.mp h
            obtain ⟨rfl, rfl⟩ := Prod.mk.inj h
            exact hc ▸ .obj hb hr
        · next ho => exact .scalar hq ha ho h

/-- The ways items were read: the last one up to its bracket, or one up to its comma. -/
inductive ItemsRead (words : Words) (fuel : Nat) : Text → List Tree → Text → Prop where
  | last {cs r rest : Text} {j : Tree} : readValue words fuel (skip cs) = some (j, r) → skip r = unit ']' :: rest →
      ItemsRead words fuel cs [j] rest
  | cons {cs r r' rest : Text} {j : Tree} {items : List Tree} : readValue words fuel (skip cs) = some (j, r) →
      skip r = unit ',' :: r' → readItems words fuel r' = some (items, rest) → ItemsRead words fuel cs (j :: items) rest

theorem readItems_cases
    (h : readItems words (fuel + 1) cs = some (items, rest)) : ItemsRead words fuel cs items rest := by
  unfold readItems at h
  obtain ⟨⟨j, r⟩, hv, h⟩ := Option.bind_eq_some_iff.mp h
  dsimp only at h
  split at h
  · cases h
  · next c r' hskip =>
    split at h
    · next hc =>
      obtain ⟨rfl, rfl⟩ := Prod.mk.inj (Option.some.inj h)
      exact .last hv (hc ▸ hskip)
    · split at h
      · next hc =>
        obtain ⟨⟨items', r⟩, hr, h⟩ := Option.map_eq_some_iff.mp h
        obtain ⟨rfl, rfl⟩ := Prod.mk.inj h
        exact .cons hv (hc ▸ hskip) hr
      · cases h

/-- The ways members were read. -/
inductive MembersRead (words : Words) (fuel : Nat) : Text → List (Text × Tree) → Text → Prop where
  | last {cs key s r rest : Text} {j : Tree} : readKey cs = some (key, s) → readValue words fuel (skip s) = some (j, r) →
      skip r = unit '\x7d' :: rest → MembersRead words fuel cs [(key, j)] rest
  | cons {cs key s r r' rest : Text} {j : Tree} {members : List (Text × Tree)} : readKey cs = some (key, s) →
      readValue words fuel (skip s) = some (j, r) → skip r = unit ',' :: r' → readMembers words fuel r' = some (members, rest) →
      MembersRead words fuel cs ((key, j) :: members) rest

theorem readMembers_cases
    (h : readMembers words (fuel + 1) cs = some (members, rest)) : MembersRead words fuel cs members rest := by
  unfold readMembers at h
  obtain ⟨⟨key, s⟩, hk, h⟩ := Option.bind_eq_some_iff.mp h
  obtain ⟨⟨j, r⟩, hv, h⟩ := Option.bind_eq_some_iff.mp h
  dsimp only at h
  split at h
  · cases h
  · next c r' hskip =>
    split at h
    · next hc =>
      obtain ⟨rfl, rfl⟩ := Prod.mk.inj (Option.some.inj h)
      exact .last hk hv (hc ▸ hskip)
    · split at h
      · next hc =>
        obtain ⟨⟨members', r⟩, hr, h⟩ := Option.map_eq_some_iff.mp h
        obtain ⟨rfl, rfl⟩ := Prod.mk.inj h
        exact .cons hk hv (hc ▸ hskip) hr
      · cases h

/-! The reader reads the texts of the grammar only -/

/-- What the readers return on a given fuel derives from what they consumed. -/
structure Sound (words : Words) (fuel : Nat) : Prop where
  value : ∀ {cs rest j}, readValue words fuel cs = some (j, rest) → ∃ t, cs = t ++ rest ∧ Value words t j
  items : ∀ {cs rest items}, readItems words fuel cs = some (items, rest) →
    ∃ t, cs = t ++ unit ']' :: rest ∧ Items words t items
  members : ∀ {cs rest members}, readMembers words fuel cs = some (members, rest) →
    ∃ t, cs = t ++ unit '\x7d' :: rest ∧ Members words t members

theorem readValue_sound (ih : Sound words fuel)
    (h : readValue words (fuel + 1) cs = some (j, rest)) : ∃ t, cs = t ++ rest ∧ Value words t j := by
  cases readValue_cases h with
  | str hr =>
    obtain ⟨s, rfl, hs⟩ := readChars_sound hr
    exact ⟨unit '"' :: (s ++ [unit '"']), by simp, .str hs⟩
  | noItems hr =>
    obtain ⟨w, hw, rfl⟩ := skip_found hr
    exact ⟨unit '[' :: (w ++ [unit ']']), by simp, .noItems hw⟩
  | arr _ hr =>
    obtain ⟨t, rfl, ht⟩ := ih.items hr
    exact ⟨unit '[' :: (t ++ [unit ']']), by simp, .arr ht⟩
  | noMembers hr =>
    obtain ⟨w, hw, rfl⟩ := skip_found hr
    exact ⟨unit '\x7b' :: (w ++ [unit '\x7d']), by simp, .noMembers hw⟩
  | obj _ hr =>
    obtain ⟨t, rfl, ht⟩ := ih.members hr
    exact ⟨unit '\x7b' :: (t ++ [unit '\x7d']), by simp, .obj ht⟩
  | scalar _ _ _ hr => exact readScalar_sound hr

theorem readItems_sound (ih : Sound words fuel)
    (h : readItems words (fuel + 1) cs = some (items, rest)) :
    ∃ t, cs = t ++ unit ']' :: rest ∧ Items words t items := by
  obtain ⟨w, hw, hcs⟩ := skip_split cs
  cases readItems_cases h with
  | last hv hr =>
    obtain ⟨t, ht, hj⟩ := ih.value hv
    obtain ⟨w', hw', rfl⟩ := skip_found hr
    exact ⟨w ++ (t ++ w'), by rw [hcs, ht]; simp, .last hw hj hw'⟩
  | cons hv hr hi =>
    obtain ⟨t, ht, hj⟩ := ih.value hv
    obtain ⟨w', hw', rfl⟩ := skip_found hr
    obtain ⟨s, rfl, hs⟩ := ih.items hi
    exact ⟨w ++ (t ++ (w' ++ unit ',' :: s)), by rw [hcs, ht]; simp, .cons hw hj hw' hs⟩

theorem readMembers_sound (ih : Sound words fuel)
    (h : readMembers words (fuel + 1) cs = some (members, rest)) :
    ∃ t, cs = t ++ unit '\x7d' :: rest ∧ Members words t members := by
  cases readMembers_cases h with
  | @last _ s _ _ _ hk hv hr =>
    obtain ⟨k, hcs, hk⟩ := readKey_sound hk
    obtain ⟨w, hw, hs⟩ := skip_split s
    obtain ⟨t, ht, hj⟩ := ih.value hv
    obtain ⟨w', hw', rfl⟩ := skip_found hr
    exact ⟨k ++ (w ++ (t ++ w')), by rw [hcs, hs, ht]; simp, .last hk hw hj hw'⟩
  | @cons _ s _ _ _ _ _ hk hv hr hm =>
    obtain ⟨k, hcs, hk⟩ := readKey_sound hk
    obtain ⟨w, hw, hs⟩ := skip_split s
    obtain ⟨t, ht, hj⟩ := ih.value hv
    obtain ⟨w', hw', rfl⟩ := skip_found hr
    obtain ⟨s', rfl, hs'⟩ := ih.members hm
    exact ⟨k ++ (w ++ (t ++ (w' ++ unit ',' :: s'))), by rw [hcs, hs, ht]; simp, .cons hk hw hj hw' hs'⟩

theorem sound (fuel : Nat) : Sound words fuel := by
  induction fuel with
  | zero =>
    constructor
    · intro _ _ _ h
      cases h
    · intro _ _ _ h
      cases h
    · intro _ _ _ h
      cases h
  | succ fuel ih => exact ⟨readValue_sound ih, readItems_sound ih, readMembers_sound ih⟩

/-! The reader reads every text of the grammar -/

theorem stops_mark (rest : Text) (h : c = unit ',' ∨ c = unit ']' ∨ c = unit '\x7d') : Stops (c :: rest) := by
  intro _ hc
  cases hc
  rcases h with rfl | rfl | rfl <;> decide

theorem stops_blanks {w rest : Text} (h : Blanks w) (hr : Stops rest) : Stops (w ++ rest) := by
  cases w with
  | nil => exact hr
  | cons c =>
    intro _ hc
    cases hc
    rcases isBlank_iff.mp (h c (by simp)) with rfl | rfl | rfl | rfl <;> decide

/-- With fuel for its length a text of the grammar is read, up to where it ends. -/
structure Complete (words : Words) (fuel : Nat) : Prop where
  value : ∀ {t j rest}, Value words t j → t.length ≤ fuel → Stops rest → readValue words fuel (t ++ rest) = some (j, rest)
  items : ∀ {t items rest}, Items words t items → t.length + 1 ≤ fuel →
    readItems words fuel (t ++ unit ']' :: rest) = some (items, rest)
  members : ∀ {t members rest}, Members words t members → t.length + 1 ≤ fuel →
    readMembers words fuel (t ++ unit '\x7d' :: rest) = some (members, rest)

theorem readValue_scalar (hc : ¬ Opens c) :
    readValue words (fuel + 1) (c :: cs) = readScalar words (c :: cs) := by
  simp only [Opens, not_or] at hc
  obtain ⟨-, hq, ha, -, ho, -⟩ := hc
  rw [readValue]
  simp only [if_neg hq, if_neg ha, if_neg ho]

theorem readValue_complete (ih : Complete words fuel)
    (h : Value words t j) (hf : t.length ≤ fuel + 1) (hr : Stops rest) :
    readValue words (fuel + 1) (t ++ rest) = some (j, rest) := by
  cases h with
  | word hw =>
    have hread := readScalar_word hw rest
    obtain ⟨c, s, rfl, hc⟩ := word_head hw
    rw [List.cons_append] at hread ⊢
    rw [readValue_scalar hc, hread]
  | num hn =>
    have hread := @readScalar_num words _ _ hn hr
    obtain ⟨c, s, rfl, hc⟩ := hn.head
    rw [List.cons_append] at hread ⊢
    rw [readValue_scalar hc, hread]
  | str hs =>
    simp only [List.append_assoc, List.cons_append, List.nil_append]
    rw [readValue, if_pos rfl, readChars_complete hs]
    rfl
  | noItems hw =>
    have hb : isBlank (unit ']') = false := rfl
    simp only [List.append_assoc, List.cons_append, List.nil_append]
    rw [readValue, if_neg (by decide), if_pos rfl, skip_mark hw hb, if_pos List.head?_cons]
    rfl
  | arr hs =>
    simp only [List.length_cons, List.length_append, List.length_nil] at hf
    simp only [List.append_assoc, List.cons_append, List.nil_append]
    rw [readValue, if_neg (by decide), if_pos rfl, if_neg (hs.start _), ih.items hs (by omega)]
    rfl
  | noMembers hw =>
    have hb : isBlank (unit '\x7d') = false := rfl
    simp only [List.append_assoc, List.cons_append, List.nil_append]
    rw [readValue, if_neg (by decide), if_neg (by decide), if_pos rfl, skip_mark hw hb, if_pos List.head?_cons]
    rfl
  | obj hs =>
    simp only [List.length_cons, List.length_append, List.length_nil] at hf
    simp only [List.append_assoc, List.cons_append, List.nil_append]
    rw [readValue, if_neg (by decide), if_neg (by decide), if_pos rfl, if_neg (hs.start _), ih.members hs (by omega)]
    rfl

theorem readItems_complete (ih : Complete words fuel)
    (h : Items words t items) (hf : t.length + 1 ≤ fuel + 1) :
    readItems words (fuel + 1) (t ++ unit ']' :: rest) = some (items, rest) := by
  cases h with
  | last hw hv hw' =>
    simp only [List.length_append] at hf
    have hb : isBlank (unit ']') = false := rfl
    simp only [List.append_assoc]
    rw [readItems, hv.skip hw, ih.value hv (by omega) (stops_blanks hw' (stops_mark _ (by simp)))]
    simp only [Option.bind_eq_bind, Option.bind_some, skip_mark hw' hb, if_pos]
  | cons hw hv hw' hs =>
    simp only [List.length_append, List.length_cons] at hf
    have hc : isBlank (unit ',') = false := rfl
    simp only [List.append_assoc, List.cons_append]
    rw [readItems, hv.skip hw, ih.value hv (by omega) (stops_blanks hw' (stops_mark _ (by simp)))]
    simp only [Option.bind_eq_bind, Option.bind_some, skip_mark hw' hc, ih.items hs (by omega)]
    rfl

theorem readMembers_complete (ih : Complete words fuel)
    (h : Members words t members) (hf : t.length + 1 ≤ fuel + 1) :
    readMembers words (fuel + 1) (t ++ unit '\x7d' :: rest) = some (members, rest) := by
  cases h with
  | last hk hw hv hw' =>
    simp only [List.length_append] at hf
    have hb : isBlank (unit '\x7d') = false := rfl
    simp only [List.append_assoc]
    rw [readMembers, readKey_complete hk]
    simp only [Option.bind_eq_bind, Option.bind_some]
    rw [hv.skip hw, ih.value hv (by omega) (stops_blanks hw' (stops_mark _ (by simp)))]
    simp only [Option.bind_some, skip_mark hw' hb, if_pos]
  | cons hk hw hv hw' hs =>
    simp only [List.length_append, List.length_cons] at hf
    have hc : isBlank (unit ',') = false := rfl
    simp only [List.append_assoc, List.cons_append]
    rw [readMembers, readKey_complete hk]
    simp only [Option.bind_eq_bind, Option.bind_some]
    rw [hv.skip hw, ih.value hv (by omega) (stops_blanks hw' (stops_mark _ (by simp)))]
    simp only [Option.bind_some, skip_mark hw' hc, ih.members hs (by omega)]
    rfl

theorem complete (fuel : Nat) : Complete words fuel := by
  induction fuel with
  | zero =>
    constructor
    · intro t j rest h hf _
      obtain ⟨c, s, rfl, -⟩ := h.head
      simp at hf
    · intro t items rest _ hf
      omega
    · intro t members rest _ hf
      omega
  | succ fuel ih => exact ⟨readValue_complete ih, readItems_complete ih, readMembers_complete ih⟩

theorem readText_reaches (h : JsonText words t j) (hf : t.length ≤ fuel) :
    ∃ rest, readValue words fuel (skip t) = some (j, rest) ∧ skip rest = [] := by
  obtain ⟨hw, hv, hw'⟩ := h
  rename_i w s w'
  have hstop : Stops w' := by simpa using @stops_blanks w' [] hw' (fun _ h => nomatch h)
  simp only [List.length_append] at hf
  rw [hv.skip hw]
  exact ⟨w', (complete fuel).value hv (by omega) hstop, skip_eq_nil.mpr hw'⟩

theorem readText_iff : readText words t = some j ↔ JsonText words t j := by
  constructor
  · intro h
    obtain ⟨w, hw, ht⟩ := skip_split t
    unfold readText at h
    split at h
    · next j' rest hv =>
      obtain ⟨s, hs, hj⟩ := (sound _).value hv
      split at h
      · next hrest =>
        cases h
        rw [ht, hs]
        exact .mk hw hj (skip_eq_nil.mp hrest)
      · cases h
    · cases h
  · intro h
    obtain ⟨rest, hread, hrest⟩ := readText_reaches h (Nat.le_succ t.length)
    rw [readText, hread]
    exact if_pos hrest

theorem JsonText.unique {j' : Tree} (h : JsonText words t j) (h' : JsonText words t j') : j = j' :=
  Option.some.inj ((readText_iff.mpr h).symm.trans (readText_iff.mpr h'))

end JsonGrammar
