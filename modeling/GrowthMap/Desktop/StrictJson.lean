import GrowthMap.Lib.Fallible
import GrowthMap.Lib.JsonReader

/- The desktop's strict reader of JSON (desktop/strict-json.js).

   `parseStrictJson` scans a text before `JSON.parse` sees it, and throws on an
   object whose keys collide. The scanner is written by hand and accepts what it
   can; the last word on the syntax is `JSON.parse`'s. Here is that on a JSON text
   the scanner throws on a collision and on nothing else (`scanned`), whatever the
   text hides the keys behind: then the two together accept the JSON texts whose
   objects have no colliding keys (`parseStrictJson_iff`).

   Calls nest as deep as the text does; how deep the engine lets them is its own
   affair and not part of the model. -/
namespace GrowthMap.StrictJson
open JsonGrammar Fallible

/-! The language's own part -/

def jsWordList : List Text := [units "true", units "false", units "null"]

theorem jsWordList_eq : jsWordList = [[116, 114, 117, 101], [102, 97, 108, 115, 101], [110, 117, 108, 108]] := by decide

def jsWords : Words where
  list := jsWordList
  startsWell := by
    rw [jsWordList_eq]
    decide
  prefixFree := by
    rw [jsWordList_eq]
    decide

/-- The syntax that `JSON.parse` checks, and the tree it finds. -/
def jsonParse (raw : Text) : Except String Tree :=
  match readText jsWords raw with
  | some j => .ok j
  | none => .error "SyntaxError"

local instance lawfulText : LawfulBEq Text := inferInstance

variable {raw cs rest : Text} {j : Tree} {c n fuel : Nat} {keys : List Text} {words : Words}

theorem jsonParse_ok : jsonParse raw = .ok j ↔ JsonText jsWords raw j := by
  rw [← readText_iff, jsonParse]
  cases readText jsWords raw <;> simp

/-! The scanner: the place `i` in `raw` is the text left from there -/

/-- The loop of `str`: what it passes over, the closing quote included, and the text left. -/
def strEnd : Text → Except String (Text × Text)
  | [] => .error "Unterminated string"
  | c :: rest =>
    if c = unit '\\' then
      match rest with
      | [] => .error "Unterminated string"
      | e :: rest => (strEnd rest).map (fun p => (c :: e :: p.1, p.2))
    else if c = unit '"' then .ok ([c], rest)
    else if c < 32 then .error "Invalid JSON string"
    else (strEnd rest).map (fun p => (c :: p.1, p.2))

/-- `str`: the string a text begins with, as `JSON.parse` reads it. -/
def str : Text → Except String (Text × Text)
  | [] => .error "Expected string"
  | c :: rest =>
    if c = unit '"' then do
      let (s, rest) ← strEnd rest
      let j ← jsonParse (c :: s)
      match j with
      | .str key => .ok (key, rest)
      | _ => .error "TypeError"
    else .error "Expected string"

section Scanner

-- `key.toLocaleLowerCase('und').normalize('NFC')`
variable (fold : Text → Text)

mutual

/-- `value` -/
def value : Nat → Text → Except String Text
  | 0, _ => .error "out of fuel"
  | fuel + 1, cs =>
    match skip cs with
    | [] => .error "Invalid JSON value"
    | c :: rest =>
      if c = unit '\x7b' then
        if (skip rest).head? = some (unit '\x7d') then .ok (skip rest).tail
        else object fuel [] [] rest
      else if c = unit '[' then
        if (skip rest).head? = some (unit ']') then .ok (skip rest).tail
        else array fuel rest
      else if c = unit '"' then (str (c :: rest)).map (fun p => p.2)
      else
        -- the regular expression takes a word, or as much of a number as there is
        match readScalar jsWords (c :: rest) with
        | some (_, rest) => .ok rest
        | none => .error "Invalid JSON value"

/-- The loop of `object`, with the keys it has seen and their folds. -/
def object : Nat → List Text → List Text → Text → Except String Text
  | 0, _, _, _ => .error "out of fuel"
  | fuel + 1, keys, folded, cs => do
    let (key, rest) ← str (skip cs)
    if key ∈ keys then .error "Duplicate JSON key"
    else if fold key ∈ folded then .error "Case-colliding JSON key"
    else
      match skip rest with
      | [] => .error "Expected colon"
      | c :: rest =>
        if c = unit ':' then do
          let rest ← value fuel rest
          match skip rest with
          | [] => .error "Expected comma"
          | c :: rest =>
            if c = unit '\x7d' then .ok rest
            else if c = unit ',' then object fuel (key :: keys) (fold key :: folded) rest
            else .error "Expected comma"
        else .error "Expected colon"

/-- The loop of `array`. -/
def array : Nat → Text → Except String Text
  | 0, _ => .error "out of fuel"
  | fuel + 1, cs => do
    let rest ← value fuel cs
    match skip rest with
    | [] => .error "Expected comma"
    | c :: rest =>
      if c = unit ']' then .ok rest
      else if c = unit ',' then array fuel rest
      else .error "Expected comma"

end

/-- `parseStrictJson`. Each call of the scanner leaves less of the text, so the fuel does not
run out (`value_fuel`). -/
def parseStrictJson {V : Type} (evaluate : Tree → V) (raw : Text) : Except String V := do
  let rest ← value fold (2 * raw.length + 2) raw
  if skip rest = [] then (jsonParse raw).map evaluate else .error "Trailing JSON input"

end Scanner

/-! Strings -/

theorem hexVal_plain (h : hexVal c = some n) : c ≠ unit '\\' ∧ c ≠ unit '"' ∧ ¬ c < 32 := by
  unfold hexVal at h
  simp only [isDigit_iff, unit, Char.reduceToNat] at h ⊢
  split at h
  · omega
  · split at h
    · omega
    · split at h
      · omega
      · cases h

theorem hex4_plain {w x y z : Nat} (h : hex4 w x y z = some n) :
    ∀ c ∈ [w, x, y, z], c ≠ unit '\\' ∧ c ≠ unit '"' ∧ ¬ c < 32 := by
  obtain ⟨a, ha, h⟩ := Option.bind_eq_some_iff.mp h
  obtain ⟨b, hb, h⟩ := Option.bind_eq_some_iff.mp h
  obtain ⟨c, hc, h⟩ := Option.bind_eq_some_iff.mp h
  obtain ⟨d, hd, -⟩ := Option.bind_eq_some_iff.mp h
  simp only [List.forall_mem_cons, List.not_mem_nil, false_implies, implies_true, and_true]
  exact ⟨hexVal_plain ha, hexVal_plain hb, hexVal_plain hc, hexVal_plain hd⟩

theorem strEnd_plain (h : c ≠ unit '\\' ∧ c ≠ unit '"' ∧ ¬ c < 32) (cs : Text) :
    strEnd (c :: cs) = (strEnd cs).map (fun p => (c :: p.1, p.2)) := by
  obtain ⟨hb, hq, hc⟩ := h
  rw [strEnd.eq_def]
  simp only [if_neg hb, if_neg hq, if_neg hc]

theorem strEnd_escape (e : Nat) (cs : Text) :
    strEnd (unit '\\' :: e :: cs) = (strEnd cs).map (fun p => (unit '\\' :: e :: p.1, p.2)) := by
  rw [strEnd.eq_def]
  simp only [if_true]

/-- The loop of `str` ends at the quote that closes the string. -/
theorem strEnd_chars {s d : Text} (h : Chars s d) (rest : Text) :
    strEnd (s ++ unit '"' :: rest) = .ok (s ++ [unit '"'], rest) := by
  induction h with
  | nil =>
    rw [List.nil_append, strEnd.eq_def]
    rfl
  | plain hc hq hb _ ih =>
    rw [List.cons_append, strEnd_plain ⟨hb, hq, Nat.not_lt.mpr hc⟩, ih]
    rfl
  | escape _ _ ih =>
    rw [List.cons_append, List.cons_append, strEnd_escape, ih]
    rfl
  | @code w x y z _ _ _ hn _ ih =>
    have hplain := hex4_plain hn
    simp only [List.cons_append]
    -- the scanner steps over the `u` and meets the four digits as characters
    rw [strEnd_escape, strEnd_plain (hplain w (by simp)), strEnd_plain (hplain x (by simp)), strEnd_plain (hplain y (by simp)),
      strEnd_plain (hplain z (by simp)), ih]
    rfl

/-- A string of the text is the string `str` returns. -/
theorem str_read {key : Text} (h : readChars cs = some (key, rest)) : str (unit '"' :: cs) = .ok (key, rest) := by
  obtain ⟨s, rfl, hs⟩ := readChars_sound h
  have htext : JsonText jsWords (unit '"' :: (s ++ [unit '"'])) (.str key) := by
    have hnil : Blanks [] := fun _ h => nomatch h
    simpa using JsonText.mk hnil (.str hs) hnil
  rw [str, if_pos rfl, strEnd_chars hs]
  simp only [bind, Except.bind, jsonParse_ok.mpr htext]

/-! Keys -/

def Apart (fold : Text → Text) (keys : List Text) : Prop := keys.Pairwise (fun k k' => k ≠ k' ∧ fold k ≠ fold k')

/-- An object is tidy when no two of its keys collide. -/
def Tidy (fold : Text → Text) : Tree → Prop
  | .obj members => Apart fold (members.map Prod.fst)
  | _ => True

variable {fold : Text → Text}

/-- The keys that are left collide neither with each other nor with the keys seen. -/
def Clear (fold : Text → Text) (seen folded keys : List Text) : Prop :=
  (∀ k ∈ keys, k ∉ seen ∧ fold k ∉ folded) ∧ Apart fold keys

theorem clear_nil (seen folded : List Text) : Clear fold seen folded [] := by
  simp [Clear, Apart]

theorem clear_start : Clear fold [] [] keys ↔ Apart fold keys := by
  simp [Clear]

theorem clear_cons {seen folded : List Text} {k : Text} :
    Clear fold seen folded (k :: keys) ↔ k ∉ seen ∧ fold k ∉ folded ∧ Clear fold (k :: seen) (fold k :: folded) keys := by
  rw [Clear, Clear, Apart, Apart, List.pairwise_cons]
  constructor
  · rintro ⟨hseen, happart, hp⟩
    obtain ⟨hk, hf⟩ := hseen k (by simp)
    refine ⟨hk, hf, fun k' hk' => ?_, hp⟩
    obtain ⟨hs', hf'⟩ := hseen k' (by simp [hk'])
    obtain ⟨hne, hfold⟩ := happart k' hk'
    simp [hs', hf', hne.symm, hfold.symm]
  · rintro ⟨hk, hf, hseen, hp⟩
    refine ⟨fun k' hk' => ?_, fun k' hk' => ?_, hp⟩
    · rcases List.mem_cons.mp hk' with rfl | hk'
      · exact ⟨hk, hf⟩
      · obtain ⟨hs', hf'⟩ := hseen k' hk'
        exact ⟨List.not_mem_of_not_mem_cons hs', List.not_mem_of_not_mem_cons hf'⟩
    · obtain ⟨hs', hf'⟩ := hseen k' hk'
      exact ⟨(List.ne_of_not_mem_cons hs').symm, (List.ne_of_not_mem_cons hf').symm⟩

/-! The scanner beside the reader -/

/-- Where the reader finds a tree, the scanner goes the same way and stops at the same place,
unless keys collide. -/
structure Scanned (fold : Text → Text) (fuel : Nat) : Prop where
  value : ∀ {cs j rest}, readValue jsWords fuel (skip cs) = some (j, rest) →
    ∀ r, value fold fuel cs = .ok r ↔ Throughout (Tidy fold) j ∧ r = rest
  array : ∀ {cs items rest}, readItems jsWords fuel cs = some (items, rest) →
    ∀ r, array fold fuel cs = .ok r ↔ (∀ j ∈ items, Throughout (Tidy fold) j) ∧ r = rest
  object : ∀ {cs members rest}, readMembers jsWords fuel cs = some (members, rest) →
    ∀ seen folded r, object fold fuel seen folded cs = .ok r ↔
      Clear fold seen folded (members.map Prod.fst) ∧ (∀ m ∈ members, Throughout (Tidy fold) m.2) ∧ r = rest

theorem readScalar_tidy (h : readScalar words cs = some (j, rest)) :
    Throughout (Tidy fold) j := by
  rcases readScalar_tree h with ⟨w, rfl⟩ | ⟨n, rfl⟩
  · exact throughout_word.mpr trivial
  · exact throughout_num.mpr trivial

theorem value_scanned (ih : Scanned fold fuel)
    (h : readValue jsWords (fuel + 1) (skip cs) = some (j, rest)) (r : Text) :
    value fold (fuel + 1) cs = .ok r ↔ Throughout (Tidy fold) j ∧ r = rest := by
  rw [value]
  generalize skip cs = t at h
  cases readValue_cases h with
  | str hr =>
    dsimp only
    rw [if_neg (by decide), if_neg (by decide), if_pos rfl, str_read hr]
    simp [Except.map, throughout_str, Tidy, eq_comm]
  | noItems hr =>
    dsimp only
    rw [if_neg (by decide), if_pos rfl, hr, if_pos List.head?_cons]
    simp [throughout_arr, Tidy, eq_comm]
  | arr hb hr =>
    dsimp only
    rw [if_neg (by decide), if_pos rfl, if_neg hb, ih.array hr, throughout_arr]
    simp only [Tidy, true_and]
  | noMembers hr =>
    dsimp only
    rw [if_pos rfl, hr, if_pos List.head?_cons]
    simp [throughout_obj, Tidy, Apart, eq_comm]
  | obj hb hr =>
    dsimp only
    rw [if_pos rfl, if_neg hb, ih.object hr, throughout_obj, clear_start, Tidy, and_assoc]
  | scalar hq ha ho hr =>
    have hj : Throughout (Tidy fold) j := readScalar_tidy hr
    dsimp only
    rw [if_neg ho, if_neg ha, if_neg hq, hr]
    simp [hj, eq_comm]

theorem array_scanned (ih : Scanned fold fuel) {items : List Tree}
    (h : readItems jsWords (fuel + 1) cs = some (items, rest)) (r : Text) :
    array fold (fuel + 1) cs = .ok r ↔ (∀ j ∈ items, Throughout (Tidy fold) j) ∧ r = rest := by
  rw [array, bind_eq_ok]
  cases readItems_cases h with
  | last hv hr =>
    simp only [ih.value hv, List.forall_mem_singleton, and_assoc, exists_and_left, exists_eq_left, hr, if_true, Except.ok.injEq]
    rw [eq_comm (a := r)]
  | cons hv hr hs =>
    have hc : unit ',' ≠ unit ']' := by decide
    simp only [ih.value hv, List.forall_mem_cons, and_assoc, exists_and_left, exists_eq_left, hr, if_neg hc, if_true, ih.array hs]

theorem object_scanned (ih : Scanned fold fuel) {members : List (Text × Tree)}
    (h : readMembers jsWords (fuel + 1) cs = some (members, rest)) (seen folded : List Text) (r : Text) :
    object fold (fuel + 1) seen folded cs = .ok r ↔
      Clear fold seen folded (members.map Prod.fst) ∧ (∀ m ∈ members, Throughout (Tidy fold) m.2) ∧ r = rest := by
  rw [object]
  have key : ∀ {key s}, readKey cs = some (key, s) → ∃ s', str (skip cs) = .ok (key, s') ∧ skip s' = unit ':' :: s := by
    intro key s hk
    obtain ⟨t, s', hskip, ht, hs'⟩ := readKey_cases hk
    exact ⟨s', hskip ▸ str_read ht, hs'⟩
  cases readMembers_cases h with
  | last hk hv hr =>
    obtain ⟨s', hstr, hs'⟩ := key hk
    rw [hstr, ok_bind]
    simp only [guard_eq_ok, hs', if_true, bind_eq_ok, ih.value hv, List.map_cons, List.map_nil, clear_cons, clear_nil, List.forall_mem_singleton, and_assoc,
      exists_and_left, exists_eq_left, hr, Except.ok.injEq, true_and]
    rw [eq_comm (a := r)]
  | cons hk hv hr hm =>
    obtain ⟨s', hstr, hs'⟩ := key hk
    have hc : unit ',' ≠ unit '\x7d' := by decide
    rw [hstr, ok_bind]
    simp only [guard_eq_ok, hs', if_true, bind_eq_ok, ih.value hv, List.map_cons, clear_cons, List.forall_mem_cons, and_assoc,
      exists_and_left, exists_eq_left, hr, if_neg hc, ih.object hm]
    tauto

theorem scanned (fuel : Nat) : Scanned fold fuel := by
  induction fuel with
  | zero =>
    constructor
    · intro _ _ _ h
      cases h
    · intro _ _ _ h
      cases h
    · intro _ _ _ h
      cases h
  | succ fuel ih => exact ⟨value_scanned ih, array_scanned ih, object_scanned ih⟩

/-- `JSON.parse` -/
def parse {V : Type} (evaluate : Tree → V) (raw : Text) : Except String V := (jsonParse raw).map evaluate

theorem value_text (h : JsonText jsWords raw j) (hf : raw.length ≤ fuel) :
    (∃ rest, value fold fuel raw = .ok rest ∧ skip rest = []) ↔ Throughout (Tidy fold) j := by
  obtain ⟨rest, hread, hrest⟩ := readText_reaches h hf
  simp only [(scanned fuel).value hread, and_assoc, exists_and_left, exists_eq_left, hrest, and_true]

section Run

variable {V : Type} {evaluate : Tree → V} {raw : Text}

/-- What a return says: the scanner came to the end and `JSON.parse` returned the same. -/
theorem parseStrictJson_ok {v : V} : parseStrictJson fold evaluate raw = .ok v ↔
    (∃ rest, value fold (2 * raw.length + 2) raw = .ok rest ∧ skip rest = []) ∧ parse evaluate raw = .ok v := by
  rw [parseStrictJson, bind_eq_ok, parse]
  constructor
  · rintro ⟨rest, hrest, hv⟩
    by_cases hend : skip rest = []
    · exact ⟨⟨rest, hrest, hend⟩, by rwa [if_pos hend] at hv⟩
    · rw [if_neg hend] at hv
      cases hv
  · rintro ⟨⟨rest, hrest, hend⟩, hv⟩
    exact ⟨rest, hrest, by rwa [if_pos hend]⟩

theorem parseStrictJson_returns : (∃ v, parseStrictJson fold evaluate raw = .ok v) ↔
    ∃ j, JsonText jsWords raw j ∧ Throughout (Tidy fold) j := by
  have htext : ∀ {j}, JsonText jsWords raw j →
      ((∃ rest, value fold (2 * raw.length + 2) raw = .ok rest ∧ skip rest = []) ↔ Throughout (Tidy fold) j) :=
    fun h => value_text h (by omega)
  constructor
  · rintro ⟨v, hv⟩
    obtain ⟨hscan, hparse⟩ := parseStrictJson_ok.mp hv
    obtain ⟨j, hj, -⟩ := map_eq_ok.mp hparse
    have hj := jsonParse_ok.mp hj
    exact ⟨j, hj, (htext hj).mp hscan⟩
  · rintro ⟨j, hj, htidy⟩
    exact ⟨evaluate j, parseStrictJson_ok.mpr ⟨(htext hj).mpr htidy, map_eq_ok.mpr ⟨j, jsonParse_ok.mpr hj, rfl⟩⟩⟩

end Run

/-- **The strict reader accepts the JSON texts without colliding keys.** It returns on a text
iff that is a JSON text in which no object, at any depth, has two keys that are equal or fold to
the same, and then what it returns is what `JSON.parse` does. -/
theorem parseStrictJson_iff {V : Type} (fold : Text → Text) (evaluate : Tree → V) (raw : Text) :
    ((∃ v, parseStrictJson fold evaluate raw = .ok v) ↔ ∃ j, JsonText jsWords raw j ∧ Throughout (Tidy fold) j) ∧
      ∀ v, parseStrictJson fold evaluate raw = .ok v → parse evaluate raw = .ok v :=
  ⟨parseStrictJson_returns, fun _ hv => (parseStrictJson_ok.mp hv).2⟩

end GrowthMap.StrictJson
