import GrowthMap.Desktop.StrictJson

/- The two strict readers of JSON (desktop/strict-json.js, backend/desktop/entitlements.py).

   The desktop reads a license or a revocation with `parseStrictJson`, the backend
   with `strict_json_loads`: `json.loads` with a hook that is given the pairs of
   each object and raises on a collision. The two agree on the grammar but for the
   words `NaN`, `Infinity` and `-Infinity`, which Python reads as numbers; Python
   refuses integers of over 4300 digits; and keys collide for the desktop when they
   are equal in lower case and normalized, for the backend when they are equal
   under `casefold`. `readers_agree_iff` says on which texts that makes no
   difference.

   A string of Python is here the code units of its characters. How deep calls may
   nest is left out on both sides. -/
namespace GrowthMap.StrictJson
open JsonGrammar Fallible

/-! The language's own part -/

def pyWordList : List Text := [units "null", units "true", units "false", units "NaN", units "Infinity", units "-Infinity"]

theorem pyWordList_eq : pyWordList = [[110, 117, 108, 108], [116, 114, 117, 101], [102, 97, 108, 115, 101], [78, 97, 78],
    [73, 110, 102, 105, 110, 105, 116, 121], [45, 73, 110, 102, 105, 110, 105, 116, 121]] := by decide

/-- The words `json.loads` knows. -/
def pyWords : Words where
  list := pyWordList
  startsWell := by
    rw [pyWordList_eq]
    decide
  prefixFree := by
    rw [pyWordList_eq]
    decide

inductive PyValue where
  | constant (w : Text)
  | int (n : Int)
  | float (lexeme : Text)
  | str (s : Text)
  | list (items : List PyValue)
  | dict (items : List (Text × PyValue))

def isFloat (lexeme : Text) : Bool := lexeme.any (fun c => c == unit '.' || c == unit 'e' || c == unit 'E')

/-- `sys.int_info.default_max_str_digits` -/
def maxStrDigits : Nat := 4300

def digitCount (lexeme : Text) : Nat := (lexeme.filter isDigit).length

def decimal (ds : Text) : Nat := ds.foldl (fun n d => 10 * n + (d - unit '0')) 0

def toInt (lexeme : Text) : Int :=
  if lexeme.head? = some (unit '-') then -(decimal lexeme.tail : Int) else decimal lexeme

/-- `int` of a lexeme raises on too many digits. -/
def number (lexeme : Text) : Except String PyValue :=
  if isFloat lexeme then .ok (.float lexeme)
  else if maxStrDigits < digitCount lexeme then .error "Exceeds the limit (4300 digits) for integer string conversion"
  else .ok (.int (toInt lexeme))

section Loads

local instance lawfulPair : LawfulBEq Text := inferInstance

variable (casefold : Text → Text)

/-- `pairs`: the hook that is given the pairs of an object. -/
def pairs (items : List (Text × PyValue)) : Except String (List (Text × PyValue)) := do
  let (result, _) ← each (fun (key, value) (result, folded) =>
    if key ∈ result.map Prod.fst then .error "duplicate_json_key"
    else if casefold key ∈ folded then .error "case_colliding_json_key"
    else .ok (result ++ [(key, value)], folded ++ [casefold key])) items ([], [])
  return result

mutual

/-- The value of a tree, from the inside out as `json.loads` builds it. -/
def build : Tree → Except String PyValue
  | .word w => .ok (.constant w)
  | .num lexeme => number lexeme
  | .str s => .ok (.str s)
  | .arr items => (buildItems items).map .list
  | .obj members => do
    let items ← buildMembers members
    (pairs casefold items).map .dict

def buildItems : List Tree → Except String (List PyValue)
  | [] => .ok []
  | j :: items => do
    let v ← build j
    (buildItems items).map (v :: ·)

def buildMembers : List (Text × Tree) → Except String (List (Text × PyValue))
  | [] => .ok []
  | (key, j) :: members => do
    let v ← build j
    (buildMembers members).map ((key, v) :: ·)

end

/-- `strict_json_loads` -/
def strictJsonLoads (raw : Text) : Except String PyValue :=
  match readText pyWords raw with
  | some j => build casefold j
  | none => .error "JSONDecodeError"

end Loads

/-! The hook -/

variable {casefold : Text → Text} {fold : Text → Text} {raw : Text}

theorem clear_congr {seen seen' folded folded' keys : List Text} (hs : ∀ k, k ∈ seen ↔ k ∈ seen')
    (hf : ∀ k, k ∈ folded ↔ k ∈ folded') : Clear fold seen folded keys ↔ Clear fold seen' folded' keys := by
  simp only [Clear, hs, hf]

variable {items : List (Text × PyValue)}

/-- The hook raises on a collision and on nothing else, and keeps the pairs as they are. -/
theorem pairs_ok {r : List (Text × PyValue)} :
    pairs casefold items = .ok r ↔ Apart casefold (items.map Prod.fst) ∧ r = items := by
  have hrun : ∀ (items result : List (Text × PyValue)) (folded : List Text) s,
      each (fun (key, value) (result, folded) =>
        if key ∈ result.map Prod.fst then .error "duplicate_json_key"
        else if casefold key ∈ folded then .error "case_colliding_json_key"
        else .ok (result ++ [(key, value)], folded ++ [casefold key])) items (result, folded) = Except.ok s ↔
      Clear casefold (result.map Prod.fst) folded (items.map Prod.fst) ∧
        s = (result ++ items, folded ++ items.map (fun i => casefold i.1)) := by
    intro items
    induction items with
    | nil =>
      intro result folded s
      simp [clear_nil, eq_comm]
    | cons i items ih =>
      intro result folded s
      have hseen : Clear casefold ((result ++ [i]).map Prod.fst) (folded ++ [casefold i.1]) (items.map Prod.fst) ↔
          Clear casefold (i.1 :: result.map Prod.fst) (casefold i.1 :: folded) (items.map Prod.fst) :=
        clear_congr (by simp [or_comm]) (by simp [or_comm])
      rw [each_cons, List.map_cons, clear_cons, ← hseen]
      by_cases hk : i.1 ∈ result.map Prod.fst
      · simp only [hk, if_true, error_bind]
        simp
      · by_cases hf : casefold i.1 ∈ folded
        · simp only [hk, hf, if_true, if_false, error_bind]
          simp
        · simp only [hk, hf, if_false, ok_bind, ih]
          simp
  rw [pairs, bind_eq_ok]
  simp only [hrun, List.map_nil, clear_start, List.nil_append]
  constructor
  · rintro ⟨s, ⟨h, rfl⟩, hr⟩
    exact ⟨h, (pure_eq_ok.mp hr).symm⟩
  · rintro ⟨h, rfl⟩
    exact ⟨_, ⟨h, rfl⟩, rfl⟩

/-! What the backend builds -/

def Fits : Tree → Prop
  | .num lexeme => isFloat lexeme = true ∨ digitCount lexeme ≤ maxStrDigits
  | _ => True

theorem number_ok {lexeme : Text} : (∃ v, number lexeme = .ok v) ↔ Fits (.num lexeme) := by
  unfold number Fits
  split
  · next h => simp [h]
  · next h =>
    simp only [guard_eq_ok, Except.ok.injEq, exists_and_left, exists_eq', and_true, h, Bool.false_eq_true, false_or, Nat.not_lt]

theorem buildMembers_keys {members : List (Text × Tree)}
    (h : buildMembers casefold members = .ok items) : items.map Prod.fst = members.map Prod.fst := by
  induction members generalizing items with
  | nil =>
    cases h
    rfl
  | cons m members ih =>
    obtain ⟨v, -, h⟩ := bind_ok h
    obtain ⟨rest, hrest, rfl⟩ := map_eq_ok.mp h
    rw [List.map_cons, List.map_cons, ih hrest]

mutual

/-- A tree has a value iff at every depth keys are apart and integers fit. -/
theorem build_ok : (j : Tree) → ((∃ v, build casefold j = .ok v) ↔ Throughout (Tidy casefold) j ∧ Throughout Fits j)
  | .word w => by simp [build, throughout_word, Tidy, Fits]
  | .num lexeme => by simp [build, throughout_num, number_ok, Tidy]
  | .str s => by simp [build, throughout_str, Tidy, Fits]
  | .arr items => by
    have hitems := buildItems_ok items
    simp only [build, map_eq_ok, throughout_arr, Tidy, Fits, true_and]
    rw [← forall₂_and, ← hitems]
    constructor
    · rintro ⟨_, vs, hvs, rfl⟩
      exact ⟨vs, hvs⟩
    · rintro ⟨vs, hvs⟩
      exact ⟨_, vs, hvs, rfl⟩
  | .obj members => by
    have hmembers := buildMembers_ok members
    simp only [build, bind_eq_ok, map_eq_ok, pairs_ok, throughout_obj, Tidy, Fits, true_and, and_assoc]
    constructor
    · rintro ⟨_, items, hitems, _, hapart, -, -⟩
      rw [buildMembers_keys hitems] at hapart
      have h := hmembers.mp ⟨items, hitems⟩
      exact ⟨hapart, fun m hm => (h m hm).1, fun m hm => (h m hm).2⟩
    · rintro ⟨hapart, ht, hf⟩
      obtain ⟨items, hitems⟩ := hmembers.mpr fun m hm => ⟨ht m hm, hf m hm⟩
      rw [← buildMembers_keys hitems] at hapart
      exact ⟨_, items, hitems, _, hapart, rfl, rfl⟩

theorem buildItems_ok : (items : List Tree) →
    ((∃ vs, buildItems casefold items = .ok vs) ↔ ∀ j ∈ items, Throughout (Tidy casefold) j ∧ Throughout Fits j)
  | [] => by simp [buildItems]
  | j :: items => by
    rw [List.forall_mem_cons, ← build_ok j, ← buildItems_ok items]
    simp only [buildItems, bind_eq_ok, map_eq_ok]
    constructor
    · rintro ⟨_, v, hv, vs, hvs, -⟩
      exact ⟨⟨v, hv⟩, vs, hvs⟩
    · rintro ⟨⟨v, hv⟩, vs, hvs⟩
      exact ⟨_, v, hv, vs, hvs, rfl⟩

theorem buildMembers_ok : (members : List (Text × Tree)) →
    ((∃ vs, buildMembers casefold members = .ok vs) ↔ ∀ m ∈ members, Throughout (Tidy casefold) m.2 ∧ Throughout Fits m.2)
  | [] => by simp [buildMembers]
  | (key, j) :: members => by
    rw [List.forall_mem_cons, ← build_ok j, ← buildMembers_ok members]
    simp only [buildMembers, bind_eq_ok, map_eq_ok]
    constructor
    · rintro ⟨_, v, hv, vs, hvs, -⟩
      exact ⟨⟨v, hv⟩, vs, hvs⟩
    · rintro ⟨⟨v, hv⟩, vs, hvs⟩
      exact ⟨_, v, hv, vs, hvs, rfl⟩

end

theorem strictJsonLoads_iff :
    (∃ v, strictJsonLoads casefold raw = .ok v) ↔
      ∃ j, JsonText pyWords raw j ∧ Throughout (Tidy casefold) j ∧ Throughout Fits j := by
  unfold strictJsonLoads
  constructor
  · rintro ⟨v, hv⟩
    split at hv
    · next j hj => exact ⟨j, readText_iff.mp hj, (build_ok j).mp ⟨v, hv⟩⟩
    · cases hv
  · rintro ⟨j, hj, hok⟩
    rw [readText_iff.mpr hj]
    exact (build_ok j).mpr hok

/-! The two readers -/

theorem words_subset : jsWords.list ⊆ pyWords.list := by
  show jsWordList ⊆ pyWordList
  rw [jsWordList_eq, pyWordList_eq]
  decide

theorem parseStrictJson_wide {V : Type} {evaluate : Tree → V} :
    (∃ v, parseStrictJson fold evaluate raw = .ok v) ↔
      ∃ j, JsonText pyWords raw j ∧ Throughout (Spoken jsWords) j ∧ Throughout (Tidy fold) j := by
  rw [parseStrictJson_returns]
  simp only [jsonText_narrow words_subset, and_assoc]

theorem exists_text {words : Words} {j : Tree} (h : JsonText words raw j) {P : Tree → Prop} :
    (∃ i, JsonText words raw i ∧ P i) ↔ P j := by
  constructor
  · rintro ⟨i, hi, hP⟩
    rwa [h.unique hi]
  · intro hP
    exact ⟨j, h, hP⟩

/-- **Where the two sides agree.** The desktop accepts a text iff the backend does, exactly when on
the tree of the text (if it has one in Python's grammar) the desktop's objections, a word that is
not JSON's or keys that collide in lower case and normalized, come down to the same as the
backend's, an integer of over 4300 digits or keys that collide under `casefold`. -/
theorem readers_agree_iff {V : Type} (fold casefold : Text → Text) (evaluate : Tree → V) (raw : Text) :
    ((∃ v, parseStrictJson fold evaluate raw = .ok v) ↔ ∃ v, strictJsonLoads casefold raw = .ok v) ↔
      ∀ j, JsonText pyWords raw j →
        (Throughout (Spoken jsWords) j ∧ Throughout (Tidy fold) j ↔ Throughout (Tidy casefold) j ∧ Throughout Fits j) := by
  rw [parseStrictJson_wide, strictJsonLoads_iff]
  by_cases hj : ∃ j, JsonText pyWords raw j
  · obtain ⟨j, hj⟩ := hj
    rw [exists_text hj, exists_text hj]
    constructor
    · intro h i hi
      rwa [← hj.unique hi]
    · intro h
      exact h j hj
  · have hnone : ∀ {P : Tree → Prop}, (∃ i, JsonText pyWords raw i ∧ P i) ↔ False :=
      iff_false_intro fun ⟨i, hi, _⟩ => hj ⟨i, hi⟩
    rw [hnone, hnone]
    exact iff_of_true Iff.rfl fun j h => absurd ⟨j, h⟩ hj

/-- `{"ß":1,"ss":2}` -/
def sharpS : Text := [123, 34, 223, 34, 58, 49, 44, 34, 115, 115, 34, 58, 50, 125]

/-- `toLocaleLowerCase` and `normalize` on the letters of ASCII and `ß`. -/
def lowerSample (key : Text) : Text := key.map (fun c => if 65 ≤ c ∧ c ≤ 90 then c + 32 else c)

/-- `casefold` on the same. -/
def casefoldSample (key : Text) : Text := (lowerSample key).flatMap (fun c => if c = 223 then [115, 115] else [c])

theorem readers_disagree : ¬ ∀ raw, (∃ v, parseStrictJson lowerSample id raw = .ok v) ↔
    ∃ v, strictJsonLoads casefoldSample raw = .ok v := by
  intro h
  obtain ⟨v, hv⟩ := (h sharpS).mp ⟨_, rfl⟩
  cases hv

end GrowthMap.StrictJson
