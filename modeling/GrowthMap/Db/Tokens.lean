import GrowthMap.Db.Segments
import GrowthMap.Lib.Pieces

/- SQLite's tokens outside of string literals, and what the rewriting of
   `normalize_sql` leaves of them.

   The tokens are those of texts in the characters of the contract: identifiers
   and keywords, numbers, and `. ( ) , ; = !=`. Letters outside of literals count
   the same in both cases, so tokens are taken of the lower-cased text. White space
   between two tokens matters only where they would stick together without it. -/
namespace GrowthMap.Db

open Pieces

/-- SQLite's white space: tab, line feed, form feed, carriage return and blank. -/
def sqlSpace (c : Char) : Bool := [9, 10, 12, 13, 32].contains c.toNat

def idChar (c : Char) : Bool := c.isAlphanum || c == '_' || 128 ≤ c.toNat

/-- Two neighbours that SQLite may take into one token. -/
def glues (x y : Char) : Bool := (idChar x && (idChar y || y == '.')) || (x == '.' && idChar y) || (x == '!' && y == '=')

variable {c : Char} {s : List Char} {ts us : List (List Char)}

theorem not_idChar_of_space (h : sqlSpace c = true) : idChar c = false ∧ c ≠ '.' ∧ c ≠ '!' ∧ c ≠ '=' := by
  have hc : c.toNat < 128 := by
    simp only [sqlSpace, List.contains_eq_mem, decide_eq_true_eq] at h
    revert h
    generalize c.toNat = n
    simp only [List.mem_cons, List.not_mem_nil, or_false]
    omega
  exact @ascii_forall c (fun c => sqlSpace c = true → idChar c = false ∧ c ≠ '.' ∧ c ≠ '!' ∧ c ≠ '=') (by decide) hc h

def sqlCutter : Cutter Char where
  glues := glues
  blank := sqlSpace
  blank_left x y h := by
    obtain ⟨hid, hdot, hbang, -⟩ := not_idChar_of_space h
    simp [glues, hid, hdot, hbang]
  blank_right x y h := by
    obtain ⟨hid, hdot, -, heq⟩ := not_idChar_of_space h
    simp [glues, hid, hdot, heq]

/-- The first token of a run of glued characters that starts with this one, and the rest. -/
def headToken (c : Char) (s : List Char) : List Char × List Char :=
  if c.isDigit then
    match s.dropWhile Char.isDigit with
    | '.' :: d => (c :: (s.takeWhile Char.isDigit ++ '.' :: d.takeWhile idChar), d.dropWhile idChar)
    | _ => (c :: s.takeWhile idChar, s.dropWhile idChar)
  else if c = '.' ∧ ¬ s.head?.any Char.isDigit then (['.'], s)
  else if c = '!' then ('!' :: s.takeWhile (· == '='), s.dropWhile (· == '='))
  else (c :: s.takeWhile idChar, s.dropWhile idChar)

/-- The tokens of a run of glued characters; every token takes a character. -/
def cutRun : Nat → List Char → List (List Char)
  | _, [] => []
  | 0, s => [s]
  | fuel + 1, c :: s => (headToken c s).1 :: cutRun fuel (headToken c s).2

def runTokens (p : List Char) : List (List Char) := cutRun p.length p

def lowerCase (s : List Char) : List Char := s.map Char.toLower

/-- The tokens of a text outside of literals, letter case aside. -/
def tokens (s : List Char) : List (List Char) := (sqlCutter.pieces (lowerCase s)).flatMap runTokens

/-- `if not exists` taken out of a list of tokens. -/
inductive Cuts : List (List Char) → List (List Char) → Prop where
  | nil : Cuts [] []
  | keep {t : List Char} {ts us : List (List Char)} : Cuts ts us → Cuts (t :: ts) (t :: us)
  | drop {ts us : List (List Char)} : Cuts ts us → Cuts ("if".toList :: "not".toList :: "exists".toList :: ts) us

/-! Tokens -/

theorem headToken_append : (headToken c s).1 ++ (headToken c s).2 = c :: s := by
  unfold headToken
  split
  · split
    · rename_i d hd
      have hs : s.takeWhile Char.isDigit ++ '.' :: d = s := by rw [← hd, List.takeWhile_append_dropWhile]
      calc c :: (s.takeWhile Char.isDigit ++ '.' :: d.takeWhile idChar) ++ d.dropWhile idChar
          = c :: (s.takeWhile Char.isDigit ++ '.' :: (d.takeWhile idChar ++ d.dropWhile idChar)) := by simp
        _ = c :: s := by rw [List.takeWhile_append_dropWhile, hs]
    · simp
  · split
    · rename_i h
      simp [h.1]
    · split
      · rename_i h
        simp [h]
      · simp

theorem cutRun_flatten {fuel : Nat} {s : List Char} : (cutRun fuel s).flatten = s := by
  induction fuel generalizing s with
  | zero => cases s <;> simp [cutRun]
  | succ fuel ih =>
    cases s with
    | nil => rfl
    | cons => rw [cutRun, List.flatten_cons, ih, headToken_append]

theorem exists_token (hc : c ∈ lowerCase s) (h : sqlSpace c = false) : ∃ t ∈ tokens s, c ∈ t := by
  obtain ⟨p, hp, hc⟩ := @exists_piece _ sqlCutter _ _ hc h
  rw [← @cutRun_flatten p.length p] at hc
  obtain ⟨t, ht, hc⟩ := List.mem_flatten.mp hc
  exact ⟨t, List.mem_flatMap.mpr ⟨p, hp, ht⟩, hc⟩

theorem Cuts.refl (ts : List (List Char)) : Cuts ts ts := by
  induction ts with
  | nil => exact .nil
  | cons t ts ih => exact .keep ih

theorem Cuts.append {ts' us' : List (List Char)} (h : Cuts ts us) (h' : Cuts ts' us') : Cuts (ts ++ ts') (us ++ us') := by
  induction h with
  | nil => exact h'
  | keep _ ih => exact .keep ih
  | drop _ ih => exact .drop ih

theorem Cuts.mem (h : Cuts ts us) {t : List Char} (ht : t ∈ ts) :
    t ∈ us ∨ t ∈ ["if".toList, "not".toList, "exists".toList] := by
  induction h with
  | nil => cases ht
  | keep _ ih =>
    rcases List.mem_cons.mp ht with rfl | ht
    · exact .inl List.mem_cons_self
    · exact (ih ht).imp_left (List.mem_cons_of_mem _)
  | drop _ ih =>
    rcases List.mem_cons.mp ht with rfl | ht
    · exact .inr (by simp)
    rcases List.mem_cons.mp ht with rfl | ht
    · exact .inr (by simp)
    rcases List.mem_cons.mp ht with rfl | ht
    · exact .inr (by simp)
    · exact ih ht

theorem Cuts.flatMap (h : Cuts ts us) : Cuts (ts.flatMap runTokens) (us.flatMap runTokens) := by
  induction h with
  | nil => exact .nil
  | keep _ ih =>
    rw [List.flatMap_cons, List.flatMap_cons]
    exact (Cuts.refl _).append ih
  | drop _ ih => exact .drop ih

end GrowthMap.Db
