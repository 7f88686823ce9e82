import GrowthMap.Desktop.Backups
import GrowthMap.Lib.Lexicographic
import Mathlib.Data.List.Lex

/- Versions of the desktop application, and which updates of them are recorded.

   `older` (update-recovery.js) compares the three numbers of two versions as doubles and
   leaves the pre-release out, which the pattern reads. Precedence is stated here as
   Semantic Versioning has it, for every text the pattern accepts. The two relations agree
   on a pair when its numbers order it alike as doubles, and when it is not two versions of
   one core of which the first is the earlier pre-release (`updates_recorded_iff`): the
   release after a pre-release is not recorded (`release_not_recorded`). -/
namespace GrowthMap.Desktop

open Lexicographic

/-! Precedence -/

/-- The three numbers and the pre-release identifiers, which build metadata does not add to. -/
structure Version where
  major : Nat
  minor : Nat
  patch : Nat
  preRelease : Option (List (List Char))
  deriving DecidableEq

def Version.core (v : Version) : List Nat := [v.major, v.minor, v.patch]

def isNumeric (identifier : List Char) : Bool := identifier.all Char.isDigit

/-- Numbers by their value and before words, words by their ASCII codes. -/
def compareIdentifiers (x y : List Char) : Ordering :=
  if isNumeric x then
    if isNumeric y then cmpNat (Nat.ofDigitChars 10 x 0) (Nat.ofDigitChars 10 y 0) else .lt
  else if isNumeric y then .gt
  else List.compareLex cmpNat (x.map Char.toNat) (y.map Char.toNat)

/-- Identifier by identifier, fewer of the same before more; a release after all its pre-releases. -/
def comparePreReleases : Option (List (List Char)) → Option (List (List Char)) → Ordering
  | none, none => .eq
  | none, some _ => .gt
  | some _, none => .lt
  | some xs, some ys => List.compareLex compareIdentifiers xs ys

def Version.compare (v w : Version) : Ordering :=
  (List.compareLex cmpNat v.core w.core).then (comparePreReleases v.preRelease w.preRelease)

def Version.Precedes (v w : Version) : Prop := v.compare w = .lt

instance (v w : Version) : Decidable (v.Precedes w) := inferInstanceAs (Decidable (v.compare w = .lt))

/-- The version a text stands for under `SEMVER`. -/
def readVersion (text : String) : Option Version := do
  let (major, cs) ← readComponent text.toList
  let cs ← IsoTime.expect '.' cs
  let (minor, cs) ← readComponent cs
  let cs ← IsoTime.expect '.' cs
  let (patch, cs) ← readComponent cs
  if versionTail cs then
    some ⟨major, minor, patch,
      match cs.takeWhile (fun c => c != '+') with
      | [] => none
      | _ :: identifiers => some (identifiers.splitOn '.')⟩
  else none

/-- A text the pattern accepts. -/
structure VersionText where
  text : String
  version : Version
  accepted : readVersion text = some version

/-- What `older` has of a version. -/
def Version.numbers (v : Version) : Nat × Nat × Nat := (Double.ofNat v.major, Double.ofNat v.minor, Double.ofNat v.patch)

/-- `parseSemver` reads the version and leaves the pre-release. -/
theorem parseSemver_eq (text : String) : parseSemver text = (readVersion text).map Version.numbers := by
  unfold parseSemver readVersion
  simp only [Option.bind_eq_bind, Option.map_bind, Function.comp_def, apply_ite (Option.map Version.numbers),
    Option.map_some, Option.map_none]
  rfl

/-- The comparison of `older`: the doubles of the cores. -/
theorem older_iff (a b : VersionText) :
    older a.text b.text = true ↔
      List.compareLex cmpNat (a.version.core.map Double.ofNat) (b.version.core.map Double.ofNat) = .lt := by
  have ha : parseSemver a.text = some a.version.numbers := by rw [parseSemver_eq, a.accepted, Option.map_some]
  have hb : parseSemver b.text = some b.version.numbers := by rw [parseSemver_eq, b.accepted, Option.map_some]
  unfold older Version.core
  simp only [ha, hb, Version.numbers, List.map_cons, List.map_nil, List.compareLex_cons_cons, List.compareLex_nil_nil,
    Ordering.then_eq, Ordering.then_eq_lt, cmpNat_eq_lt, cmpNat_eq_eq]
  split_ifs with hmajor hminor
  · simp [hmajor]
  · simp only [ne_eq, not_not] at hmajor
    simp [hmajor, hminor]
  · simp only [ne_eq, not_not] at hmajor hminor
    simp [hmajor, hminor]

/-! Numbers as doubles -/

/-- Where two lists differ first, the doubles differ, or those behind it happen to order
the lists as the numbers do. -/
def RoundsApart : List Nat → List Nat → Prop
  | x :: xs, y :: ys =>
    if x = y then RoundsApart xs ys
    else Double.ofNat x ≠ Double.ofNat y ∨
      (x < y ↔ List.compareLex cmpNat (xs.map Double.ofNat) (ys.map Double.ofNat) = .lt)
  | _, _ => True

theorem roundsApart_self : ∀ xs : List Nat, RoundsApart xs xs
  | [] => trivial
  | x :: xs => by
    unfold RoundsApart
    rw [if_pos rfl]
    exact roundsApart_self xs

/-- Exactly then are the doubles in the order of the numbers. -/
theorem roundsApart_iff {xs ys : List Nat} (h : xs.length = ys.length) :
    RoundsApart xs ys ↔
      (List.compareLex cmpNat (xs.map Double.ofNat) (ys.map Double.ofNat) = .lt ↔ List.compareLex cmpNat xs ys = .lt) := by
  induction xs generalizing ys with
  | nil =>
    rw [List.eq_nil_of_length_eq_zero h.symm]
    simp [RoundsApart, List.compareLex_nil_nil]
  | cons x xs ih =>
    cases ys with
    | nil => cases h
    | cons y ys =>
      simp only [RoundsApart, List.map_cons, List.compareLex_cons_cons]
      by_cases heq : x = y
      · rw [if_pos heq, heq, cmpNat_self, cmpNat_self, Ordering.eq_then, Ordering.eq_then]
        exact ih (Nat.succ.inj h)
      · rw [if_neg heq]
        have hexact : (cmpNat x y).then (List.compareLex cmpNat xs ys) = .lt ↔ x < y := by
          rw [Ordering.then_eq_lt, cmpNat_eq_lt, cmpNat_eq_eq]
          simp [heq]
        rw [hexact, Ordering.then_eq_lt, cmpNat_eq_lt, cmpNat_eq_eq]
        by_cases hround : Double.ofNat x = Double.ofNat y
        · simp [hround]
          tauto
        · -- doubles that differ are in the order of the numbers
          have hlt : Double.ofNat x < Double.ofNat y ↔ x < y := by
            constructor
            · exact Double.lt_of_ofNat_lt
            · intro hxy
              exact Nat.lt_of_le_of_ne (Double.ofNat_mono hxy.le) hround
          simp [hround, hlt]

/-! What is recorded -/

def OrdersAlike (v w : Version) : Prop :=
  (v.core = w.core → comparePreReleases v.preRelease w.preRelease ≠ .lt) ∧ RoundsApart v.core w.core

theorem older_precedes_iff (a b : VersionText) :
    (older a.text b.text = true ↔ a.version.Precedes b.version) ↔ OrdersAlike a.version b.version := by
  have hlength : a.version.core.length = b.version.core.length := rfl
  rw [older_iff, OrdersAlike, Version.Precedes, Version.compare]
  by_cases hcore : a.version.core = b.version.core
  · rw [hcore, compareLex_self, compareLex_self, Ordering.eq_then]
    simp [roundsApart_self]
  · have hne : List.compareLex cmpNat a.version.core b.version.core ≠ .eq := fun h => hcore (compareLex_eq_eq.mp h)
    rw [roundsApart_iff hlength, Ordering.then_eq_lt]
    simp [hcore, hne]

def evident (backupId sha256 : String) (size : Int) (createdAt : String) : Bool :=
  node.backup backupId && isSha256 sha256 && safeInteger size && decide (100 ≤ size) && validTimestamp createdAt

theorem writeMarker_ok_iff {disk : Disk} {userData : Path} {phase backupId sha256 : String} {size : Int}
    {fromVersion toVersion createdAt : String} (h : evident backupId sha256 size createdAt = true) :
    (∃ disk', writeMarker disk userData phase backupId sha256 size fromVersion toVersion createdAt = .ok disk') ↔
      older fromVersion toVersion = true := by
  simp only [evident, Bool.and_eq_true] at h
  obtain ⟨⟨⟨⟨hbackup, hsha⟩, hsafe⟩, hsize⟩, hcreated⟩ := h
  unfold writeMarker validMarker
  simp only [hbackup, hsha, hsafe, hsize, hcreated, Bool.true_and, Bool.and_true]
  cases older fromVersion toVersion with
  | false => simp
  | true => simp

/-- The pair is ordered by precedence, and its marker is written exactly for an upgrade. -/
structure RecordedAlike (a b : VersionText) : Prop where
  older : older a.text b.text = true ↔ a.version.Precedes b.version
  marker : ∀ disk userData phase backupId sha256 size createdAt, evident backupId sha256 size createdAt = true →
    ((∃ disk', writeMarker disk userData phase backupId sha256 size a.text b.text createdAt = .ok disk') ↔
      a.version.Precedes b.version)

/-- For every pair of versions the order and the markers are those of precedence exactly
when the pair is ordered alike; and `older` is a strict weak order on the versions. -/
theorem updates_recorded_iff (a b : VersionText) :
    (RecordedAlike a b ↔ OrdersAlike a.version b.version) ∧
      IsStrictWeakOrder VersionText (fun a b => older a.text b.text = true) := by
  constructor
  · rw [← older_precedes_iff]
    constructor
    · exact RecordedAlike.older
    · intro h
      refine ⟨h, ?_⟩
      intro disk userData phase backupId sha256 size createdAt hevident
      rw [writeMarker_ok_iff hevident, h]
  · have hpreimage : (fun a b : VersionText => older a.text b.text = true) =
        Order.Preimage (fun a : VersionText => a.version.core.map Double.ofNat) (List.Lex (· < ·)) := by
      funext a b
      rw [older_iff, compareLex_eq_lt]
      rfl
    have hlists : IsStrictWeakOrder (List Nat) (List.Lex (· < ·)) := by
      have hless : IsStrictWeakOrder (List Nat) (· < ·) := isStrictWeakOrder_of_isOrderConnected
      exact hless
    rw [hpreimage]
    infer_instance

namespace Release

/-- The application's own version, and the release it is a pre-release of. -/
def current : VersionText := ⟨"0.1.0-desktop.2", ⟨0, 1, 0, some ["desktop".toList, "2".toList]⟩, by decide +kernel⟩
def next : VersionText := ⟨"0.1.0", ⟨0, 1, 0, none⟩, by decide +kernel⟩

def large : VersionText := ⟨"9007199254740992.0.0", ⟨9007199254740992, 0, 0, none⟩, by decide +kernel⟩
def larger : VersionText := ⟨"9007199254740993.0.0", ⟨9007199254740993, 0, 0, none⟩, by decide +kernel⟩

end Release

/-- The release after the running pre-release is not older, nor is 2^53 than 2^53 + 1. -/
theorem release_not_recorded :
    ¬ (∀ a b : VersionText, RecordedAlike a b) ∧ ¬ RecordedAlike Release.current Release.next ∧ ¬ RecordedAlike Release.large Release.larger := by
  have hrelease : ¬ RecordedAlike Release.current Release.next := by
    intro h
    exact absurd (h.older.mpr (by decide +kernel)) (by decide +kernel)
  have hlarge : ¬ RecordedAlike Release.large Release.larger := by
    intro h
    exact absurd (h.older.mpr (by decide +kernel)) (by decide +kernel)
  exact ⟨fun h => hrelease (h _ _), hrelease, hlarge⟩

end GrowthMap.Desktop
