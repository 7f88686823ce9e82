import Mathlib.Data.List.Infix
import Mathlib.Tactic.Common

/- POSIX paths, their texts, and their resolution in a tree with symbolic links.

   A resolved path is the list of its names from the root. `Path.text` writes it with a
   slash before each name. That the text of one path starts with the text of another is
   not that it lies below it: `textPrefix_iff` says what else it can be, a path below a
   sibling whose name goes on where the other's ends (`Beside`). -/
namespace PosixPath

abbrev Text := List Char

/-- An entry of a directory. -/
structure Name where
  text : Text
  ne_nil : text ≠ []
  no_slash : '/' ∉ text
  ne_dot : text ≠ ['.']
  ne_dots : text ≠ ['.', '.']
  deriving DecidableEq

/-- An absolute path without links, `.` and `..`. -/
abbrev Path := List Name

/-- The names, each behind its slash. -/
def names (p : Path) : Text := p.flatMap (fun n => '/' :: n.text)

/-- `str(path)` -/
def Path.text (p : Path) : Text := if p = [] then ['/'] else names p

/-- What a part of a path between two slashes does. -/
inductive Segment where
  | stay
  | up
  | down (n : Name)
  deriving DecidableEq

def segment (t : Text) : Segment :=
  if t = ['.', '.'] then .up
  else if h : t ≠ [] ∧ '/' ∉ t ∧ t ≠ ['.'] ∧ t ≠ ['.', '.'] then .down ⟨t, h.1, h.2.1, h.2.2.1, h.2.2.2⟩
  else .stay

def segments (t : Text) : List Segment := (t.splitOn '/').map segment

def isAbsolute (t : Text) : Bool := t.head? = some '/'

/-- The files, the directories and the links of a tree, a link with the text it holds. -/
structure Tree where
  files : List Path
  dirs : List Path
  links : List (Path × Text)

/-- A walk along the segments; `inner` takes a link's own. -/
def walk (links : List (Path × Text)) (inner : Path → List Segment → Option Path) : Path → List Segment → Option Path
  | path, [] => some path
  | path, .stay :: rest => walk links inner path rest
  | path, .up :: rest => walk links inner path.dropLast rest
  | path, .down n :: rest =>
    match links.lookup (path ++ [n]) with
    | none => walk links inner (path ++ [n]) rest
    | some target =>
      match inner (if isAbsolute target then [] else path) (segments target) with
      | none => none
      | some path => walk links inner path rest

/-- With links within links up to a depth. -/
def follow (links : List (Path × Text)) : Nat → Path → List Segment → Option Path
  | 0 => walk links (fun _ _ => none)
  | depth + 1 => walk links (follow links depth)

/-- Where the segments lead from a path. A chain of links that is longer than there are
links is a loop. -/
def Tree.resolve (t : Tree) (path : Path) (rest : List Segment) : Option Path := follow t.links t.links.length path rest

/-! Texts -/

/-- One path is the other or lies below it. -/
def Inside (dir p : Path) : Prop := dir <+: p

/-- `p` lies in or below a sibling of `dir` whose name starts with the name of `dir`. -/
def Beside (dir p : Path) : Prop :=
  ∃ base n m rest, dir = base ++ [n] ∧ p = base ++ m :: rest ∧ n.text <+: m.text ∧ n ≠ m

instance (dir p : Path) : Decidable (Inside dir p) := inferInstanceAs (Decidable (dir <+: p))

theorem names_nil_or (p : Path) : names p = [] ∨ ∃ rest, names p = '/' :: rest := by
  cases p with
  | nil => exact .inl rfl
  | cons n p => exact .inr ⟨n.text ++ names p, rfl⟩

variable {n m y : Text} {p : Path}

theorem prefix_slash_iff {x : Text} (hn : '/' ∉ n) (hm : '/' ∉ m) (hy : y = [] ∨ ∃ rest, y = '/' :: rest) :
    n ++ '/' :: x <+: m ++ y ↔ n = m ∧ '/' :: x <+: y := by
  induction n generalizing m with
  | nil =>
    cases m with
    | nil => simp
    | cons c =>
      have hc : '/' ≠ c := fun h => hm (h ▸ List.mem_cons_self)
      simp [List.cons_prefix_cons, hc]
  | cons c n ih =>
    have hc : c ≠ '/' := fun h => hn (h ▸ List.mem_cons_self)
    have hn' : '/' ∉ n := fun h => hn (List.mem_cons_of_mem c h)
    cases m with
    | nil =>
      rcases hy with rfl | ⟨rest, rfl⟩
      · simp
      · simp [List.cons_prefix_cons, hc]
    | cons d m =>
      have hm' : '/' ∉ m := fun h => hm (List.mem_cons_of_mem d h)
      rw [List.cons_append, List.cons_append, List.cons_prefix_cons, ih hn' hm', List.cons.injEq, and_assoc]

theorem prefix_name_iff (hn : '/' ∉ n) (hy : y = [] ∨ ∃ rest, y = '/' :: rest) :
    n <+: m ++ y ↔ n <+: m := by
  induction n generalizing m with
  | nil => simp
  | cons c n ih =>
    have hc : c ≠ '/' := fun h => hn (h ▸ List.mem_cons_self)
    have hn' : '/' ∉ n := fun h => hn (List.mem_cons_of_mem c h)
    cases m with
    | nil =>
      rcases hy with rfl | ⟨rest, rfl⟩
      · simp
      · simp [List.cons_prefix_cons, hc]
    | cons => rw [List.cons_append, List.cons_prefix_cons, List.cons_prefix_cons, ih hn']

variable {dir : Path}

theorem beside_cons {n m : Name} (hdir : dir ≠ []) : Beside (n :: dir) (m :: p) ↔ n = m ∧ Beside dir p := by
  constructor
  · rintro ⟨base, a, b, rest, hbase, hp, hab, hne⟩
    cases base with
    | nil =>
      rw [List.nil_append, List.cons.injEq] at hbase
      exact absurd hbase.2 hdir
    | cons x base =>
      rw [List.cons_append, List.cons.injEq] at hbase hp
      exact ⟨hbase.1.trans hp.1.symm, base, a, b, rest, hbase.2, hp.2, hab, hne⟩
  · rintro ⟨rfl, base, a, b, rest, rfl, rfl, hab, hne⟩
    exact ⟨n :: base, a, b, rest, rfl, rfl, hab, hne⟩

theorem beside_singleton {n m : Name} : Beside [n] (m :: p) ↔ n.text <+: m.text ∧ n ≠ m := by
  constructor
  · rintro ⟨base, a, b, rest, hbase, hp, hab, hne⟩
    cases base with
    | nil =>
      rw [List.nil_append, List.cons.injEq] at hbase hp
      rw [hbase.1, hp.1]
      exact ⟨hab, hne⟩
    | cons =>
      rw [List.cons_append, List.cons.injEq] at hbase
      exact absurd hbase.2 (by simp)
  · rintro ⟨hab, hne⟩
    exact ⟨[], n, m, p, rfl, rfl, hab, hne⟩

theorem beside_nil : ¬ Beside dir [] := by
  rintro ⟨base, a, b, rest, -, hp, -⟩
  simp at hp

theorem Beside.not_inside (h : Beside dir p) : ¬ Inside dir p := by
  obtain ⟨base, n, m, rest, rfl, rfl, -, hne⟩ := h
  intro hinside
  have hhead : [n] <+: m :: rest := (List.prefix_append_right_inj base).mp hinside
  exact hne (List.cons_prefix_cons.mp hhead).1

theorem namesPrefix_iff (hdir : dir ≠ []) : names dir <+: names p ↔ Inside dir p ∨ Beside dir p := by
  induction dir generalizing p with
  | nil => exact absurd rfl hdir
  | cons n dir ih =>
    cases p with
    | nil => simp [names, Inside, beside_nil]
    | cons m p =>
      have htail := names_nil_or p
      have hcons : ∀ (k : Name) (q : Path), names (k :: q) = '/' :: (k.text ++ names q) := fun _ _ => rfl
      have hname : n.text = m.text ↔ n = m := by
        cases n
        cases m
        simp
      rw [hcons, hcons, List.cons_prefix_cons]
      cases dir with
      | nil =>
        rw [show names [] = [] from rfl, List.append_nil, prefix_name_iff n.no_slash htail, beside_singleton, Inside,
          List.cons_prefix_cons]
        by_cases heq : n = m
        · simp [heq]
        · simp [heq]
      | cons k dir =>
        rw [hcons k dir, prefix_slash_iff n.no_slash m.no_slash htail, ← hcons k dir, ih (List.cons_ne_nil k dir), hname,
          beside_cons (List.cons_ne_nil k dir), Inside, Inside, List.cons_prefix_cons]
        tauto

/-- Whose text starts with the text of a directory. -/
theorem textPrefix_iff (dir p : Path) : dir.text <+: p.text ↔ Inside dir p ∨ Beside dir p := by
  unfold Path.text
  by_cases hdir : dir = []
  · have hslash : ∀ q : Path, q ≠ [] → ['/'] <+: names q := by
      intro q hq
      obtain ⟨n, rest, rfl⟩ := List.exists_cons_of_ne_nil hq
      exact ⟨n.text ++ names rest, rfl⟩
    rw [if_pos hdir, hdir]
    constructor
    · intro _
      exact .inl (List.nil_prefix)
    · intro _
      split
      · exact List.prefix_rfl
      · exact hslash p ‹_›
  · rw [if_neg hdir]
    by_cases hp : p = []
    · -- the root is below nothing, and its text is shorter than any other
      obtain ⟨n, rest, rfl⟩ := List.exists_cons_of_ne_nil hdir
      have hlong : ¬ names (n :: rest) <+: ['/'] := by
        rw [show names (n :: rest) = '/' :: (n.text ++ names rest) from rfl, List.cons_prefix_cons, List.prefix_nil]
        rintro ⟨-, hnil⟩
        exact n.ne_nil (List.append_eq_nil_iff.mp hnil).1
      rw [if_pos hp, hp]
      simp [hlong, Inside, beside_nil]
    · rw [if_neg hp, namesPrefix_iff hdir]

end PosixPath
