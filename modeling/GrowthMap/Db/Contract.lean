import Mathlib.Data.List.Infix

/- The SQLite compatibility contract (db/schema_contract.py): the columns, the
   index and the triggers the application relies on, and the comparisons that
   tell whether a database has them.

   Texts are lists of characters. What Python's `str` methods and `re` take from
   the Unicode tables is a parameter, of which the code points below 128 are
   fixed; white space is the same list for `strip`, `split` and `\s`. -/
namespace GrowthMap.Db

/-- The Unicode tables behind `str.lower`, `str.upper` and `\w`. -/
structure Unicode where
  /-- `str.lower` of a character, except of the capital sigma -/
  lower : Char → List Char
  upper : Char → List Char
  isAlnum : Char → Bool
  /-- A capital sigma between these two texts ends a word. -/
  finalSigma : List Char → List Char → Bool
  lower_ascii : ∀ c, c.toNat < 128 → lower c = [c.toLower]
  isAlnum_ascii : ∀ c, c.toNat < 128 → isAlnum c = c.isAlphanum

def Unicode.ascii : Unicode where
  lower c := [c.toLower]
  upper c := [c.toUpper]
  isAlnum := Char.isAlphanum
  finalSigma _ _ := false
  lower_ascii _ _ := rfl
  isAlnum_ascii _ _ := rfl

/-- `str.isspace`, and `\s` of `re`. -/
def isSpace (c : Char) : Bool :=
  let n := c.toNat
  (9 ≤ n && n ≤ 13) || (28 ≤ n && n ≤ 32) || n == 0x85 || n == 0xa0 || n == 0x1680 || (0x2000 ≤ n && n ≤ 0x200a) ||
    n == 0x2028 || n == 0x2029 || n == 0x202f || n == 0x205f || n == 0x3000

def rstrip : List Char → List Char
  | [] => []
  | c :: s =>
    let r := rstrip s
    if r = [] ∧ isSpace c = true then [] else c :: r

/-- `str.strip` -/
def strip (s : List Char) : List Char := rstrip (s.dropWhile isSpace)

section Text

variable (U : Unicode)

def Unicode.lowerAfter (before : List Char) : List Char → List Char
  | [] => []
  | c :: s =>
    (if c = 'Σ' then [if U.finalSigma before s then 'ς' else 'σ'] else U.lower c) ++ Unicode.lowerAfter (c :: before) s

/-- `str.lower` -/
def Unicode.lowerText (s : List Char) : List Char := U.lowerAfter [] s

/-- `str.upper` -/
def Unicode.upperText (s : List Char) : List Char := s.flatMap U.upper

/-- `\w` -/
def Unicode.isWord (c : Char) : Bool := U.isAlnum c || c == '_'

end Text

/-! The contract -/

inductive Affinity where
  | text | numeric | integer | real | blob | json
  deriving DecidableEq, Repr

/-- A row of `PRAGMA table_info`. -/
structure Column where
  name : String
  type : String
  notNull : Bool
  default : Option String
  deriving DecidableEq, Repr

/-- An entry of `COLUMNS`: table, column, declared type, NOT NULL, normalised
default, and the statement that adds the column to a version 1 database. -/
structure ColumnSpec where
  table : String
  column : String
  type : String
  notNull : Bool
  default : Option String
  ddl : String
  deriving DecidableEq, Repr

/-- What `_s` makes: the affinities, NOT NULL flags and defaults a column may have. -/
structure OrmSpec where
  affinities : List Affinity
  nulls : List Bool
  defaults : List (Option String)
  deriving DecidableEq, Repr

def currentUserVersion : Int := 2

/-- `COLUMNS` -/
def columns : List ColumnSpec := [
  ⟨"nodes", "branch_id", "VARCHAR(36)", false, none,
    "ALTER TABLE nodes ADD COLUMN branch_id VARCHAR(36) REFERENCES branches(id)"⟩,
  ⟨"nodes", "workflow_status", "VARCHAR(20)", true, some "draft",
    "ALTER TABLE nodes ADD COLUMN workflow_status VARCHAR(20) NOT NULL DEFAULT 'draft'"⟩,
  ⟨"nodes", "file_paths", "JSON", false, some "[]",
    "ALTER TABLE nodes ADD COLUMN file_paths JSON DEFAULT '[]'"⟩,
  ⟨"provider_configs", "secret_env_key", "VARCHAR(128)", false, some "",
    "ALTER TABLE provider_configs ADD COLUMN secret_env_key VARCHAR(128) DEFAULT ''"⟩,
  ⟨"projects", "revision", "INTEGER", true, some "1",
    "ALTER TABLE projects ADD COLUMN revision INTEGER NOT NULL DEFAULT 1"⟩,
  ⟨"nodes", "revision", "INTEGER", true, some "1",
    "ALTER TABLE nodes ADD COLUMN revision INTEGER NOT NULL DEFAULT 1"⟩,
  ⟨"edges", "revision", "INTEGER", true, some "1",
    "ALTER TABLE edges ADD COLUMN revision INTEGER NOT NULL DEFAULT 1"⟩,
  ⟨"content_blocks", "revision", "INTEGER", true, some "1",
    "ALTER TABLE content_blocks ADD COLUMN revision INTEGER NOT NULL DEFAULT 1"⟩,
  ⟨"branches", "revision", "INTEGER", true, some "1",
    "ALTER TABLE branches ADD COLUMN revision INTEGER NOT NULL DEFAULT 1"⟩]

def indexSql : String :=
  "CREATE UNIQUE INDEX ux_edges_one_mainline_per_parent ON edges(from_node_id) WHERE relation_type = 'child_of' AND is_mainline = 1"

/-- `TRIGGERS` -/
def triggers : List (String × String) := [
  ("trg_edges_one_mainline_insert",
    "CREATE TRIGGER trg_edges_one_mainline_insert BEFORE INSERT ON edges WHEN NEW.relation_type = 'child_of' AND NEW.is_mainline = 1 BEGIN SELECT RAISE(ABORT, 'duplicate mainline for parent') WHERE EXISTS (SELECT 1 FROM edges WHERE from_node_id = NEW.from_node_id AND relation_type = 'child_of' AND is_mainline = 1); END"),
  ("trg_edges_one_mainline_update",
    "CREATE TRIGGER trg_edges_one_mainline_update BEFORE UPDATE OF from_node_id, relation_type, is_mainline ON edges WHEN NEW.relation_type = 'child_of' AND NEW.is_mainline = 1 BEGIN SELECT RAISE(ABORT, 'duplicate mainline for parent') WHERE EXISTS (SELECT 1 FROM edges WHERE from_node_id = NEW.from_node_id AND relation_type = 'child_of' AND is_mainline = 1 AND id != OLD.id); END"),
  ("trg_edges_normalize_null_insert",
    "CREATE TRIGGER trg_edges_normalize_null_insert AFTER INSERT ON edges WHEN NEW.weight IS NULL OR NEW.note IS NULL BEGIN UPDATE edges SET weight = COALESCE(weight, 1.0), note = COALESCE(note, '') WHERE id = NEW.id; END"),
  ("trg_edges_normalize_null_update",
    "CREATE TRIGGER trg_edges_normalize_null_update AFTER UPDATE OF weight, note ON edges WHEN NEW.weight IS NULL OR NEW.note IS NULL BEGIN UPDATE edges SET weight = COALESCE(weight, 1.0), note = COALESCE(note, '') WHERE id = NEW.id; END")]

def objectSql : List (String × String) := ("ux_edges_one_mainline_per_parent", indexSql) :: triggers

def rowRequiredNonNull : List (String × List String) := [
  ("projects", ["created_at", "updated_at"]),
  ("nodes", ["created_at", "updated_at"]),
  ("edges", ["created_at"]),
  ("content_blocks", ["created_at", "updated_at"]),
  ("branches", ["id", "project_id", "name", "description", "status", "created_at"])]

def ormReadColumns : List (String × List (String × OrmSpec)) := [
  ("projects", [
    ("id", ⟨[.text], [true], [none]⟩), ("name", ⟨[.text], [true], [none]⟩), ("description", ⟨[.text], [false], [none]⟩),
    ("goal", ⟨[.text], [false], [none]⟩), ("root_node_id", ⟨[.text], [false], [none]⟩), ("status", ⟨[.text], [true], [none]⟩),
    ("settings", ⟨[.json], [false], [none]⟩), ("created_at", ⟨[.text, .numeric], [true], [none]⟩),
    ("updated_at", ⟨[.text, .numeric], [true], [none]⟩), ("revision", ⟨[.integer], [true], [some "1"]⟩)]),
  ("nodes", [
    ("id", ⟨[.text], [true], [none]⟩), ("project_id", ⟨[.text], [true], [none]⟩), ("title", ⟨[.text], [true], [none]⟩),
    ("summary", ⟨[.text], [false], [none]⟩), ("node_type", ⟨[.text], [true], [none]⟩), ("status", ⟨[.text], [true], [none]⟩),
    ("maturity", ⟨[.text], [true], [none]⟩), ("priority", ⟨[.integer], [false], [none]⟩),
    ("confidence", ⟨[.real], [false], [none]⟩), ("description", ⟨[.text], [false], [none]⟩),
    ("rules_text", ⟨[.text], [false], [none]⟩), ("constraints_text", ⟨[.text], [false], [none]⟩),
    ("examples_text", ⟨[.text], [false], [none]⟩), ("questions_text", ⟨[.text], [false], [none]⟩),
    ("decision_notes", ⟨[.text], [false], [none]⟩), ("tags", ⟨[.json], [false], [none]⟩),
    ("workflow_status", ⟨[.text], [true], [some "draft"]⟩), ("file_paths", ⟨[.json], [false], [some "[]"]⟩),
    ("branch_id", ⟨[.text], [false], [none]⟩), ("created_by", ⟨[.text], [false], [none]⟩),
    ("last_edited_by", ⟨[.text], [false], [none]⟩), ("position_x", ⟨[.real], [false], [none]⟩),
    ("position_y", ⟨[.real], [false], [none]⟩), ("created_at", ⟨[.text, .numeric], [true], [none]⟩),
    ("updated_at", ⟨[.text, .numeric], [true], [none]⟩), ("revision", ⟨[.integer], [true], [some "1"]⟩)]),
  ("edges", [
    ("id", ⟨[.text], [true], [none]⟩), ("project_id", ⟨[.text], [true], [none]⟩), ("from_node_id", ⟨[.text], [true], [none]⟩),
    ("to_node_id", ⟨[.text], [true], [none]⟩), ("relation_type", ⟨[.text], [true], [none]⟩),
    ("weight", ⟨[.real], [false], [none, some "1.0", some "1"]⟩), ("note", ⟨[.text], [false], [none, some ""]⟩),
    ("is_mainline", ⟨[.integer, .numeric], [true], [none, some "0"]⟩), ("created_at", ⟨[.text, .numeric], [true], [none]⟩),
    ("revision", ⟨[.integer], [true], [some "1"]⟩)]),
  ("content_blocks", [
    ("id", ⟨[.text], [true], [none]⟩), ("node_id", ⟨[.text], [true], [none]⟩), ("block_type", ⟨[.text], [true], [none]⟩),
    ("content", ⟨[.json], [true], [none]⟩), ("order_index", ⟨[.integer], [true], [none]⟩),
    ("created_by", ⟨[.text], [false], [none]⟩), ("created_at", ⟨[.text, .numeric], [true], [none]⟩),
    ("updated_at", ⟨[.text, .numeric], [true], [none]⟩), ("revision", ⟨[.integer], [true], [some "1"]⟩)]),
  ("branches", [
    ("id", ⟨[.text], [false, true], [none]⟩), ("project_id", ⟨[.text], [false, true], [none]⟩),
    ("name", ⟨[.text], [false, true], [none]⟩), ("description", ⟨[.text], [false], [none]⟩),
    ("source_node_id", ⟨[.text], [false], [none]⟩), ("status", ⟨[.text], [false], [none]⟩),
    ("created_at", ⟨[.text, .numeric], [false], [none]⟩), ("revision", ⟨[.integer], [true], [some "1"]⟩)])]

/-! The comparisons of columns -/

section Columns

variable (U : Unicode)

def sqliteAffinity (declaredType : String) : Affinity :=
  let value := U.upperText declaredType.toList
  if "INT".toList <:+: value then .integer
  else if ["CHAR", "CLOB", "TEXT"].any (fun token => token.toList <:+: value) then .text
  else if "BLOB".toList <:+: value ∨ value = [] then .blob
  else if ["REAL", "FLOA", "DOUB"].any (fun token => token.toList <:+: value) then .real
  else if value = "JSON".toList then .json
  else .numeric

/-- `value[1:-1]` -/
def inner (value : List Char) : List Char := value.tail.dropLast

/-- The loop that takes outer parentheses off; every round takes two characters. -/
def unwrap : Nat → List Char → List Char
  | 0, value => value
  | fuel + 1, value =>
    if 2 ≤ value.length ∧ value.head? = some '(' ∧ value.getLast? = some ')' then unwrap fuel (strip (inner value)) else value

/-- `value.replace(q*2, q)` -/
def undouble (q : Char) : List Char → List Char
  | a :: b :: s => if a = q ∧ b = q then q :: undouble q s else a :: undouble q (b :: s)
  | s => s

def unquote (value : List Char) : List Char :=
  match value with
  | q :: _ :: _ => if (q = '\'' ∨ q = '"') ∧ value.getLast? = some q then undouble q (inner value) else value
  | _ => value

def normalizeDefault (value : Option String) : Option (List Char) :=
  value.map (fun v => unquote (unwrap v.length (strip v.toList)))

inductive Problem where
  | missing | incompatible
  deriving DecidableEq, Repr

def Problem.text : Problem → String
  | .missing => "missing"
  | .incompatible => "incompatible"

def ormColumnProblem (row : Option Column) (spec : OrmSpec) : Option Problem :=
  match row with
  | none => some .missing
  | some row =>
    if sqliteAffinity U row.type ∉ spec.affinities then some .incompatible
    else if row.notNull ∉ spec.nulls then some .incompatible
    else if normalizeDefault row.default ∈ spec.defaults.map (Option.map String.toList) then none
    else some .incompatible

def columnMatches (row : Column) (spec : ColumnSpec) : Bool :=
  U.upperText row.type.toList = spec.type.toList ∧ row.notNull = spec.notNull ∧
    normalizeDefault row.default = spec.default.map String.toList

end Columns

/-! The comparison of texts -/

section Sql

variable (U : Unicode)

/-- The characters that a letter of a pattern matches under `re.I`. -/
def matchesLetter (letter c : Char) : Bool :=
  c.toUpper == letter || (letter == 'I' && (c.toNat == 0x130 || c.toNat == 0x131)) || (letter == 'S' && c.toNat == 0x17f)

/-- What is left after the word, when the text starts with it. -/
def eatWord : List Char → List Char → Option (List Char)
  | [], s => some s
  | _ :: _, [] => none
  | w :: word, c :: s => if matchesLetter w c then eatWord word s else none

/-- `\s+` -/
def eatSpaces : List Char → Option (List Char)
  | c :: s => if isSpace c then some (s.dropWhile isSpace) else none
  | [] => none

/-- `IF\s+NOT\s+EXISTS` -/
def eatPhrase (s : List Char) : Option (List Char) := do
  let s ← eatWord "IF".toList s
  let s ← eatSpaces s
  let s ← eatWord "NOT".toList s
  let s ← eatSpaces s
  eatWord "EXISTS".toList s

/-- No `\w` here: with a `\w` on the other side, a `\b`. -/
def Unicode.edge (c : Option Char) : Bool := !c.any U.isWord

/-- `re.sub(r"\bIF\s+NOT\s+EXISTS\b", "", s, flags=re.I)`: so many characters are
still to be skipped, and this is the character before. -/
def cutAfter (skip : Nat) (prev : Option Char) : List Char → List Char
  | [] => []
  | c :: s =>
    match skip with
    | skip + 1 => cutAfter skip (some c) s
    | 0 =>
      match (if U.edge prev then eatPhrase (c :: s) else none) with
      | some rest => if U.edge rest.head? then cutAfter (s.length - rest.length) (some c) s else c :: cutAfter 0 (some c) s
      | none => c :: cutAfter 0 (some c) s

def cut (s : List Char) : List Char := cutAfter U 0 none s

/-- `re.sub(r"\s+", " ", s)` -/
def collapseAfter (space : Bool) : List Char → List Char
  | [] => []
  | c :: s => if isSpace c then (if space then collapseAfter true s else ' ' :: collapseAfter true s) else c :: collapseAfter false s

def collapse (s : List Char) : List Char := collapseAfter false s

/-- `[(),;=!]` -/
def isPunct (c : Char) : Bool := ['(', ')', ',', ';', '=', '!'].contains c

/-- `re.sub(r"\s*([(),;=!])\s*", r"\1", s)` -/
def tighten : List Char → List Char
  | [] => []
  | c :: s =>
    let r := tighten s
    if isSpace c then (if r.head?.any isPunct then r else c :: r)
    else if isPunct c then c :: r.dropWhile isSpace
    else c :: r

def normalizeSql (sql : Option String) : List Char :=
  tighten (U.lowerText (collapse (strip (cut U (sql.getD "").toList))))

end Sql

end GrowthMap.Db
