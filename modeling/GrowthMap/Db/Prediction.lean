import GrowthMap.Db.Migrations

/- The schema status predicts the migration.

   `schema_status` and `migrate_sqlite` describe the schema each in its own
   words: one lists what is wrong, the other stops at the first. Both come down to
   one predicate of the content, `Conforms`, as long as the migration has nothing
   to upgrade. Two differences vanish on what the validator accepts: the status
   does not ask what kind of object bears a name (the validator's lists leave one
   kind), and it looks for NULL only in columns that are there (the ORM contract
   asks for these columns). -/
namespace GrowthMap.Db

open Fallible

variable {U : Unicode} {sha256 : List Char → String} {maxBytes : Int} {fileDigest : List UInt8 → String}
  {execute : String → Content → Except String Content} {failAfter : Option String} {c : Content}

/-! The contract as a predicate -/

def ColumnsRead (U : Unicode) (c : Content) : Prop :=
  ∀ t ∈ ormReadColumns, ∀ x ∈ t.2, ormColumnProblem U (c.columnByName t.1 x.1) x.2 = none

def RowsFilled (c : Content) : Prop := ∀ t ∈ rowRequiredNonNull, ∀ column ∈ t.2, c.hasNull t.1 column = false

def ColumnsOwned (U : Unicode) (c : Content) : Prop :=
  ∀ spec ∈ columns, ∃ row, c.column spec.table spec.column = some row ∧ columnMatches U row spec = true

def ObjectsOwned (U : Unicode) (c : Content) : Prop :=
  ∀ x ∈ objectSql, ∃ o, c.object x.1 = some o ∧ normalizeSql U o.sql = normalizeSql U (some x.2)

/-- The database is at the current version and keeps the whole contract. -/
structure Conforms (U : Unicode) (c : Content) : Prop where
  version : c.userVersion = currentUserVersion
  read : ColumnsRead U c
  filled : RowsFilled c
  owned : ColumnsOwned U c
  objects : ObjectsOwned U c

/-- Each name of an expected object is borne by objects of the expected kind only. -/
def KindsKept (c : Content) : Prop := ∀ x ∈ expectedObjects, ∀ o, c.object x.1 = some o → o.type = x.2.1

/-! The status -/

theorem ormReasons_nil : ormReasons U c = [] ↔ ColumnsRead U c := by
  simp only [ormReasons, List.flatMap_eq_nil_iff, List.filterMap_eq_nil_iff, Option.map_eq_none_iff, ColumnsRead]

theorem required_read : ∀ t ∈ rowRequiredNonNull, ∀ column ∈ t.2,
    ∃ r ∈ ormReadColumns, r.1 = t.1 ∧ ∃ x ∈ r.2, x.1 = column := by decide +kernel

theorem ColumnsRead.present (h : ColumnsRead U c) {table column : String} {columns : List String}
    (ht : (table, columns) ∈ rowRequiredNonNull) (hcolumn : column ∈ columns) :
    column ∈ (c.tableInfo table).map Column.name := by
  obtain ⟨r, hr, hname, x, hx, rfl⟩ := required_read _ ht _ hcolumn
  have hproblem := h r hr x hx
  rw [hname] at hproblem
  cases hrow : c.columnByName table x.1 with
  | none =>
    rw [hrow] at hproblem
    cases hproblem
  | some row =>
    have hmem := List.mem_of_find?_eq_some hrow
    have hnamed : row.name = x.1 := by simpa using List.find?_some hrow
    exact List.mem_map.mpr ⟨row, List.mem_reverse.mp hmem, hnamed⟩

theorem nullReasons_nil (h : ColumnsRead U c) : nullReasons c = [] ↔ RowsFilled c := by
  simp only [nullReasons, List.flatMap_eq_nil_iff, List.filterMap_eq_nil_iff, ite_eq_right_iff, reduceCtorEq, imp_false, RowsFilled]
  constructor
  · intro hnil t ht column hcolumn
    have hnot := hnil t ht column hcolumn
    cases hnull : c.hasNull t.1 column with
    | false => rfl
    | true => exact absurd ⟨h.present ht hcolumn, hnull⟩ hnot
  · intro hfilled t ht column hcolumn hnull
    rw [hfilled t ht column hcolumn] at hnull
    exact absurd hnull.2 (by decide)

theorem columnReasons_nil : columnReasons U c = [] ↔ ColumnsOwned U c := by
  simp only [columnReasons, List.filterMap_eq_nil_iff, ColumnsOwned]
  refine forall₂_congr (fun spec _ => ?_)
  cases c.column spec.table spec.column with
  | none => simp
  | some => simp

theorem objectReasons_nil : objectReasons U c = [] ↔ ObjectsOwned U c := by
  simp only [objectReasons, List.filterMap_eq_nil_iff, ObjectsOwned]
  refine forall₂_congr (fun x _ => ?_)
  cases c.object x.1 with
  | none => simp
  | some => simp

theorem versionReasons_nil {v : Int} : versionReasons v = [] ↔ v = currentUserVersion := by
  unfold versionReasons
  split <;> simp_all

theorem reasons_nil :
    ormReasons U c ++ nullReasons c ++ columnReasons U c ++ objectReasons U c ++ versionReasons c.userVersion = [] ↔ Conforms U c := by
  simp only [List.append_eq_nil_iff, ormReasons_nil, columnReasons_nil, objectReasons_nil, versionReasons_nil]
  constructor
  · rintro ⟨⟨⟨⟨hread, hnull⟩, howned⟩, hobjects⟩, hversion⟩
    exact ⟨hversion, hread, (nullReasons_nil hread).mp hnull, howned, hobjects⟩
  · intro h
    exact ⟨⟨⟨⟨h.read, (nullReasons_nil h.read).mpr h.filled⟩, h.owned⟩, h.objects⟩, h.version⟩

/-! What the validator accepts -/

/-- The objects the validator looks at: all but SQLite's own indexes. -/
def Approved (U : Unicode) (sha256 : List Char → String) (c : Content) : Prop :=
  ∀ o ∈ c.schema, like "sqlite_autoindex_%".toList o.name.toList = false → approve U sha256 c o = .ok ()

theorem validateConnection_ok {v : Validated} (h : validateConnection U sha256 maxBytes c = .ok v) :
    v.userVersion = c.userVersion ∧ Approved U sha256 c := by
  obtain ⟨_, -, h⟩ := bind_ok h
  obtain ⟨⟨⟩, happrove, h⟩ := bind_ok h
  obtain ⟨_, -, h⟩ := bind_ok h
  obtain ⟨_, -, h⟩ := bind_ok h
  obtain ⟨_, -, h⟩ := bind_ok h
  obtain ⟨_, -, h⟩ := bind_ok h
  obtain ⟨_, -, h⟩ := bind_ok h
  obtain ⟨_, -, h⟩ := bind_ok h
  obtain ⟨_, -, h⟩ := bind_ok h
  cases h
  refine ⟨rfl, fun o ho hlike => ?_⟩
  exact forM_eq_ok.mp happrove o (List.mem_filter.mpr ⟨ho, by rw [hlike]; rfl⟩)

variable {s : Source} {m m' : Migration} {opened : Opened}

theorem openValidated_ok (h : openValidated U sha256 maxBytes fileDigest s = .ok opened) :
    opened.userVersion = s.content.userVersion ∧ Approved U sha256 s.content := by
  obtain ⟨_, -, h⟩ := bind_ok h
  obtain ⟨v, hv, h⟩ := bind_ok h
  cases h
  exact validateConnection_ok hv

theorem approve_ok {o : SchemaObject} (h : approve U sha256 c o = .ok ()) :
    (o.type = "table" ∧ o.name ∈ allowedTables) ∨ (o.type = "index" ∧ allowedIndexTables.lookup o.name ≠ none) ∨
      (o.type = "trigger" ∧ allowedTriggerTables.lookup o.name ≠ none) := by
  obtain ⟨_, -, h⟩ := bind_ok h
  split at h
  · rename_i htable
    exact .inl ⟨htable.1, htable.2.1⟩
  · rcases require_eq_ok.mp h with ⟨hkind, hlookup⟩ | ⟨hkind, hlookup⟩
    · exact .inr (.inl ⟨hkind, by simp [hlookup]⟩)
    · exact .inr (.inr ⟨hkind, by simp [hlookup]⟩)

theorem expected_kind : ∀ x ∈ expectedObjects,
    like "sqlite_autoindex_%".toList x.1.toList = false ∧ x.1 ∉ allowedTables ∧
      (allowedIndexTables.lookup x.1 ≠ none → x.2.1 = "index") ∧ (allowedTriggerTables.lookup x.1 ≠ none → x.2.1 = "trigger") := by
  decide +kernel

theorem Approved.kindsKept (h : Approved U sha256 c) : KindsKept c := by
  intro x hx o ho
  obtain ⟨hlike, htable, hindex, htrigger⟩ := expected_kind x hx
  have hmem := List.mem_of_find?_eq_some ho
  have hname : o.name = x.1 := by simpa using List.find?_some ho
  rw [← hname] at hlike htable hindex htrigger
  rcases approve_ok (h o hmem hlike) with ⟨-, hallowed⟩ | ⟨hkind, hlookup⟩ | ⟨hkind, hlookup⟩
  · exact absurd hallowed htable
  · rw [hkind, hindex hlookup]
  · rw [hkind, htrigger hlookup]

theorem schemaStatus_compatible (h : openValidated U sha256 maxBytes fileDigest s = .ok opened) :
    (∃ status, schemaStatus U sha256 maxBytes fileDigest (some s) = .ok status ∧ status.compatible = true) ↔ Conforms U s.content := by
  rw [← reasons_nil, ← (openValidated_ok h).1]
  simp only [schemaStatus, h, ok_bind, pure_eq_ok, exists_eq_left', List.isEmpty_iff]

/-! The migration -/

theorem validateColumn_eq_ok {spec : ColumnSpec} : validateColumn U c spec = .ok true ↔
    ∃ row, c.column spec.table spec.column = some row ∧ columnMatches U row spec = true := by
  cases hrow : c.column spec.table spec.column with
  | none => simp [validateColumn, hrow]
  | some => simp only [validateColumn, hrow, require_bind, pure_eq_ok, and_true, Option.some.injEq, exists_eq_left']

theorem migrateColumn_current {step : ColumnSpec × Nat} :
    migrateColumn U execute failAfter false step m = .ok m' ↔
      (∃ row, m.content.column step.1.table step.1.column = some row ∧ columnMatches U row step.1 = true) ∧ m' = m := by
  rw [← validateColumn_eq_ok]
  cases hpresent : validateColumn U m.content step.1 with
  | error => simp [migrateColumn, hpresent]
  | ok present =>
    cases present with
    | true => simp [migrateColumn, hpresent, require, eq_comm]
    | false => simp [migrateColumn, hpresent, require]

theorem validateObject_current {x : String × String × String}
    (hkind : ∀ o, m.content.object x.1 = some o → o.type = x.2.1) :
    validateObject U execute false x m = .ok m' ↔
      (∃ o, m.content.object x.1 = some o ∧ normalizeSql U o.sql = normalizeSql U (some x.2.2)) ∧ m' = m := by
  cases hobject : m.content.object x.1 with
  | none => simp [validateObject, hobject, require]
  | some o =>
    simp only [validateObject, hobject, require_bind, hkind o hobject, true_and, pure_eq_ok, Option.some.injEq,
      exists_eq_left', @eq_comm _ m']

theorem validateOrmReadContract_eq_ok : validateOrmReadContract U c = .ok () ↔ ColumnsRead U c := by
  simp only [validateOrmReadContract, forM_eq_ok, ColumnsRead]
  refine forall₂_congr (fun t _ => forall₂_congr (fun x _ => ?_))
  cases ormColumnProblem U (c.columnByName t.1 x.1) x.2 with
  | none => simp
  | some => simp

theorem validateRequiredRows_eq_ok : validateRequiredRows c = .ok () ↔ RowsFilled c := by
  simp only [validateRequiredRows, forM_eq_ok, require_eq_ok, RowsFilled]

theorem columns_checked :
    Fallible.each (migrateColumn U execute failAfter false) (columns.zipIdx 1) ⟨c, []⟩ = .ok m ↔
      ColumnsOwned U c ∧ m = ⟨c, []⟩ := by
  rw [each_checks (fun step _ m' => migrateColumn_current)]
  have hcolumns : columns = (columns.zipIdx 1).map Prod.fst := by decide
  conv_rhs => rw [ColumnsOwned, hcolumns, List.forall_mem_map]

theorem objects_checked (hkinds : KindsKept c) :
    Fallible.each (validateObject U execute false) expectedObjects ⟨c, []⟩ = .ok m ↔ ObjectsOwned U c ∧ m = ⟨c, []⟩ := by
  rw [each_checks (fun x hx m' => validateObject_current (hkinds x hx))]
  have hobjects : objectSql = expectedObjects.map (fun x => (x.1, x.2.2)) := rfl
  rw [ObjectsOwned, hobjects, List.forall_mem_map]

/-- At the current version the migration checks the contract and does nothing else. -/
theorem migrateSqlite_current (hkinds : KindsKept c) (hversion : c.userVersion = currentUserVersion) :
    migrateSqlite U execute failAfter c = .ok m ↔ Conforms U c ∧ m = ⟨c, []⟩ := by
  have hupgrading : decide (c.userVersion < currentUserVersion) = false := by simp [hversion]
  rw [migrateSqlite, hupgrading, require_bind]
  constructor
  · rintro ⟨-, h⟩
    obtain ⟨m₁, hcolumns, h⟩ := bind_ok h
    obtain ⟨howned, rfl⟩ := columns_checked.mp hcolumns
    obtain ⟨m₂, hobjects, h⟩ := bind_ok h
    obtain ⟨hkept, rfl⟩ := (objects_checked hkinds).mp hobjects
    obtain ⟨_, -, h⟩ := bind_ok h
    obtain ⟨⟨⟩, hread, h⟩ := bind_ok h
    obtain ⟨⟨⟩, hfilled, h⟩ := bind_ok h
    obtain ⟨-, h⟩ := require_bind.mp h
    cases h
    exact ⟨⟨hversion, validateOrmReadContract_eq_ok.mp hread, validateRequiredRows_eq_ok.mp hfilled, howned, hkept⟩, rfl⟩
  · rintro ⟨h, rfl⟩
    refine ⟨Int.le_of_eq hversion, ?_⟩
    refine bind_eq_ok.mpr ⟨_, columns_checked.mpr ⟨h.owned, rfl⟩, ?_⟩
    refine bind_eq_ok.mpr ⟨_, (objects_checked hkinds).mpr ⟨h.objects, rfl⟩, ?_⟩
    refine bind_eq_ok.mpr ⟨(), forM_eq_ok.mpr (fun spec hspec => ?_), ?_⟩
    · exact bind_eq_ok.mpr ⟨true, validateColumn_eq_ok.mpr (h.owned spec hspec), rfl⟩
    refine bind_eq_ok.mpr ⟨(), validateOrmReadContract_eq_ok.mpr h.read, ?_⟩
    refine bind_eq_ok.mpr ⟨(), validateRequiredRows_eq_ok.mpr h.filled, ?_⟩
    exact require_bind.mpr ⟨hversion, rfl⟩

theorem migrateSqlite_version (h : migrateSqlite U execute failAfter c = .ok m) :
    m.content.userVersion = currentUserVersion := by
  obtain ⟨-, h⟩ := require_bind.mp h
  obtain ⟨_, -, h⟩ := bind_ok h
  obtain ⟨_, -, h⟩ := bind_ok h
  obtain ⟨_, -, h⟩ := bind_ok h
  obtain ⟨_, -, h⟩ := bind_ok h
  obtain ⟨_, -, h⟩ := bind_ok h
  obtain ⟨hversion, h⟩ := require_bind.mp h
  cases h
  exact hversion

/-- The schema status of a database that the validator accepts is compatible
exactly when the migration of it succeeds, executes no statement that changes
the schema and leaves the version as it is. -/
theorem status_predicts_migration {s : Source} {opened : Opened}
    (h : openValidated U sha256 maxBytes fileDigest s = .ok opened) :
    (∃ status, schemaStatus U sha256 maxBytes fileDigest (some s) = .ok status ∧ status.compatible = true) ↔
      ∃ m, migrateSqlite U execute failAfter s.content = .ok m ∧ (∀ sql, Statement.ddl sql ∉ m.executed) ∧
        m.content.userVersion = s.content.userVersion := by
  have hkinds := (openValidated_ok h).2.kindsKept
  rw [schemaStatus_compatible h]
  constructor
  · intro hconforms
    exact ⟨⟨s.content, []⟩, (migrateSqlite_current hkinds hconforms.version).mpr ⟨hconforms, rfl⟩, by simp, rfl⟩
  · rintro ⟨m, hm, -, hversion⟩
    rw [migrateSqlite_version hm] at hversion
    exact ((migrateSqlite_current hkinds hversion.symm).mp hm).1

/-- The columns of a current database, each with the first declaration its contract allows. -/
def sampleColumns (table : String) : List Column :=
  let read := (ormReadColumns.lookup table).getD []
  let others := ((required.lookup table).getD []).filter (fun name => (read.lookup name).isNone)
  let owned := columns.filter (fun spec => spec.table = table)
  (read.filter (fun x => owned.all (fun spec => spec.column ≠ x.1))).map (fun (name, spec) => {
      name := name
      type := match spec.affinities.head? with | some .text => "TEXT" | some .integer => "INTEGER" | some .real => "REAL" | _ => "JSON"
      notNull := spec.nulls.contains true
      default := spec.defaults.head?.join }) ++
    others.map (fun name => { name := name, type := "TEXT", notNull := true, default := none }) ++
    owned.map (fun spec => { name := spec.column, type := spec.type, notNull := spec.notNull, default := spec.default })

def sampleSource : Source where
  network := false
  reparse := false
  symlink := false
  regular := true
  links := 1
  size := 100
  device := 1
  inode := 7
  bytes := ("SQLite format 3".toList ++ List.replicate 85 (Char.ofNat 0)).map (fun c => UInt8.ofNat c.toNat)
  content := {
    pageCount := 1
    pageSize := 4096
    schema := ("branches" :: required.map Prod.fst).map (fun name => ⟨"table", name, name, some ("CREATE TABLE " ++ name)⟩) ++
      expectedObjects.map (fun (name, kind, sql) => ⟨kind, name, "edges", some sql⟩)
    tempObjects := 0
    quickCheck := ["ok"]
    foreignKeyErrors := 0
    userVersion := 2
    tableInfo := sampleColumns
    rows := fun _ => [] }

def sampleDigest : List UInt8 → String := fun _ => "485bd01eecba0fe7f1973f04260aff0a9d9bb19e68020acf0d6edb21f03f917a"

theorem status_predicts_migration_sample : ∃ opened,
    openValidated Unicode.ascii (fun _ => "") 2147483648 sampleDigest sampleSource = .ok opened ∧
    ((∃ status, schemaStatus Unicode.ascii (fun _ => "") 2147483648 sampleDigest (some sampleSource) = .ok status ∧
        status.compatible = true) ↔
      ∃ m, migrateSqlite Unicode.ascii (fun _ c => .ok c) none sampleSource.content = .ok m ∧
        (∀ sql, Statement.ddl sql ∉ m.executed) ∧ m.content.userVersion = sampleSource.content.userVersion) := by
  have hok : (openValidated Unicode.ascii (fun _ => "") 2147483648 sampleDigest sampleSource).isOk = true := by decide +kernel
  cases h : openValidated Unicode.ascii (fun _ => "") 2147483648 sampleDigest sampleSource with
  | error e =>
    rw [h] at hok
    cases hok
  | ok opened => exact ⟨opened, rfl, status_predicts_migration h⟩

end GrowthMap.Db
