import GrowthMap.Desktop.Backups

/- A verified backup and the step it is for.

   `databaseManager` keeps its backups in the folder of the active database, and
   the update flow, the migration marker and the backend look for them in the
   folder of the application's own data. Where the two are one folder, a backup
   that was reported as verified is accepted by all of them, and the backend lets
   exactly one migration through; where they are not, none of them finds it. -/
namespace GrowthMap.Desktop

open Fallible

/-! Patterns -/

variable {ps : List (Char → Bool)} {cs : List Char} {s backupId : String} {host : Host} {disk : Disk}
  {dir workspace : Path} {m : Manifest} {createdAt : IsoTime.DateTime} {final : Meta} {saved : Evidence}

theorem fits_mono {qs : List (Char → Bool)} (h : List.Forall₂ (fun p q => ∀ c, p c → q c) ps qs)
    (hfit : fits ps cs) : fits qs cs := by
  induction h generalizing cs with
  | nil => exact hfit
  | cons hpq _ ih =>
    cases cs with
    | nil => cases hfit
    | cons c =>
      obtain ⟨hc, hcs⟩ := Bool.and_eq_true_iff.mp hfit
      exact Bool.and_eq_true_iff.mpr ⟨hpq c hc, ih hcs⟩

theorem fits_length (h : fits ps cs) : cs.length = ps.length := by
  induction ps generalizing cs with
  | nil =>
    cases cs with
    | nil => rfl
    | cons => cases h
  | cons p ps ih =>
    cases cs with
    | nil => cases h
    | cons => rw [List.length_cons, List.length_cons, ih (Bool.and_eq_true_iff.mp h).2]

/-- An engine accepts whatever one with smaller classes accepts. -/
theorem Dialect.backup_mono {d e : Dialect} (hdigit : ∀ c, d.digit c → e.digit c) (hsame : ∀ p c, d.same p c → e.same p c)
    (h : d.backup s) : e.backup s := by
  have hword : ∀ w, List.Forall₂ (fun p q => ∀ c, p c → q c) (d.word w) (e.word w) := by
    intro w
    unfold Dialect.word
    rw [List.forall₂_map_left_iff, List.forall₂_map_right_iff, List.forall₂_same]
    exact fun p _ c => hsame p c
  have hamong : ∀ w c, d.among w c → e.among w c := by
    intro w c hc
    obtain ⟨p, hp, hpc⟩ := List.any_eq_true.mp hc
    exact List.any_eq_true.mpr ⟨p, hp, hsame p c hpc⟩
  have hreplicate : ∀ n (p q : Char → Bool), (∀ c, p c → q c) →
      List.Forall₂ (fun p q => ∀ c, p c → q c) (List.replicate n p) (List.replicate n q) := by
    intro n p q hpq
    induction n with
    | zero => exact .nil
    | succ n ih => exact .cons hpq ih
  have hkind : ∀ kind, List.Forall₂ (fun p q => ∀ c, p c → q c) (d.backupOf kind) (e.backupOf kind) := by
    intro kind
    unfold Dialect.backupOf Dialect.uuid Dialect.digits Dialect.hex
    repeat' apply List.rel_append
    all_goals first
      | exact hword _
      | exact hreplicate _ _ _ hdigit
      | exact hreplicate _ _ _ (hamong _)
      | exact .cons (hamong _) (hreplicate _ _ _ (hamong _))
  rcases Bool.or_eq_true_iff.mp h with h | h
  · exact Bool.or_eq_true_iff.mpr (.inl (fits_mono (hkind _) h))
  · exact Bool.or_eq_true_iff.mpr (.inr (fits_mono (hkind _) h))

theorem python_backup (decimal : Char → Bool) (h : node.backup s) : (python decimal).backup s := by
  refine Dialect.backup_mono ?_ ?_ h
  · intro c hc
    exact Bool.or_eq_true_iff.mpr (.inl hc)
  · intro p c hpc
    exact Bool.or_eq_true_iff.mpr (.inl hpc)

theorem backup_length (h : node.backup s) : s.toList.length ≤ 100 := by
  rcases Bool.or_eq_true_iff.mp h with h | h
  · rw [fits_length h]
    decide
  · rw [fits_length h]
    decide

/-! Time stamps -/

/-- `toISOString` is read back. -/
theorem readTime_toISOString (d : IsoTime.DateTime) :
    readTime (toISOString d) = some ⟨d.year, d.month, d.day, d.hour, d.minute, d.second,
      IsoTime.digits 3 (d.microsecond / 1000), (0, 0)⟩ := by
  have hread : ∀ w n tail, n < 10 ^ w → IsoTime.readDigits w 0 (IsoTime.digits w n ++ tail) = some (n, tail) := by
    intro w n tail h
    rw [IsoTime.readDigits_digits w n 0 tail h, Nat.zero_mul, Nat.zero_add]
  have hyear : d.year < 10 ^ 4 := Nat.lt_of_le_of_lt d.year_le (by decide)
  have hmonth : d.month < 10 ^ 2 := Nat.lt_of_le_of_lt d.month_le (by decide)
  have hhour : d.hour < 10 ^ 2 := d.hour_lt.trans (by decide)
  have hminute : d.minute < 10 ^ 2 := d.minute_lt.trans (by decide)
  have hsecond : d.second < 10 ^ 2 := d.second_lt.trans (by decide)
  have hpoint : readPoint ('.' :: (IsoTime.digits 3 (d.microsecond / 1000) ++ ['Z'])) =
      some (IsoTime.digits 3 (d.microsecond / 1000), ['Z']) := by
    have hdigits := IsoTime.digits_isDigit 3 (d.microsecond / 1000)
    have htake : (IsoTime.digits 3 (d.microsecond / 1000) ++ ['Z']).takeWhile IsoTime.isDigit =
        IsoTime.digits 3 (d.microsecond / 1000) := by
      rw [List.takeWhile_append_of_pos hdigits]
      simp [show IsoTime.isDigit 'Z' = false from by decide]
    have hdrop : (IsoTime.digits 3 (d.microsecond / 1000) ++ ['Z']).dropWhile IsoTime.isDigit = ['Z'] := by
      rw [List.dropWhile_append_of_pos hdigits]
      rfl
    have hne : IsoTime.digits 3 (d.microsecond / 1000) ≠ [] := by
      intro h
      have := IsoTime.digits_length 3 (d.microsecond / 1000)
      rw [h] at this
      cases this
    rw [readPoint, htake, hdrop, if_neg hne]
  unfold readTime toISOString
  rw [String.toList_ofList, hread 4 _ _ hyear, Option.bind_eq_bind, Option.bind_some]
  simp only [IsoTime.expect_cons, Option.bind_eq_bind, Option.bind_some, hread 2 _ _ hmonth, hread 2 _ _ d.day_lt,
    hread 2 _ _ hhour, hread 2 _ _ hminute, hread 2 _ _ hsecond, hpoint]
  rfl

theorem validTimestamp_toISOString (d : IsoTime.DateTime) : validTimestamp (toISOString d) := by
  have hday : d.day ≤ 31 := by
    have h := d.day_le
    unfold IsoTime.daysInMonth at h
    split at h
    · split at h <;> omega
    · split at h <;> omega
  simp [validTimestamp, readTime_toISOString, TimeText.finite, d.month_pos, d.month_le, d.day_pos, hday, d.hour_lt,
    d.minute_lt, d.second_lt]

theorem timestamp_toISOString (d : IsoTime.DateTime) : timestamp (toISOString d) := by
  simp [timestamp, readTime_toISOString, d.year_pos, d.month_pos, d.month_le, d.day_pos, d.day_le, d.hour_lt, d.minute_lt,
    d.second_lt]

theorem toISOString_length (d : IsoTime.DateTime) : (toISOString d).toList.length = 24 := by
  simp [toISOString, IsoTime.digits_length]

/-! The disk -/

section Files

variable {disk : Disk} {dir dir' : Path} {name name' : String} {e : Entry}

@[simp] theorem Disk.get_put_self : (disk.put dir name e).get dir name = some e := by
  simp [Disk.get, Disk.put]

theorem Disk.get_put_ne (h : name' ≠ name) : (disk.put dir name e).get dir' name' = disk.get dir' name' := by
  by_cases hdir : dir' = dir
  · subst hdir
    simp [Disk.get, Disk.put, h]
  · simp [Disk.get, Disk.put, Function.update_of_ne hdir]

@[simp] theorem Disk.get_unlink_self : (disk.unlink dir name).get dir name = none := by
  simp [Disk.get, Disk.unlink]

theorem Disk.get_unlink_ne (h : name' ≠ name) : (disk.unlink dir name).get dir' name' = disk.get dir' name' := by
  by_cases hdir : dir' = dir
  · subst hdir
    simp [Disk.get, Disk.unlink, h]
  · simp [Disk.get, Disk.unlink, Function.update_of_ne hdir]

theorem Disk.get_unlink_cases (dir' : Path) (name' : String) :
    (disk.unlink dir name).get dir' name' = disk.get dir' name' ∨ (disk.unlink dir name).get dir' name' = none := by
  by_cases hdir : dir' = dir
  · subst hdir
    by_cases hname : name' = name
    · subst hname
      exact .inr Disk.get_unlink_self
    · exact .inl (Disk.get_unlink_ne hname)
  · exact .inl (by simp [Disk.get, Disk.unlink, Function.update_of_ne hdir])

end Files

theorem prune_get (host : Host) (retention : Nat) (disk : Disk) (dir dir' : Path) (name : String) :
    (prune host retention disk dir).get dir' name = disk.get dir' name ∨
      (prune host retention disk dir).get dir' name = none := by
  unfold prune
  generalize (validManaged host disk dir).drop retention = rows
  induction rows generalizing disk with
  | nil => exact .inl rfl
  | cons row rows ih =>
    simp only [List.foldl_cons]
    rcases ih ((disk.unlink (host.backups dir) row.2.file).unlink (host.backups dir) (row.2.file ++ ".json")) with h | h
    · rw [h]
      rcases @Disk.get_unlink_cases (disk.unlink (host.backups dir) row.2.file) (host.backups dir)
          (row.2.file ++ ".json") dir' name with h' | h'
      · rw [h']
        exact Disk.get_unlink_cases dir' name
      · exact .inr h'
    · exact .inr h

@[simp] theorem fromUTF8_toUTF8 (t : String) : String.fromUTF8? t.toUTF8 = some t := by
  unfold String.fromUTF8?
  exact dif_pos t.isValidUTF8

/-! The backup as it was reported -/

theorem manifestJson_plain (host : Host) (createdAt : IsoTime.DateTime) (name : String) (final : Meta) :
    (manifestJson host createdAt name final).plain ∧ (manifestJson host createdAt name final).distinct := by
  unfold manifestJson Host.durability
  split
  · exact ⟨rfl, by simp [Json.distinct, Json.distinctFields, Durability.json]⟩
  · exact ⟨rfl, by simp [Json.distinct, Json.distinctFields, Durability.json]⟩

/-- What a manifest that `verifyManagedBackup` accepts has passed. -/
structure Verified (host : Host) (disk : Disk) (dir : Path) (backupId : String) (m : Manifest) : Prop where
  named : node.backup backupId
  database : ∃ db, stableRead (disk.get (host.backups dir) backupId) = some db ∧ (db.size : Int) = m.size ∧
    host.sha256 db = m.sha256
  manifest : ∃ mf value, stableRead (disk.get (host.backups dir) (backupId ++ ".json")) = some mf ∧ mf.size ≤ mebibyte ∧
    Json.loads (host.text mf) = some value ∧ validateManifest host value backupId = .ok m

theorem verifyManagedBackup_ok {expected : Option Expected} :
    verifyManagedBackup host disk dir backupId expected = .ok m ↔
      Verified host disk dir backupId m ∧ ∀ x ∈ expected, m.size = x.size ∧ m.sha256 = x.sha256 := by
  unfold verifyManagedBackup
  rw [guard_eq_ok]
  constructor
  · rintro ⟨hnamed, h⟩
    split at h
    · next db mf hdb hmf =>
      rw [guard_eq_ok] at h
      obtain ⟨hlimit, h⟩ := h
      split at h
      · cases h
      · next value hvalue =>
        obtain ⟨m', hm', h⟩ := bind_ok h
        rw [guard_eq_ok] at h
        obtain ⟨hsame, h⟩ := h
        obtain ⟨hsize, hsha⟩ := not_or.mp hsame
        cases expected with
        | none =>
          cases h
          exact ⟨⟨by simpa using hnamed, ⟨db, hdb, not_not.mp hsize, not_not.mp hsha⟩,
            mf, value, hmf, Nat.not_lt.mp hlimit, hvalue, hm'⟩, fun x hx => by cases hx⟩
        | some =>
          obtain ⟨hx, h⟩ := guard_ok h
          cases h
          obtain ⟨hxsize, hxsha⟩ := not_or.mp hx
          refine ⟨⟨by simpa using hnamed, ⟨db, hdb, not_not.mp hsize, not_not.mp hsha⟩,
            mf, value, hmf, Nat.not_lt.mp hlimit, hvalue, hm'⟩, ?_⟩
          intro y hy
          cases hy
          exact ⟨not_not.mp hxsize, not_not.mp hxsha⟩
    · cases h
  · rintro ⟨⟨hnamed, ⟨db, hdb, hsize, hsha⟩, mf, value, hmf, hlimit, hvalue, hm⟩, hexpected⟩
    refine ⟨by simpa using hnamed, ?_⟩
    simp only [hdb, hmf, if_neg (Nat.not_lt.mpr hlimit), hvalue, hm, ok_bind, hsize, hsha]
    cases expected with
    | none => simp
    | some x =>
      obtain ⟨hxsize, hxsha⟩ := hexpected x rfl
      simp [hxsize, hxsha]

theorem Verified.transfer {disk' : Disk} {dir' : Path} (h : Verified host disk dir backupId m)
    (hdb : disk'.get (host.backups dir') backupId = disk.get (host.backups dir) backupId)
    (hmf : disk'.get (host.backups dir') (backupId ++ ".json") = disk.get (host.backups dir) (backupId ++ ".json")) :
    Verified host disk' dir' backupId m := by
  refine ⟨h.named, ?_, ?_⟩
  · rw [hdb]
    exact h.database
  · rw [hmf]
    exact h.manifest

theorem validateManifest_ok {fields : List (String × Json)}
    (h : validateManifest host (.obj fields) backupId = .ok m) :
    node.backup backupId ∧ isSha256 m.sha256 ∧ safeInteger m.size ∧ 100 ≤ m.size ∧ safeInteger m.projects ∧
      0 ≤ m.projects := by
  unfold validateManifest at h
  simp only at h
  split at h
  · obtain ⟨hchecks, h⟩ := guard_ok h
    cases h
    simp only [not_or, Bool.not_eq_false, ne_eq, not_not, Int.not_lt] at hchecks
    obtain ⟨-, -, -, -, -, hname, heq, hsafe, hsize, hsafe', hprojects, hsha, -⟩ := hchecks
    rw [heq] at hname
    exact ⟨hname, hsha, hsafe, hsize, hsafe', hprojects⟩
  · cases h

theorem validateManifest_written {name : String}
    (h : validateManifest host (manifestJson host createdAt name final) name = .ok m) :
    m = ⟨toISOString createdAt, name, final.size, final.projects, final.sha256⟩ := by
  simp only [validateManifest, manifestJson, List.lookup_cons, List.lookup_nil, String.reduceBEq, guard_eq_ok] at h
  exact (Except.ok.inj h.2).symm

/-- A backup that was reported: it is verified where the database is, and its manifest
is the one that was written for it. -/
structure Reported (host : Host) (workspace : Path) (disk : Disk) (saved : Evidence) : Prop where
  verified : ∃ m, Verified host disk workspace saved.backupId m ∧ m.size = saved.size ∧ m.sha256 = saved.sha256
  written : ∃ createdAt final, final.projects = saved.projects ∧
    disk.get (host.backups workspace) (saved.backupId ++ ".json") =
      some (textEntry (Json.stringify indentLayout (manifestJson host createdAt saved.backupId final)))

theorem mem_validManaged {row : String × Manifest}
    (h : row ∈ validManaged host disk dir) : Verified host disk dir row.1 row.2 := by
  have hlist : row ∈ listManagedBackups host disk dir := List.mem_of_mem_filter h
  rw [listManagedBackups, List.mem_mergeSort, List.mem_filterMap] at hlist
  obtain ⟨id, -, hrow⟩ := hlist
  cases hverify : verifyManagedBackup host disk dir id none with
  | error => simp [hverify, Except.toOption] at hrow
  | ok =>
    simp only [hverify, Except.toOption, Option.map_some, Option.some.injEq] at hrow
    subst hrow
    exact (verifyManagedBackup_ok.mp hverify).1

theorem migrationBackup_reported {retention : Nat} {after : Disk} {r : Readings}
    (h : migrationBackup host retention disk workspace r = .ok (after, saved)) :
    Reported host workspace after saved := by
  obtain ⟨⟨pruned, final⟩, hinternal, h⟩ := bind_ok h
  obtain ⟨evidence, hevidence, h⟩ := bind_ok h
  cases h
  unfold backupEvidence at hevidence
  split at hevidence
  · cases hevidence
  · next row hfind =>
    cases hevidence
    have hid : row.1 = backupName r := by simpa using List.find?_some hfind
    have hverified := mem_validManaged (List.mem_of_find?_eq_some hfind)
    rw [hid] at hverified
    refine ⟨⟨row.2, hverified, rfl, rfl⟩, r.written, final, rfl, ?_⟩
    unfold backupInternal at hinternal
    split at hinternal
    · cases hinternal
    · next copied _ hsnapshot =>
      obtain ⟨marked, hmanifest, hinternal⟩ := bind_ok hinternal
      cases hinternal
      obtain ⟨-, hmanifest⟩ := guard_ok hmanifest
      cases hmanifest
      -- the manifest still stands, so pruning left it as it was written
      obtain ⟨mf, value, hread, -⟩ := hverified.manifest
      rcases prune_get host retention (copied.put (host.backups workspace) (backupName r ++ ".json") (textEntry
        (Json.stringify indentLayout (manifestJson host r.written (backupName r) final)))) workspace
        (host.backups workspace) (backupName r ++ ".json") with hkept | hgone
      · rw [hkept, Disk.get_put_self]
      · rw [hgone] at hread
        cases hread

/-! The marker -/

theorem stringifyLayout_eq : stringifyLayout = Json.compact := by
  unfold stringifyLayout Json.compact
  congr 1
  exact quoteChar_eq

def MigrationMarker.fields (m : MigrationMarker) : List (String × Json) :=
  [("schemaVersion", .int 1), ("kind", .str "pre-migration-backup"), ("backupId", .str m.backupId),
    ("sha256", .str m.sha256), ("size", .int m.size), ("projects", .int m.projects),
    ("fromVersion", .str m.fromVersion), ("toVersion", .str m.toVersion), ("createdAt", .str m.createdAt)]

theorem canonicalDocument_marker (m : MigrationMarker) : canonicalDocument m.fields = some (canonicalMarker m) := by
  unfold canonicalMarker
  rw [stringifyLayout_eq]
  rfl

theorem readMarkerFields_marker (m : MigrationMarker) : readMarkerFields m.fields = some m := rfl

theorem marker_distinct (m : MigrationMarker) : m.json.plain ∧ m.json.distinct :=
  ⟨rfl, by simp [MigrationMarker.json, Json.distinct, Json.distinctFields]⟩

theorem quote_length (s : String) : (stringifyLayout.quote s).length ≤ 6 * s.toList.length + 2 := by
  have hchar : ∀ c, (quoteChar c).length ≤ 6 := by
    intro c
    unfold quoteChar
    repeat' split
    all_goals simp
  have hall : ∀ cs : List Char, (cs.flatMap quoteChar).length ≤ 6 * cs.length := by
    intro cs
    induction cs with
    | nil => simp
    | cons c =>
      have := hchar c
      simp only [List.flatMap_cons, List.length_append, List.length_cons]
      omega
  have := hall s.toList
  simp only [Json.Layout.quote, stringifyLayout, List.length_cons, List.length_append, List.length_nil]
  omega

theorem renderInt_length {n : Int} (h : safeInteger n) : (Json.renderInt n).length ≤ 17 := by
  have hbound : n.natAbs < 10 ^ 16 := by
    simp only [safeInteger, decide_eq_true_eq] at h
    omega
  have hdigits : (Nat.toDigits 10 n.natAbs).length ≤ 16 := (Nat.length_toDigits_le_iff (by omega) (by omega)).mpr hbound
  unfold Json.renderInt
  split
  · simp only [List.length_cons]
    omega
  · omega

theorem utf8_size_le (cs : List Char) : (String.ofList cs).toUTF8.size ≤ 4 * cs.length := by
  rw [String.toUTF8_eq_toByteArray, String.size_toByteArray]
  induction cs with
  | nil => simp
  | cons c cs =>
    have hc := c.utf8Size_le_four
    rw [show c :: cs = [c] ++ cs from rfl, String.ofList_append, String.utf8ByteSize_append,
      ← String.singleton_eq_ofList, String.utf8ByteSize_singleton]
    simp only [List.singleton_append, List.length_cons]
    omega

theorem marker_size {m : MigrationMarker} (hid : node.backup m.backupId) (hsha : isSha256 m.sha256) (hsize : safeInteger m.size)
    (hprojects : safeInteger m.projects) (hfrom : m.fromVersion.length ≤ 256) (hto : m.toVersion.length ≤ 256)
    (hat : m.createdAt.toList.length = 24) : (Json.stringify stringifyLayout m.json).toUTF8.size ≤ mebibyte := by
  have hbytes := utf8_size_le (Json.write stringifyLayout 0 m.json)
  have hlen : (Json.write stringifyLayout 0 m.json).length ≤ 10000 := by
    have h1 := quote_length m.backupId
    have h2 := backup_length hid
    have h3 := quote_length m.sha256
    have h4 : m.sha256.toList.length = 64 := fits_length hsha
    have h5 := renderInt_length hsize
    have h6 := renderInt_length hprojects
    have h7 := quote_length m.fromVersion
    have h8 := quote_length m.toVersion
    have h9 := quote_length m.createdAt
    have hkind : (stringifyLayout.quote "pre-migration-backup").length ≤ 30 := by decide
    have hone : (Json.renderInt 1).length ≤ 1 := by decide
    have hkeys : ∀ key ∈ markerKeys, (stringifyLayout.quote key).length ≤ 20 := by decide
    simp only [markerKeys, List.mem_cons, List.not_mem_nil, or_false, forall_eq_or_imp, forall_eq] at hkeys
    obtain ⟨k1, k2, k3, k4, k5, k6, k7, k8, k9⟩ := hkeys
    rw [String.length_toList] at h7 h8
    simp only [MigrationMarker.json, Json.write, Json.writeFields, List.length_cons, List.length_append, List.length_nil,
      show stringifyLayout.line = fun _ => [] from rfl, show stringifyLayout.colon = [] from rfl]
    omega
  unfold Json.stringify mebibyte
  omega

/-! The next step -/

/-- What a verified backup is for: the update flow takes it; the migration marker is
written on it, with the characters the backend computes the MAC over; and the
backend lets one migration through. -/
def AuthorisesNextStep (host : Host) (disk : Disk) (userData : Path) (saved : Evidence) (version offered token : String)
    (now : IsoTime.DateTime) : Prop :=
  (∃ disk', updateAvailable host disk userData saved version offered now = .ok disk') ∧
  ∃ marked mac, writeMigrationMarker host disk userData (migrationMarker saved version now) token = .ok (marked, mac) ∧
    (∃ fields, stableJson marked userData migrationMarkerName = some (.obj fields) ∧
      canonicalDocument fields = some (canonicalMarker (migrationMarker saved version now))) ∧
    ∃ used, authorized host (migrationEnv userData token mac) marked = (true, used) ∧
      authorized host (migrationEnv userData token mac) used = (false, used)

/-- The two files of a backup stand as they did when it was reported. -/
structure Kept (host : Host) (workspace : Path) (saved : Evidence) (disk later : Disk) : Prop where
  database : later.get (host.backups workspace) saved.backupId = disk.get (host.backups workspace) saved.backupId
  manifest : later.get (host.backups workspace) (saved.backupId ++ ".json") =
    disk.get (host.backups workspace) (saved.backupId ++ ".json")

theorem Reported.kept {later : Disk}
    (h : Reported host workspace disk saved) (hkept : Kept host workspace saved disk later) :
    Reported host workspace later saved := by
  obtain ⟨m, hm, hsize, hsha⟩ := h.verified
  obtain ⟨createdAt, final, hfinal, hmf⟩ := h.written
  exact ⟨⟨m, hm.transfer hkept.database hkept.manifest, hsize, hsha⟩, createdAt, final, hfinal, hkept.manifest.trans hmf⟩

/-- What the manifest of a reported backup says, read by either program. -/
theorem Reported.manifest (h : Reported host workspace disk saved) :
    node.backup saved.backupId ∧ isSha256 saved.sha256 ∧ safeInteger saved.size ∧ 100 ≤ saved.size ∧
      safeInteger saved.projects ∧
      ∃ createdAt final,
        stableJson disk (host.backups workspace) (saved.backupId ++ ".json") =
          some (manifestJson host createdAt saved.backupId final) ∧
        (final.size : Int) = saved.size ∧ final.projects = saved.projects ∧ final.sha256 = saved.sha256 := by
  obtain ⟨m, hm, hsize, hsha⟩ := h.verified
  obtain ⟨createdAt, final, hfinal, hfile⟩ := h.written
  obtain ⟨mf, value, hread, hlimit, hvalue, hvalid⟩ := hm.manifest
  obtain ⟨hplain, hdistinct⟩ := manifestJson_plain host createdAt saved.backupId final
  have hloads := Json.loads_stringify indentLayout hplain hdistinct
  simp only [hfile, stableRead, textEntry, Option.bind_eq_bind, Option.bind_some, and_self, if_true] at hread
  obtain rfl := Option.some.inj hread
  rw [Host.text, fromUTF8_toUTF8, Option.getD_some, hloads] at hvalue
  obtain rfl := Option.some.inj hvalue
  obtain ⟨hname, hsha', hsafe, hsize', hprojects, -⟩ := validateManifest_ok hvalid
  have heq := validateManifest_written hvalid
  subst heq
  rw [hsize] at hsafe hsize'
  rw [hsha] at hsha'
  rw [hfinal] at hprojects
  refine ⟨hname, hsha', hsafe, hsize', hprojects, createdAt, final, ?_, hsize, hfinal, hsha⟩
  simp only [stableJson, hfile, textEntry, stableRead, Option.bind_eq_bind, Option.bind_some, and_self, if_true,
    if_neg (Nat.not_lt.mpr hlimit), fromUTF8_toUTF8, hloads]

theorem equalsDurability_written (host : Host) : equalsDurability host.durability.json := by
  unfold Host.durability
  split <;> decide

theorem manifestAgrees_written
    (version : String) (now : IsoTime.DateTime) (hname : node.backup saved.backupId)
    (hsize : (final.size : Int) = saved.size) (hprojects : final.projects = saved.projects)
    (hsha : final.sha256 = saved.sha256) :
    manifestAgrees host (migrationMarker saved version now) (manifestJson host createdAt saved.backupId final) := by
  have hkeys : ∀ a b c d e f g : Json, hasExactly [("format", a), ("createdAt", b), ("file", c), ("size", d),
      ("projects", e), ("sha256", f), ("durability", g)] manifestKeys := by
    intros
    rfl
  simp only [manifestAgrees, manifestJson, List.lookup_cons, List.lookup_nil, String.reduceBEq, hkeys, python_backup host.decimal hname,
    timestamp_toISOString, equalsDurability_written, migrationMarker, hsize, hprojects, hsha, decide_true, Bool.and_self]

theorem marker_ne_backup (h : node.backup backupId) :
    backupId ≠ migrationMarkerName ∧ backupId ++ ".json" ≠ migrationMarkerName := by
  constructor
  · rintro rfl
    revert h
    decide
  · intro heq
    have hid : backupId = "migration-authorization" := by
      have hsplit : migrationMarkerName = "migration-authorization" ++ ".json" := by decide
      rw [hsplit] at heq
      exact String.append_left_inj ".json" |>.mp heq
    subst hid
    revert h
    decide

/-- With the marker on the disk and its MAC in the environment, the backend lets one
migration through. -/
theorem authorized_once {host : Host} {disk : Disk} {userData : Path} {saved : Evidence} {version token : String}
    {now : IsoTime.DateTime} (h : Reported host userData disk saved) (htoken : token ≠ "") (hversion : version.length ≤ 256) :
    let m := migrationMarker saved version now
    let marked := durableJson disk userData migrationMarkerName m.json
    let env := migrationEnv userData token (host.hmac token.toUTF8 (canonicalMarker m).toUTF8)
    stableJson marked userData migrationMarkerName = some m.json ∧
      authorized host env marked = (true, marked.unlink userData migrationMarkerName) ∧
      authorized host env (marked.unlink userData migrationMarkerName) =
        (false, marked.unlink userData migrationMarkerName) := by
  intro m marked env
  obtain ⟨hname, hsha, hsafe, hsize, hprojects, createdAt, final, hmanifest, hfsize, hfprojects, hfsha⟩ := h.manifest
  obtain ⟨v, hv, hvsize, hvsha⟩ := h.verified
  obtain ⟨db, hdb, hdbsize, hdbsha⟩ := hv.database
  obtain ⟨hne, hne'⟩ := marker_ne_backup hname
  have hlimit : (Json.stringify stringifyLayout m.json).toUTF8.size ≤ mebibyte :=
    marker_size hname hsha hsafe hprojects hversion hversion (toISOString_length now)
  obtain ⟨hplain, hdistinct⟩ := marker_distinct m
  have hmarker : stableJson marked userData migrationMarkerName = some (.obj m.fields) := by
    simp only [marked, durableJson, stableJson, Disk.get_put_self, textEntry, stableRead, Option.bind_eq_bind,
      Option.bind_some, and_self, if_true, if_neg (Nat.not_lt.mpr hlimit), fromUTF8_toUTF8,
      Json.loads_stringify stringifyLayout hplain hdistinct]
    rfl
  have hmanifest' : stableJson marked (host.backups userData) (saved.backupId ++ ".json") =
      some (manifestJson host createdAt saved.backupId final) := by
    rw [← hmanifest]
    unfold stableJson
    rw [show marked.get (host.backups userData) (saved.backupId ++ ".json") = _ from Disk.get_put_ne hne']
  have hdb' : stableRead (marked.get (host.backups userData) saved.backupId) = some db := by
    rw [show marked.get (host.backups userData) saved.backupId = _ from Disk.get_put_ne hne]
    exact hdb
  have hagrees : manifestAgrees host m (manifestJson host createdAt saved.backupId final) :=
    manifestAgrees_written version now hname hfsize hfprojects hfsha
  refine ⟨hmarker, ?_, ?_⟩
  · have hguard : ¬ (env.sessionToken = "" ∨ isSha256 env.markerMac = false) := by
      rintro (h | h)
      · exact htoken h
      · rw [show isSha256 env.markerMac = true from host.hmac_hex _ _] at h
        cases h
    have hfields : ¬ ((python host.decimal).backup m.backupId = false ∨ isSha256 m.sha256 = false ∨ m.size < 100 ∨
        m.projects < 0 ∨ timestamp m.createdAt = false) := by
      have hpython : (python host.decimal).backup m.backupId = true := python_backup host.decimal hname
      have hstamp : timestamp m.createdAt = true := timestamp_toISOString now
      have hsha' : isSha256 m.sha256 = true := hsha
      have hsize' : (100 : Int) ≤ m.size := hsize
      have hprojects' : (0 : Int) ≤ m.projects := Int.natCast_nonneg _
      simp only [hpython, hstamp, hsha', Bool.true_eq_false, false_or, or_false, not_or]
      omega
    have hbytes : ¬ ((db.size : Int) ≠ m.size ∨ host.sha256 db ≠ m.sha256) := by
      rw [hdbsize, hdbsha, hvsize, hvsha]
      rintro (h | h) <;> exact h rfl
    have hfile : ¬ env.markerFile ≠ (env.userData, migrationMarkerName) := fun h => h rfl
    have hkeys : ¬ m.fields.map Prod.fst ≠ markerKeys := fun h => h rfl
    have hmac : ¬ host.hmac env.sessionToken.toUTF8 (canonicalMarker m).toUTF8 ≠ env.markerMac := fun h => h rfl
    have hchecks : checks host env marked = some () := by
      unfold checks
      rw [if_neg hguard, if_neg hfile, show env.userData = userData from rfl, hmarker]
      simp only [Option.bind_eq_bind, Option.bind_some, asObject, canonicalDocument_marker, readMarkerFields_marker]
      rw [if_neg hkeys, if_neg hmac, if_neg hfields, show m.backupId = saved.backupId from rfl, hmanifest', hdb']
      simp only [Option.bind_some, hagrees, Bool.true_eq_false, if_false, if_neg hbytes]
    simp only [authorized, hchecks]
    rfl
  · have hgone : stableJson (marked.unlink userData migrationMarkerName) userData migrationMarkerName = none := by
      unfold stableJson
      rw [Disk.get_unlink_self]
      rfl
    have hchecks : checks host env (marked.unlink userData migrationMarkerName) = none := by
      unfold checks
      simp only [show env.userData = userData from rfl, hgone, Option.bind_eq_bind, Option.bind_none, ite_self]
    simp only [authorized, hchecks]

/-! A backup of a small database -/

def sampleTime : IsoTime.DateTime :=
  ⟨2026, 1, 2, 3, 4, 5, 678000, by decide, by decide, by decide, by decide, by decide, by decide, by decide, by decide,
    by decide, by decide⟩

def sampleBytes : ByteArray := ⟨sqliteHeader.data ++ Array.replicate 84 0⟩

def sampleSha : String := "485bd01eecba0fe7f1973f04260aff0a9d9bb19e68020acf0d6edb21f03f917a"

def sampleMac : String := "16784a2427334a036e5358932d17d675d5308bd43fe1550522b7456ee73528db"

def sampleToken : String := "abcdefghijklmnopqrstuvwxyzABCDEFGHIJKLMNOPQ"

/-- The hash and the MAC are those of the sample; other values stand for the rest. -/
def sampleHost : Host where
  backups dir := dir ++ ["backups"]
  windows := false
  sha256 b := if b = sampleBytes then sampleSha else sampleMac
  hmac _ _ := sampleMac
  hmac_hex _ _ := by decide +kernel
  connection b := if b = sampleBytes then some 1 else none
  copy b := b
  maxBytes := 2 * 1024 ^ 3
  lossy _ := ""
  nfc t := t
  notBefore _ _ := true
  decimal _ := false

def sampleReadings : Readings := ⟨sampleTime, sampleTime, "123e4567-e89b-12d3-a456-426614174000"⟩

def sampleSaved : Evidence := ⟨1, backupName sampleReadings, sampleSha, 100⟩

def sampleDisk (workspace : Path) : Disk := Disk.put (fun _ => ∅) workspace "growthmap.db" ⟨sampleBytes, true, 1⟩

def sampleFinal : Meta := ⟨1, 100, sampleSha⟩

def sampleAfter (workspace : Path) : Disk :=
  ((sampleDisk workspace).put (workspace ++ ["backups"]) (backupName sampleReadings) ⟨sampleBytes, true, 1⟩).put
    (workspace ++ ["backups"]) (backupName sampleReadings ++ ".json")
    (textEntry (Json.stringify indentLayout (manifestJson sampleHost sampleTime (backupName sampleReadings) sampleFinal)))

/-- What is evaluated of the sample's name, bytes and versions. -/
theorem sample_name :
    node.backup (backupName sampleReadings) ∧
      (backupName sampleReadings ≠ "growthmap.db" ∧ backupName sampleReadings ++ ".json" ≠ "growthmap.db") ∧
      manifestOf (backupName sampleReadings) = none ∧
      manifestOf (backupName sampleReadings ++ ".json") = some (backupName sampleReadings) ∧
      sampleBytes.size = 100 ∧ sampleBytes.extract 0 16 = sqliteHeader ∧ older "1.0.0" "1.1.0" ∧
      ¬ (safeInteger sampleSaved.size = false ∨ sampleSaved.size < 100 ∨ isSha256 sampleSaved.sha256 = false) := by
  decide +kernel

theorem sample_validate : sampleHost.validate (some ⟨sampleBytes, true, 1⟩) = some sampleFinal := by
  obtain ⟨-, -, -, -, hsize, hheader, -⟩ := sample_name
  simp [Host.validate, stableRead, hsize, hheader, sampleHost, sampleFinal]

def sampleManifest : Manifest := ⟨toISOString sampleTime, backupName sampleReadings, 100, 1, sampleSha⟩

theorem sample_names : backupName sampleReadings ≠ backupName sampleReadings ++ ".json" := by
  intro h
  simpa using congrArg String.length h

theorem sample_database (workspace : Path) :
    (sampleAfter workspace).get (sampleHost.backups workspace) (backupName sampleReadings) = some ⟨sampleBytes, true, 1⟩ := by
  show (sampleAfter workspace).get (workspace ++ ["backups"]) (backupName sampleReadings) = _
  rw [sampleAfter, Disk.get_put_ne sample_names, Disk.get_put_self]

theorem sample_verified (workspace : Path) :
    Verified sampleHost (sampleAfter workspace) workspace (backupName sampleReadings)
      sampleManifest := by
  have hlength : (Json.write indentLayout 0 (manifestJson sampleHost sampleTime (backupName sampleReadings)
      sampleFinal)).length ≤ 1000 := by decide +kernel
  have hbytes := utf8_size_le (Json.write indentLayout 0 (manifestJson sampleHost sampleTime (backupName sampleReadings)
    sampleFinal))
  obtain ⟨hplain, hdistinct⟩ := manifestJson_plain sampleHost sampleTime (backupName sampleReadings) sampleFinal
  have hloads := Json.loads_stringify indentLayout hplain hdistinct
  have hsha : sampleHost.sha256 sampleBytes = sampleSha := by simp [sampleHost]
  refine ⟨sample_name.1, ⟨sampleBytes, ?_, by decide +kernel, hsha⟩,
    (Json.stringify indentLayout (manifestJson sampleHost sampleTime (backupName sampleReadings) sampleFinal)).toUTF8,
    manifestJson sampleHost sampleTime (backupName sampleReadings) sampleFinal, ?_, ?_, ?_, ?_⟩
  · rw [sample_database]
    simp [stableRead]
  · show stableRead ((sampleAfter workspace).get (workspace ++ ["backups"]) (backupName sampleReadings ++ ".json")) = _
    rw [sampleAfter, Disk.get_put_self]
    simp [stableRead, textEntry]
  · unfold Json.stringify mebibyte
    omega
  · rw [Host.text, fromUTF8_toUTF8, Option.getD_some, hloads]
  · decide +kernel

theorem sample_snapshot (workspace : Path) :
    sampleHost.snapshot (sampleDisk workspace) ((sampleDisk workspace).get workspace "growthmap.db") workspace
      (backupName sampleReadings) = some ((sampleDisk workspace).put (workspace ++ ["backups"]) (backupName sampleReadings)
        ⟨sampleBytes, true, 1⟩, sampleFinal) := by
  have hfree : (sampleDisk workspace).get (sampleHost.backups workspace) (backupName sampleReadings) = none := by
    rw [show (sampleDisk workspace).get _ _ = _ from Disk.get_put_ne sample_name.2.1.1]
    rfl
  have hlive : (sampleDisk workspace).get workspace "growthmap.db" = some ⟨sampleBytes, true, 1⟩ := Disk.get_put_self
  simp only [Host.snapshot, hfree, Option.isSome_none, Bool.false_eq_true, if_false, hlive, sample_validate,
    Option.bind_eq_bind, Option.bind_some, stableRead, and_self, if_true, Option.pure_def]
  rw [show (⟨sampleHost.copy sampleBytes, true, 1⟩ : Entry) = ⟨sampleBytes, true, 1⟩ from rfl, sample_validate]
  rfl

theorem sample_listed (workspace : Path) :
    validManaged sampleHost (sampleAfter workspace) workspace = [(backupName sampleReadings, sampleManifest)] := by
  have hlisting : Folder.listing manifestOf (sampleAfter workspace (workspace ++ ["backups"])) = [backupName sampleReadings] := by
    obtain ⟨-, -, hplain, hjson, -⟩ := sample_name
    have hempty : sampleDisk workspace (workspace ++ ["backups"]) = ∅ := by
      simp [sampleDisk, Disk.put, Function.update]
    have hfolder : sampleAfter workspace (workspace ++ ["backups"]) = Folder.put (backupName sampleReadings ++ ".json")
        (textEntry (Json.stringify indentLayout (manifestJson sampleHost sampleTime (backupName sampleReadings) sampleFinal)))
        (Folder.put (backupName sampleReadings) ⟨sampleBytes, true, 1⟩ ∅) := by
      simp only [sampleAfter, Disk.put, Function.update_self, hempty]
    rw [hfolder, Folder.listing_put_fresh hjson, Folder.listing_put hplain]
    · rfl
    · rw [Folder.get_put_ne sample_names.symm]
      rfl
  have hverify : verifyManagedBackup sampleHost (sampleAfter workspace) workspace (backupName sampleReadings) none =
      .ok sampleManifest := verifyManagedBackup_ok.mpr ⟨sample_verified workspace, fun x hx => by cases hx⟩
  have hrows : listManagedBackups sampleHost (sampleAfter workspace) workspace = [(backupName sampleReadings, sampleManifest)] := by
    unfold listManagedBackups
    rw [show sampleHost.backups workspace = workspace ++ ["backups"] from rfl, hlisting]
    simp only [List.filterMap_cons, hverify, Except.toOption, Option.map_some, List.filterMap_nil, List.mergeSort_singleton]
  rw [validManaged, hrows]
  simp only [List.filter_cons, show sampleManifest.file = backupName sampleReadings from rfl, sample_database, sample_validate]
  rfl

theorem sample_reported (workspace : Path) :
    migrationBackup sampleHost 20 (sampleDisk workspace) workspace sampleReadings = .ok (sampleAfter workspace, sampleSaved) := by
  have hmanifest : writeManifest sampleHost ((sampleDisk workspace).put (workspace ++ ["backups"]) (backupName sampleReadings)
      ⟨sampleBytes, true, 1⟩) workspace sampleTime (backupName sampleReadings) sampleFinal = .ok (sampleAfter workspace) := by
    have hfree : (((sampleDisk workspace).put (workspace ++ ["backups"]) (backupName sampleReadings)
        ⟨sampleBytes, true, 1⟩).get (sampleHost.backups workspace) (backupName sampleReadings ++ ".json")) = none := by
      rw [Disk.get_put_ne sample_names.symm, show (sampleDisk workspace).get _ _ = _ from Disk.get_put_ne sample_name.2.1.2]
      rfl
    rw [writeManifest, hfree]
    rfl
  have hkept : prune sampleHost 20 (sampleAfter workspace) workspace = sampleAfter workspace := by
    rw [prune, sample_listed]
    rfl
  have hinternal : backupInternal sampleHost 20 (sampleDisk workspace) workspace sampleReadings =
      .ok (sampleAfter workspace, sampleFinal) := by
    rw [backupInternal, sample_snapshot]
    simp only [show sampleReadings.written = sampleTime from rfl, hmanifest, ok_bind, hkept]
    rfl
  have hevidence : backupEvidence sampleHost (sampleAfter workspace) workspace (backupName sampleReadings) sampleFinal =
      .ok sampleSaved := by
    rw [backupEvidence, sample_listed]
    simp only [List.find?_cons, beq_self_eq_true]
    rfl
  rw [migrationBackup, hinternal, ok_bind]
  simp only [hevidence, ok_bind]
  rfl

/-- A verified backup authorises the next step exactly where the workspace keeps its
backups in the folder the update flow and the backend look into, and the offered
version is a later one. -/
theorem verified_backup_authorises_iff {host : Host} {retention : Nat} {disk after later : Disk} {workspace userData : Path}
    {r : Readings} {saved : Evidence} (h : migrationBackup host retention disk workspace r = .ok (after, saved))
    (hkept : Kept host workspace saved after later)
    (hunique : host.backups workspace ≠ host.backups userData → later.get (host.backups userData) saved.backupId = none)
    {version token : String} (offered : String) (now : IsoTime.DateTime) (htoken : token ≠ "")
    (hversion : version.length ≤ 256) :
    AuthorisesNextStep host later userData saved version offered token now ↔
      host.backups workspace = host.backups userData ∧ older version offered := by
  have hreported := (migrationBackup_reported h).kept hkept
  constructor
  · rintro ⟨⟨disk', hupdate⟩, -⟩
    obtain ⟨-, hupdate⟩ := Fallible.guard_eq_ok.mp hupdate
    obtain ⟨m, hverify, hmarker⟩ := Fallible.bind_eq_ok.mp hupdate
    obtain ⟨hvalid, -⟩ := Fallible.guard_eq_ok.mp hmarker
    obtain ⟨db, hdb, -⟩ := (verifyManagedBackup_ok.mp hverify).1.database
    constructor
    · by_contra hne
      rw [hunique hne] at hdb
      cases hdb
    · simp only [validMarker, Bool.not_eq_false, Bool.and_eq_true] at hvalid
      exact hvalid.1.2
  · rintro ⟨hsame, holder⟩
    have hhere : Reported host userData later saved := by
      obtain ⟨m, hm, hsize, hsha⟩ := hreported.verified
      obtain ⟨createdAt, final, hfinal, hmf⟩ := hreported.written
      refine ⟨⟨m, hm.transfer (by rw [hsame]) (by rw [hsame]), hsize, hsha⟩, createdAt, final, hfinal, ?_⟩
      rw [← hsame]
      exact hmf
    obtain ⟨hname, hsha, hsafe, hsize, hprojects, -⟩ := hhere.manifest
    obtain ⟨m, hm, hmsize, hmsha⟩ := hhere.verified
    have hverify : verifyManagedBackup host later userData saved.backupId (some ⟨saved.size, saved.sha256⟩) = .ok m := by
      refine verifyManagedBackup_ok.mpr ⟨hm, ?_⟩
      intro x hx
      cases hx
      exact ⟨hmsize, hmsha⟩
    have hnow := validTimestamp_toISOString now
    obtain ⟨hstands, honce, hspent⟩ := @authorized_once _ _ _ _ _ _ now hhere htoken hversion
    refine ⟨⟨durableJson later userData updateMarkerName (updateMarkerJson "download-started" saved.backupId saved.sha256
      saved.size version offered (toISOString now)), ?_⟩, _, _, ?_, ⟨_, hstands, canonicalDocument_marker _⟩, _, honce, hspent⟩
    · unfold updateAvailable writeMarker validMarker
      rw [if_neg (by simp [hsafe, hsha]; omega), hverify, Fallible.ok_bind,
        if_neg (by simp [hname, hsha, hsafe, hsize, holder, hnow])]
    · unfold writeMigrationMarker
      rw [if_neg]
      · simp only [migrationMarker, hverify, Fallible.ok_bind]
        rfl
      · have hnonneg : (0 : Int) ≤ saved.projects := Int.natCast_nonneg _
        simp only [migrationMarker, hname, hsha, hsafe, hprojects, hnow, Bool.true_eq_false, false_or, or_false, not_or]
        omega


/-- In the default workspace. -/
theorem verified_backup_authorises_default :
    AuthorisesNextStep sampleHost (sampleAfter ["data"]) ["data"] sampleSaved "1.0.0" "1.1.0" sampleToken sampleTime :=
  (verified_backup_authorises_iff (sample_reported ["data"]) ⟨rfl, rfl⟩ (fun h => absurd rfl h) "1.1.0" sampleTime
    (by decide) (by decide)).mpr ⟨rfl, sample_name.2.2.2.2.2.2.1⟩

/-- In a chosen workspace the backup is reported as verified, and the update flow does
not find it. -/
theorem chosen_workspace_not_authorised :
    migrationBackup sampleHost 20 (sampleDisk ["work"]) ["work"] sampleReadings = .ok (sampleAfter ["work"], sampleSaved) ∧
      older "1.0.0" "1.1.0" ∧
      (∃ m, verifyManagedBackup sampleHost (sampleAfter ["work"]) ["work"] sampleSaved.backupId none = .ok m) ∧
      updateAvailable sampleHost (sampleAfter ["work"]) ["data"] sampleSaved "1.0.0" "1.1.0" sampleTime =
        .error "managed evidence must be a single-link regular file" := by
  refine ⟨sample_reported ["work"], sample_name.2.2.2.2.2.2.1, ⟨_, verifyManagedBackup_ok.mpr ⟨sample_verified ["work"], ?_⟩⟩, ?_⟩
  · intro x hx
    cases hx
  · have hmissing : (sampleAfter ["work"]).get (sampleHost.backups ["data"]) sampleSaved.backupId = none := by
      simp [sampleAfter, sampleDisk, Disk.get, Disk.put, Function.update, sampleHost, Folder.get]
    have hnamed : node.backup sampleSaved.backupId = true := sample_name.1
    have hverify : verifyManagedBackup sampleHost (sampleAfter ["work"]) ["data"] sampleSaved.backupId
        (some ⟨sampleSaved.size, sampleSaved.sha256⟩) = .error "managed evidence must be a single-link regular file" := by
      unfold verifyManagedBackup
      rw [if_neg (by simp [hnamed]), hmissing]
      rfl
    rw [updateAvailable, if_neg sample_name.2.2.2.2.2.2.2, hverify]
    rfl

end GrowthMap.Desktop
