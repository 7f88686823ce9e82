import Mathlib.Data.List.Perm.Basic
import GrowthMap.Lib.HashChain
import GrowthMap.Payments.Reachable

/- The audit log as text: `_audit` and `verify_audit`.

   `Schema.audit` hashes a joined document symbolically. Here a row of `audit_events` is
   what its columns hold, and the hash is taken of the joined text, so that a row may be
   changed to any text at all. `audit_row` says that the service's log, read as text, is
   one this `audit` writes; `trust_books` that the trust check is the service's.

   `verify_audit` trusts the database first, against the published checkpoint, and only
   then walks the chain. A log that was tampered with never passes
   (`verify_audit_tamper_evident`): the walk fails on it, since a log that verifies and
   ends in a row of the original is a prefix of it (`verified_prefix`), and before that
   the trust check raises while the checkpoint is the one published over the original. -/
namespace GrowthMap.Payments.AuditLog

/-- A row of `audit_events`, without its random `event_id`. -/
structure Row where
  at_ : String
  actor : String
  operation : String
  objectId : String
  dataHash : String
  previousHash : String
  chainHash : String
  deriving DecidableEq, Repr

/-- `"0"*64` -/
def genesis : String := String.ofList (List.replicate 64 '0')

def Row.fields (r : Row) : List String := [r.at_, r.actor, r.operation, r.objectId, r.dataHash]

/-- What is hashed: `"|".join((prev,at,actor,operation,object_id,data_hash))`. -/
def message (prev : String) (r : Row) : String := "|".intercalate (prev :: r.fields)

variable (hash : String → String)

/-- `_audit`, with `data` the canonical JSON of its argument and `stamp` the clock's reading. -/
def audit (stamp actor operation obj data : String) (log : List Row) : List Row :=
  let prev := (log.getLast?.map Row.chainHash).getD genesis
  let dh := hash data
  let chain := hash ("|".intercalate [prev, stamp, actor, operation, obj, dh])
  log ++ [⟨stamp, actor, operation, obj, dh, prev, chain⟩]

/-- The logs `_audit` writes. -/
inductive Written : List Row → Prop where
  | nil : Written []
  | audit (stamp actor operation obj data : String) {log : List Row} (h : Written log) :
      Written (audit hash stamp actor operation obj data log)

/-- The loop of `verify_audit`. -/
def verifyRows : String → List Row → Bool
  | _, [] => true
  | prev, r :: rows =>
    if hash (message prev r) ≠ r.chainHash ∨ r.previousHash ≠ prev then false
    else verifyRows r.chainHash rows

/-! The database around the log -/

/-- What `verify_audit` runs on: the audit log and the other tables (`tables.audit` is
read by nothing), the checkpoint file, and the service's `_checkpoint_failed`. -/
structure Books where
  tables : Ledger
  log : List Row
  checkpoint : CheckpointFile
  checkpointFailed : Bool

variable (cfg : Config) (root : Ledger → List Row → String)

/-- `_checkpoint_document`, with `root` the digest of the snapshot of all the tables. -/
def Books.document (b : Books) : Checkpoint :=
  let count := rowCount { b.tables with audit := [] } + b.log.length
  { count, root := root b.tables b.log, schema := cfg.schemaDigest b.tables.schema,
    sequence := b.tables.sequence, version := 2,
    mac := issuanceMac cfg count (root b.tables b.log) (cfg.schemaDigest b.tables.schema)
      b.tables.sequence 2 }

/-- `_verify_or_initialize_checkpoint` against the document of the database. -/
def verifyAgainst (file : CheckpointFile) (expected : Checkpoint) : Except Err Unit :=
  match file with
  | .missing => .error (.runtime "external issuance checkpoint missing")
  | .unreadable => .error (.runtime "external issuance checkpoint invalid")
  | .other | .legacy _ => .error (.runtime "external issuance checkpoint authentication failed")
  | .issuance c =>
    if c.mac ≠ issuanceMac cfg c.count c.root c.schema c.sequence c.version then
      .error (.runtime "external issuance checkpoint authentication failed")
    else if c ≠ expected then
      .error (.runtime "external issuance checkpoint/database mismatch")
    else .ok ()

/-- `_assert_terminal_trust` -/
def Books.assertTerminalTrust (b : Books) : Except Err Unit :=
  if b.checkpointFailed then .error failClosed
  else match verifyAgainst cfg b.checkpoint (b.document cfg root) with
    | .error e => .error e
    | .ok () => verifyTerminalEvidence cfg b.tables

/-- `verify_audit` -/
def Books.verifyAudit (b : Books) : Except Err Bool :=
  match b.assertTerminalTrust cfg root with
  | .error e => .error e
  | .ok () => .ok (verifyRows hash genesis b.log)

/-! The service's log as text -/

variable {hash cfg root} (iso : Time → String)

/-- A row as the database holds it, with the clock's text for its instant. -/
def row (e : AuditEvent) : Row :=
  ⟨iso e.at_, e.actor, e.operation, e.objectId, e.dataHash, e.previousHash, e.chainHash⟩

/-- The configuration's digest is the hash of the text its documents stand for. -/
structure Speaks (cfg : Config) (hash : String → String) (iso : Time → String)
    (json : List (String × Value) → String) : Prop where
  data : ∀ d, cfg.sha256 (.obj "" d) = hash (json d)
  joined : ∀ prev now actor operation obj dh,
    cfg.sha256 (.joined [.str prev, .time now, .str actor, .str operation, .str obj, .str dh]) =
      hash ("|".intercalate [prev, iso now, actor, operation, obj, dh])

/-- The service's `_audit` writes this one's row. -/
theorem audit_row {json : List (String × Value) → String} (h : Speaks cfg hash iso json) (now : Time)
    (actor operation obj : String) (data : List (String × Value)) (l : Ledger) :
    (Payments.audit cfg now actor operation obj data l).audit.map (row iso) =
      audit hash (iso now) actor operation obj (json data) (l.audit.map (row iso)) := by
  unfold Payments.audit audit
  simp only [List.map_append, List.map_singleton, row, h.data, h.joined, List.getLast?_map,
    Option.map_map]
  cases l.audit.getLast? <;> rfl

/-- A ledger, its checkpoint file and its service, read as text. -/
def books (w : World) : Books :=
  { tables := { w.conn.current with audit := [] }, log := w.conn.current.audit.map (row iso),
    checkpoint := w.checkpoint, checkpointFailed := w.checkpointFailed }

/-- The snapshot counts the audit rows beside those of the other tables. -/
theorem rowCount_audit {l : Ledger} (h : l.schema.tables .auditEvents = true) :
    rowCount { l with audit := [] } + l.audit.length = rowCount l := by
  have hother : ∀ ts : List TableName, TableName.auditEvents ∉ ts →
      ((ts.filter l.schema.tables).map (Ledger.rowsIn { l with audit := [] })).sum =
        ((ts.filter l.schema.tables).map l.rowsIn).sum := by
    intro ts hts
    congr 1
    refine List.map_congr_left fun t ht => ?_
    have hne : t ≠ .auditEvents := fun h => hts (h ▸ List.mem_of_mem_filter ht)
    cases t <;> first | rfl | exact absurd rfl hne
  let before : List TableName := [.orders, .paymentProofs, .externalEvents, .settlementIntents]
  let after : List TableName := [.migrationLedger, .terminalCheckpointState, .revocationAssertions,
    .entitlementOutbox, .revocationOutbox, .settlementCandidates, .whopWebhookInbox]
  have hsum : ∀ m : Ledger, m.schema = l.schema → rowCount m =
      ((before.filter l.schema.tables).map m.rowsIn).sum + m.audit.length +
        ((after.filter l.schema.tables).map m.rowsIn).sum := by
    intro m hm
    have hsplit : snapshotTables = before ++ ([.auditEvents] ++ after) := rfl
    have hone : [TableName.auditEvents].filter l.schema.tables = [.auditEvents] := by simp [h]
    unfold rowCount
    rw [hsplit, hm, List.filter_append, List.filter_append, hone, List.map_append, List.map_append,
      List.sum_append, List.sum_append, List.map_singleton, List.sum_singleton, ← Nat.add_assoc]
    rfl
  rw [hsum { l with audit := [] } rfl, hsum l rfl, hother before (by decide), hother after (by decide),
    List.length_nil]
  omega

theorem trust_books {w : World} (hroot : ∀ l : Ledger,
      root { l with audit := [] } (l.audit.map (row iso)) = cfg.issuanceRoot l)
    (hschema : w.conn.current.schema.tables .auditEvents = true) :
    (books iso w).assertTerminalTrust cfg root = trust cfg w := by
  have hdoc : (books iso w).document cfg root = checkpointDocument cfg w.conn.current := by
    unfold Books.document checkpointDocument books
    simp only [hroot, List.length_map, rowCount_audit hschema]
  have hverify : verifyAgainst cfg w.checkpoint (checkpointDocument cfg w.conn.current) =
      verifyCheckpoint cfg w.checkpoint w.conn.current := by
    unfold verifyAgainst verifyCheckpoint
    cases w.checkpoint <;> rfl
  unfold Books.assertTerminalTrust trust
  rw [hdoc, ← hverify]
  rfl


/-! Joined texts -/

def Clean (s : String) : Prop := '|' ∉ s.toList

variable {ls : List String} {prev : String} {log log' : List Row}

theorem join_cons (p : String) (h : ls ≠ []) :
    ("|".intercalate (p :: ls)).toList = p.toList ++ '|' :: ("|".intercalate ls).toList := by
  rw [String.intercalate_cons_of_ne_nil h]
  simp

theorem takeWhile_clean {p : String} (h : Clean p) (rest : List Char) :
    (p.toList ++ '|' :: rest).takeWhile (· != '|') = p.toList := by
  rw [List.takeWhile_append_of_pos fun c hc => ?_]
  · simp
  · simp only [bne_iff_ne]
    exact fun heq => h (heq ▸ hc)

theorem count_join (h : ls ≠ []) :
    ("|".intercalate ls).toList.count '|' + 1 =
      ls.length + (ls.map fun s => s.toList.count '|').sum := by
  induction ls with
  | nil => exact absurd rfl h
  | cons s ls ih =>
    by_cases hls : ls = []
    · subst hls
      simp
      omega
    · rw [join_cons s hls, List.count_append, List.count_cons_self, List.map_cons, List.sum_cons,
        List.length_cons]
      have := ih hls
      omega

/-- Clean parts are read off their join, whatever parts of their number it is compared with. -/
theorem join_injective {ms : List String} (hlen : ls.length = ms.length) (hclean : ∀ s ∈ ls, Clean s)
    (h : "|".intercalate ls = "|".intercalate ms) : ls = ms := by
  by_cases hls : ls = []
  · subst hls
    exact (List.length_eq_zero_iff.mp hlen.symm).symm
  · have hms : ms ≠ [] := by
      intro hnil
      exact hls (List.length_eq_zero_iff.mp (by rw [hlen, hnil, List.length_nil]))
    have hzero : (ls.map fun s => s.toList.count '|').sum = 0 :=
      List.sum_eq_zero_iff_forall_eq_nat.mpr fun n hn => by
        obtain ⟨s, hs, rfl⟩ := List.mem_map.mp hn
        exact List.count_eq_zero.mpr (hclean s hs)
    -- as many parts and as many separators: the other parts have none either
    have hclean' : ∀ s ∈ ms, Clean s := by
      have h₁ := count_join hls
      have h₂ := count_join hms
      rw [h, hzero] at h₁
      have hsum : (ms.map fun s => s.toList.count '|').sum = 0 := by omega
      intro s hs
      exact List.count_eq_zero.mp
        (List.sum_eq_zero_iff_forall_eq_nat.mp hsum _ (List.mem_map_of_mem hs))
    have hsplit : ∀ ks : List String, ks ≠ [] → (∀ s ∈ ks, Clean s) →
        ("|".intercalate ks).toList.splitOn '|' = ks.map String.toList := by
      intro ks hks hc
      rw [String.toList_intercalate]
      refine List.splitOn_intercalate '|' (fun l hl => ?_) (by simpa using hks)
      obtain ⟨s, hs, rfl⟩ := List.mem_map.mp hl
      exact hc s hs
    have hmap : ls.map String.toList = ms.map String.toList := by
      rw [← hsplit ls hls hclean, h, hsplit ms hms hclean']
    exact List.map_injective_iff.mpr (fun _ _ => String.toList_injective) hmap

/-! The log as a hash chain -/

/-- The chain of the log's `chain_hash` column. -/
def chain (hash : String → String) : HashChain.Scheme Row String String :=
  { hash, message, stored := Row.chainHash, start := genesis }

/-- The fields that are hashed hold no separator. -/
def Row.Plain (r : Row) : Prop := ∀ s ∈ r.fields, Clean s

theorem readable (hclean : ∀ m, Clean (hash m)) : (chain hash).Readable Clean := by
  refine ⟨?_, hclean, ?_⟩
  · show '|' ∉ (String.ofList (List.replicate 64 '0')).toList
    rw [String.toList_ofList]
    decide
  · intro p p' r r' hp hp' h
    have hjoin := congrArg String.toList h
    change ("|".intercalate (p :: r.fields)).toList = ("|".intercalate (p' :: r'.fields)).toList at hjoin
    rw [join_cons p (by simp [Row.fields]), join_cons p' (by simp [Row.fields])] at hjoin
    apply String.toList_injective
    rw [← takeWhile_clean hp, hjoin, takeWhile_clean hp']

theorem same_fields {t r : Row} (h : (chain hash).Same t r) (ht : t.Plain) : t.fields = r.fields := by
  obtain ⟨-, p, hp⟩ := h
  have hjoin := congrArg String.toList hp
  change ("|".intercalate (p :: t.fields)).toList = ("|".intercalate (p :: r.fields)).toList at hjoin
  rw [join_cons p (by simp [Row.fields]), join_cons p (by simp [Row.fields])] at hjoin
  refine join_injective rfl ht (String.toList_injective ?_)
  exact List.cons_injective (List.append_cancel_left hjoin)

/-- `verify_audit`'s loop over a log and one more row. -/
theorem verifyRows_snoc (prev : String) (log : List Row) (r : Row) :
    verifyRows hash prev (log ++ [r]) = (verifyRows hash prev log &&
      decide (hash (message ((chain hash).tip prev log) r) = r.chainHash ∧
        r.previousHash = (chain hash).tip prev log)) := by
  induction log generalizing prev with
  | nil =>
    simp only [List.nil_append, verifyRows, HashChain.tip_nil, Bool.true_and]
    grind
  | cons s log ih =>
    simp only [List.cons_append, verifyRows]
    split
    · rfl
    · exact ih s.chainHash

theorem linked_of_verify (h : verifyRows hash prev log = true) :
    (chain hash).Linked prev log := by
  induction log generalizing prev with
  | nil => trivial
  | cons r log ih =>
    unfold verifyRows at h
    split at h
    · exact absurd h (by decide)
    · next hr =>
      push Not at hr
      exact ⟨hr.1, ih h⟩

theorem tip_eq (log : List Row) :
    (log.getLast?.map Row.chainHash).getD genesis = (chain hash).tip genesis log := by
  rcases List.eq_nil_or_concat log with rfl | ⟨log, r, rfl⟩
  · rfl
  · rw [List.concat_eq_append, HashChain.tip_snoc, List.getLast?_concat]
    rfl

/-- What `_audit` writes verifies. -/
theorem written_verifies (h : Written hash log) : verifyRows hash genesis log = true := by
  induction h with
  | nil => rfl
  | audit stamp actor operation obj data h ih =>
    unfold audit
    simp only [verifyRows_snoc, ih, @tip_eq hash]
    simp [message, Row.fields]

theorem previous_eq {ts ps : List Row} (ht : verifyRows hash prev ts = true)
    (hp : verifyRows hash prev ps = true) (h : List.Forall₂ (chain hash).Same ts ps) :
    List.Forall₂ (fun t p => t.previousHash = p.previousHash) ts ps := by
  induction h generalizing prev with
  | nil => exact .nil
  | @cons t p ts ps hs _ ih =>
    have hc : t.chainHash = p.chainHash := hs.1
    unfold verifyRows at ht hp
    split at ht
    · exact absurd ht (by decide)
    split at hp
    · exact absurd hp (by decide)
    · next ht' hp' =>
      push Not at ht' hp'
      exact .cons (ht'.2.trans hp'.2.symm) (ih ht (by rwa [hc]))

/-! Tampering -/

/-- A row as it was, or with other plain fields under the hashes it had. -/
def Edited (r t : Row) : Prop :=
  t.previousHash = r.previousHash ∧ t.chainHash = r.chainHash ∧ (t = r ∨ t.Plain)

/-- The logs tampering makes of a log, no chain hash recomputed. `mixed` is any number of
edits, removals, insertions of plain rows and moves that leave a row of the log, edited or
not, at the end; what is left must not be a prefix of the log. -/
inductive Tampered (log : List Row) : List Row → Prop where
  | changed {log' : List Row} (h : List.Forall₂ Edited log log') (hne : log' ≠ log) : Tampered log log'
  | deleted {log' : List Row} (h : log'.Sublist log) (hne : ¬ log' <+: log) : Tampered log log'
  | inserted {before after : List Row} (r : Row) (h : log = before ++ after) (hafter : after ≠ []) :
      Tampered log (before ++ r :: after)
  | reordered {log' : List Row} (h : log'.Perm log) (hne : log' ≠ log) : Tampered log log'
  | mixed {log' : List Row} (hlast : ∃ t ∈ log'.getLast?, ∃ r ∈ log, t.chainHash = r.chainHash)
      (hplain : ∀ t ∈ log', t.Plain ∨ t ∈ log) (hne : ¬ log' <+: log) : Tampered log log'

/-- The messages hashed in checking either log do not collide, and none has sixty-four
zeros for its digest. -/
def Resists (hash : String → String) (log log' : List Row) : Prop :=
  (chain hash).Resists
    {m | m ∈ (chain hash).messages genesis log ∨ m ∈ (chain hash).messages genesis log'}

/-- A log that verifies, ends in a row with a chain hash of `log`, and holds plain rows and
rows of `log` only, is a prefix of it. -/
theorem verified_prefix (hclean : ∀ m, Clean (hash m))
    (hlog : verifyRows hash genesis log = true) (h : verifyRows hash genesis log' = true)
    (hres : Resists hash log log')
    (hlast : ∃ t ∈ log'.getLast?, ∃ r ∈ log, t.chainHash = r.chainHash)
    (hplain : ∀ t ∈ log', t.Plain ∨ t ∈ log) : log' <+: log := by
  have hmem : (chain hash).tip genesis log' ∈ log.map (chain hash).stored := by
    obtain ⟨t, ht, r, hr, hc⟩ := hlast
    rw [← tip_eq, Option.mem_def.mp ht]
    exact List.mem_map.mpr ⟨r, hr, hc.symm⟩
  have hlinked := linked_of_verify hlog
  have hin : ∀ m ∈ (chain hash).messages genesis log,
      m ∈ {m | m ∈ (chain hash).messages genesis log ∨ m ∈ (chain hash).messages genesis log'} :=
    fun m hm => .inl hm
  obtain ⟨ps, hps, hsame⟩ := HashChain.prefix_of_tip (readable hclean) hres
    (linked_of_verify h) hlinked (fun m hm => .inr hm) hin hmem
  have hinj := List.inj_on_of_nodup_map
    (HashChain.stored_nodup (readable hclean) hres hlinked hin)
  -- a prefix of a log that verifies does so too, and fixes the previous hashes
  have hps' : verifyRows hash genesis ps = true := by
    obtain ⟨rest, rfl⟩ := hps
    clear hsame hmem hlinked hin hinj hlast hplain hres h
    induction rest using List.reverseRec with
    | nil => rwa [List.append_nil] at hlog
    | append_singleton rest r ih =>
      rw [← List.append_assoc, verifyRows_snoc, Bool.and_eq_true] at hlog
      exact ih hlog.1
  have hprev := previous_eq h hps' hsame
  have heq : log' = ps := by
    refine List.forall₂_eq_eq_eq ▸ (List.forall₂_iff_get.mpr ⟨hsame.length_eq, ?_⟩)
    intro i h₁ h₂
    have hrow := hsame.get h₁ h₂
    rcases hplain _ (List.get_mem _ ⟨i, h₁⟩) with ht | ht
    · have hfields := same_fields hrow ht
      have hc : (log'.get ⟨i, h₁⟩).chainHash = (ps.get ⟨i, h₂⟩).chainHash := hrow.1
      have hp := hprev.get h₁ h₂
      generalize log'.get ⟨i, h₁⟩ = t at hfields hc hp ⊢
      generalize ps.get ⟨i, h₂⟩ = r at hfields hc hp ⊢
      obtain ⟨a, b, c, d, e, f, g⟩ := t
      obtain ⟨a', b', c', d', e', f', g'⟩ := r
      simp only [Row.fields, List.cons.injEq, and_true] at hfields hc hp
      simp only [Row.mk.injEq]
      exact ⟨hfields.1, hfields.2.1, hfields.2.2.1, hfields.2.2.2.1, hfields.2.2.2.2, hp, hc⟩
    · exact hinj ht (hps.subset (List.get_mem _ _)) hrow.1
  rwa [heq]

theorem edited_of_mem (h : List.Forall₂ Edited log log') {t : Row} (ht : t ∈ log') :
    ∃ r ∈ log, Edited r t := by
  induction h with
  | nil => exact absurd ht List.not_mem_nil
  | @cons r t' rs ts hr _ ih =>
    rcases List.mem_cons.mp ht with rfl | ht
    · exact ⟨r, List.mem_cons_self, hr⟩
    · obtain ⟨r', hr', he⟩ := ih ht
      exact ⟨r', List.mem_cons_of_mem _ hr', he⟩

/-- A log whose rows keep chain hashes of `log` ends in one of them. -/
theorem last_known (hne : log' ≠ []) (h : ∀ t ∈ log', ∃ r ∈ log, t.chainHash = r.chainHash) :
    ∃ t ∈ log'.getLast?, ∃ r ∈ log, t.chainHash = r.chainHash :=
  ⟨log'.getLast hne, List.getLast?_eq_some_getLast hne, h _ (List.getLast_mem hne)⟩

/-- A log that was tampered with does not verify. -/
theorem tampered_fails (hclean : ∀ m, Clean (hash m))
    (hlog : verifyRows hash genesis log = true) (h : Tampered log log') (hres : Resists hash log log') :
    verifyRows hash genesis log' = false := by
  by_contra hv
  rw [Bool.not_eq_false] at hv
  have hkept := verified_prefix hclean hlog hv hres
  -- edits, removals and moves make a log of its own rows, plain where they are new
  have hown : log' ≠ [] → (∀ t ∈ log', ∃ r ∈ log, t.chainHash = r.chainHash) →
      (∀ t ∈ log', t.Plain ∨ t ∈ log) → log' <+: log :=
    fun hne hmem hplain => hkept (last_known hne hmem) hplain
  cases h with
  | changed h hne =>
    have hnil : log' ≠ [] := by
      intro hnil
      exact hne (hnil.trans (List.length_eq_zero_iff.mp (by rw [h.length_eq, hnil, List.length_nil])).symm)
    refine hne ((hown hnil ?_ ?_).eq_of_length h.length_eq.symm)
    · intro t ht
      obtain ⟨r, hr, he⟩ := edited_of_mem h ht
      exact ⟨r, hr, he.2.1⟩
    · intro t ht
      obtain ⟨r, hr, he⟩ := edited_of_mem h ht
      rcases he.2.2 with rfl | hp
      · exact .inr hr
      · exact .inl hp
  | deleted h hne =>
    have hnil : log' ≠ [] := by
      intro hnil
      exact hne (hnil ▸ List.nil_prefix)
    exact hne (hown hnil (fun t ht => ⟨t, h.subset ht, rfl⟩) (fun t ht => .inr (h.subset ht)))
  | @inserted before after r h hafter =>
    -- the last row is the log's, so the two logs would be as long as each other
    subst h
    have htip : (chain hash).tip genesis (before ++ r :: after) =
        (chain hash).tip genesis (before ++ after) := by
      rcases List.eq_nil_or_concat after with rfl | ⟨rows, a, rfl⟩
      · exact absurd rfl hafter
      · rw [List.concat_eq_append, ← List.cons_append, ← List.append_assoc, ← List.append_assoc,
          HashChain.tip_snoc, HashChain.tip_snoc]
    have hsame := HashChain.same_of_tip (readable hclean) hres (linked_of_verify hv)
      (linked_of_verify hlog) (fun m hm => .inr hm) (fun m hm => .inl hm) htip
    have hlen := hsame.length_eq
    simp only [List.length_append, List.length_cons] at hlen
    omega
  | reordered h hne =>
    have hnil : log' ≠ [] := by
      rintro rfl
      exact hne (List.perm_nil.mp h.symm).symm
    exact hne ((hown hnil (fun t ht => ⟨t, h.subset ht, rfl⟩) (fun t ht => .inr (h.subset ht))).eq_of_length
      h.length_eq)
  | mixed hlast hplain hne => exact absurd (hkept hlast hplain) hne

/-! The claim about the service -/

theorem trust_published {b : Books} (h : b.checkpoint = .issuance (b.document cfg root))
    (hopen : b.checkpointFailed = false) :
    b.assertTerminalTrust cfg root = verifyTerminalEvidence cfg b.tables := by
  unfold Books.assertTerminalTrust
  rw [hopen, h]
  simp [verifyAgainst, Books.document]

theorem trust_mismatch {b : Books} (b' : Books) (h : b.assertTerminalTrust cfg root = .ok ())
    (hfile : b'.checkpoint = b.checkpoint) (hopen : b'.checkpointFailed = false)
    (hroot : root b'.tables b'.log ≠ root b.tables b.log) :
    b'.assertTerminalTrust cfg root =
      .error (.runtime "external issuance checkpoint/database mismatch") := by
  unfold Books.assertTerminalTrust at h ⊢
  rw [hopen, hfile]
  simp only [Bool.false_eq_true, if_false]
  split at h
  · exact absurd h (by simp)
  · cases hc : b.checkpoint with
    | missing | unreadable | other | legacy => simp [hc, verifyAgainst] at h
    | issuance =>
      rw [hc] at h
      simp only [verifyAgainst] at h ⊢
      split_ifs at h with hmac heq
      rw [if_neg hmac, if_pos]
      rintro rfl
      rw [not_ne_iff] at heq
      exact hroot (congrArg Checkpoint.root heq)

/-- **Tampering never passes.** While the database is trusted, a log `_audit` wrote
verifies. A log tampered with verifies in no database: where the trust check passes,
`verify_audit` answers false, and where it raises, so does `verify_audit`; with the
checkpoint published over the original log it raises. -/
theorem verify_audit_tamper_evident (cfg : Config) (root : Ledger → List Row → String)
    (hash : String → String) (hclean : ∀ m, Clean (hash m)) (b : Books) (hlog : Written hash b.log) :
    (b.assertTerminalTrust cfg root = .ok () → b.verifyAudit hash cfg root = .ok true) ∧
    ∀ b' : Books, Tampered b.log b'.log → Resists hash b.log b'.log →
      (b'.assertTerminalTrust cfg root = .ok () → b'.verifyAudit hash cfg root = .ok false) ∧
      (∀ e, b'.assertTerminalTrust cfg root = .error e → b'.verifyAudit hash cfg root = .error e) ∧
      (b.assertTerminalTrust cfg root = .ok () → b'.checkpoint = b.checkpoint →
        b'.checkpointFailed = false → root b'.tables b'.log ≠ root b.tables b.log →
        b'.verifyAudit hash cfg root =
          .error (.runtime "external issuance checkpoint/database mismatch")) := by
  have hverifies := written_verifies hlog
  refine ⟨?_, ?_⟩
  · intro htrust
    unfold Books.verifyAudit
    rw [htrust, hverifies]
  · intro b' htampered hres
    refine ⟨?_, ?_, ?_⟩
    · intro htrust
      unfold Books.verifyAudit
      rw [htrust, tampered_fails hclean hverifies htampered hres]
    · intro e he
      unfold Books.verifyAudit
      rw [he]
    · intro htrust hfile hopen hroot
      unfold Books.verifyAudit
      rw [trust_mismatch _ htrust hfile hopen hroot]

/-! One order's row, and the buyer written over in it -/

namespace Sample

def created : Row :=
  { at_ := "2026-05-01T00:00:00+00:00", actor := "buyer", operation := "order.created", objectId := "o1",
    dataHash := "44136fa355b3678a1146ad16f7e8649e94fb4fc21fe77e8310c060f61caaff8a",
    previousHash := genesis,
    chainHash := "1d091607f87545d42d9fb0bdf7a33a292c3305f00c0b1f0adab7428d72ed654d" }

def forged : Row := { created with actor := "admin" }

/-- SHA-256 on the texts of this run: the data `{}` and the messages of the two rows. -/
def digest (m : String) : String :=
  if m = "\x7b\x7d" then created.dataHash
  else if m = message genesis created then created.chainHash
  else if m = message genesis forged then
    "8587e8b9d899634fea5720f9be3d02ad2453f6d619436a365f651859f7227c6c"
  else "e3b0c44298fc1c149afbf4c8996fb92427ae41e4649b934ca495991b7852b855"

def lastActor (_ : Ledger) (log : List Row) : String := (log.getLast?.map Row.actor).getD ""

/-- The books of a database with this log, under the checkpoint signed over these rows. -/
def published (log signed : List Row) : Books :=
  { tables := freshLedger, log,
    checkpoint := .issuance (Books.document Demo.config lastActor ⟨freshLedger, signed, .missing, false⟩),
    checkpointFailed := false }

theorem digest_clean (m : String) : Clean (digest m) := by
  unfold digest Clean
  split_ifs <;> simp [created]

theorem message_ne (prev : String) (r : Row) : message prev r ≠ "\x7b\x7d" := by
  intro h
  have hmem : '|' ∈ (message prev r).toList := by
    rw [message, join_cons prev (by simp [Row.fields])]
    simp
  rw [h] at hmem
  simp at hmem

theorem forged_plain : forged.Plain := by
  intro s hs
  simp only [Row.fields, forged, created, List.mem_cons, List.not_mem_nil, or_false] at hs
  unfold Clean
  rcases hs with rfl | rfl | rfl | rfl | rfl <;> simp

theorem forged_ne : message genesis forged ≠ message genesis created := by
  intro h
  have hfields := same_fields (show (chain digest).Same forged created from ⟨rfl, genesis, h⟩) forged_plain
  simp [Row.fields, forged, created] at hfields

theorem digest_created : digest (message genesis created) = created.chainHash := by
  unfold digest
  rw [if_neg (message_ne _ _), if_pos rfl]

theorem digest_forged : digest (message genesis forged) =
    "8587e8b9d899634fea5720f9be3d02ad2453f6d619436a365f651859f7227c6c" := by
  unfold digest
  rw [if_neg (message_ne _ _), if_neg forged_ne, if_pos rfl]

theorem created_written : Written digest [created] := by
  have hdata : digest "\x7b\x7d" = created.dataHash := if_pos rfl
  have hrow : audit digest "2026-05-01T00:00:00+00:00" "buyer" "order.created" "o1" "\x7b\x7d" [] =
      [created] := by
    unfold audit
    simp only [List.getLast?_nil, Option.map_none, Option.getD_none, List.nil_append, hdata]
    change [Row.mk _ _ _ _ _ _ (digest (message genesis created))] = _
    rw [digest_created]
    rfl
  rw [← hrow]
  exact .audit _ _ _ _ _ .nil

theorem forged_tampered : Tampered [created] [forged] :=
  .changed (.cons ⟨rfl, rfl, .inr forged_plain⟩ .nil) (by simp [forged, created])

theorem genesis_zeros : ∀ c ∈ genesis.toList, c = '0' := by
  have hlist : genesis.toList = List.replicate 64 '0' := String.toList_ofList
  rw [hlist]
  exact fun _ hc => List.eq_of_mem_replicate hc

theorem digest_resists : Resists digest [created] [forged] := by
  have hmem : ∀ m ∈ {m | m ∈ (chain digest).messages genesis [created] ∨
      m ∈ (chain digest).messages genesis [forged]},
      m = message genesis created ∨ m = message genesis forged := by
    intro m hm
    simpa [HashChain.Scheme.messages, chain] using hm
  have hdiff : created.chainHash ≠
      "8587e8b9d899634fea5720f9be3d02ad2453f6d619436a365f651859f7227c6c" := by simp [created]
  refine ⟨?_, ?_⟩
  · intro m hm m' hm' h
    change digest m = digest m' at h
    rcases hmem m hm with rfl | rfl <;> rcases hmem m' hm' with rfl | rfl
    · rfl
    · rw [digest_created, digest_forged] at h
      exact absurd h hdiff
    · rw [digest_created, digest_forged] at h
      exact absurd h.symm hdiff
    · rfl
  · intro m hm h
    change digest m = genesis at h
    rcases hmem m hm with rfl | rfl
    · have hone : '1' ∈ created.chainHash.toList := by simp [created]
      rw [← digest_created, h] at hone
      exact absurd (genesis_zeros _ hone) (by decide)
    · have height : '8' ∈ (digest (message genesis forged)).toList := by
        rw [digest_forged]
        simp
      rw [h] at height
      exact absurd (genesis_zeros _ height) (by decide)

theorem published_trusted (log : List Row) :
    (published log log).assertTerminalTrust Demo.config lastActor = .ok () :=
  trust_published rfl rfl

end Sample

open Sample in
/-- On SHA-256's digests of the two rows: the log verifies; with the buyer of its row
written over, `verify_audit` raises under the old checkpoint and answers false under one
made for it. -/
theorem verify_audit_tamper_evident_order :
    (published [created] [created]).verifyAudit digest Demo.config lastActor = .ok true ∧
    (published [forged] [created]).verifyAudit digest Demo.config lastActor =
      .error (.runtime "external issuance checkpoint/database mismatch") ∧
    (published [forged] [forged]).verifyAudit digest Demo.config lastActor = .ok false := by
  obtain ⟨hgood, hbad⟩ := verify_audit_tamper_evident Demo.config lastActor digest digest_clean
    (published [created] [created]) created_written
  refine ⟨hgood (published_trusted _), ?_, ?_⟩
  · refine (hbad (published [forged] [created]) forged_tampered digest_resists).2.2 (published_trusted _) rfl rfl ?_
    simp [published, lastActor, forged, created]
  · exact (hbad (published [forged] [forged]) forged_tampered digest_resists).1 (published_trusted _)

open Sample in
/-- A tampered log for which `verify_audit` does not answer false: the trust check raises
before the chain is walked. -/
theorem tampered_raises :
    Written digest (published [created] [created]).log ∧
    Tampered (published [created] [created]).log (published [forged] [created]).log ∧
    Resists digest [created] [forged] ∧
    (published [forged] [created]).verifyAudit digest Demo.config lastActor ≠ .ok false := by
  refine ⟨created_written, forged_tampered, digest_resists, ?_⟩
  have hmismatch := trust_mismatch (published [forged] [created]) (published_trusted [created]) rfl rfl
    (by simp [published, lastActor, forged, created])
  unfold Books.verifyAudit
  rw [hmismatch]
  exact fun h => nomatch h

end GrowthMap.Payments.AuditLog
