import Mathlib.Tactic.IntervalCases
import GrowthMap.Payments.Reachable

/- What a start-up trusts.

   A database of the current schema is accepted only under an authentic checkpoint of its
   contents. A database of schema 1 to 5 has no such checkpoint; the migrations set its
   terminal intents and their orders aside before the first one is written, and schema 5
   must first match the checkpoint it had. -/
namespace GrowthMap.Payments

open Relational Transaction Table
open Fallible (bind_ok)

variable {cfg : Config}

def AuthenticCheckpoint (cfg : Config) (file : CheckpointFile) (l : Ledger) : Prop :=
  ∃ c, file = .issuance c ∧ c.mac = issuanceMac cfg c.count c.root c.schema c.sequence c.version ∧
    c = checkpointDocument cfg l

def AuthenticLegacyCheckpoint (cfg : Config) (file : CheckpointFile) (l : Ledger) : Prop :=
  ∃ c, file = .legacy c ∧ c.mac = terminalMac cfg c.count c.root c.sequence c.version ∧
    c = legacyDocument cfg l

/-- Some table besides the migration ledger and the checkpoint state has a row. -/
def HoldsRows (l : Ledger) : Prop :=
  ∃ t, l.schema.tables t = true ∧ t ≠ .migrationLedger ∧ t ≠ .terminalCheckpointState ∧ 0 < l.rowsIn t

variable {l m l₀ : Ledger} {n : Nat} {ns : List Nat} {w w' : World} {v : Int} {file : CheckpointFile}
  {now : Nat → Time}

theorem verifyCheckpoint_ok (h : verifyCheckpoint cfg file l = .ok ()) :
    AuthenticCheckpoint cfg file l := by
  unfold verifyCheckpoint at h
  split at h
  · cases h
  · cases h
  · cases h
  · cases h
  · rename_i c
    split at h
    · cases h
    · rename_i hmac
      split at h
      · cases h
      · rename_i hdoc
        exact ⟨c, rfl, not_not.mp hmac, not_not.mp hdoc⟩

/-! The migrations -/

theorem insertMigrationRows_frame {ms : List MigrationRow} (h : insertMigrationRows ms l = .ok m) :
    m.intents = l.intents ∧ m.orders = l.orders ∧ m.schema = l.schema := by
  induction ms generalizing l with
  | nil =>
    cases h
    exact ⟨rfl, rfl, rfl⟩
  | cons r ms ih =>
    unfold insertMigrationRows at h
    split at h
    · cases h
    · rename_i l₁ hl₁
      obtain ⟨hi, ho, hs⟩ := ih h
      unfold insertMigrationRow at hl₁
      split at hl₁
      · cases hl₁
      · cases hl₁
        exact ⟨hi, ho, hs⟩

theorem applyMigration_ok {now : Time} (h : applyMigration cfg now n l = .ok m) :
    ∃ s r, applyDdl n l.schema = .ok s ∧ migrateRows cfg now n { l with schema := s } = .ok r ∧
      m.intents = r.intents ∧ m.orders = r.orders ∧ m.schema = r.schema := by
  unfold applyMigration at h
  obtain ⟨s, hs, h⟩ := bind_ok h
  obtain ⟨r, hr, h⟩ := bind_ok h
  obtain ⟨m', hm', h⟩ := bind_ok h
  cases h
  obtain ⟨hi, ho, hsch⟩ := insertMigrationRows_frame hm'
  exact ⟨s, r, hs, hr, hi, ho, hsch⟩

theorem applyDdl_tables {s s' : Schema} (h : applyDdl n s = .ok s') {t : TableName}
    (ht : s.tables t = true) : s'.tables t = true ∧ t ∉ (ddl n).creates := by
  unfold applyDdl at h
  simp only at h
  split at h
  · cases h
  · split at h
    · cases h
    · rename_i hnew
      cases h
      refine ⟨by simp [ht], ?_⟩
      intro hc
      simp only [Bool.or_eq_true, List.any_eq_true, not_or, not_exists, not_and] at hnew
      exact hnew.1 t hc ht

theorem quarantineTerminal_ok {now : Time} (h : quarantineTerminal now l = .ok m) :
    m = { l with
      orders := l.orders.update (hasTerminalIntent l) (Order.withState .manualReview now) Order.withState_id,
      intents := l.intents.update (fun i => i.state.terminal) (Intent.quarantine now) Intent.quarantine_intentId } := by
  unfold quarantineTerminal at h
  simp only at h
  split at h
  · cases h
  · cases h
    rfl

/-- What a migration past the first two does to intents and orders. -/
inductive Carried (l m : Ledger) : Prop where
  /-- states and orders stay -/
  | kept (f : Intent → Intent) (hid : ∀ i, (f i).intentId = i.intentId) (horder : ∀ i, (f i).orderId = i.orderId)
      (hstate : ∀ i, (f i).state = i.state) (hintents : m.intents = l.intents.update (fun _ => true) f hid)
      (horders : m.orders = l.orders)
  | setAside (now : Time)
      (horders : m.orders = l.orders.update (hasTerminalIntent l) (Order.withState .manualReview now)
        Order.withState_id)
      (hintents : m.intents = l.intents.update (fun i => i.state.terminal) (Intent.quarantine now) Intent.quarantine_intentId)

theorem Carried.unchanged (hi : m.intents = l.intents) (ho : m.orders = l.orders) : Carried l m := by
  refine .kept id (fun _ => rfl) (fun _ => rfl) (fun _ => rfl) ?_ ho
  rw [hi]
  simp [Table.update]

theorem migrateRows_carried {now : Time} (hn : 3 ≤ n)
    (h : migrateRows cfg now n l = .ok m) : Carried l m ∧ m.schema = l.schema := by
  unfold migrateRows at h
  split at h
  · omega
  · omega
  · -- 3
    unfold evidenceIdentity at h
    simp only at h
    split at h
    · cases h
      exact ⟨.kept (Intent.backfill cfg) Intent.backfill_intentId (fun _ => rfl) (fun _ => rfl) rfl rfl, rfl⟩
    · cases h
  · -- 5
    cases hq : quarantineTerminal now l with
    | error =>
      rw [hq] at h
      cases h
    | ok =>
      rw [hq] at h
      cases h
      rw [quarantineTerminal_ok hq]
      exact ⟨.setAside now rfl rfl, rfl⟩
  · -- 6
    rw [quarantineTerminal_ok h]
    exact ⟨.setAside now rfl rfl, rfl⟩
  · cases h
    exact ⟨.unchanged rfl rfl, rfl⟩
  · -- 8
    cases h
    exact ⟨.kept Intent.beforePayers Intent.beforePayers_intentId (fun _ => rfl) (fun _ => rfl) rfl rfl, rfl⟩
  all_goals
    cases h
    exact ⟨.unchanged rfl rfl, rfl⟩

def NoTerminal (l : Ledger) : Prop := ∀ iid i, l.intents.get iid = some i → i.state.terminal = false

theorem Carried.noTerminal (h : Carried l m) (hl : NoTerminal l) : NoTerminal m := by
  intro iid j hj
  cases h with
  | kept f hid horder hstate hintents =>
    rw [hintents, get_update] at hj
    obtain ⟨i, hi, rfl⟩ := Option.map_eq_some_iff.mp hj
    rw [if_pos rfl, hstate]
    exact hl iid i hi
  | setAside now horders hintents =>
    rw [hintents, get_update] at hj
    obtain ⟨i, hi, rfl⟩ := Option.map_eq_some_iff.mp hj
    rw [hl iid i hi]
    exact hl iid i hi

theorem quarantineTerminal_noTerminal {now : Time} (h : quarantineTerminal now l = .ok m) :
    NoTerminal m := by
  rw [quarantineTerminal_ok h]
  intro iid j hj
  simp only [get_update] at hj
  obtain ⟨i, hi, rfl⟩ := Option.map_eq_some_iff.mp hj
  cases ht : i.state.terminal with
  | true => rfl
  | false => exact ht

/-- The order with this id, if there is one, awaits manual review. -/
def UnderReview (l : Ledger) (oid : String) : Prop :=
  ∀ o, l.orders.get oid = some o → o.state = .manualReview

/-- Where the terminal intents of `l₀` are: still terminal, or ambiguous with their order
under review. -/
def Traced (l₀ l : Ledger) : Prop :=
  ∀ iid i, l₀.intents.get iid = some i → i.state.terminal = true →
    ∃ j, l.intents.get iid = some j ∧ j.orderId = i.orderId ∧
      (j.state.terminal = true ∨ j.state = .ambiguous ∧ UnderReview l i.orderId)

theorem Carried.underReview (h : Carried l m) {oid : String} (hr : UnderReview l oid) :
    UnderReview m oid := by
  intro o ho
  cases h with
  | kept f hid horder hstate hintents horders =>
    rw [horders] at ho
    exact hr o ho
  | setAside now horders =>
    rw [horders, get_update] at ho
    obtain ⟨o', ho', rfl⟩ := Option.map_eq_some_iff.mp ho
    split
    · rfl
    · exact hr o' ho'

theorem Carried.traced (h : Carried l m) (hl : Traced l₀ l) : Traced l₀ m := by
  intro iid i hi ht
  obtain ⟨j, hj, hoid, hwhere⟩ := hl iid i hi ht
  cases hc : h with
  | kept f hid horder hstate hintents =>
    refine ⟨f j, ?_, (horder j).trans hoid, ?_⟩
    · rw [hintents, get_update, hj]
      rfl
    · rw [hstate]
      exact hwhere.imp_right (fun ha => ⟨ha.1, h.underReview ha.2⟩)
  | setAside now horders hintents =>
    cases hterminal : j.state.terminal with
    | true =>
      refine ⟨j.quarantine now, ?_, hoid, .inr ⟨rfl, ?_⟩⟩
      · rw [hintents, get_update, hj]
        simp [hterminal]
      · -- the update of `orders` finds the order through this intent
        intro o ho
        rw [horders, get_update] at ho
        obtain ⟨o', ho', rfl⟩ := Option.map_eq_some_iff.mp ho
        have hfound : hasTerminalIntent l o' = true := by
          unfold hasTerminalIntent
          rw [List.any_eq_true]
          refine ⟨j, get_mem hj, ?_⟩
          simp [hterminal, hoid, get_key ho']
        rw [if_pos hfound]
        rfl
    | false =>
      refine ⟨j, ?_, hoid, ?_⟩
      · rw [hintents, get_update, hj]
        simp [hterminal]
      · rcases hwhere with hj' | ⟨ha, hr⟩
        · rw [hterminal] at hj'
          cases hj'
        · exact .inr ⟨ha, h.underReview hr⟩

/-! The sequence of migrations -/

def migrateAll (cfg : Config) (now : Nat → Time) : List Nat → Ledger → Except Err Ledger
  | [], l => .ok l
  | n :: ns, l => applyMigration cfg (now n) n l >>= migrateAll cfg now ns

theorem migrateAll_append (ns ms : List Nat) (l : Ledger) :
    migrateAll cfg now (ns ++ ms) l = migrateAll cfg now ns l >>= migrateAll cfg now ms := by
  induction ns generalizing l with
  | nil => rfl
  | cons n ns ih =>
    simp only [List.cons_append, migrateAll]
    cases applyMigration cfg (now n) n l with
    | error => rfl
    | ok l' => exact ih l'

theorem migrateTo_ok (hw : w.conn = ⟨l, none⟩) (h : migrateTo cfg now ns w = (.ok (), w')) :
    ∃ m, migrateAll cfg now ns l = .ok m ∧ w' = { w with conn := ⟨m, none⟩ } := by
  induction ns generalizing w l with
  | nil =>
    cases h
    refine ⟨l, rfl, ?_⟩
    rw [← hw]
  | cons n ns ih =>
    unfold migrateTo at h
    obtain ⟨_, w₁, h₁, h⟩ := Prog.bind_eq_ok.mp h
    obtain ⟨_, w₂, h₂, h⟩ := Prog.bind_eq_ok.mp h
    obtain ⟨_, w₃, h₃, h⟩ := Prog.bind_eq_ok.mp h
    cases h₁
    cases h₃
    unfold statement at h₂
    simp only [hw, Conn.begin, Conn.current_closed, Conn.current_open, Conn.exec_open] at h₂
    split at h₂
    · cases h₂
    · rename_i m hm
      cases h₂
      obtain ⟨m', hm', rfl⟩ := ih rfl h
      refine ⟨m', ?_, rfl⟩
      rw [migrateAll, hm]
      exact hm'

/-- The terminal intents of a database that has any are traced through its migrations;
migration 2 fails on it. -/
theorem migrateAll_traced (hns : ∀ n ∈ ns, 2 ≤ n)
    (h : migrateAll cfg now ns l = .ok m) (htable : l.schema.tables .settlementIntents = true)
    (hl : Traced l₀ l) : Traced l₀ m := by
  induction ns generalizing l with
  | nil =>
    cases h
    exact hl
  | cons n ns ih =>
    obtain ⟨l', hl', h⟩ := bind_ok h
    obtain ⟨s, r, hddl, hrows, hi, ho, hs⟩ := applyMigration_ok hl'
    obtain ⟨htable', hnew⟩ := applyDdl_tables hddl htable
    have hthree : 3 ≤ n := by
      have htwo := hns n List.mem_cons_self
      by_contra hlt
      have hn : n = 2 := by omega
      subst hn
      exact hnew (by decide)
    obtain ⟨hcarried, hschema⟩ := migrateRows_carried hthree hrows
    refine ih (fun k hk => hns k (List.mem_cons_of_mem n hk)) h ?_ ?_
    · rw [hs, hschema]
      exact htable'
    · have hr : Traced l₀ _ := hcarried.traced hl
      intro iid i hi' ht
      obtain ⟨j, hj, hoid, hwhere⟩ := hr iid i hi' ht
      refine ⟨j, by rw [hi]; exact hj, hoid, hwhere.imp_right ?_⟩
      rintro ⟨ha, hreview⟩
      refine ⟨ha, ?_⟩
      intro o hor
      rw [ho] at hor
      exact hreview o hor

theorem migrateAll_noTerminal (hns : ∀ n ∈ ns, 3 ≤ n)
    (h : migrateAll cfg now ns l = .ok m) (hl : NoTerminal l) : NoTerminal m := by
  induction ns generalizing l with
  | nil =>
    cases h
    exact hl
  | cons n ns ih =>
    obtain ⟨l', hl', h⟩ := bind_ok h
    obtain ⟨s, r, -, hrows, hi, -, -⟩ := applyMigration_ok hl'
    have hr : NoTerminal r := (migrateRows_carried (hns n List.mem_cons_self) hrows).1.noTerminal hl
    refine ih (fun k hk => hns k (List.mem_cons_of_mem n hk)) h ?_
    intro iid i hiid
    rw [hi] at hiid
    exact hr iid i hiid

theorem targets_through_six (h₀ : 0 ≤ v) (h₅ : v ≤ 5) :
    targets v = List.range' (v.toNat + 1) (5 - v.toNat) ++ 6 :: List.range' 7 7 := by
  interval_cases v <;> rfl

theorem migrated_noTerminal (h₀ : 0 ≤ v) (h₅ : v ≤ 5)
    (h : migrateAll cfg now (targets v) l = .ok m) : NoTerminal m := by
  rw [targets_through_six h₀ h₅, migrateAll_append] at h
  obtain ⟨l₅, -, h⟩ := bind_ok h
  obtain ⟨l₆, hl₆, h⟩ := bind_ok h
  obtain ⟨s, r, -, hrows, hi, -, -⟩ := applyMigration_ok hl₆
  refine migrateAll_noTerminal ?_ h ?_
  · intro n hn
    rw [List.mem_range'_1] at hn
    omega
  · intro iid i hiid
    rw [hi] at hiid
    exact quarantineTerminal_noTerminal hrows iid i hiid

/-! The start-up -/

theorem verifyLegacy_ok
    (h : verifyLegacyV5Checkpoint cfg file l = .ok ()) (hrows : legacyTerminalRows l ≠ []) :
    AuthenticLegacyCheckpoint cfg file l := by
  unfold verifyLegacyV5Checkpoint at h
  obtain ⟨-, -, h⟩ := bind_ok h
  cases file with
  | missing =>
    simp only [if_pos hrows] at h
    cases h
  | unreadable => cases h
  | other => cases h
  | issuance => cases h
  | legacy c =>
    simp only at h
    split at h
    · cases h
    · rename_i hc
      rw [not_or, not_not, not_not] at hc
      exact ⟨c, rfl, hc.1, hc.2⟩

/-- What `_init` has checked when it begins to migrate. -/
structure Checked (cfg : Config) (file : CheckpointFile) (l : Ledger) : Prop where
  range : 0 ≤ l.userVersion ∧ l.userVersion ≤ 13
  empty : l.userVersion = 0 → ∀ t, l.schema.tables t = false
  legacy : l.userVersion = 5 → verifyLegacyV5Checkpoint cfg file l = .ok ()

theorem mem_snapshotTables (t : TableName) : t ∈ snapshotTables := by
  cases t <;> decide

theorem checkStored_ok (h : checkStored cfg file l = .ok ()) :
    Checked cfg file l := by
  unfold checkStored at h
  split at h
  · cases h
  · rename_i hle
    split at h
    · cases h
    · rename_i hblank
      split at h
      · cases h
      · split at h
        · cases h
        · split at h
          · cases h
          · rename_i hneg
            refine ⟨⟨by omega, not_lt.mp hle⟩, ?_, ?_⟩
            · intro h0 t
              have hnone : snapshotTables.any l.schema.tables = false :=
                Bool.eq_false_iff.mpr (fun hany => hblank ⟨h0, hany⟩)
              rw [List.any_eq_false] at hnone
              exact Bool.eq_false_iff.mpr (hnone t (mem_snapshotTables t))
            · intro h5
              rw [if_pos h5] at h
              exact h

theorem ofExcept_ok {α : Type} {r : Except Err α} {a : α} (h : ofExcept r w = (.ok a, w')) :
    r = .ok a ∧ w' = w := by
  cases r with
  | error => cases h
  | ok =>
    cases h
    exact ⟨rfl, rfl⟩

theorem upgrade_ok {migrated : Bool} (hw : w.conn = ⟨l, none⟩)
    (h : upgrade cfg now w = (.ok migrated, w')) :
    Checked cfg w.checkpoint l ∧ migrated = decide (l.userVersion < 13) ∧
      ∃ m, migrateAll cfg now (targets l.userVersion) l = .ok m ∧ w' = { w with conn := ⟨m, none⟩ } := by
  unfold upgrade withDb at h
  split at h
  · rename_i a w₁ hrun
    obtain ⟨l', w₂, hcur, hrun⟩ := Prog.bind_eq_ok.mp hrun
    cases hcur
    obtain ⟨file, w₃, hfile, hrun⟩ := Prog.bind_eq_ok.mp hrun
    cases hfile
    obtain ⟨_, w₄, hcheck, hrun⟩ := Prog.bind_eq_ok.mp hrun
    obtain ⟨_, w₅, hmigrate, hrun⟩ := Prog.bind_eq_ok.mp hrun
    obtain ⟨hstored, rfl⟩ := ofExcept_ok hcheck
    rw [hw, Conn.current_closed] at hstored hmigrate hrun
    obtain ⟨m, hm, rfl⟩ := migrateTo_ok hw hmigrate
    obtain ⟨_, w₆, hcur, hrun⟩ := Prog.bind_eq_ok.mp hrun
    cases hcur
    obtain ⟨_, w₇, htables, hrun⟩ := Prog.bind_eq_ok.mp hrun
    obtain ⟨_, w₈, hledger, hrun⟩ := Prog.bind_eq_ok.mp hrun
    obtain ⟨-, rfl⟩ := ofExcept_ok htables
    obtain ⟨-, rfl⟩ := ofExcept_ok hledger
    cases hrun
    cases h
    exact ⟨checkStored_ok hstored, rfl, m, hm, rfl⟩
  · cases h

theorem writeCheckpoint_ok (h : writeCheckpoint cfg w = (.ok (), w')) :
    w'.conn = w.conn ∧ w'.checkpoint = .issuance (checkpointDocument cfg w.conn.current) := by
  unfold writeCheckpoint at h
  split at h
  · cases h
  · simp only at h
    split at h
    · cases h
      exact ⟨rfl, rfl⟩
    · cases h
    · cases h

/-- No intent is terminal, and the intents that were are ambiguous with their orders under
review. -/
def SetAside (l m : Ledger) : Prop :=
  NoTerminal m ∧ (l.schema.tables .settlementIntents = true → ∀ iid i, l.intents.get iid = some i →
    i.state.terminal = true → (∃ j, m.intents.get iid = some j ∧ j.state = .ambiguous) ∧ UnderReview m i.orderId)

theorem migrated_setAside (h₁ : 1 ≤ v) (h₅ : v ≤ 5)
    (h : migrateAll cfg now (targets v) l = .ok m) : SetAside l m := by
  have hnone := migrated_noTerminal (by omega) h₅ h
  refine ⟨hnone, ?_⟩
  intro htable iid i hi ht
  have hns : ∀ n ∈ targets v, 2 ≤ n := by
    intro n hn
    rw [targets, List.mem_range'_1] at hn
    omega
  have hstart : Traced l l := fun iid i hi ht => ⟨i, hi, rfl, .inl ht⟩
  obtain ⟨j, hj, -, hwhere⟩ := migrateAll_traced hns h htable hstart iid i hi ht
  rcases hwhere with hterminal | ⟨ha, hreview⟩
  · rw [hnone iid j hj] at hterminal
    cases hterminal
  · exact ⟨⟨j, hj, ha⟩, hreview⟩

/-- For every database and every checkpoint file: a start-up that returns over a database
with rows found it at a supported version. At version 13 the file was an authentic
checkpoint of its contents; at version 5 it was an authentic checkpoint of the terminal
intents, if there were any; and from versions 1 to 5 the first checkpoint written is of
contents without a terminal intent, where every intent that was terminal is ambiguous and
its order under review. -/
theorem startup_trusts_authentic_contents (cfg : Config) (clk : StartClock) {w : World} {l : Ledger}
    (hw : w.conn = ⟨l, none⟩) (hreturns : (init cfg clk w).1 = .ok ()) (hrows : HoldsRows l) :
    (1 ≤ l.userVersion ∧ l.userVersion ≤ 13) ∧
    (l.userVersion = 13 → AuthenticCheckpoint cfg w.checkpoint l) ∧
    (l.userVersion = 5 → legacyTerminalRows l ≠ [] → AuthenticLegacyCheckpoint cfg w.checkpoint l) ∧
    (l.userVersion ≤ 5 → ∃ m, SetAside l m ∧
      (establish cfg clk.migration w).2.conn = ⟨m, none⟩ ∧
      (establish cfg clk.migration w).2.checkpoint = .issuance (checkpointDocument cfg m)) := by
  have hinit : init cfg clk w = (.ok (), (init cfg clk w).2) := Prod.ext hreturns rfl
  obtain ⟨_, w₁, hestablish, hrest⟩ := Prog.bind_eq_ok.mp hinit
  obtain ⟨_, w₂, hverify, -⟩ := Prog.bind_eq_ok.mp hrest
  obtain ⟨migrated, w₃, hupgrade, hwrite⟩ := Prog.bind_eq_ok.mp hestablish
  obtain ⟨hchecked, hmigrated, m, hm, rfl⟩ := upgrade_ok hw hupgrade
  have hone : 1 ≤ l.userVersion := by
    obtain ⟨t, ht, -⟩ := hrows
    have hrange := hchecked.range.1
    have hne : l.userVersion ≠ 0 := by
      intro h0
      rw [hchecked.empty h0 t] at ht
      cases ht
    omega
  refine ⟨⟨hone, hchecked.range.2⟩, ?_, ?_, ?_⟩
  · intro h13
    -- nothing to migrate: the verified file and contents are the stored ones
    have hsame : migrated = false := by
      rw [hmigrated, h13]
      rfl
    have hm' : m = l := by
      rw [h13] at hm
      cases hm
      rfl
    subst hsame hm'
    cases hwrite
    unfold verifyStored at hverify
    split at hverify
    · cases hverify
    · unfold assertTerminalTrust at hverify
      split at hverify
      · cases hverify
      · split at hverify
        · cases hverify
        · rename_i hok
          exact verifyCheckpoint_ok hok
  · intro h5
    exact verifyLegacy_ok (hchecked.legacy h5)
  · intro h5
    have hdid : migrated = true := by
      rw [hmigrated]
      exact decide_eq_true (by omega)
    subst hdid
    obtain ⟨hconn, hfile⟩ := writeCheckpoint_ok hwrite
    refine ⟨m, migrated_setAside hone h5 hm, ?_, ?_⟩
    · rw [hestablish]
      exact hconn
    · rw [hestablish]
      exact hfile

namespace Demo

/-- A start-up at time `t`. -/
def starting (t : Time) : StartClock := ⟨fun _ => t, fun _ _ => t, fun _ => t⟩

/-- A database of schema 4: one order, and a settled intent for it. -/
def legacyLedger : Ledger :=
  { (migrateAll config (fun _ => 0) [1, 2, 3, 4] blankLedger).toOption.getD blankLedger with
    orders := ⟨[{ id := "o", recoveryCodeHash := "r", rail := .x402, state := .pendingPayment,
                  quotedAmountMinor := 10000000, currency := "USDC", tier := .early, quoteExpiresAt := 300,
                  buyerEmail := "a@b.co", licenseName := "A", payerRef := none, txHash := none,
                  saleOrdinal := none, licenseId := none, createdAt := 0, updatedAt := 0,
                  confirmedAt := none }], by simp⟩,
    intents := ⟨[{ intentId := "i", orderId := "o", proofHash := "p", nonceHash := "n",
                   amountMinor := 10000000, currency := "USDC", reservedOrdinal := 1, leaseExpiresAt := 60,
                   state := .settled, txHash := some "t", evidenceHash := some "e",
                   evidenceSource := some "s", finalityAt := some 2, reconciledBy := some "a",
                   createdAt := 1, updatedAt := 2, evidenceBinding := some "b", verifiedPayer := none,
                   settledPayer := none, finalityBasis := none }], by simp⟩ }

end Demo

/-- A start-up from schema 4 returns, and no checkpoint was there. -/
theorem legacy_start_has_no_checkpoint :
    (opened Demo.legacyLedger .missing []).conn = ⟨Demo.legacyLedger, none⟩ ∧
    (init Demo.config (Demo.starting 9) (opened Demo.legacyLedger .missing [])).1 = .ok () ∧
    HoldsRows Demo.legacyLedger ∧
    ¬ AuthenticCheckpoint Demo.config (opened Demo.legacyLedger .missing []).checkpoint Demo.legacyLedger := by
  refine ⟨rfl, by decide +kernel, ⟨.orders, by decide +kernel, by decide, by decide, by decide⟩, ?_⟩
  rintro ⟨c, hc, -⟩
  cases hc

/-- The sale's database is accepted under its own checkpoint. -/
theorem sale_starts_under_its_checkpoint :
    AuthenticCheckpoint Demo.config (Demo.after Demo.sale).checkpoint (Demo.after Demo.sale).ledger := by
  have hw : (opened (Demo.after Demo.sale).ledger (Demo.after Demo.sale).checkpoint []).conn =
      ⟨(Demo.after Demo.sale).ledger, none⟩ := rfl
  have h := startup_trusts_authentic_contents Demo.config (Demo.starting 9) hw (by decide +kernel)
    ⟨.orders, by decide +kernel, by decide, by decide, by decide +kernel⟩
  exact h.2.1 (by decide +kernel)
end GrowthMap.Payments
