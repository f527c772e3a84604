import Choreo.Session.Store

/-!
# Schema migrations

The migration runner of `choreo-daemon/src/db/mod.rs`. A database carries the schema version it was
stamped with; `runMigrationsTo` checks the version and the chain of migrations, takes a backup,
applies the migrations from the current version on, each in one write transaction, and stamps the
target version after the last of them. A crash leaves what was committed last.
-/

namespace Choreo

open List

/-! ### Databases -/

/-- The key of a turn row: session and turn. -/
abbrev TurnKey := ℕ × ℕ

/-- Rows are ordered by session, then by turn. -/
def compareTurnKey : TurnKey → TurnKey → Ordering :=
  compareLex (compareOn Prod.fst) (compareOn Prod.snd)

instance : Std.TransCmp compareTurnKey :=
  inferInstanceAs (Std.TransCmp (compareLex (compareOn Prod.fst) (compareOn Prod.snd)))

instance : Std.LawfulEqCmp compareTurnKey where
  eq_of_compare h :=
    have hboth := compareLex_eq_eq.1 h
    Prod.ext (Std.LawfulEqCmp.eq_of_compare hboth.1) (Std.LawfulEqCmp.eq_of_compare hboth.2)

/-- The tables of turns and of attachments, and the stamped schema version. -/
structure Database where
  turns : Std.ExtTreeMap TurnKey Bytes compareTurnKey := ∅
  attachments : Std.ExtTreeMap TurnKey Attachments compareTurnKey := ∅
  schemaVersion : Option ℕ := none

/-- The database file with its backups, by the version they were taken from. -/
structure Disk where
  db : Database
  backups : ℕ → Option Database := fun _ => none

/-- The schema version; a database that was never stamped has version 0. -/
def currentSchemaVersion (db : Database) : ℕ := db.schemaVersion.getD 0

def stampSchemaVersion (db : Database) (version : ℕ) : Database :=
  { db with schemaVersion := some version }

/-- Copies the database file before a migration, unless there is such a copy. -/
def backupDbFile (disk : Disk) (version : ℕ) : Disk :=
  match disk.backups version with
  | some _ => disk
  | none => { disk with backups := Function.update disk.backups version (some disk.db) }

/-! ### The runner -/

/-- A migration from a schema version to the next one: one write transaction. -/
structure Migration where
  fromVersion : ℕ
  run : Database → Except String Database

/-- A run of the runner: the states of the disk it goes through, in their order, and its result. -/
structure MigrationRun where
  states : List Disk
  result : Except String Unit

/-- Applies migrations one after the other, up to the first that fails: what each of them commits,
and the result. -/
def applyMigrations : List Migration → Database → List Database × Except String Database
  | [], db => ([], .ok db)
  | migration :: migrations, db =>
    match migration.run db with
    | .error error => ([], .error error)
    | .ok db => (db :: (applyMigrations migrations db).1, (applyMigrations migrations db).2)

def runMigrationsTo (target : ℕ) (migrations : List Migration) (disk : Disk) : MigrationRun :=
  let current := currentSchemaVersion disk.db
  if current > target then
    ⟨[], .error (s!"database schema version {current} is newer than this binary supports " ++
      s!"({target}); upgrade choreographr before continuing")⟩
  else if current = 0 ∧ target > 1 then
    ⟨[], .error ("database has no schema version (pre-release data); " ++
      "recreate it or restore a backup")⟩
  else if current = target then ⟨[], .ok ()⟩
  else
    let expected := List.range' 1 (target - 1)
    let provided := migrations.map Migration.fromVersion
    if provided ≠ expected then
      ⟨[], .error s!"migration chain is not contiguous: has {provided}, needs {expected}"⟩
    else
      let saved := if migrations = [] then disk else backupDbFile disk current
      let applied := applyMigrations (migrations.filter (current ≤ ·.fromVersion)) disk.db
      let commit := fun db => { saved with db := db }
      match applied.2 with
      | .error error => ⟨saved :: applied.1.map commit, .error error⟩
      | .ok db =>
        ⟨saved :: applied.1.map commit ++ [commit (stampSchemaVersion db target)], .ok ()⟩

/-- The state a run ends in. -/
def MigrationRun.final (run : MigrationRun) (disk : Disk) : Disk := run.states.getLast?.getD disk

/-! ### Crashes -/

/-- A migration may be applied again to what it made of a database of its own version, and leaves
the version alone or stamps the next one. -/
structure Migration.Rerunnable (migration : Migration) : Prop where
  again : ∀ db db', currentSchemaVersion db = migration.fromVersion → migration.run db = .ok db' →
    migration.run db' = .ok db'
  version : ∀ db db', currentSchemaVersion db = migration.fromVersion → migration.run db = .ok db' →
    db'.schemaVersion = db.schemaVersion ∨ db'.schemaVersion = some (migration.fromVersion + 1)

/-- Every contiguous chain of rerunnable migrations is safe from the current version to the target:
a run that a crash stops in any state it commits, repeated from there, ends with the tables and the
version that the run ends with otherwise. -/
def CrashSafe (current target : ℕ) : Prop :=
  ∀ migrations : List Migration,
    migrations.map Migration.fromVersion = List.range' 1 (target - 1) →
    (∀ migration ∈ migrations, migration.Rerunnable) →
    ∀ disk : Disk, currentSchemaVersion disk.db = current →
      ∀ crashed ∈ disk :: (runMigrationsTo target migrations disk).states,
        ((runMigrationsTo target migrations crashed).final crashed).db =
          ((runMigrationsTo target migrations disk).final disk).db

/-! ### The database a run ends with -/

theorem backupDbFile_db (disk : Disk) (version : ℕ) : (backupDbFile disk version).db = disk.db := by
  rw [backupDbFile]
  cases disk.backups version <;> rfl

/-- Whether the runner applies migrations: the database is older than the target, and stamped unless
the target is 1. -/
def Pending (current target : ℕ) : Prop := current < target ∧ ¬ (current = 0 ∧ target > 1)

instance (current target : ℕ) : Decidable (Pending current target) :=
  inferInstanceAs (Decidable (_ ∧ _))

/-- The databases that a run commits, after the backup, on a contiguous chain. -/
def committed (target : ℕ) (migrations : List Migration) (db : Database) : List Database :=
  if Pending (currentSchemaVersion db) target then
    let applied := applyMigrations
      (migrations.filter (currentSchemaVersion db ≤ ·.fromVersion)) db
    match applied.2 with
    | .error _ => applied.1
    | .ok db => applied.1 ++ [stampSchemaVersion db target]
  else []

section Run

variable {target : ℕ} {migrations : List Migration}

theorem map_db_states (h : migrations.map Migration.fromVersion = List.range' 1 (target - 1))
    (disk : Disk) :
    (runMigrationsTo target migrations disk).states.map Disk.db =
      if Pending (currentSchemaVersion disk.db) target then
        disk.db :: committed target migrations disk.db
      else [] := by
  have hsaved : ∀ version,
      (if migrations = [] then disk else backupDbFile disk version).db = disk.db := by
    intro version
    split_ifs
    · rfl
    · exact backupDbFile_db disk version
  rw [runMigrationsTo, committed]
  by_cases hpending : Pending (currentSchemaVersion disk.db) target
  · obtain ⟨hlt, hstamped⟩ := hpending
    have hp : Pending (currentSchemaVersion disk.db) target := ⟨hlt, hstamped⟩
    simp only [if_pos hp, if_neg (Nat.not_lt_of_gt hlt), if_neg hstamped, if_neg hlt.ne, h, ne_eq,
      not_true_eq_false, if_false]
    split <;> simp [hsaved, Function.comp_def]
  · rw [if_neg hpending]
    split_ifs with h₁ h₂ h₃ h₄
    · rfl
    · rfl
    · rfl
    · exact absurd ⟨by omega, h₂⟩ hpending
    · exact absurd ⟨by omega, h₂⟩ hpending

theorem crashed_db (h : migrations.map Migration.fromVersion = List.range' 1 (target - 1))
    {disk crashed : Disk} (hc : crashed ∈ disk :: (runMigrationsTo target migrations disk).states) :
    crashed.db = disk.db ∨ crashed.db ∈ committed target migrations disk.db := by
  obtain rfl | hc := mem_cons.1 hc
  · exact Or.inl rfl
  · have hmem := mem_map_of_mem (f := Disk.db) hc
    rw [map_db_states h] at hmem
    split_ifs at hmem
    · exact mem_cons.1 hmem
    · cases hmem

theorem final_db (h : migrations.map Migration.fromVersion = List.range' 1 (target - 1))
    (disk : Disk) :
    ((runMigrationsTo target migrations disk).final disk).db =
      (committed target migrations disk.db).getLast?.getD disk.db := by
  have hlast : ∀ states : List Disk,
      (states.getLast?.getD disk).db = (states.map Disk.db).getLast?.getD disk.db := by
    intro states
    rw [List.getLast?_map]
    cases states.getLast? <;> rfl
  rw [MigrationRun.final, hlast, map_db_states h]
  split_ifs with hpending
  · rw [List.getLast?_cons]
    rfl
  · rw [committed, if_neg hpending]

end Run

variable {current target : ℕ}

/-- Safety, seen from databases alone. -/
theorem crashSafe_of_committed
    (h : ∀ migrations : List Migration,
      migrations.map Migration.fromVersion = List.range' 1 (target - 1) →
      (∀ migration ∈ migrations, migration.Rerunnable) →
      ∀ db, currentSchemaVersion db = current → ∀ crashed ∈ committed target migrations db,
        (committed target migrations crashed).getLast?.getD crashed =
          (committed target migrations db).getLast?.getD db) :
    CrashSafe current target := by
  intro migrations hchain hrerun disk hcurrent crashed hcrashed
  rw [final_db hchain, final_db hchain]
  obtain hdb | hdb := crashed_db hchain hcrashed
  · rw [hdb]
  · exact h migrations hchain hrerun disk.db hcurrent crashed.db hdb

variable {migrations : List Migration} {db : Database}

/-! ### One pending migration -/

theorem committed_of_current {target : ℕ}
    (h : currentSchemaVersion db = target) : committed target migrations db = [] :=
  if_neg fun hpending => absurd hpending.1 (by omega)

theorem currentSchemaVersion_stamp (db : Database) (version : ℕ) :
    currentSchemaVersion (stampSchemaVersion db version) = version := rfl

theorem stampSchemaVersion_of_eq {version : ℕ}
    (h : db.schemaVersion = some version) : stampSchemaVersion db version = db := by
  rw [stampSchemaVersion, ← h]

theorem filter_pending {current : ℕ}
    (h : migrations.map Migration.fromVersion = List.range' 1 current) (hpos : 0 < current) :
    ∃ migration ∈ migrations, migration.fromVersion = current ∧
      migrations.filter (current ≤ ·.fromVersion) = [migration] := by
  obtain ⟨n, rfl⟩ := Nat.exists_eq_succ_of_ne_zero hpos.ne'
  rw [List.range'_concat] at h
  obtain ⟨earlier, last, rfl, hearlier, hlast⟩ := map_eq_append_iff.1 h
  obtain ⟨migration, rfl, hversion⟩ := map_eq_singleton_iff.1 hlast
  have hversion' : migration.fromVersion = n + 1 := by omega
  refine ⟨migration, by simp, hversion', ?_⟩
  have hnone : earlier.filter (n + 1 ≤ ·.fromVersion) = [] := by
    refine filter_eq_nil_iff.2 fun m hm => ?_
    have hrange : m.fromVersion ∈ List.range' 1 n := hearlier ▸ mem_map_of_mem hm
    rw [mem_range'_1] at hrange
    simp only [decide_eq_true_eq]
    omega
  rw [filter_append, hnone]
  simp [hversion']

theorem committed_singleton {migration : Migration}
    {current : ℕ} (hcurrent : currentSchemaVersion db = current) (hpos : 0 < current)
    (hfilter : migrations.filter (current ≤ ·.fromVersion) = [migration]) :
    committed (current + 1) migrations db =
      match migration.run db with
      | .error _ => []
      | .ok db' => [db', stampSchemaVersion db' (current + 1)] := by
  rw [committed, hcurrent, if_pos ⟨Nat.lt_succ_self _, by omega⟩, hfilter]
  simp only [applyMigrations]
  cases migration.run db <;> rfl

/-- A single migration that a crash kept from being stamped is applied again without effect. -/
theorem committed_again {current : ℕ}
    (hchain : migrations.map Migration.fromVersion = List.range' 1 current) (hpos : 0 < current)
    (hrerun : ∀ migration ∈ migrations, migration.Rerunnable) {db crashed : Database}
    (hcurrent : currentSchemaVersion db = current)
    (hcrashed : crashed ∈ committed (current + 1) migrations db) :
    (committed (current + 1) migrations crashed).getLast?.getD crashed =
      (committed (current + 1) migrations db).getLast?.getD db := by
  obtain ⟨migration, hmem, hversion, hfilter⟩ := filter_pending hchain hpos
  have hdb := committed_singleton hcurrent hpos hfilter
  cases hrun : migration.run db with
  | error error =>
    rw [hdb, hrun] at hcrashed
    cases hcrashed
  | ok db' =>
    rw [hrun] at hdb
    rw [hdb] at hcrashed ⊢
    have hlast : ([db', stampSchemaVersion db' (current + 1)].getLast?.getD db) =
        stampSchemaVersion db' (current + 1) := rfl
    rw [hlast]
    obtain rfl | hcrashed := mem_cons.1 hcrashed
    · obtain hkept | hstamped :=
        (hrerun migration hmem).version db crashed (hcurrent.trans hversion.symm) hrun
      · have hcurrent' : currentSchemaVersion crashed = current := by
          rw [currentSchemaVersion, hkept]
          exact hcurrent
        rw [committed_singleton hcurrent' hpos hfilter,
          (hrerun migration hmem).again db crashed (hcurrent.trans hversion.symm) hrun]
        rfl
      · rw [hversion] at hstamped
        rw [stampSchemaVersion_of_eq hstamped, committed_of_current (by
          rw [currentSchemaVersion, hstamped]
          rfl)]
        rfl
    · rw [mem_singleton.1 hcrashed, committed_of_current (currentSchemaVersion_stamp _ _)]
      rfl

theorem crashSafe_of_le (h : current = 0 ∨ target ≤ current + 1) :
    CrashSafe current target := by
  refine crashSafe_of_committed fun migrations hchain hrerun db hcurrent crashed hcrashed => ?_
  by_cases hpending : Pending current target
  · obtain ⟨hlt, hstamped⟩ := hpending
    by_cases hzero : current = 0
    · -- A database that was never stamped: there is nothing to migrate, only the stamp.
      have htarget : target = 1 := by omega
      subst htarget
      have hnil : migrations = [] := by simpa using hchain
      have hdb : committed 1 migrations db = [stampSchemaVersion db 1] := by
        rw [committed, hcurrent, if_pos ⟨hlt, hstamped⟩, hnil]
        rfl
      rw [hdb] at hcrashed ⊢
      rw [mem_singleton.1 hcrashed, committed_of_current (currentSchemaVersion_stamp _ _)]
      rfl
    · have htarget : target = current + 1 := by omega
      subst htarget
      exact committed_again hchain (Nat.pos_of_ne_zero hzero) hrerun hcurrent hcrashed
  · rw [committed, hcurrent, if_neg hpending] at hcrashed
    cases hcrashed

/-! ### Two pending migrations -/

/-- Rewrites every turn row. -/
def Database.mapTurns (f : Bytes → Bytes) (db : Database) : Database :=
  { db with turns := db.turns.map fun _ blob => f blob }

/-- Tags a row with 1, unless it is tagged so. -/
def wrapRow (blob : Bytes) : Bytes := if blob.head? = some 1 then blob else 1 :: blob

/-- Replaces a tag 1 by 2. -/
def rewrapRow (blob : Bytes) : Bytes := if blob.head? = some 1 then 2 :: blob.tail else blob

/-- A chain with two changes of the row format, at the current version and at the next one. -/
def retagStep (current version : ℕ) : Bytes → Bytes :=
  if version = current then wrapRow else if version = current + 1 then rewrapRow else id

/-- The migrations of that chain. -/
def retagMigration (current version : ℕ) : Migration where
  fromVersion := version
  run := fun db => .ok (db.mapTurns (retagStep current version))

theorem retagStep_retagStep (current version : ℕ) (blob : Bytes) :
    retagStep current version (retagStep current version blob) = retagStep current version blob := by
  rw [retagStep]
  split_ifs with h₁ h₂
  · by_cases h : blob.head? = some 1 <;> simp [wrapRow, h]
  · by_cases h : blob.head? = some 1 <;> simp [rewrapRow, h]
  · rfl

/-- Each change of the row format can be applied again, to any database. -/
theorem rerunnable_retagMigration (current version : ℕ) :
    (retagMigration current version).Rerunnable where
  again := by
    rintro db db' - hrun
    cases hrun
    refine congrArg Except.ok ?_
    simp only [Database.mapTurns]
    congr 1
    ext key blob
    simp [Std.ExtTreeMap.getElem?_map, retagStep_retagStep]
  version := by
    rintro db db' - hrun
    cases hrun
    exact Or.inl rfl

theorem getElem_mapTurns (f : Bytes → Bytes) (db : Database) (key : TurnKey) :
    (db.mapTurns f).turns[key]? = db.turns[key]?.map f :=
  Std.ExtTreeMap.getElem?_map

theorem range'_eq_pending (hpos : 0 < current) (hle : current + 2 ≤ target) :
    (List.range' 1 (target - 1)).filter (current ≤ ·) =
      current :: (current + 1) :: List.range' (current + 2) (target - current - 2) := by
  have hsplit : List.range' 1 (target - 1) =
      List.range' 1 (current - 1) ++
        current :: (current + 1) :: List.range' (current + 2) (target - current - 2) := by
    obtain ⟨n, rfl⟩ := Nat.exists_eq_add_of_le hle
    obtain ⟨c, rfl⟩ := Nat.exists_eq_succ_of_ne_zero hpos.ne'
    have happend := @List.range'_append_1 1 c (n + 2)
    rw [show c.succ + 2 + n - 1 = c + (n + 2) by omega, ← happend, List.range'_succ,
      List.range'_succ, Nat.add_comm 1 c, show c.succ + 2 + n - c.succ - 2 = n by omega]
    rfl
  rw [hsplit, filter_append]
  have hnone : (List.range' 1 (current - 1)).filter (current ≤ ·) = [] := by
    refine filter_eq_nil_iff.2 fun v hv => ?_
    rw [mem_range'_1] at hv
    simp only [decide_eq_true_eq]
    omega
  have hall : (List.range' (current + 2) (target - current - 2)).filter (current ≤ ·) =
      List.range' (current + 2) (target - current - 2) := by
    refine filter_eq_self.2 fun v hv => ?_
    rw [mem_range'_1] at hv
    simp only [decide_eq_true_eq]
    omega
  simp [hnone, hall]

/-- The later migrations of the chain change nothing. -/
theorem applyMigrations_later (current : ℕ) (versions : List ℕ)
    (h : ∀ version ∈ versions, current + 2 ≤ version) (db : Database) :
    (applyMigrations (versions.map (retagMigration current)) db).2 = .ok db := by
  induction versions generalizing db with
  | nil => rfl
  | cons version versions ih =>
    have hid : db.mapTurns (retagStep current version) = db := by
      have hversion := h version (by simp)
      have hstep : retagStep current version = id := by
        rw [retagStep, if_neg (by omega), if_neg (by omega)]
      rw [Database.mapTurns, hstep]
      congr 1
      ext key blob
      simp
    rw [map_cons, applyMigrations]
    simp only [retagMigration, hid]
    exact ih (fun v hv => h v (mem_cons_of_mem _ hv)) db

theorem committed_retag (hpos : 0 < current) (hle : current + 2 ≤ target)
    (hcurrent : currentSchemaVersion db = current) :
    ∃ later, committed target ((List.range' 1 (target - 1)).map (retagMigration current)) db =
      db.mapTurns wrapRow :: (db.mapTurns wrapRow).mapTurns rewrapRow :: later ++
        [stampSchemaVersion ((db.mapTurns wrapRow).mapTurns rewrapRow) target] := by
  have hfilter : ((List.range' 1 (target - 1)).map (retagMigration current)).filter
      (current ≤ ·.fromVersion) =
      retagMigration current current :: retagMigration current (current + 1) ::
        (List.range' (current + 2) (target - current - 2)).map (retagMigration current) := by
    have hcomp : (fun m : Migration => decide (current ≤ m.fromVersion)) ∘ retagMigration current =
        fun version => decide (current ≤ version) := rfl
    rw [filter_map, hcomp, range'_eq_pending hpos hle]
    rfl
  have hwrap : retagStep current current = wrapRow := if_pos rfl
  have hrewrap : retagStep current (current + 1) = rewrapRow := by
    rw [retagStep, if_neg (by omega), if_pos rfl]
  have hlater := applyMigrations_later current (List.range' (current + 2) (target - current - 2))
    (fun v hv => (mem_range'_1.1 hv).1) ((db.mapTurns wrapRow).mapTurns rewrapRow)
  rw [committed, hcurrent, if_pos ⟨by omega, by omega⟩, hfilter]
  simp only [applyMigrations, retagMigration, hwrap, hrewrap] at hlater ⊢
  rw [hlater]
  exact ⟨_, rfl⟩

/-- Two pending migrations are not safe: a crash before the stamp applies the first of them to what
the second one left. -/
theorem not_crashSafe (hpos : 0 < current) (hle : current + 2 ≤ target) :
    ¬ CrashSafe current target := by
  intro hsafe
  let db : Database :=
    { turns := (∅ : Std.ExtTreeMap TurnKey Bytes compareTurnKey).insert (1, 0) []
      schemaVersion := some current }
  let twice : Database := (db.mapTurns wrapRow).mapTurns rewrapRow
  let migrations := (List.range' 1 (target - 1)).map (retagMigration current)
  have hchain : migrations.map Migration.fromVersion = List.range' 1 (target - 1) := by
    rw [map_map]
    exact List.map_id _
  have hrerun : ∀ migration ∈ migrations, migration.Rerunnable := by
    intro migration hm
    obtain ⟨version, -, rfl⟩ := mem_map.1 hm
    exact rerunnable_retagMigration current version
  have hcurrent : currentSchemaVersion db = current := rfl
  have hcurrent' : currentSchemaVersion twice = current := rfl
  obtain ⟨later, hfirst⟩ := committed_retag hpos hle hcurrent
  obtain ⟨later', hsecond⟩ := committed_retag hpos hle hcurrent'
  have hpending : Pending (currentSchemaVersion db) target := by
    change current < target ∧ ¬ (current = 0 ∧ target > 1)
    omega
  have hmem : twice ∈ (runMigrationsTo target migrations ⟨db, fun _ => none⟩).states.map Disk.db := by
    rw [map_db_states hchain, if_pos hpending, hfirst]
    simp [twice]
  obtain ⟨crashed, hcrashed, hdb⟩ := mem_map.1 hmem
  have hsame := hsafe migrations hchain hrerun ⟨db, fun _ => none⟩ rfl crashed
    (mem_cons_of_mem _ hcrashed)
  rw [final_db hchain, final_db hchain, hdb, hfirst, hsecond, List.getLast?_concat,
    List.getLast?_concat] at hsame
  have hrow := congrArg (fun d : Database => d.turns[((1, 0) : TurnKey)]?) hsame
  simp [stampSchemaVersion, getElem_mapTurns, twice, db, wrapRow, rewrapRow] at hrow

/-- The runner is crash safe exactly when at most one migration is pending: versions are stamped
after the last migration only. -/
theorem crashSafe_iff (current target : ℕ) :
    CrashSafe current target ↔ current = 0 ∨ target ≤ current + 1 := by
  constructor
  · intro hsafe
    by_contra hcon
    obtain ⟨hzero, hlt⟩ := not_or.1 hcon
    exact not_crashSafe (Nat.pos_of_ne_zero hzero) (by omega) hsafe
  · exact crashSafe_of_le

/-- Two migrations from version 1 to version 3. -/
theorem not_crashSafe_one_three : ¬ CrashSafe 1 3 := not_crashSafe (by decide) (by decide)

end Choreo
