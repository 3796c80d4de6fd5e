import OnlyJs.Oj.Migrate.Listing

/-!
# Verifying the ledger before a release starts

A release starts only if nothing is left to migrate. The migrator leaves the comparison of the
ledger with the migrations to its library; the check before a start makes one of its own.
-/

namespace OnlyJs.Oj.Migrate

open Bridge Lib List Lib.Fallible

set_option autoImplicit false

def knownDialect (name : Text) : Option Dialect :=
  if name = "mysql".toList then some .mySql
  else if name = "postgres".toList || name = "postgresql".toList then some .postgres
  else if name = "sqlite".toList then some .sqlite
  else none

def unsupported (dialect capability : Text) : Text :=
  capability ++ " is not supported on dialect \"".toList ++ dialect ++
    "\" yet. See docs/devkit/db-guide.md 方言能力矩阵.".toList

def knownDialectOf (name op : Text) : Except Text Dialect :=
  match knownDialect name with
  | some dialect => .ok dialect
  | none => .error (unsupported name op)

def ledgerDdl : Text :=
  ("CREATE TABLE IF NOT EXISTS _oj_migrations (module VARCHAR(255) NOT NULL, " ++
    "version int8 NOT NULL, name VARCHAR(255), applied_on VARCHAR(255), " ++
    "checksum VARCHAR(255), PRIMARY KEY (module, version));").toList

structure Accessor (Data Change : Type) where
  name : Text
  engine : Engine Data Change
  opens : Database Data → Except Text Unit
  commits : Database Data → Except Text Unit

variable {Data Change Time : Type}

namespace Accessor

variable (accessor : Accessor Data Change)

def run (database : Database Data) (stmt : Text) : Except Text (Database Data) :=
  match accessor.engine.exec stmt database with
  | .failed error => .error error
  | .done change => .ok (accessor.engine.applyAll change.toList database)

def lockStmt (moduleName : Text) : Text :=
  "SELECT pg_advisory_xact_lock(".toList ++ decimal (lockIdOf moduleName) ++ [')']

def runTx (database : Database Data) (stmts : List Text) : Except Text (Database Data) := do
  accessor.opens database
  let changed ← stmts.foldlM accessor.run database
  accessor.commits changed
  return changed

def runAll (dialect : Dialect) (moduleName : Text) (database : Database Data)
    (stmts : List Text) : Except Text (Database Data) :=
  match dialect with
  | .sqlite => accessor.runTx database stmts
  | .postgres => accessor.runTx database (lockStmt moduleName :: stmts)
  | .mySql => (stmts.map mysqlLedgerDdl).foldlM accessor.run database

/-- `OjConn::execute`. -/
def execute (dialect : Dialect) (moduleName : Text) (database : Database Data)
    (queries : List Text) : Except Text (Database Data) := do
  let stmts ← statementsOf queries moduleName
  accessor.runAll dialect moduleName database stmts

end Accessor

/-- `get_applied_migrations` of the library. -/
def appliedMigrations (engine : Engine Data Change) (libraries : Libraries Time)
    (moduleName : Text) (database : Database Data) : Except Text (List (Applied Time)) := do
  let sql ← scopeModule appliedQuery moduleName
  let rows ← engine.query sql database
  rows.mapM (appliedOf libraries)

/-- A module that is migrated or verified, and what is around it. `job` tells the runs of the
migrator apart. -/
structure Site (Data Change Time : Type) where
  accessor : Accessor Data Change
  libraries : Libraries Time
  unapplied : Text → Text → Except Text Migration
  walk : Walk
  job : Nat
  moduleName : Text
  mdir : Text
  directory : Directory
  database : Database Data

namespace Site

variable (site : Site Data Change Time)

def load (dialect : Dialect) : Except Text (List Migration) :=
  loadMigrations site.unapplied site.walk (site.mdir ++ "/migrations".toList) site.directory dialect

def assertLedger (dialect : Dialect) : Except Text (Database Data) :=
  site.accessor.execute dialect site.moduleName site.database [ledgerDdl]

/-- What the library does with one migration after the other. -/
def applyOne (dialect : Dialect) (database : Database Data) (migration : Migration) :
    Except Text (Database Data) :=
  site.accessor.execute dialect site.moduleName database
    [migration.sql, refineryInsertHead ++ site.libraries.insertValues site.job migration]

def runModule (migrations : List Migration) : Except Text (List Migration × Database Data) := do
  let dialect ← knownDialectOf site.accessor.name "migrate".toList
  let asserted ← site.assertLedger dialect
  let pending ← pendingOf site.accessor.engine site.libraries site.moduleName migrations asserted
  let migrated ← pending.foldlM (site.applyOne dialect) asserted
  return (pending, migrated)

def aheadError (ahead : List (Applied Time)) (head : Int) : Text :=
  "M003: 模块 ".toList ++ site.moduleName ++ " 账本 seq（".toList ++
    [','].intercalate (ahead.map fun row => decimal row.version) ++
    "）超过产物 migrations 最大 seq（".toList ++ decimal head ++
    "）——降版部署被禁止（§4.6）\n  下一步：部署含最新迁移的产物；".toList ++
    "人工回退账本须同步回退 DDL 并自担数据风险".toList

def pendingError (pending : List Migration) : Text :=
  "M004: 模块 ".toList ++ site.moduleName ++ " 有 ".toList ++ decimal pending.length ++
    " 个待应用迁移（".toList ++ ", ".toList.intercalate (pending.map Migration.name) ++
    "）——verify 模式拒启\n  下一步：oj migrate -c <config> -d <dir>".toList

def verifyRows (migrations : List Migration) (head : Migration) (applied : List (Applied Time)) :
    Except Text Unit := do
  let ahead := applied.filter fun row => head.version < row.version
  reject (!ahead.isEmpty) (site.aheadError ahead head.version)
  let pending := migrations.filter fun migration =>
    !(applied.map Applied.version).contains migration.version
  reject (!pending.isEmpty) (site.pendingError pending)

def verifyLoaded (dialect : Dialect) (migrations : List Migration) : Except Text Unit :=
  match migrations.getLast? with
  | none => .ok ()
  | some head => do
      let asserted ← (site.assertLedger dialect).mapError fun error =>
        "module ".toList ++ site.moduleName ++ ": assert ledger: ".toList ++ error
      let applied ← appliedMigrations site.accessor.engine site.libraries site.moduleName asserted
      site.verifyRows migrations head applied

def verifyModule : Except Text Unit := do
  let dialect ← knownDialectOf site.accessor.name "migrate".toList
  let migrations ← site.load dialect
  site.verifyLoaded dialect migrations

end Site

/-- The row was written for the migration. -/
def Applied.isOf (row : Applied Time) (migration : Migration) : Prop :=
  row.version = migration.version ∧ row.name = migration.name ∧ row.checksum = migration.checksum

/-- The library stops on a row without a migration and on one of another migration, and otherwise
leaves what has no row. -/
structure Verifies (verify : List (Applied Time) → List Migration → Except Text (List Migration)) :
    Prop where
  missing : ∀ applied migrations row, row ∈ applied →
    (∀ migration ∈ migrations, migration.version ≠ row.version) →
      ∃ error, verify applied migrations = .error error
  divergent : ∀ applied migrations row migration, (migrations.map Migration.version).Nodup →
    row ∈ applied → migration ∈ migrations → migration.version = row.version →
      ¬ row.isOf migration → ∃ error, verify applied migrations = .error error
  left : ∀ applied migrations pending, verify applied migrations = .ok pending →
    ∀ migration ∈ migrations, (∀ row ∈ applied, row.version ≠ migration.version) →
      migration ∈ pending
  nothing : ∀ applied migrations, (migrations.map Migration.version).Nodup →
    (∀ row ∈ applied, ∃ migration ∈ migrations, row.isOf migration) →
    (∀ migration ∈ migrations, ∃ row ∈ applied, row.version = migration.version) →
      verify applied migrations = .ok []

/-- The same versions with the same checksums. -/
def SameVersions (applied : List (Applied Time)) (migrations : List Migration) : Prop :=
  ∀ version checksum, (∃ row ∈ applied, row.version = version ∧ row.checksum = checksum) ↔
    ∃ migration ∈ migrations, migration.version = version ∧ migration.checksum = checksum

namespace Site

variable (site : Site Data Change Time)

/-- The ledger has these rows of the module. -/
def Reads (dialect : Dialect) (applied : List (Applied Time)) : Prop :=
  ∃ asserted, site.assertLedger dialect = .ok asserted ∧
    appliedMigrations site.accessor.engine site.libraries site.moduleName asserted = .ok applied

/-- The check passes exactly if the ledger is that of the migrations, and exactly if a migrator
had nothing to apply and nothing to complain about. -/
structure Guarded : Prop where
  exact : site.verifyModule = .ok () ↔ ∃ dialect migrations applied,
    knownDialect site.accessor.name = some dialect ∧ site.load dialect = .ok migrations ∧
      site.Reads dialect applied ∧ SameVersions applied migrations
  idle : site.verifyModule = .ok () ↔ ∃ dialect migrations,
    knownDialect site.accessor.name = some dialect ∧ site.load dialect = .ok migrations ∧
      ∃ database, site.runModule migrations = .ok ([], database)

/-- Without migrations there are no rows. With some, rows for all of them and none behind them
are rows of theirs. -/
structure Unhidden : Prop where
  none_ : ∀ dialect, knownDialect site.accessor.name = some dialect → site.load dialect = .ok [] →
    site.Reads dialect []
  some_ : ∀ dialect migrations applied, knownDialect site.accessor.name = some dialect →
    site.load dialect = .ok migrations → migrations ≠ [] → site.Reads dialect applied →
    (∀ migration ∈ migrations, ∃ row ∈ applied, row.version = migration.version) →
    (∀ row ∈ applied, ∃ migration ∈ migrations, row.version ≤ migration.version) →
      ∀ row ∈ applied, ∃ migration ∈ migrations, row.isOf migration

end Site

theorem known_dialect_ok {name op : Text} {dialect : Dialect} :
    knownDialectOf name op = .ok dialect ↔ knownDialect name = some dialect := by
  unfold knownDialectOf
  cases knownDialect name with
  | none => exact ⟨nofun, nofun⟩
  | some known =>
    rw [Except.ok.injEq, Option.some.injEq]

variable {migrations : List Migration}

theorem load_sorted {unapplied : Text → Text → Except Text Migration} {walk : Walk} {dir : Text}
    {directory : Directory} {dialect : Dialect} (documented : Unapplies unapplied)
    (loaded : loadMigrations unapplied walk dir directory dialect = .ok migrations) :
    migrations.Pairwise fun first second => first.version < second.version := by
  cases directory with
  | absent =>
    cases loaded
    exact List.Pairwise.nil
  | failed error => cases loaded
  | listed files => exact ((load_iff documented).mp loaded).2.sorted

theorem sorted_distinct
    (sorted : migrations.Pairwise fun first second => first.version < second.version) :
    (migrations.map Migration.version).Nodup := by
  apply pairwise_map.mpr
  exact sorted.imp fun before => ne_of_lt before

theorem version_le_head {head : Migration}
    (sorted : migrations.Pairwise fun first second => first.version < second.version)
    (last : migrations.getLast? = some head) (version : Int) :
    version ≤ head.version ↔ ∃ migration ∈ migrations, version ≤ migration.version := by
  obtain ⟨front, rfl⟩ := getLast?_eq_some_iff.mp last
  constructor
  · intro below
    exact ⟨head, mem_append_right _ mem_cons_self, below⟩
  · rintro ⟨migration, listed, below⟩
    rcases mem_append.mp listed with earlier | here
    · have before := (pairwise_append.mp sorted).2.2 migration earlier head mem_cons_self
      exact le_trans below (le_of_lt before)
    · rw [mem_singleton.mp here] at below
      exact below

theorem ledger_stmts (moduleName : Text) :
    statementsOf [ledgerDdl] moduleName = .ok [ledgerDdl.dropLast] := by
  have cut : splitStmts ledgerDdl = [ledgerDdl.dropLast] := by
    decide +kernel
  have foreign : ledgerDdl.dropLast.dropPrefix? refineryInsertHead = none := by
    decide +kernel
  have other : ("INSERT INTO ".toList.isPrefixOf ledgerDdl.dropLast &&
      ledgerTable.isPrefixOf (ledgerDdl.dropLast.drop 12)) = false := by
    decide +kernel
  unfold statementsOf
  rw [flatMap_singleton, cut, mapM_cons, tagModule, foreign]
  rw [other]
  rfl

namespace Site

variable {site : Site Data Change Time}

variable {migrations : List Migration} {applied : List (Applied Time)}

theorem verify_rows_ok {head : Migration} :
    site.verifyRows migrations head applied = .ok () ↔
      (∀ row ∈ applied, row.version ≤ head.version) ∧
        ∀ migration ∈ migrations, ∃ row ∈ applied, row.version = migration.version := by
  have ahead : (applied.filter fun row => head.version < row.version) = [] ↔
      ∀ row ∈ applied, row.version ≤ head.version := by
    rw [filter_eq_nil_iff]
    apply forall₂_congr
    intro row _
    rw [decide_eq_true_iff, not_lt]
  have pending : (migrations.filter fun migration =>
      !(applied.map Applied.version).contains migration.version) = [] ↔
      ∀ migration ∈ migrations, ∃ row ∈ applied, row.version = migration.version := by
    rw [filter_eq_nil_iff]
    apply forall₂_congr
    intro migration _
    rw [Bool.not_eq_true, Bool.not_eq_false', contains_iff_mem, mem_map]
  unfold verifyRows
  rw [bind_ok]
  constructor
  · rintro ⟨_, none_, rest⟩
    rw [reject_ok, Bool.not_eq_false', List.isEmpty_iff] at none_ rest
    exact ⟨ahead.mp none_, pending.mp rest⟩
  · rintro ⟨below, all⟩
    refine ⟨(), ?_, ?_⟩
    · rw [reject_ok, Bool.not_eq_false', List.isEmpty_iff]
      exact ahead.mpr below
    · rw [reject_ok, Bool.not_eq_false', List.isEmpty_iff]
      exact pending.mpr all

/-- Every migration has a row, and no row is behind them all. -/
def Covered (applied : List (Applied Time)) (migrations : List Migration) : Prop :=
  (∀ row ∈ applied, ∃ migration ∈ migrations, row.version ≤ migration.version) ∧
    ∀ migration ∈ migrations, ∃ row ∈ applied, row.version = migration.version

theorem verify_loaded_ok {dialect : Dialect}
    (sorted : migrations.Pairwise fun first second => first.version < second.version) :
    site.verifyLoaded dialect migrations = .ok () ↔
      migrations = [] ∨ ∃ applied, site.Reads dialect applied ∧ Covered applied migrations := by
  unfold verifyLoaded
  cases last : migrations.getLast? with
  | none => exact ⟨fun _ => .inl (getLast?_eq_none_iff.mp last), fun _ => rfl⟩
  | some head =>
    have some_ : migrations ≠ [] := by
      rintro rfl
      cases last
    rw [bind_ok, or_iff_right some_]
    constructor
    · rintro ⟨asserted, created, rest⟩
      obtain ⟨applied, read, compared⟩ := bind_ok.mp rest
      obtain ⟨below, all⟩ := verify_rows_ok.mp compared
      refine ⟨applied, ⟨asserted, map_error_ok.mp created, read⟩, ?_, all⟩
      intro row listed
      exact (version_le_head sorted last _).mp (below row listed)
    · rintro ⟨applied, ⟨asserted, created, read⟩, below, all⟩
      refine ⟨asserted, map_error_ok.mpr created, bind_ok.mpr ⟨applied, read, ?_⟩⟩
      refine verify_rows_ok.mpr ⟨?_, all⟩
      intro row listed
      exact (version_le_head sorted last _).mpr (below row listed)

theorem verify_module_ok (documented : Unapplies site.unapplied) :
    site.verifyModule = .ok () ↔ ∃ dialect migrations,
      knownDialect site.accessor.name = some dialect ∧ site.load dialect = .ok migrations ∧
        (migrations = [] ∨ ∃ applied, site.Reads dialect applied ∧ Covered applied migrations) := by
  unfold verifyModule
  rw [bind_ok]
  apply exists_congr
  intro dialect
  rw [known_dialect_ok, bind_ok]
  constructor
  · rintro ⟨known, migrations, loaded, verified⟩
    exact ⟨migrations, known, loaded,
      (verify_loaded_ok (load_sorted documented loaded)).mp verified⟩
  · rintro ⟨migrations, known, loaded, verified⟩
    exact ⟨known, migrations, loaded,
      (verify_loaded_ok (load_sorted documented loaded)).mpr verified⟩

/-- Each row is of a migration, and each migration has one. -/
def Settled (applied : List (Applied Time)) (migrations : List Migration) : Prop :=
  (∀ row ∈ applied, ∃ migration ∈ migrations, row.isOf migration) ∧
    ∀ migration ∈ migrations, ∃ row ∈ applied, row.version = migration.version

theorem verify_nothing_iff
    {verify : List (Applied Time) → List Migration → Except Text (List Migration)}
    (verifies : Verifies verify) (distinct : (migrations.map Migration.version).Nodup) :
    verify applied migrations = .ok [] ↔ Settled applied migrations := by
  constructor
  · intro nothing
    have stops (stopped : ∃ error, verify applied migrations = .error error) : False := by
      obtain ⟨error, failed⟩ := stopped
      rw [nothing] at failed
      cases failed
    constructor
    · intro row listed
      by_contra none_
      by_cases there : ∃ migration ∈ migrations, migration.version = row.version
      · obtain ⟨migration, member, same⟩ := there
        apply stops
        exact verifies.divergent applied migrations row migration distinct listed member same
          fun own => none_ ⟨migration, member, own⟩
      · apply stops
        exact verifies.missing applied migrations row listed fun migration member same =>
          there ⟨migration, member, same⟩
    · intro migration member
      by_contra none_
      have kept := verifies.left applied migrations [] nothing migration member
        fun row listed same => none_ ⟨row, listed, same⟩
      cases kept
  · rintro ⟨own, all⟩
    exact verifies.nothing applied migrations distinct own all

theorem pending_ok {engine : Engine Data Change} {libraries : Libraries Time} {moduleName : Text}
    {pending : List Migration} {database : Database Data} :
    pendingOf engine libraries moduleName migrations database = .ok pending ↔
      ∃ applied, appliedMigrations engine libraries moduleName database = .ok applied ∧
        libraries.verify applied migrations = .ok pending := by
  constructor
  · intro left
    obtain ⟨sql, narrowed, left⟩ := bind_ok.mp left
    obtain ⟨rows, queried, left⟩ := bind_ok.mp left
    obtain ⟨applied, parsed, left⟩ := bind_ok.mp left
    exact ⟨applied, bind_ok.mpr ⟨sql, narrowed, bind_ok.mpr ⟨rows, queried, parsed⟩⟩, left⟩
  · rintro ⟨applied, read, left⟩
    obtain ⟨sql, narrowed, read⟩ := bind_ok.mp read
    obtain ⟨rows, queried, parsed⟩ := bind_ok.mp read
    exact bind_ok.mpr ⟨sql, narrowed, bind_ok.mpr ⟨rows, queried,
      bind_ok.mpr ⟨applied, parsed, left⟩⟩⟩

theorem run_idle_iff (verifies : Verifies site.libraries.verify) {dialect : Dialect}
    (known : knownDialect site.accessor.name = some dialect)
    (distinct : (migrations.map Migration.version).Nodup) :
    (∃ database, site.runModule migrations = .ok ([], database)) ↔
      ∃ applied, site.Reads dialect applied ∧ Settled applied migrations := by
  have recognised : knownDialectOf site.accessor.name "migrate".toList = .ok dialect :=
    known_dialect_ok.mpr known
  unfold runModule
  rw [recognised]
  constructor
  · rintro ⟨database, ran⟩
    obtain ⟨_, first, ran⟩ := bind_ok.mp ran
    cases first
    obtain ⟨asserted, created, ran⟩ := bind_ok.mp ran
    obtain ⟨pending, left, ran⟩ := bind_ok.mp ran
    obtain ⟨migrated, _, same⟩ := bind_ok.mp ran
    cases same
    obtain ⟨applied, read, nothing⟩ := pending_ok.mp left
    exact ⟨applied, ⟨asserted, created, read⟩, (verify_nothing_iff verifies distinct).mp nothing⟩
  · rintro ⟨applied, ⟨asserted, created, read⟩, settled⟩
    have nothing := (verify_nothing_iff verifies distinct).mpr settled
    exact ⟨asserted, bind_ok.mpr ⟨dialect, rfl, bind_ok.mpr ⟨asserted, created,
      bind_ok.mpr ⟨[], pending_ok.mpr ⟨applied, read, nothing⟩, rfl⟩⟩⟩⟩

theorem same_covered (same : SameVersions applied migrations) : Covered applied migrations := by
  constructor
  · intro row listed
    obtain ⟨migration, member, version, _⟩ :=
      (same row.version row.checksum).mp ⟨row, listed, rfl, rfl⟩
    exact ⟨migration, member, le_of_eq version.symm⟩
  · intro migration member
    obtain ⟨row, listed, version, _⟩ :=
      (same migration.version migration.checksum).mpr ⟨migration, member, rfl, rfl⟩
    exact ⟨row, listed, version⟩

theorem settled_covered (settled : Settled applied migrations) : Covered applied migrations := by
  refine ⟨?_, settled.2⟩
  intro row listed
  obtain ⟨migration, member, own⟩ := settled.1 row listed
  exact ⟨migration, member, le_of_eq own.1⟩

theorem settled_same (distinct : (migrations.map Migration.version).Nodup)
    (settled : Settled applied migrations) :
    SameVersions applied migrations := by
  intro version checksum
  constructor
  · rintro ⟨row, listed, rfl, rfl⟩
    obtain ⟨migration, member, own⟩ := settled.1 row listed
    exact ⟨migration, member, own.1.symm, own.2.2.symm⟩
  · rintro ⟨migration, member, rfl, rfl⟩
    obtain ⟨row, listed, version⟩ := settled.2 migration member
    obtain ⟨other, there, own⟩ := settled.1 row listed
    have one : other = migration :=
      inj_on_of_nodup_map distinct there member (own.1.symm.trans version)
    rw [one] at own
    exact ⟨row, listed, own.1, own.2.2⟩

/-- The check does what it is for exactly where no ledger is hidden from it. -/
theorem verify_guarded_iff (documented : Unapplies site.unapplied)
    (verifies : Verifies site.libraries.verify) : site.Guarded ↔ site.Unhidden := by
  have distinct {dialect : Dialect} {migrations : List Migration}
      (loaded : site.load dialect = .ok migrations) : (migrations.map Migration.version).Nodup :=
    sorted_distinct (load_sorted documented loaded)
  constructor
  · intro guarded
    have settles {dialect : Dialect} {migrations : List Migration}
        (known : knownDialect site.accessor.name = some dialect)
        (loaded : site.load dialect = .ok migrations) (verified : site.verifyModule = .ok ()) :
        ∃ applied, site.Reads dialect applied ∧ Settled applied migrations := by
      obtain ⟨other, others, again, same, idle⟩ := guarded.idle.mp verified
      rw [known, Option.some.injEq] at again
      subst again
      rw [loaded, Except.ok.injEq] at same
      subst same
      exact (run_idle_iff verifies known (distinct loaded)).mp idle
    constructor
    · intro dialect known loaded
      have verified := (verify_module_ok documented).mpr ⟨dialect, [], known, loaded, .inl rfl⟩
      obtain ⟨applied, read, own, _⟩ := settles known loaded verified
      cases applied with
      | nil => exact read
      | cons row rest =>
        obtain ⟨_, absurd, _⟩ := own row mem_cons_self
        cases absurd
    · intro dialect migrations applied known loaded some_ read all below
      have verified := (verify_module_ok documented).mpr
        ⟨dialect, migrations, known, loaded, .inr ⟨applied, read, below, all⟩⟩
      obtain ⟨others, again, own, _⟩ := settles known loaded verified
      obtain ⟨asserted, created, rows⟩ := read
      obtain ⟨other, createdToo, rowsToo⟩ := again
      rw [created, Except.ok.injEq] at createdToo
      subst createdToo
      rw [rows, Except.ok.injEq] at rowsToo
      subst rowsToo
      exact own
  · intro unhidden
    have settles {dialect : Dialect} {migrations : List Migration}
        (known : knownDialect site.accessor.name = some dialect)
        (loaded : site.load dialect = .ok migrations)
        (passed : migrations = [] ∨
          ∃ applied, site.Reads dialect applied ∧ Covered applied migrations) :
        ∃ applied, site.Reads dialect applied ∧ Settled applied migrations := by
      by_cases none_ : migrations = []
      · subst none_
        exact ⟨[], unhidden.none_ dialect known loaded, nofun, nofun⟩
      · obtain ⟨applied, read, below, all⟩ := passed.resolve_left none_
        exact ⟨applied, read,
          unhidden.some_ dialect migrations applied known loaded none_ read all below, all⟩
    constructor
    · rw [verify_module_ok documented]
      constructor
      · rintro ⟨dialect, migrations, known, loaded, passed⟩
        obtain ⟨applied, read, settled⟩ := settles known loaded passed
        exact ⟨dialect, migrations, applied, known, loaded, read,
          settled_same (distinct loaded) settled⟩
      · rintro ⟨dialect, migrations, applied, known, loaded, read, same⟩
        exact ⟨dialect, migrations, known, loaded, .inr ⟨applied, read, same_covered same⟩⟩
    · rw [verify_module_ok documented]
      apply exists_congr
      intro dialect
      apply exists_congr
      intro migrations
      apply and_congr_right
      intro known
      apply and_congr_right
      intro loaded
      rw [run_idle_iff verifies known (distinct loaded)]
      constructor
      · exact settles known loaded
      · rintro ⟨applied, read, settled⟩
        exact .inr ⟨applied, read, settled_covered settled⟩

end Site

def shownEngine : Engine Unit Unit where
  exec := fun _ _ => .done none
  apply := fun _ database => database
  query := fun _ database => .ok (database.ledger.map Row.shown)

def stopVerify (applied : List (Applied Unit)) (migrations : List Migration) :
    Except Text (List Migration) := do
  reject (applied.any fun row => !migrations.any fun migration =>
    migration.version = row.version) "missing".toList
  reject (applied.any fun row => migrations.any fun migration =>
    migration.version = row.version &&
      !(migration.name = row.name && migration.checksum = row.checksum)) "divergent".toList
  return migrations.filter fun migration => !applied.any fun row => row.version = migration.version

theorem stop_verify_ok {applied : List (Applied Unit)} {pending : List Migration} :
    stopVerify applied migrations = .ok pending ↔
      (∀ row ∈ applied, ∃ migration ∈ migrations, migration.version = row.version) ∧
        (∀ row ∈ applied, ∀ migration ∈ migrations, migration.version = row.version →
          row.isOf migration) ∧
        (migrations.filter fun migration =>
          !applied.any fun row => row.version = migration.version) = pending := by
  have present : (applied.any fun row => !migrations.any fun migration =>
      migration.version = row.version) = false ↔
      ∀ row ∈ applied, ∃ migration ∈ migrations, migration.version = row.version := by
    rw [any_eq_false]
    apply forall₂_congr
    intro row _
    rw [Bool.not_eq_true, Bool.not_eq_false', any_eq_true]
    simp only [decide_eq_true_iff]
  have own : (applied.any fun row => migrations.any fun migration =>
      migration.version = row.version &&
        !(migration.name = row.name && migration.checksum = row.checksum)) = false ↔
      ∀ row ∈ applied, ∀ migration ∈ migrations, migration.version = row.version →
        row.isOf migration := by
    rw [any_eq_false]
    apply forall₂_congr
    intro row _
    rw [Bool.not_eq_true, any_eq_false]
    apply forall₂_congr
    intro migration _
    rw [Bool.and_eq_true, not_and, decide_eq_true_iff]
    apply imp_congr_right
    intro same
    rw [Bool.not_eq_true, Bool.not_eq_false', Bool.and_eq_true, decide_eq_true_iff,
      decide_eq_true_iff]
    exact ⟨fun parts => ⟨same.symm, parts.1.symm, parts.2.symm⟩,
      fun own => ⟨own.2.1.symm, own.2.2.symm⟩⟩
  constructor
  · intro passed
    obtain ⟨_, first, passed⟩ := bind_ok.mp passed
    obtain ⟨_, second, same⟩ := bind_ok.mp passed
    cases same
    exact ⟨present.mp (reject_ok.mp first), own.mp (reject_ok.mp second), rfl⟩
  · rintro ⟨first, second, rfl⟩
    exact bind_ok.mpr ⟨(), reject_ok.mpr (present.mpr first),
      bind_ok.mpr ⟨(), reject_ok.mpr (own.mpr second), rfl⟩⟩

theorem stop_verifies : Verifies stopVerify := by
  have stops {applied : List (Applied Unit)} {migrations : List Migration}
      (never : ∀ pending, stopVerify applied migrations ≠ .ok pending) :
      ∃ error, stopVerify applied migrations = .error error := by
    cases result : stopVerify applied migrations with
    | error error => exact ⟨error, rfl⟩
    | ok pending => exact absurd result (never pending)
  constructor
  · intro applied migrations row listed none_
    apply stops
    intro pending passed
    obtain ⟨migration, member, same⟩ := (stop_verify_ok.mp passed).1 row listed
    exact none_ migration member same
  · intro applied migrations row migration _ listed member same other
    apply stops
    intro pending passed
    exact other ((stop_verify_ok.mp passed).2.1 row listed migration member same)
  · intro applied migrations pending passed migration member none_
    rw [← (stop_verify_ok.mp passed).2.2, mem_filter, Bool.not_eq_true', any_eq_false]
    refine ⟨member, ?_⟩
    intro row listed
    rw [decide_eq_true_iff]
    exact none_ row listed
  · intro applied migrations distinct own all
    apply stop_verify_ok.mpr
    refine ⟨?_, ?_, ?_⟩
    · intro row listed
      obtain ⟨migration, member, same⟩ := own row listed
      exact ⟨migration, member, same.1.symm⟩
    · intro row listed migration member version
      obtain ⟨other, there, same⟩ := own row listed
      have one : other = migration :=
        inj_on_of_nodup_map distinct there member (same.1.symm.trans version.symm)
      rw [← one]
      exact same
    · rw [filter_eq_nil_iff]
      intro migration member
      obtain ⟨row, listed, version⟩ := all migration member
      rw [Bool.not_eq_true, Bool.not_eq_false', any_eq_true]
      exact ⟨row, listed, decide_eq_true version⟩

def releaseSite (directory : Directory) : Site Unit Unit Unit where
  accessor :=
    { name := "sqlite".toList
      engine := shownEngine
      opens := fun _ => .ok ()
      commits := fun _ => .ok () }
  libraries :=
    { verify := stopVerify
      insertValues := fun _ _ => []
      parseTime := fun _ => .ok ()
      display := fun _ => [] }
  unapplied := plainUnapplied
  walk := plainWalk
  job := 0
  moduleName := "shop".toList
  mdir := "dist/shop-1".toList
  directory := directory
  database :=
    { data := ()
      ledger := [⟨"shop".toList, 1, "init".toList, "2026-01-01T00:00:00Z".toList, "0".toList⟩] }

def initRow : Applied Unit := ⟨1, "init".toList, (), 0⟩

def initMigration : Migration := ⟨1, "init".toList, 0, "x;".toList⟩

theorem release_reads {directory : Directory} {applied : List (Applied Unit)} :
    (releaseSite directory).Reads .sqlite applied ↔ applied = [initRow] := by
  have created : (releaseSite directory).assertLedger .sqlite =
      .ok (releaseSite directory).database := by
    unfold Site.assertLedger Accessor.execute
    rw [ledger_stmts]
    rfl
  have rows : appliedMigrations shownEngine (releaseSite directory).libraries "shop".toList
      (releaseSite directory).database = .ok [initRow] := by
    unfold appliedMigrations
    rw [scopeModule_appliedQuery]
    rfl
  constructor
  · rintro ⟨asserted, createdToo, read⟩
    rw [created, Except.ok.injEq] at createdToo
    subst createdToo
    exact Except.ok.inj (read.symm.trans rows)
  · rintro rfl
    exact ⟨_, created, rows⟩

theorem release_load : (releaseSite (.listed [sqlFile "0001__init.sql"])).load .sqlite =
    .ok [initMigration] := by
  have entries : entriesOf [sqlFile "0001__init.sql"] =
      [sqlEntry 1 "init" none "0001__init.sql"] := by
    decide +kernel
  have counted : (numbers [sqlFile "0001__init.sql"]).length = 1 := by
    decide +kernel
  apply (load_iff plain_unapplies).mpr
  refine ⟨{ named := by decide +kernel, described := ?_, consecutive := ?_ },
    { sorted := pairwise_singleton _ _, each := ?_, all := ?_ }⟩
  · rw [entries]
    decide +kernel
  · intro seq
    rw [entries]
    simp only [mem_singleton, exists_eq_left, sqlEntry]
    omega
  · intro migration inside
    rw [mem_singleton.mp inside]
    exact ⟨sqlEntry 1 "init" none "0001__init.sql", by decide +kernel, "x;".toList, rfl,
      by decide +kernel⟩
  · intro seq entry picked
    rw [entries] at picked
    obtain ⟨member, number, _⟩ := pick_mem picked
    rw [mem_singleton.mp member] at number
    exact ⟨initMigration, mem_singleton_self _, number⟩

theorem verify_guarded_release :
    (releaseSite (.listed [sqlFile "0001__init.sql"])).Guarded := by
  apply (Site.verify_guarded_iff plain_unapplies stop_verifies).mpr
  have sqlite {dialect : Dialect}
      (known : knownDialect "sqlite".toList = some dialect) : dialect = .sqlite := by
    cases known
    rfl
  constructor
  · intro dialect known loaded
    cases sqlite known
    rw [release_load] at loaded
    cases loaded
  · intro dialect migrations applied known loaded _ read _ _ row listed
    cases sqlite known
    rw [release_load] at loaded
    cases loaded
    rw [release_reads.mp read, mem_singleton] at listed
    rw [listed]
    exact ⟨initMigration, mem_singleton_self _, rfl, rfl, rfl⟩

/-- A release without migrations starts over a ledger that has rows of its module. -/
theorem downgrade_passes : ¬ (releaseSite .absent).Guarded := by
  intro guarded
  obtain ⟨dialect, migrations, known, loaded, idle⟩ := guarded.idle.mp rfl
  cases loaded
  have distinct : (([] : List Migration).map Migration.version).Nodup := nodup_nil
  have settled : ∃ applied, (releaseSite .absent).Reads .sqlite applied ∧
      Site.Settled applied [] :=
    (Site.run_idle_iff stop_verifies rfl distinct).mp idle
  obtain ⟨applied, read, own, _⟩ := settled
  rw [release_reads.mp read] at own
  obtain ⟨_, absurd, _⟩ := own initRow (mem_singleton_self _)
  cases absurd

end OnlyJs.Oj.Migrate
