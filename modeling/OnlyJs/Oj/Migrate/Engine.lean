import Mathlib.Data.List.Sort
import OnlyJs.Bridge.Value
import OnlyJs.Lib.Decimal
import OnlyJs.Lib.Fallible
import OnlyJs.Oj.Migrate.LedgerSql

/-!
# The database and the libraries around the migrations

A database is user data and the ledger. The engine that runs a statement on it,
the migration library and the parsers of a ledger row are not part of the
repository: they stand here as parameters, and what is relied on is stated beside
them.
-/

namespace OnlyJs.Oj.Migrate

open Bridge Lib List

set_option autoImplicit false

universe u v

structure Migration where
  version : Int
  name : Text
  checksum : Nat
  sql : Text
deriving DecidableEq

/-- A row of `_oj_migrations`; `(moduleName, version)` is its primary key. -/
structure Row where
  moduleName : Text
  version : Int
  name : Text
  appliedOn : Text
  checksum : Text
deriving DecidableEq

abbrev Key := Text × Int

def Row.key (row : Row) : Key := (row.moduleName, row.version)

structure Database (Data : Type u) where
  data : Data
  ledger : List Row

inductive Outcome (Change : Type v) where
  | failed (error : Text)
  | done (change : Option Change)

structure Engine (Data : Type u) (Change : Type v) where
  exec : Text → Database Data → Outcome Change
  apply : Change → Database Data → Database Data
  query : Text → Database Data → Except Text (List Value)

variable {Data : Type u} {Change : Type v} {Time : Type}

def Engine.applyAll (engine : Engine Data Change) (changes : List Change)
    (database : Database Data) : Database Data :=
  changes.foldl (fun database change => engine.apply change database) database

structure Applied (Time : Type) where
  version : Int
  name : Text
  appliedOn : Time
  checksum : Nat

/-- The migration library and the parsers it is fed through. `insertValues` is what
the library writes after the head of its ledger INSERT; it holds the time, so it
may differ between runs. -/
structure Libraries (Time : Type) where
  verify : List (Applied Time) → List Migration → Except Text (List Migration)
  insertValues : Nat → Migration → Text
  parseTime : Text → Except Text Time
  display : Value → Text

def parseU64 (text : Text) : Option Nat :=
  let digits := match text with
    | '+' :: rest => rest
    | _ => text
  (Decimal.parseNat digits).filter (· < 2 ^ 64)

/-- `OjConn::query` on one row of the ledger. -/
def appliedOf (libraries : Libraries Time) (row : Value) : Except Text (Applied Time) := do
  let bad (column : String) : Text := column.toList ++ libraries.display row
  let version ← match row.get "version" with
    | some (.int version) =>
      if -(2 : Int) ^ 63 ≤ version ∧ version < 2 ^ 63 then .ok version
      else .error (bad "ledger row: bad version: ")
    | _ => .error (bad "ledger row: bad version: ")
  let name ← match (row.get "name").bind Value.asStr with
    | some name => .ok name.toList
    | none => .error (bad "ledger row: bad name: ")
  let shown ← match (row.get "applied_on").bind Value.asStr with
    | some shown => .ok shown.toList
    | none => .error (bad "ledger row: bad applied_on: ")
  let appliedOn ← libraries.parseTime shown
  let checksumRaw := match (row.get "checksum").bind Value.asStr with
    | some text => text.toList
    | none => libraries.display ((row.get "checksum").getD .null)
  match parseU64 checksumRaw with
  | some checksum => .ok { version, name, appliedOn, checksum }
  | none => .error (bad "ledger row: bad checksum: ")

/-- The library reads the ledger of the module and decides what is left to apply. -/
def pendingOf (engine : Engine Data Change) (libraries : Libraries Time) (moduleName : Text)
    (migrations : List Migration) (database : Database Data) : Except Text (List Migration) := do
  let sql ← scopeModule appliedQuery moduleName
  let rows ← engine.query sql database
  let applied ← rows.mapM (appliedOf libraries)
  libraries.verify applied migrations

/-- What one `execute` of the library runs for a migration. -/
def statements (libraries : Libraries Time) (job : Nat) (moduleName : Text)
    (migration : Migration) : Except Text (List Text) :=
  statementsOf [migration.sql, refineryInsertHead ++ libraries.insertValues job migration]
    moduleName

def Row.shown (row : Row) : Value :=
  .object [("version", .int row.version), ("name", .string (String.ofList row.name)),
    ("applied_on", .string (String.ofList row.appliedOn)),
    ("checksum", .string (String.ofList row.checksum))]

/-- The ledger INSERT of a module: a row with a key that is there is refused, any
other is added. -/
def InsertsRow (engine : Engine Data Change) (sql : Text) (key : Key) : Prop :=
  (∃ error, ∀ database : Database Data, key ∈ database.ledger.map Row.key →
    engine.exec sql database = .failed error) ∧
  ∃ row change, row.key = key ∧
    (∀ database : Database Data, key ∉ database.ledger.map Row.key →
      engine.exec sql database = .done (some change)) ∧
    ∀ database : Database Data, engine.apply change database =
      { database with ledger := database.ledger ++ [row] }

/-- The scoped SELECT of a module: its rows, by version. -/
def SelectsModule (engine : Engine Data Change) (moduleName : Text) : Prop :=
  ∀ database : Database Data, engine.query (scopedQuery moduleName) database =
    .ok (((database.ledger.filter fun row => row.moduleName = moduleName).insertionSort
      fun row other => row.version ≤ other.version).map Row.shown)

/-- A statement that neither reads nor changes the ledger. -/
def LeavesLedger (engine : Engine Data Change) (sql : Text) : Prop :=
  (∀ (database : Database Data) (ledger : List Row),
    engine.exec sql { database with ledger } = engine.exec sql database) ∧
  ∀ (database : Database Data) (change : Change),
    engine.exec sql database = .done (some change) →
    ∀ (other : Database Data), (engine.apply change other).ledger = other.ledger ∧
      ∀ ledger, (engine.apply change { other with ledger }).data =
        (engine.apply change other).data

/-- The same user data, and the same ledger rows outside one module. -/
def Agree (moduleName : Text) (database other : Database Data) : Prop :=
  database.data = other.data ∧
    database.ledger.filter (fun row => row.moduleName ≠ moduleName) =
      other.ledger.filter fun row => row.moduleName ≠ moduleName

/-- A change that does not let the ledger rows of a module out. -/
def Blind (engine : Engine Data Change) (change : Change) : Prop :=
  ∀ (moduleName : Text) (database other : Database Data), Agree moduleName database other →
    Agree moduleName (engine.apply change database) (engine.apply change other)

variable {engine : Engine Data Change} {moduleName : Text} {database other : Database Data}

theorem Agree.applyAll {changes : List Change} (blind : ∀ change ∈ changes, Blind engine change)
    (agree : Agree moduleName database other) :
    Agree moduleName (engine.applyAll changes database) (engine.applyAll changes other) := by
  induction changes generalizing database other with
  | nil => exact agree
  | cons change rest ih =>
    have first := blind change mem_cons_self moduleName database other agree
    exact ih (fun later member => blind later (mem_cons_of_mem _ member)) first

theorem Agree.filter (agree : Agree moduleName database other) (keep : Row → Bool)
    (outside : ∀ row, keep row = true → row.moduleName ≠ moduleName) :
    database.ledger.filter keep = other.ledger.filter keep := by
  have narrowed : ∀ ledger : List Row, ledger.filter keep =
      (ledger.filter fun row => row.moduleName ≠ moduleName).filter keep := by
    intro ledger
    rw [filter_filter]
    apply filter_congr
    intro row _
    cases kept : keep row with
    | false => rfl
    | true => exact (decide_eq_true (outside row kept)).symm
  rw [narrowed, narrowed other.ledger, agree.2]

theorem Agree.mem_key (agree : Agree moduleName database other) {key : Key}
    (outside : key.1 ≠ moduleName) :
    key ∈ database.ledger.map Row.key ↔ key ∈ other.ledger.map Row.key := by
  have same : database.ledger.filter (fun row => row.key = key) =
      other.ledger.filter fun row => row.key = key := by
    apply agree.filter
    intro row kept
    rw [← of_decide_eq_true kept] at outside
    exact outside
  have listed : ∀ ledger : List Row, key ∈ ledger.map Row.key ↔
      ∃ row, row ∈ ledger.filter fun row => row.key = key := by
    intro ledger
    rw [mem_map]
    apply exists_congr
    intro row
    rw [mem_filter, decide_eq_true_iff]
  rw [listed, listed, same]

theorem LeavesLedger.exec_eq {sql : Text} (leaves : LeavesLedger engine sql)
    (agree : Agree moduleName database other) :
    engine.exec sql database = engine.exec sql other := by
  have same : other = { database with ledger := other.ledger } := by
    rw [agree.1]
  rw [same]
  exact (leaves.1 database other.ledger).symm

theorem LeavesLedger.blind {sql : Text} {change : Change} (leaves : LeavesLedger engine sql)
    (done : engine.exec sql database = .done (some change)) : Blind engine change := by
  intro moduleName first second agree
  have kept := leaves.2 database change done
  refine ⟨?_, ?_⟩
  · have same : second = { first with ledger := second.ledger } := by
      rw [agree.1]
    rw [same]
    exact ((kept first).2 second.ledger).symm
  · rw [(kept first).1, (kept second).1]
    exact agree.2

theorem blind_of_adds {change : Change} {row : Row}
    (adds : ∀ database : Database Data, engine.apply change database =
      { database with ledger := database.ledger ++ [row] }) :
    Blind engine change := by
  intro moduleName first second agree
  rw [adds, adds]
  refine ⟨agree.1, ?_⟩
  rw [filter_append, filter_append, agree.2]

theorem applyAll_append (engine : Engine Data Change) (changes later : List Change)
    (database : Database Data) : engine.applyAll (changes ++ later) database =
      engine.applyAll later (engine.applyAll changes database) :=
  foldl_append

end OnlyJs.Oj.Migrate
