import OnlyJs.Bridge.Registry
import OnlyJs.Lib.StepSystem
import OnlyJs.Oj.Migrate.Engine

/-!
# Concurrent migrators

Any number of migrators work on one database, each for a module. A migrator reads
the ledger once and then runs one transaction for each pending migration: on
PostgreSQL under the advisory lock of its module, on SQLite under the file's write
lock. The steps of different migrators interleave freely, and the engine may refuse
any of them. On MySQL there is no transaction, every statement is final at once.
-/

namespace OnlyJs.Oj.Migrate

open Bridge Lib

set_option autoImplicit false

universe u v

structure Job where
  moduleName : Text
  migrations : List Migration

structure Tx (Data : Type u) (Change : Type v) where
  snapshot : Option (Database Data × Nat)
  locked : Bool
  executed : List Text
  remaining : List Text
  changes : List Change

inductive Phase (Data : Type u) (Change : Type v) where
  | idle
  | pending (migrations : List Migration)
  | inTx (migration : Migration) (later : List Migration) (tx : Tx Data Change)
  | finished
  | failed (error : Text)

def Phase.active {Data : Type u} {Change : Type v} : Phase Data Change → Bool
  | .idle | .pending _ | .inTx _ _ _ => true
  | .finished | .failed _ => false

structure Committed (Change : Type v) where
  moduleName : Text
  version : Int
  executed : List Text
  changes : List Change

def Committed.key {Change : Type v} (entry : Committed Change) : Key :=
  (entry.moduleName, entry.version)

/-- `height` counts the commits, `writer` holds the write lock of an SQLite file,
`locks` the advisory locks of PostgreSQL. -/
structure State (Data : Type u) (Change : Type v) where
  committed : Database Data
  height : Nat
  writer : Option Nat
  locks : Int → Option Nat
  jobs : Nat → Phase Data Change
  history : List (Committed Change)

inductive Label where
  | read (job : Nat)
  | begin (job : Nat)
  | lock (job : Nat)
  | exec (job : Nat)
  | refuse (job : Nat) (error : Text)
  | commit (job : Nat)

def Label.job : Label → Nat
  | .read job => job
  | .begin job => job
  | .lock job => job
  | .exec job => job
  | .refuse job _ => job
  | .commit job => job

structure Setup (Data : Type u) (Change : Type v) (Time : Type) where
  dialect : Dialect
  engine : Engine Data Change
  libraries : Libraries Time
  jobs : Nat → Job
  start : Data

variable {Data : Type u} {Change : Type v} {Time : Type}

namespace State

def place (state : State Data Change) (job : Nat) (phase : Phase Data Change) :
    State Data Change :=
  { state with jobs := Function.update state.jobs job phase }

def lock (state : State Data Change) (id : Int) (job : Nat) : State Data Change :=
  { state with locks := Function.update state.locks id (some job) }

def release (state : State Data Change) (job : Nat) : State Data Change :=
  { state with
    writer := if state.writer = some job then none else state.writer
    locks := fun id => if state.locks id = some job then none else state.locks id }

def rollback (state : State Data Change) (job : Nat) (error : Text) : State Data Change :=
  (state.release job).place job (.failed error)

end State

def Tx.opened (stmts : List Text) : Tx Data Change where
  snapshot := none
  locked := false
  executed := []
  remaining := stmts
  changes := []

def Tx.pin (tx : Tx Data Change) (state : State Data Change) : Database Data × Nat :=
  tx.snapshot.getD (state.committed, state.height)

/-- The transaction after a statement that left `change`. -/
def Tx.ran (tx : Tx Data Change) (state : State Data Change) (stmt : Text) (rest : List Text)
    (change : Option Change) : Tx Data Change :=
  { tx with
    snapshot := some (tx.pin state)
    executed := tx.executed ++ [stmt]
    remaining := rest
    changes := tx.changes ++ change.toList }

def State.mayWrite (state : State Data Change) (job : Nat) (tx : Tx Data Change) : Bool :=
  (state.writer = none || state.writer = some job) && (tx.pin state).2 = state.height

namespace Setup

variable (setup : Setup Data Change Time)

def lockId (job : Nat) : Int := lockIdOf (setup.jobs job).moduleName

def view (state : State Data Change) (tx : Tx Data Change) : Database Data :=
  match setup.dialect with
  | .sqlite => setup.engine.applyAll tx.changes (tx.pin state).1
  | .postgres | .mySql => setup.engine.applyAll tx.changes state.committed

def runStatement (state : State Data Change) (job : Nat) (migration : Migration)
    (later : List Migration) (tx : Tx Data Change) (stmt : Text) (rest : List Text) :
    Option (State Data Change) :=
  match setup.dialect with
  | .sqlite =>
    match setup.engine.exec stmt (setup.view state tx) with
    | .failed error => some (state.rollback job error)
    | .done none => some (state.place job (.inTx migration later (tx.ran state stmt rest none)))
    | .done (some change) =>
      if state.mayWrite job tx then
        some ({ state with writer := some job }.place job
          (.inTx migration later (tx.ran state stmt rest (some change))))
      else none
  | .postgres =>
    if tx.locked then
      match setup.engine.exec stmt (setup.view state tx) with
      | .failed error => some (state.rollback job error)
      | .done change =>
        some (state.place job (.inTx migration later (tx.ran state stmt rest change)))
    else none
  | .mySql =>
    match setup.engine.exec (mysqlLedgerDdl stmt) (setup.view state tx) with
    | .failed error => some (state.rollback job error)
    | .done change =>
      some ({ state with
        committed := setup.engine.applyAll change.toList state.committed
        height := state.height + 1 }.place job
          (.inTx migration later (tx.ran state stmt rest none)))

def entry (job : Nat) (migration : Migration) (tx : Tx Data Change) : Committed Change where
  moduleName := (setup.jobs job).moduleName
  version := migration.version
  executed := tx.executed
  changes := tx.changes

def commitTx (state : State Data Change) (job : Nat) (migration : Migration)
    (later : List Migration) (tx : Tx Data Change) : State Data Change :=
  ({ state with
    committed := setup.engine.applyAll tx.changes state.committed
    height := state.height + 1
    history := state.history ++ [setup.entry job migration tx] }.release job).place job
      (.pending later)

def step (state : State Data Change) : Label → Option (State Data Change)
  | .read job =>
    match state.jobs job with
    | .idle =>
      match pendingOf setup.engine setup.libraries (setup.jobs job).moduleName
          (setup.jobs job).migrations state.committed with
      | .ok migrations => some (state.place job (.pending migrations))
      | .error error => some (state.place job (.failed error))
    | _ => none
  | .begin job =>
    match state.jobs job with
    | .pending [] => some (state.place job .finished)
    | .pending (migration :: later) =>
      match statements setup.libraries job (setup.jobs job).moduleName migration with
      | .ok stmts => some (state.place job (.inTx migration later (.opened stmts)))
      | .error error => some (state.place job (.failed error))
    | _ => none
  | .lock job =>
    match state.jobs job with
    | .inTx migration later tx =>
      if setup.dialect = .postgres ∧ tx.locked = false ∧
          state.locks (setup.lockId job) = none then
        some ((state.lock (setup.lockId job) job).place job
          (.inTx migration later { tx with locked := true }))
      else none
    | _ => none
  | .exec job =>
    match state.jobs job with
    | .inTx migration later tx =>
      match tx.remaining with
      | stmt :: rest => setup.runStatement state job migration later tx stmt rest
      | [] => none
    | _ => none
  | .refuse job error =>
    if (state.jobs job).active then some (state.rollback job error) else none
  | .commit job =>
    match state.jobs job with
    | .inTx migration later tx =>
      if tx.remaining.isEmpty then some (setup.commitTx state job migration later tx) else none
    | _ => none

def initial : State Data Change where
  committed := { data := setup.start, ledger := [] }
  height := 0
  writer := none
  locks := fun _ => none
  jobs := fun _ => .idle
  history := []

def system : StepSystem.System (State Data Change) Label where
  init := setup.initial
  step := setup.step

end Setup

variable (setup : Setup Data Change Time)

def Setup.key (job : Nat) (migration : Migration) : Key :=
  ((setup.jobs job).moduleName, migration.version)

/-- The engine and the libraries behave as documented on the texts they are given. -/
structure Relied : Prop where
  values : ∀ job, ∀ migration ∈ (setup.jobs job).migrations,
    PlainValues (setup.libraries.insertValues job migration)
  inserts : ∀ job, ∀ migration ∈ (setup.jobs job).migrations,
    InsertsRow setup.engine
      (taggedInsert (setup.jobs job).moduleName (setup.libraries.insertValues job migration))
      (setup.key job migration)
  selects : ∀ job, SelectsModule setup.engine (setup.jobs job).moduleName
  verify : ∀ applied migrations pending,
    setup.libraries.verify applied migrations = .ok pending → ∀ migration ∈ pending,
      migration ∈ migrations

/-- No statement of a migration reads or changes the ledger. -/
def LedgerUntouched : Prop :=
  ∀ job, ∀ migration ∈ (setup.jobs job).migrations, ∀ pieces,
    (splitStmts migration.sql).mapM (tagModule · (setup.jobs job).moduleName) = .ok pieces →
    ∀ piece ∈ pieces, LeavesLedger setup.engine piece

end OnlyJs.Oj.Migrate
