import OnlyJs.Oj.Migrate.Modules

/-!
# Migrations apply exactly once

What the migrations promise in every state of every run: each migration's effects
are committed at most once, as a whole and together with its ledger row, nothing
else is committed, and the ledger rows of a module do not show to the migrators of
another.
-/

namespace OnlyJs.Oj.Migrate

open Bridge Lib

set_option autoImplicit false

universe u v

variable {Data : Type u} {Change : Type v} {Time : Type}

/-- `failed`: until the next COMMIT of anybody, whatever fails, nothing committed
changes. `modules`: the same run is possible over any other rows of a module that
takes no part in it, and ends in the same state up to these rows. -/
structure Promises (setup : Setup Data Change Time) (state : State Data Change) : Prop where
  once : (state.history.map Committed.key).Nodup
  ledger : ∀ key, key ∈ state.history.map Committed.key ↔
    key ∈ state.committed.ledger.map Row.key
  effects : state.committed = setup.engine.applyAll (state.history.flatMap Committed.changes)
    { data := setup.start, ledger := [] }
  whole : ∀ entry ∈ state.history, ∃ job, ∃ migration ∈ (setup.jobs job).migrations,
    entry.key = setup.key job migration ∧
      statements setup.libraries job (setup.jobs job).moduleName migration = .ok entry.executed
  failed : ∀ labels finish,
    StepSystem.Path setup.system StepSystem.Unrestricted state labels finish →
    (∀ job, .commit job ∉ labels) → finish.committed = state.committed
  modules : ∀ moduleName other, StateAgree moduleName state other → ∀ labels,
    (∀ label ∈ labels, (setup.jobs label.job).moduleName ≠ moduleName) → ∀ finish,
    StepSystem.Path setup.system StepSystem.Unrestricted state labels finish →
    ∃ otherFinish, StepSystem.Path setup.system StepSystem.Unrestricted other labels otherFinish ∧
      StateAgree moduleName finish otherFinish

theorem path_uncommitted {setup : Setup Data Change Time} (transactional : setup.dialect ≠ .mySql)
    {state finish : State Data Change} {labels : List Label}
    (path : StepSystem.Path setup.system StepSystem.Unrestricted state labels finish)
    (uncommitted : ∀ job, .commit job ∉ labels) : finish.committed = state.committed := by
  induction labels generalizing state with
  | nil =>
    cases path
    rfl
  | cons label rest ih =>
    obtain ⟨_, next, fired, continued⟩ := path
    have other : ∀ job, label ≠ .commit job := by
      rintro job rfl
      exact uncommitted job List.mem_cons_self
    have first := ((step_fires transactional fired).uncommitted other).1
    rw [← first]
    exact ih continued fun job member => uncommitted job (List.mem_cons_of_mem _ member)

/-- In every run of migrations that leave the ledger alone, in every state. -/
theorem migrations_exactly_once (setup : Setup Data Change Time)
    (transactional : setup.dialect ≠ .mySql) (relied : Relied setup)
    (untouched : LedgerUntouched setup) (labels : List Label) (state : State Data Change)
    (path : StepSystem.Path setup.system StepSystem.Unrestricted setup.system.init labels state) :
    Promises setup state := by
  have invariant : Invariant setup state :=
    StepSystem.path_preserves (invariant_preserved relied untouched transactional) path
      (invariant_initial setup)
  refine ⟨invariant.once, ?_, invariant.effects, invariant.whole, ?_, ?_⟩
  · intro key
    rw [invariant.rows]
  · intro later finish continued uncommitted
    exact path_uncommitted transactional continued uncommitted
  · intro moduleName other agree later outside finish continued
    exact path_agree relied untouched transactional invariant agree outside continued

inductive CounterChange where
  | bump
  | row (row : Row)
  | clear

def bumpSql : Text := "UPDATE t SET n = n + 1".toList

def clearSql : Text := "DELETE FROM _oj_migrations".toList

def counterValues : Text := "1, 'm', 't', '0')".toList

def counterRow (moduleName : Text) : Row where
  moduleName := moduleName
  version := 1
  name := ['m']
  appliedOn := ['t']
  checksum := ['0']

def insertRow (row : Row) (database : Database Nat) : Outcome CounterChange :=
  if row.key ∈ database.ledger.map Row.key then .failed "UNIQUE constraint failed".toList
  else .done (some (.row row))

def selectRows (moduleName : Text) (database : Database Nat) : Except Text (List Value) :=
  .ok (((database.ledger.filter fun row => row.moduleName = moduleName).insertionSort
    fun row other => row.version ≤ other.version).map Row.shown)

def counterEngine : Engine Nat CounterChange where
  exec := fun sql database =>
    if sql = bumpSql then .done (some .bump)
    else if sql = clearSql then .done (some .clear)
    else if sql = taggedInsert ['a'] counterValues then insertRow (counterRow ['a']) database
    else if sql = taggedInsert ['b'] counterValues then insertRow (counterRow ['b']) database
    else .failed "no such statement".toList
  apply := fun change database =>
    match change with
    | .bump => { database with data := database.data + 1 }
    | .row row => { database with ledger := database.ledger ++ [row] }
    | .clear => { database with ledger := [] }
  query := fun sql database =>
    if sql = scopedQuery ['a'] then selectRows ['a'] database
    else if sql = scopedQuery ['b'] then selectRows ['b'] database
    else .error "no such query".toList

def counterLibraries : Libraries Unit where
  verify := fun applied migrations =>
    .ok (migrations.filter fun migration => !applied.any (·.version = migration.version))
  insertValues := fun _ _ => counterValues
  parseTime := fun _ => .ok ()
  display := fun _ => []

/-- Module `a` and, for every further migrator, module `b`, with one migration each. -/
def counterSetup (sql : Nat → Text) : Setup Nat CounterChange Unit where
  dialect := .sqlite
  engine := counterEngine
  libraries := counterLibraries
  jobs := fun job =>
    { moduleName := if job = 0 then ['a'] else ['b']
      migrations := [{ version := 1, name := ['m'], checksum := 0, sql := sql job }] }
  start := 0

theorem insertRow_inserts {sql : Text} {row : Row}
    (exec : ∀ database, counterEngine.exec sql database = insertRow row database) :
    InsertsRow counterEngine sql row.key := by
  refine ⟨⟨"UNIQUE constraint failed".toList, ?_⟩, row, .row row, rfl, ?_, fun _ => rfl⟩
  · intro database present
    rw [exec]
    exact if_pos present
  · intro database free
    rw [exec]
    exact if_neg free

theorem counter_relied (sql : Nat → Text) : Relied (counterSetup sql) where
  values := by
    intro job migration _
    have plain : ';' ∉ counterValues := by decide
    exact ⟨plain, "1, 'm', 't', '0'".toList, rfl⟩
  inserts := by
    intro job migration listed
    rw [List.mem_singleton.mp listed]
    change InsertsRow counterEngine (taggedInsert (if job = 0 then ['a'] else ['b']) counterValues)
      (if job = 0 then ['a'] else ['b'], 1)
    have first : InsertsRow counterEngine (taggedInsert ['a'] counterValues)
        (counterRow ['a']).key :=
      insertRow_inserts fun database => rfl
    have second : InsertsRow counterEngine (taggedInsert ['b'] counterValues)
        (counterRow ['b']).key :=
      insertRow_inserts fun database => rfl
    split
    · exact first
    · exact second
  selects := by
    intro job database
    change counterEngine.query (scopedQuery (if job = 0 then ['a'] else ['b'])) database = _
    change _ = selectRows (if job = 0 then ['a'] else ['b']) database
    split
    · rfl
    · rfl
  verify := by
    intro applied migrations pending verified migration member
    cases verified
    exact List.mem_of_mem_filter member

theorem counter_untouched : LedgerUntouched (counterSetup fun _ => bumpSql) := by
  intro job migration listed pieces tagged piece member
  rw [List.mem_singleton.mp listed] at tagged
  have same : (Except.ok [bumpSql] : Except Text (List Text)) = .ok pieces := tagged
  cases same
  rw [List.mem_singleton.mp member]
  refine ⟨fun database ledger => rfl, ?_⟩
  intro database change done other
  have bump : Outcome.done (some CounterChange.bump) = .done (some change) := done
  cases bump
  exact ⟨rfl, fun ledger => rfl⟩

def bothRun : List Label :=
  [.read 0, .read 1, .begin 0, .exec 0, .exec 0, .commit 0, .begin 1, .exec 1, .exec 1, .commit 1]

theorem migrations_exactly_once_counter : ∃ state : State Nat CounterChange,
    state.committed.data = 2 ∧ Promises (counterSetup fun _ => bumpSql) state := by
  refine ⟨_, ?_, migrations_exactly_once (counterSetup fun _ => bumpSql) (by decide)
    (counter_relied _) counter_untouched bothRun _ (StepSystem.path_of_run _ _ _ rfl)⟩
  rfl

theorem deleted_ledger : ¬ ∀ (setup : Setup Nat CounterChange Unit),
    setup.dialect ≠ .mySql → Relied setup → ∀ labels state,
      StepSystem.Path setup.system StepSystem.Unrestricted setup.system.init labels state →
        Promises setup state := by
  intro promised
  have promises := promised (counterSetup fun job => if job = 0 then bumpSql else clearSql)
    (by decide) (counter_relied _) bothRun _ (StepSystem.path_of_run _ _ _ rfl)
  have there := (promises.ledger (['a'], 1)).mp (by decide)
  revert there
  decide

end OnlyJs.Oj.Migrate
