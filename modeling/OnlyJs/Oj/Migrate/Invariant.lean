import OnlyJs.Oj.Migrate.Migrators

/-!
# What every step of the migrators keeps

The pending set of a migrator may be stale, so a transaction may run a migration
that was applied meanwhile. Its ledger INSERT then meets the primary key. From the
INSERT to the COMMIT no other migrator can commit the same key: on PostgreSQL it
would need the advisory lock of the module, on SQLite the write lock.
-/

namespace OnlyJs.Oj.Migrate

open Bridge Lib List Option Function

set_option autoImplicit false

universe u v

variable {Data : Type u} {Change : Type v} {Time : Type}

/-- What a successful statement of a transaction leaves. -/
structure Ran (setup : Setup Data Change Time) (state : State Data Change) (job : Nat)
    (migration : Migration) (later : List Migration) (tx : Tx Data Change) (stmt : Text)
    (rest : List Text) (change : Option Change) (next : State Data Change) : Prop where
  result : setup.engine.exec stmt (setup.view state tx) = .done change
  placed : ∃ writer, next = { state with writer }.place job
    (.inTx migration later (tx.ran state stmt rest change))
  others : ∀ other, other ≠ job → state.writer = some other → next.writer = some other
  held : state.writer = some job → next.writer = some job
  writes : setup.dialect = .sqlite → change ≠ none →
    next.writer = some job ∧ (tx.pin state).2 = state.height
  locked : setup.dialect = .postgres → tx.locked = true

variable {next state : State Data Change} {job : Nat} {migration : Migration}
  {later : List Migration} {tx : Tx Data Change} {stmt : Text} {rest : List Text}

theorem runStatement_cases {setup : Setup Data Change Time} (transactional : setup.dialect ≠ .mySql)
    (fired : setup.runStatement state job migration later tx stmt rest = some next) :
    (∃ error, setup.engine.exec stmt (setup.view state tx) = .failed error ∧
      (setup.dialect = .postgres → tx.locked = true) ∧ next = state.rollback job error) ∨
      ∃ change, Ran setup state job migration later tx stmt rest change next := by
  unfold Setup.runStatement at fired
  cases dialect : setup.dialect with
  | mySql => exact absurd dialect transactional
  | sqlite =>
    rw [dialect] at fired
    cases result : setup.engine.exec stmt (setup.view state tx) with
    | failed error =>
      rw [result] at fired
      cases fired
      exact .inl ⟨error, rfl, (fun absurd => nomatch absurd), rfl⟩
    | done change =>
      rw [result] at fired
      cases change with
      | none =>
        cases fired
        refine .inr ⟨none, result, ⟨state.writer, rfl⟩, fun _ _ held => held,
          fun held => held, fun _ absurd => (absurd rfl).elim, ?_⟩
        intro other
        rw [dialect] at other
        cases other
      | some change =>
        obtain ⟨may, fired⟩ := ite_none_right_eq_some.mp fired
        cases fired
        obtain ⟨free, current⟩ := Bool.and_eq_true_iff.mp may
        refine .inr ⟨some change, result, ⟨some job, rfl⟩, ?_, fun _ => rfl,
          fun _ _ => ⟨rfl, of_decide_eq_true current⟩, ?_⟩
        · intro other different held
          rw [held] at free
          rcases Bool.or_eq_true_iff.mp free with none | own
          · cases of_decide_eq_true none
          · exact absurd (Option.some.inj (of_decide_eq_true own)) different
        · intro other
          rw [dialect] at other
          cases other
  | postgres =>
    rw [dialect] at fired
    obtain ⟨locked, fired⟩ := ite_none_right_eq_some.mp fired
    cases result : setup.engine.exec stmt (setup.view state tx) with
    | failed error =>
      rw [result] at fired
      cases fired
      exact .inl ⟨error, rfl, fun _ => locked, rfl⟩
    | done change =>
      rw [result] at fired
      cases fired
      refine .inr ⟨change, result, ⟨state.writer, rfl⟩, fun _ _ held => held,
        fun held => held, ?_, fun _ => locked⟩
      intro other
      rw [dialect] at other
      cases other

/-- What a step does, by its kind. -/
inductive Fires (setup : Setup Data Change Time) (state : State Data Change) :
    Label → State Data Change → Prop
  | read (job : Nat) (migrations : List Migration) (stands : state.jobs job = .idle)
      (found : pendingOf setup.engine setup.libraries (setup.jobs job).moduleName
        (setup.jobs job).migrations state.committed = .ok migrations) :
      Fires setup state (.read job) (state.place job (.pending migrations))
  | unread (job : Nat) (error : Text) (stands : state.jobs job = .idle)
      (found : pendingOf setup.engine setup.libraries (setup.jobs job).moduleName
        (setup.jobs job).migrations state.committed = .error error) :
      Fires setup state (.read job) (state.place job (.failed error))
  | finish (job : Nat) (stands : state.jobs job = .pending []) :
      Fires setup state (.begin job) (state.place job .finished)
  | begin (job : Nat) (migration : Migration) (later : List Migration) (stmts : List Text)
      (stands : state.jobs job = .pending (migration :: later))
      (split : statements setup.libraries job (setup.jobs job).moduleName migration =
        .ok stmts) :
      Fires setup state (.begin job) (state.place job (.inTx migration later (.opened stmts)))
  | untagged (job : Nat) (migration : Migration) (later : List Migration) (error : Text)
      (stands : state.jobs job = .pending (migration :: later))
      (split : statements setup.libraries job (setup.jobs job).moduleName migration =
        .error error) :
      Fires setup state (.begin job) (state.place job (.failed error))
  | lock (job : Nat) (migration : Migration) (later : List Migration) (tx : Tx Data Change)
      (stands : state.jobs job = .inTx migration later tx)
      (postgres : setup.dialect = .postgres) (unlocked : tx.locked = false)
      (free : state.locks (setup.lockId job) = none) :
      Fires setup state (.lock job) ((state.lock (setup.lockId job) job).place job
        (.inTx migration later { tx with locked := true }))
  | exec (job : Nat) (migration : Migration) (later : List Migration) (tx : Tx Data Change)
      (stmt : Text) (rest : List Text) (change : Option Change) (next : State Data Change)
      (stands : state.jobs job = .inTx migration later tx)
      (remaining : tx.remaining = stmt :: rest)
      (ran : Ran setup state job migration later tx stmt rest change next) :
      Fires setup state (.exec job) next
  | execFailed (job : Nat) (migration : Migration) (later : List Migration)
      (tx : Tx Data Change) (stmt : Text) (rest : List Text) (error : Text)
      (stands : state.jobs job = .inTx migration later tx)
      (remaining : tx.remaining = stmt :: rest)
      (locked : setup.dialect = .postgres → tx.locked = true)
      (result : setup.engine.exec stmt (setup.view state tx) = .failed error) :
      Fires setup state (.exec job) (state.rollback job error)
  | refuse (job : Nat) (error : Text) (stands : (state.jobs job).active = true) :
      Fires setup state (.refuse job error) (state.rollback job error)
  | commit (job : Nat) (migration : Migration) (later : List Migration) (tx : Tx Data Change)
      (stands : state.jobs job = .inTx migration later tx) (ended : tx.remaining = []) :
      Fires setup state (.commit job) (setup.commitTx state job migration later tx)

theorem step_fires {setup : Setup Data Change Time} {label : Label}
    (transactional : setup.dialect ≠ .mySql) (fired : setup.step state label = some next) :
    Fires setup state label next := by
  unfold Setup.step at fired
  cases label with
  | read job =>
    cases stands : state.jobs job <;> simp only [stands] at fired <;> try cases fired
    split at fired
    · rename_i migrations found
      cases fired
      exact .read job migrations stands found
    · rename_i error found
      cases fired
      exact .unread job error stands found
  | begin job =>
    cases stands : state.jobs job <;> simp only [stands] at fired <;> try cases fired
    rename_i migrations
    cases migrations with
    | nil =>
      cases fired
      exact .finish job stands
    | cons migration later =>
      dsimp only at fired
      split at fired
      · rename_i stmts split
        cases fired
        exact .begin job migration later stmts stands split
      · rename_i error split
        cases fired
        exact .untagged job migration later error stands split
  | lock job =>
    cases stands : state.jobs job <;> simp only [stands] at fired <;> try cases fired
    obtain ⟨⟨postgres, unlocked, free⟩, fired⟩ := ite_none_right_eq_some.mp fired
    cases fired
    exact .lock job _ _ _ stands postgres unlocked free
  | exec job =>
    cases stands : state.jobs job <;> simp only [stands] at fired <;> try cases fired
    rename_i migration later tx
    cases remaining : tx.remaining with
    | nil =>
      rw [remaining] at fired
      cases fired
    | cons stmt rest =>
      rw [remaining] at fired
      rcases runStatement_cases transactional fired with
        ⟨error, result, locked, rfl⟩ | ⟨change, ran⟩
      · exact .execFailed job migration later tx stmt rest error stands remaining locked
          result
      · exact .exec job migration later tx stmt rest change next stands remaining ran
  | refuse job error =>
    obtain ⟨active, fired⟩ := ite_none_right_eq_some.mp fired
    cases fired
    exact .refuse job error active
  | commit job =>
    cases stands : state.jobs job <;> simp only [stands] at fired <;> try cases fired
    obtain ⟨ended, fired⟩ := ite_none_right_eq_some.mp fired
    cases fired
    exact .commit job _ _ _ stands (List.isEmpty_iff.mp ended)

theorem last_or_inner {α : Type} {before rest pieces : List α} {item last : α}
    (split : before ++ item :: rest = pieces ++ [last]) :
    (rest = [] ∧ item = last) ∨ (rest ≠ [] ∧ item ∈ pieces) := by
  rcases eq_nil_or_concat rest with rfl | ⟨inner, final, rfl⟩
  · have same := append_inj' split rfl
    exact .inl ⟨rfl, singleton_inj.mp same.2⟩
  · have regrouped : (before ++ item :: inner) ++ [final] = pieces ++ [last] := by
      rw [append_assoc, ← concat_eq_append]
      exact split
    have same := append_inj' regrouped rfl
    refine .inr ⟨?_, ?_⟩
    · rw [concat_eq_append]
      exact concat_ne_nil _ _
    · rw [← same.1]
      exact mem_append_right _ mem_cons_self

section

variable (setup : Setup Data Change Time)

/-- The transaction holds what keeps other migrators from committing its key. -/
def Setup.Owns (state : State Data Change) (job : Nat) (tx : Tx Data Change) : Prop :=
  match setup.dialect with
  | .sqlite => state.writer = some job ∧ ∃ database, tx.snapshot = some (database, state.height)
  | .postgres => state.locks (setup.lockId job) = some job
  | .mySql => True

/-- An open transaction has run the first part of its statements. Its changes leave
the ledger alone until the last one, which adds the row of the migration. -/
structure TxInvariant (state : State Data Change) (job : Nat) (migration : Migration)
    (tx : Tx Data Change) : Prop where
  listed : migration ∈ (setup.jobs job).migrations
  split : statements setup.libraries job (setup.jobs job).moduleName migration =
    .ok (tx.executed ++ tx.remaining)
  adds : ∃ rows : List Row,
    rows.map Row.key = (if tx.remaining = [] then [setup.key job migration] else []) ∧
    ∀ database, (setup.engine.applyAll tx.changes database).ledger = database.ledger ++ rows
  blind : ∀ change ∈ tx.changes, Blind setup.engine change
  fresh : tx.remaining = [] →
    setup.key job migration ∉ state.committed.ledger.map Row.key
  locked : setup.dialect = .postgres → tx.locked = true →
    state.locks (setup.lockId job) = some job
  owner : tx.changes ≠ [] → setup.Owns state job tx
  pinned : ∀ database height, tx.snapshot = some (database, height) →
    height ≤ state.height ∧ (height = state.height → database = state.committed)

def PhaseInvariant (state : State Data Change) (job : Nat) : Phase Data Change → Prop
  | .pending migrations => ∀ migration ∈ migrations, migration ∈ (setup.jobs job).migrations
  | .inTx migration later tx => TxInvariant setup state job migration tx ∧
      ∀ other ∈ later, other ∈ (setup.jobs job).migrations
  | .idle | .finished | .failed _ => True

/-- The ledger has the row of every committed migration and no other, and the
database is what the committed migrations made of the first one. -/
structure Invariant (state : State Data Change) : Prop where
  rows : state.committed.ledger.map Row.key = state.history.map Committed.key
  once : (state.history.map Committed.key).Nodup
  effects : state.committed = setup.engine.applyAll (state.history.flatMap Committed.changes)
    { data := setup.start, ledger := [] }
  whole : ∀ entry ∈ state.history, ∃ job, ∃ migration ∈ (setup.jobs job).migrations,
    entry.key = setup.key job migration ∧
      statements setup.libraries job (setup.jobs job).moduleName migration = .ok entry.executed
  phases : ∀ job, PhaseInvariant setup state job (state.jobs job)

theorem invariant_initial : Invariant setup setup.initial where
  rows := rfl
  once := nodup_nil
  effects := rfl
  whole := fun _ absurd => nomatch absurd
  phases := fun _ => trivial

end

variable {setup : Setup Data Change Time}

theorem TxInvariant.changed (holds : TxInvariant setup state job migration tx)
    (ended : tx.remaining = []) : tx.changes ≠ [] := by
  intro unchanged
  obtain ⟨rows, keys, adds⟩ := holds.adds
  have same := adds state.committed
  rw [unchanged] at same
  have none : rows = [] := append_right_eq_self.mp same.symm
  rw [ended, none] at keys
  cases keys

variable {phase : Phase Data Change}

theorem PhaseInvariant.transfer (holds : PhaseInvariant setup state job phase)
    (committed : next.committed = state.committed) (height : next.height = state.height)
    (writer : state.writer = some job → next.writer = some job)
    (locks : ∀ id, state.locks id = some job → next.locks id = some job) :
    PhaseInvariant setup next job phase := by
  cases phase with
  | idle | finished | failed error => trivial
  | pending migrations => exact holds
  | inTx migration later tx =>
    obtain ⟨running, rest⟩ := holds
    refine ⟨⟨running.listed, running.split, running.adds, running.blind, ?_, ?_, ?_, ?_⟩, rest⟩
    · rw [committed]
      exact running.fresh
    · intro postgres locked
      exact locks _ (running.locked postgres locked)
    · intro changed
      have owns := running.owner changed
      unfold Setup.Owns at owns ⊢
      cases dialect : setup.dialect with
      | sqlite =>
        rw [dialect] at owns
        rw [height]
        exact ⟨writer owns.1, owns.2⟩
      | postgres =>
        rw [dialect] at owns
        exact locks _ owns
      | mySql => trivial
    · rw [height, committed]
      exact running.pinned

theorem Invariant.replace (invariant : Invariant setup state)
    (committed : next.committed = state.committed) (height : next.height = state.height)
    (history : next.history = state.history)
    (jobs : next.jobs = Function.update state.jobs job phase)
    (writer : ∀ other, other ≠ job → state.writer = some other → next.writer = some other)
    (locks : ∀ other, other ≠ job → ∀ id, state.locks id = some other → next.locks id = some other)
    (new : PhaseInvariant setup next job phase) : Invariant setup next := by
  refine ⟨?_, ?_, ?_, ?_, ?_⟩
  · rw [committed, history]
    exact invariant.rows
  · rw [history]
    exact invariant.once
  · rw [committed, history]
    exact invariant.effects
  · rw [history]
    exact invariant.whole
  · intro other
    rw [jobs]
    by_cases same : other = job
    · rw [same, update_self]
      exact new
    · rw [update_of_ne same]
      exact (invariant.phases other).transfer committed height (writer other same)
        (locks other same)

theorem Invariant.place (invariant : Invariant setup state)
    (new : PhaseInvariant setup state job phase) :
    Invariant setup (state.place job phase) :=
  invariant.replace rfl rfl rfl rfl (fun _ _ held => held) (fun _ _ _ held => held)
    (new.transfer rfl rfl (fun held => held) (fun _ held => held))

variable {other : Nat}

theorem release_writer (different : other ≠ job) (held : state.writer = some other) :
    (state.release job).writer = some other := by
  have kept : state.writer ≠ some job := by
    rw [held]
    exact fun same => different (Option.some.inj same)
  exact (if_neg kept).trans held

theorem release_locks {id : Int} (different : other ≠ job) (held : state.locks id = some other) :
    (state.release job).locks id = some other := by
  have kept : state.locks id ≠ some job := by
    rw [held]
    exact fun same => different (Option.some.inj same)
  exact (if_neg kept).trans held

theorem Invariant.rollback (invariant : Invariant setup state) (job : Nat) (error : Text) :
    Invariant setup (state.rollback job error) :=
  invariant.replace rfl rfl rfl rfl (fun _ different => release_writer different)
    (fun _ different _ => release_locks different) trivial

theorem statements_split {stmts : List Text} (relied : Relied setup)
    (listed : migration ∈ (setup.jobs job).migrations)
    (split : statements setup.libraries job (setup.jobs job).moduleName migration = .ok stmts) :
    ∃ pieces, (splitStmts migration.sql).mapM (tagModule · (setup.jobs job).moduleName) =
        .ok pieces ∧
      stmts = pieces ++ [taggedInsert (setup.jobs job).moduleName
        (setup.libraries.insertValues job migration)] :=
  statementsOf_migration (relied.values job migration listed) split

section

variable (invariant : Invariant setup state)
include invariant

theorem Invariant.read (relied : Relied setup) {migrations : List Migration}
    (found : pendingOf setup.engine setup.libraries (setup.jobs job).moduleName
      (setup.jobs job).migrations state.committed = .ok migrations) :
    Invariant setup (state.place job (.pending migrations)) := by
  obtain ⟨sql, _, found⟩ := Fallible.bind_ok.mp found
  obtain ⟨rows, _, found⟩ := Fallible.bind_ok.mp found
  obtain ⟨applied, _, found⟩ := Fallible.bind_ok.mp found
  exact invariant.place (relied.verify applied _ migrations found)

theorem Invariant.begin (relied : Relied setup)
    (listed : ∀ other ∈ migration :: later, other ∈ (setup.jobs job).migrations) {stmts : List Text}
    (split : statements setup.libraries job (setup.jobs job).moduleName migration = .ok stmts) :
    Invariant setup (state.place job (.inTx migration later (.opened stmts))) := by
  apply invariant.place
  have own := listed migration mem_cons_self
  obtain ⟨pieces, _, shape⟩ := statements_split relied own split
  have started : stmts ≠ [] := by
    rw [shape]
    exact append_ne_nil_of_right_ne_nil _ (cons_ne_nil _ _)
  refine ⟨⟨own, split, ⟨[], ?_, ?_⟩, ?_, ?_, ?_, ?_, ?_⟩, ?_⟩
  · exact (if_neg started).symm
  · intro database
    exact (append_nil _).symm
  · intro change member
    cases member
  · intro ended
    exact absurd ended started
  · intro _ locked
    cases locked
  · intro changed
    exact absurd rfl changed
  · intro database height pinned
    cases pinned
  · intro other member
    exact listed other (mem_cons_of_mem _ member)

theorem Invariant.lock (stands : state.jobs job = .inTx migration later tx)
    (postgres : setup.dialect = .postgres) (free : state.locks (setup.lockId job) = none) :
    Invariant setup ((state.lock (setup.lockId job) job).place job
      (.inTx migration later { tx with locked := true })) := by
  have phase := invariant.phases job
  rw [stands] at phase
  obtain ⟨running, rest⟩ := phase
  refine invariant.replace rfl rfl rfl rfl (fun _ _ held => held) ?_
    ⟨⟨running.listed, running.split, running.adds, running.blind, running.fresh, ?_, ?_,
      running.pinned⟩, rest⟩
  · intro other _ id held
    have elsewhere : id ≠ setup.lockId job := by
      rintro rfl
      rw [free] at held
      cases held
    exact (update_of_ne elsewhere _ _).trans held
  · intro _ _
    exact update_self _ _ _
  · intro _
    unfold Setup.Owns
    rw [postgres]
    exact update_self _ _ _

end

theorem TxInvariant.pin (running : TxInvariant setup state job migration tx) :
    (tx.pin state).2 ≤ state.height ∧
      ((tx.pin state).2 = state.height → (tx.pin state).1 = state.committed) := by
  unfold Tx.pin
  cases taken : tx.snapshot with
  | none => exact ⟨Nat.le_refl _, fun _ => rfl⟩
  | some snapshot => exact running.pinned snapshot.1 snapshot.2 taken

theorem Ran.view_ledger {change : Change} (transactional : setup.dialect ≠ .mySql)
    (ran : Ran setup state job migration later tx stmt rest (some change) next)
    (running : TxInvariant setup state job migration tx) (unfinished : tx.remaining ≠ []) :
    (setup.view state tx).ledger = state.committed.ledger := by
  obtain ⟨rows, keys, adds⟩ := running.adds
  rw [if_neg unfinished] at keys
  have none : rows = [] := map_eq_nil_iff.mp keys
  unfold Setup.view
  cases dialect : setup.dialect with
  | mySql => exact absurd dialect transactional
  | sqlite =>
    have current := running.pin.2 (ran.writes dialect (some_ne_none change)).2
    rw [adds, none, append_nil, current]
  | postgres =>
    rw [adds, none, append_nil]

/-- The ledger effect of the transaction after one more statement, and the ledger
it was checked against. -/
theorem Ran.adds {change : Option Change} (relied : Relied setup)
    (untouched : LedgerUntouched setup) (transactional : setup.dialect ≠ .mySql)
    (ran : Ran setup state job migration later tx stmt rest change next)
    (running : TxInvariant setup state job migration tx) (remaining : tx.remaining = stmt :: rest) :
    (∃ rows : List Row,
      rows.map Row.key = (if rest = [] then [setup.key job migration] else []) ∧
      ∀ database, (setup.engine.applyAll (tx.changes ++ change.toList) database).ledger =
        database.ledger ++ rows) ∧
      (∀ made ∈ change, Blind setup.engine made) ∧
      (rest = [] → setup.key job migration ∉ state.committed.ledger.map Row.key) := by
  have unfinished : tx.remaining ≠ [] := by
    rw [remaining]
    exact cons_ne_nil _ _
  obtain ⟨before, keys, adds⟩ := running.adds
  rw [if_neg unfinished] at keys
  have none : before = [] := map_eq_nil_iff.mp keys
  rw [none] at adds
  obtain ⟨pieces, tagged, shape⟩ := statements_split relied running.listed running.split
  rw [remaining] at shape
  rcases last_or_inner shape with ⟨closed, insert⟩ | ⟨goes, inner⟩
  · -- The ledger INSERT: the primary key was free in what the statement saw.
    obtain ⟨⟨error, refused⟩, row, added, key, accepted, applied⟩ :=
      relied.inserts job migration running.listed
    rw [← insert] at refused accepted
    have free : setup.key job migration ∉ (setup.view state tx).ledger.map Row.key := by
      intro present
      have failed := refused _ present
      rw [ran.result] at failed
      cases failed
    have done := ran.result.symm.trans (accepted _ free)
    cases done
    refine ⟨⟨[row], ?_, ?_⟩, ?_, ?_⟩
    · rw [if_pos closed, ← key]
      rfl
    · intro database
      rw [applyAll_append, ← append_nil database.ledger, ← adds]
      change (setup.engine.apply added _).ledger = _
      rw [applied]
    · rintro made ⟨⟩
      exact blind_of_adds applied
    · intro _
      rw [ran.view_ledger transactional running unfinished] at free
      exact free
  · -- A statement of the migration leaves the ledger alone.
    have leaves := untouched job migration running.listed pieces tagged stmt inner
    refine ⟨⟨[], (if_neg goes).symm, ?_⟩, ?_, fun closed => absurd closed goes⟩
    · intro database
      cases change with
      | none =>
        rw [toList_none, append_nil]
        exact adds database
      | some change =>
        rw [applyAll_append, ← adds]
        exact (leaves.2 _ change ran.result _).1
    · rintro made ⟨⟩
      exact leaves.blind ran.result

theorem Invariant.exec (invariant : Invariant setup state) (relied : Relied setup)
    (untouched : LedgerUntouched setup) (transactional : setup.dialect ≠ .mySql)
    {change : Option Change} (stands : state.jobs job = .inTx migration later tx)
    (remaining : tx.remaining = stmt :: rest)
    (ran : Ran setup state job migration later tx stmt rest change next) :
    Invariant setup next := by
  have phase := invariant.phases job
  rw [stands] at phase
  obtain ⟨running, listed⟩ := phase
  obtain ⟨adds, blind, fresh⟩ := ran.adds relied untouched transactional running remaining
  have pin := running.pin
  have ⟨result, ⟨writer, placed⟩, others, held, writes, locked⟩ := ran
  have committed : next.committed = state.committed := by rw [placed]; rfl
  have height : next.height = state.height := by rw [placed]; rfl
  have locks : next.locks = state.locks := by rw [placed]; rfl
  have history : next.history = state.history := by rw [placed]; rfl
  have jobs : next.jobs = Function.update state.jobs job
      (.inTx migration later (tx.ran state stmt rest change)) := by rw [placed]; rfl
  refine invariant.replace committed height history jobs others ?_
    ⟨⟨running.listed, ?_, adds, ?_, ?_, ?_, ?_, ?_⟩, listed⟩
  · intro other _ id before
    rw [locks]
    exact before
  · have split := running.split
    rw [remaining] at split
    change _ = Except.ok ((tx.executed ++ [stmt]) ++ rest)
    rw [append_assoc]
    exact split
  · intro made member
    rcases mem_append.mp member with before | new
    · exact running.blind made before
    · exact blind made (mem_toList.mp new)
  · rw [committed]
    exact fresh
  · rw [locks]
    exact running.locked
  · intro changed
    unfold Setup.Owns
    cases dialect : setup.dialect with
    | mySql => trivial
    | postgres =>
      rw [locks]
      exact running.locked dialect (locked dialect)
    | sqlite =>
      change next.writer = some job ∧ ∃ database, some (tx.pin state) = some (database, _)
      cases change with
      | some change =>
        obtain ⟨own, current⟩ := writes dialect (some_ne_none change)
        refine ⟨own, (tx.pin state).1, ?_⟩
        rw [height, ← current]
      | none =>
        have before : tx.changes ≠ [] := by
          intro unchanged
          apply changed
          change tx.changes ++ [] = []
          rw [unchanged]
          rfl
        have owns := running.owner before
        unfold Setup.Owns at owns
        rw [dialect] at owns
        obtain ⟨own, database, taken⟩ := owns
        refine ⟨held own, database, ?_⟩
        rw [Tx.pin, taken, height]
        rfl
  · intro database level taken
    have same : tx.pin state = (database, level) := Option.some.inj taken
    rw [same] at pin
    rw [height, committed]
    exact pin

theorem Setup.Owns.apart {otherTx : Tx Data Change} (transactional : setup.dialect ≠ .mySql)
    (different : other ≠ job) (own : setup.Owns state job tx)
    (owns : setup.Owns state other otherTx) :
    setup.dialect = .postgres ∧ (setup.jobs other).moduleName ≠ (setup.jobs job).moduleName := by
  unfold Setup.Owns at own owns
  cases dialect : setup.dialect with
  | mySql => exact absurd dialect transactional
  | sqlite =>
    rw [dialect] at own owns
    have same : some job = some other := own.1.symm.trans owns.1
    exact absurd (Option.some.inj same).symm different
  | postgres =>
    rw [dialect] at own owns
    refine ⟨rfl, ?_⟩
    intro shared
    have lock : setup.lockId other = setup.lockId job := congrArg lockIdOf shared
    rw [lock] at owns
    have same : some job = some other := own.symm.trans owns
    exact absurd (Option.some.inj same).symm different

theorem PhaseInvariant.after_commit (holds : PhaseInvariant setup state other phase)
    (transactional : setup.dialect ≠ .mySql) (different : other ≠ job)
    (running : TxInvariant setup state job migration tx) (ended : tx.remaining = [])
    (ledger : (setup.commitTx state job migration later tx).committed.ledger.map Row.key =
      state.committed.ledger.map Row.key ++ [setup.key job migration]) :
    PhaseInvariant setup (setup.commitTx state job migration later tx) other phase := by
  cases phase with
  | idle | finished | failed error => trivial
  | pending migrations => exact holds
  | inTx mine rest otherTx =>
    obtain ⟨others, listed⟩ := holds
    have own := running.owner (running.changed ended)
    refine ⟨⟨others.listed, others.split, others.adds, others.blind, ?_, ?_, ?_, ?_⟩, listed⟩
    · intro closed present
      have apart := (Setup.Owns.apart transactional different own
        (others.owner (others.changed closed))).2
      rw [ledger] at present
      rcases mem_append.mp present with before | same
      · exact others.fresh closed before
      · exact apart (congrArg Prod.fst (mem_singleton.mp same))
    · intro postgres locked
      exact release_locks different (others.locked postgres locked)
    · intro changed
      have owns := others.owner changed
      have postgres := (Setup.Owns.apart transactional different own owns).1
      unfold Setup.Owns at owns ⊢
      rw [postgres] at owns ⊢
      exact release_locks different owns
    · intro database height pinned
      have below := (others.pinned database height pinned).1
      refine ⟨Nat.le_succ_of_le below, ?_⟩
      intro beyond
      have height_eq : height = state.height + 1 := beyond
      omega

/-- A transaction that is done with all its statements commits them. -/
theorem Invariant.commit (invariant : Invariant setup state)
    (transactional : setup.dialect ≠ .mySql) (stands : state.jobs job = .inTx migration later tx)
    (ended : tx.remaining = []) :
    Invariant setup (setup.commitTx state job migration later tx) := by
  have phase := invariant.phases job
  rw [stands] at phase
  obtain ⟨running, rest⟩ := phase
  obtain ⟨rows, keys, adds⟩ := running.adds
  rw [if_pos ended] at keys
  have ledger : (setup.commitTx state job migration later tx).committed.ledger.map Row.key =
      state.committed.ledger.map Row.key ++ [setup.key job migration] := by
    rw [← keys, ← map_append]
    exact congrArg (List.map Row.key) (adds state.committed)
  have history : (setup.commitTx state job migration later tx).history.map Committed.key =
      state.history.map Committed.key ++ [setup.key job migration] :=
    map_append
  refine ⟨?_, ?_, ?_, ?_, ?_⟩
  · rw [ledger, history, invariant.rows]
  · rw [history]
    apply List.Nodup.append invariant.once (nodup_singleton _)
    intro key before own
    rw [mem_singleton.mp own, ← invariant.rows] at before
    exact running.fresh ended before
  · have recorded : (setup.commitTx state job migration later tx).history.flatMap
        Committed.changes = state.history.flatMap Committed.changes ++ tx.changes := by
      change (state.history ++ [setup.entry job migration tx]).flatMap Committed.changes = _
      rw [flatMap_append, flatMap_singleton]
      rfl
    rw [recorded, applyAll_append, ← invariant.effects]
    rfl
  · intro entry member
    rcases mem_append.mp member with earlier | own
    · exact invariant.whole entry earlier
    · refine ⟨job, migration, running.listed, ?_, ?_⟩
      · rw [mem_singleton.mp own]
        rfl
      · have split := running.split
        rw [ended, append_nil] at split
        rw [mem_singleton.mp own]
        exact split
  · intro other
    by_cases same : other = job
    · rw [same]
      have placed : (setup.commitTx state job migration later tx).jobs job = .pending later :=
        update_self _ _ _
      rw [placed]
      exact rest
    · have kept : (setup.commitTx state job migration later tx).jobs other = state.jobs other :=
        update_of_ne same _ _
      rw [kept]
      exact (invariant.phases other).after_commit transactional same running ended ledger

theorem invariant_preserved (relied : Relied setup) (untouched : LedgerUntouched setup)
    (transactional : setup.dialect ≠ .mySql) :
    StepSystem.Preserved setup.system StepSystem.Unrestricted (Invariant setup) := by
  intro state label next invariant _ fired
  cases step_fires transactional fired with
  | read job migrations stands found => exact invariant.read relied found
  | unread job error stands found | finish job stands => exact invariant.place trivial
  | begin job migration later stmts stands split =>
    have phase := invariant.phases job
    rw [stands] at phase
    exact invariant.begin relied phase split
  | untagged job migration later error stands split => exact invariant.place trivial
  | lock job migration later tx stands postgres unlocked free =>
    exact invariant.lock stands postgres free
  | exec job migration later tx stmt rest change next stands remaining ran =>
    exact invariant.exec relied untouched transactional stands remaining ran
  | execFailed job migration later tx stmt rest error stands remaining locked result =>
    exact invariant.rollback job error
  | refuse job error stands => exact invariant.rollback job error
  | commit job migration later tx stands ended =>
    exact invariant.commit transactional stands ended

theorem Fires.uncommitted {label : Label} (fires : Fires setup state label next)
    (other : ∀ job, label ≠ .commit job) :
    next.committed = state.committed ∧ next.history = state.history := by
  cases fires with
  | commit job => exact absurd rfl (other job)
  | exec job migration later tx stmt rest change next stands remaining ran =>
    obtain ⟨writer, rfl⟩ := ran.placed
    exact ⟨rfl, rfl⟩
  | read | unread | finish | begin | untagged | lock | execFailed | refuse => exact ⟨rfl, rfl⟩

end OnlyJs.Oj.Migrate
