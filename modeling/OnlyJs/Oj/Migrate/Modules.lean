import OnlyJs.Oj.Migrate.Invariant

/-!
# Migrators of other modules

Two states that differ in the ledger rows of one module, and in nothing else that
is not read from them, take the same steps for every other module and stay so.
-/

namespace OnlyJs.Oj.Migrate

open Bridge Lib Function

set_option autoImplicit false

universe u v

variable {Data : Type u} {Change : Type v} {Time : Type}

/-- The same transaction over databases that agree. -/
structure TxAgree (moduleName : Text) (tx other : Tx Data Change) : Prop where
  snapshot : Option.Rel (fun pin otherPin =>
    Agree moduleName pin.1 otherPin.1 ∧ pin.2 = otherPin.2) tx.snapshot other.snapshot
  locked : tx.locked = other.locked
  executed : tx.executed = other.executed
  remaining : tx.remaining = other.remaining
  changes : tx.changes = other.changes

inductive PhaseAgree (moduleName : Text) : Phase Data Change → Phase Data Change → Prop
  | idle : PhaseAgree moduleName .idle .idle
  | pending (migrations : List Migration) :
      PhaseAgree moduleName (.pending migrations) (.pending migrations)
  | inTx (migration : Migration) (later : List Migration) (tx other : Tx Data Change)
      (agree : TxAgree moduleName tx other) :
      PhaseAgree moduleName (.inTx migration later tx) (.inTx migration later other)
  | finished : PhaseAgree moduleName .finished .finished
  | failed (error : Text) : PhaseAgree moduleName (.failed error) (.failed error)

/-- The same state up to the ledger rows of a module. -/
structure StateAgree (moduleName : Text) (state other : State Data Change) : Prop where
  committed : Agree moduleName state.committed other.committed
  height : state.height = other.height
  writer : state.writer = other.writer
  locks : state.locks = other.locks
  jobs : ∀ job, PhaseAgree moduleName (state.jobs job) (other.jobs job)
  history : state.history = other.history

variable {moduleName : Text} {state other : State Data Change}

section

variable (agree : StateAgree moduleName state other)
include agree

theorem StateAgree.place (job : Nat) {phase otherPhase : Phase Data Change}
    (phases : PhaseAgree moduleName phase otherPhase) :
    StateAgree moduleName (state.place job phase) (other.place job otherPhase) := by
  refine ⟨agree.committed, agree.height, agree.writer, agree.locks, ?_, agree.history⟩
  intro acting
  by_cases same : acting = job
  · rw [same]
    change PhaseAgree moduleName (Function.update state.jobs job phase job)
      (Function.update other.jobs job otherPhase job)
    rw [update_self, update_self]
    exact phases
  · change PhaseAgree moduleName (Function.update state.jobs job phase acting)
      (Function.update other.jobs job otherPhase acting)
    rw [update_of_ne same, update_of_ne same]
    exact agree.jobs acting

theorem StateAgree.lock (id : Int) (job : Nat) :
    StateAgree moduleName (state.lock id job) (other.lock id job) := by
  refine ⟨agree.committed, agree.height, agree.writer, ?_, agree.jobs, agree.history⟩
  change Function.update state.locks id (some job) = _
  rw [agree.locks]
  rfl

theorem StateAgree.release (job : Nat) :
    StateAgree moduleName (state.release job) (other.release job) := by
  refine ⟨agree.committed, agree.height, ?_, ?_, agree.jobs, agree.history⟩
  · change (if state.writer = some job then none else state.writer) = _
    rw [agree.writer]
    rfl
  · change (fun id => if state.locks id = some job then none else state.locks id) = _
    rw [agree.locks]
    rfl

theorem StateAgree.rollback (job : Nat) (error : Text) :
    StateAgree moduleName (state.rollback job error) (other.rollback job error) :=
  (agree.release job).place job (.failed error)

end

variable {otherTx tx : Tx Data Change}

section

variable (agree : StateAgree moduleName state other) (txs : TxAgree moduleName tx otherTx)
include agree txs

theorem StateAgree.pin :
    Agree moduleName (tx.pin state).1 (otherTx.pin other).1 ∧
      (tx.pin state).2 = (otherTx.pin other).2 := by
  unfold Tx.pin
  have snapshots := txs.snapshot
  generalize tx.snapshot = taken at snapshots
  generalize otherTx.snapshot = otherTaken at snapshots
  cases snapshots with
  | none => exact ⟨agree.committed, agree.height⟩
  | some pins => exact pins

theorem StateAgree.ran (stmt : Text) (rest : List Text) (change : Option Change) :
    TxAgree moduleName (tx.ran state stmt rest change) (otherTx.ran other stmt rest change) where
  snapshot := .some (agree.pin txs)
  locked := txs.locked
  executed := congrArg (· ++ [stmt]) txs.executed
  remaining := rfl
  changes := congrArg (· ++ change.toList) txs.changes

end

variable {setup : Setup Data Change Time}

theorem StateAgree.view (agree : StateAgree moduleName state other)
    (txs : TxAgree moduleName tx otherTx)
    (blind : ∀ change ∈ tx.changes, Blind setup.engine change) :
    Agree moduleName (setup.view state tx) (setup.view other otherTx) := by
  unfold Setup.view
  rw [← txs.changes]
  cases setup.dialect with
  | sqlite => exact (agree.pin txs).1.applyAll blind
  | postgres | mySql => exact agree.committed.applyAll blind

variable {job : Nat}

theorem pendingOf_eq (relied : Relied setup) (outside : (setup.jobs job).moduleName ≠ moduleName)
    {database otherBase : Database Data} (agree : Agree moduleName database otherBase) :
    pendingOf setup.engine setup.libraries (setup.jobs job).moduleName
        (setup.jobs job).migrations database =
      pendingOf setup.engine setup.libraries (setup.jobs job).moduleName
        (setup.jobs job).migrations otherBase := by
  have rows : setup.engine.query (scopedQuery (setup.jobs job).moduleName) database =
      setup.engine.query (scopedQuery (setup.jobs job).moduleName) otherBase := by
    rw [relied.selects, relied.selects]
    have own : database.ledger.filter (fun row => row.moduleName = (setup.jobs job).moduleName) =
        otherBase.ledger.filter fun row => row.moduleName = (setup.jobs job).moduleName := by
      apply agree.filter
      intro row kept
      rw [of_decide_eq_true kept]
      exact outside
    rw [own]
  unfold pendingOf
  rw [scopeModule_appliedQuery]
  change (setup.engine.query _ database >>= _) = (setup.engine.query _ otherBase >>= _)
  rw [rows]

variable {migration : Migration} {rest : List Text}

variable {stmt : Text}

theorem exec_eq (relied : Relied setup) (untouched : LedgerUntouched setup)
    (outside : (setup.jobs job).moduleName ≠ moduleName) (agree : StateAgree moduleName state other)
    (txs : TxAgree moduleName tx otherTx) (running : TxInvariant setup state job migration tx)
    (remaining : tx.remaining = stmt :: rest) :
    setup.engine.exec stmt (setup.view state tx) =
      setup.engine.exec stmt (setup.view other otherTx) := by
  have views : Agree moduleName (setup.view state tx) (setup.view other otherTx) :=
    agree.view txs running.blind
  obtain ⟨pieces, tagged, shape⟩ := statements_split relied running.listed running.split
  rw [remaining] at shape
  rcases last_or_inner shape with ⟨_, rfl⟩ | ⟨_, inner⟩
  · obtain ⟨⟨error, refused⟩, row, change, _, accepted, _⟩ :=
      relied.inserts job migration running.listed
    have key : setup.key job migration ∈ (setup.view state tx).ledger.map Row.key ↔
        setup.key job migration ∈ (setup.view other otherTx).ledger.map Row.key :=
      views.mem_key outside
    by_cases present : setup.key job migration ∈ (setup.view state tx).ledger.map Row.key
    · rw [refused _ present, refused _ (key.mp present)]
    · rw [accepted _ present, accepted _ fun there => present (key.mpr there)]
  · exact (untouched job migration running.listed pieces tagged stmt inner).exec_eq views

theorem StateAgree.mayWrite (agree : StateAgree moduleName state other)
    (txs : TxAgree moduleName tx otherTx) (job : Nat) :
    state.mayWrite job tx = other.mayWrite job otherTx := by
  unfold State.mayWrite
  rw [agree.writer, agree.height, (agree.pin txs).2]

variable {later : List Migration} {next : State Data Change}

theorem runStatement_agree (transactional : setup.dialect ≠ .mySql)
    (agree : StateAgree moduleName state other) (txs : TxAgree moduleName tx otherTx)
    (same : setup.engine.exec stmt (setup.view state tx) =
      setup.engine.exec stmt (setup.view other otherTx))
    (fired : setup.runStatement state job migration later tx stmt rest = some next) :
    ∃ otherNext, setup.runStatement other job migration later otherTx stmt rest =
        some otherNext ∧ StateAgree moduleName next otherNext := by
  have ran : ∀ change, StateAgree moduleName
      (state.place job (.inTx migration later (tx.ran state stmt rest change)))
      (other.place job (.inTx migration later (otherTx.ran other stmt rest change))) := by
    intro change
    exact agree.place job (.inTx migration later _ _ (agree.ran txs stmt rest change))
  unfold Setup.runStatement at fired ⊢
  rw [same, agree.mayWrite txs, txs.locked] at fired
  cases dialect : setup.dialect with
  | mySql => exact absurd dialect transactional
  | sqlite =>
    rw [dialect] at fired
    cases result : setup.engine.exec stmt (setup.view other otherTx) with
    | failed error =>
      rw [result] at fired
      cases fired
      exact ⟨_, rfl, agree.rollback job error⟩
    | done change =>
      rw [result] at fired
      cases change with
      | none =>
        cases fired
        exact ⟨_, rfl, ran none⟩
      | some change =>
        obtain ⟨may, fired⟩ := Option.ite_none_right_eq_some.mp fired
        cases fired
        refine ⟨_, if_pos may, ?_⟩
        have ⟨committed, height, _, locks, jobs, history⟩ := ran (some change)
        exact ⟨committed, height, rfl, locks, jobs, history⟩
  | postgres =>
    rw [dialect] at fired
    obtain ⟨locked, fired⟩ := Option.ite_none_right_eq_some.mp fired
    rw [if_pos locked]
    cases result : setup.engine.exec stmt (setup.view other otherTx) with
    | failed error =>
      rw [result] at fired
      cases fired
      exact ⟨_, rfl, agree.rollback job error⟩
    | done change =>
      rw [result] at fired
      cases fired
      exact ⟨_, rfl, ran change⟩

theorem step_exec (stands : state.jobs job = .inTx migration later tx)
    (remaining : tx.remaining = stmt :: rest) :
    setup.step state (.exec job) =
      setup.runStatement state job migration later tx stmt rest := by
  unfold Setup.step
  simp only [stands, remaining]

theorem StateAgree.commit (agree : StateAgree moduleName state other) (job : Nat)
    (migration : Migration) (later : List Migration) (txs : TxAgree moduleName tx otherTx)
    (blind : ∀ change ∈ tx.changes, Blind setup.engine change) :
    StateAgree moduleName (setup.commitTx state job migration later tx)
      (setup.commitTx other job migration later otherTx) := by
  unfold Setup.commitTx Setup.entry
  rw [← txs.changes, ← txs.executed]
  apply StateAgree.place _ job (.pending later)
  apply StateAgree.release
  refine ⟨agree.committed.applyAll blind, ?_, agree.writer, agree.locks, agree.jobs, ?_⟩
  · change state.height + 1 = _
    rw [agree.height]
  · change state.history ++ _ = _
    rw [agree.history]

section

variable (relied : Relied setup) (untouched : LedgerUntouched setup)
  (transactional : setup.dialect ≠ .mySql) (invariant : Invariant setup state)
include relied untouched transactional invariant

/-- A step of another module is a step of the other state too. -/
theorem step_agree (agree : StateAgree moduleName state other) {label : Label}
    (outside : (setup.jobs label.job).moduleName ≠ moduleName)
    (fired : setup.step state label = some next) :
    ∃ otherNext, setup.step other label = some otherNext ∧
      StateAgree moduleName next otherNext := by
  obtain ⟨acting, named⟩ : ∃ job, label.job = job := ⟨_, rfl⟩
  rw [named] at outside
  have phases := agree.jobs acting
  have holds := invariant.phases acting
  generalize there : other.jobs acting = otherPhase at phases
  cases step_fires transactional fired with
  | read job migrations stands found =>
    have same : job = acting := named
    subst same
    rw [stands] at phases
    cases phases
    rw [pendingOf_eq relied outside agree.committed] at found
    refine ⟨_, ?_, agree.place job (.pending migrations)⟩
    simp only [Setup.step, there, found]
  | unread job error stands found =>
    have same : job = acting := named
    subst same
    rw [stands] at phases
    cases phases
    rw [pendingOf_eq relied outside agree.committed] at found
    refine ⟨_, ?_, agree.place job (.failed error)⟩
    simp only [Setup.step, there, found]
  | finish job stands =>
    have same : job = acting := named
    subst same
    rw [stands] at phases
    cases phases
    refine ⟨_, ?_, agree.place job .finished⟩
    simp only [Setup.step, there]
  | begin job migration later stmts stands split =>
    have same : job = acting := named
    subst same
    rw [stands] at phases
    cases phases
    refine ⟨_, ?_, agree.place job (.inTx migration later (.opened stmts) (.opened stmts)
      ⟨.none, rfl, rfl, rfl, rfl⟩)⟩
    simp only [Setup.step, there, split]
  | untagged job migration later error stands split =>
    have same : job = acting := named
    subst same
    rw [stands] at phases
    cases phases
    refine ⟨_, ?_, agree.place job (.failed error)⟩
    simp only [Setup.step, there, split]
  | lock job migration later tx stands postgres unlocked free =>
    have same : job = acting := named
    subst same
    rw [stands] at phases
    cases phases with
    | inTx _ _ _ otherTx txs =>
      have enabled : setup.dialect = .postgres ∧ otherTx.locked = false ∧
          other.locks (setup.lockId job) = none := by
        rw [← txs.locked, ← agree.locks]
        exact ⟨postgres, unlocked, free⟩
      have txsLocked : TxAgree moduleName { tx with locked := true }
          { otherTx with locked := true } :=
        ⟨txs.snapshot, rfl, txs.executed, txs.remaining, txs.changes⟩
      refine ⟨_, ?_, (agree.lock (setup.lockId job) job).place job
        (.inTx migration later _ _ txsLocked)⟩
      simp only [Setup.step, there]
      exact if_pos enabled
  | exec job migration later tx stmt rest change next stands remaining ran
  | execFailed job migration later tx stmt rest error stands remaining locked result =>
    have same : job = acting := named
    subst same
    rw [stands] at phases holds
    cases phases with
    | inTx _ _ _ otherTx txs =>
      rw [step_exec stands remaining] at fired
      rw [step_exec there (txs.remaining ▸ remaining)]
      exact runStatement_agree transactional agree txs
        (exec_eq relied untouched outside agree txs holds.1 remaining) fired
  | refuse job error stands =>
    have same : job = acting := named
    subst same
    have active : (other.jobs job).active = true := by
      rw [there]
      generalize state.jobs job = phase at phases stands
      cases phases <;> exact stands
    exact ⟨_, if_pos active, agree.rollback job error⟩
  | commit job migration later tx stands ended =>
    have same : job = acting := named
    subst same
    rw [stands] at phases holds
    cases phases with
    | inTx _ _ _ otherTx txs =>
      have closed : otherTx.remaining.isEmpty = true := by
        rw [← txs.remaining, ended]
        rfl
      refine ⟨_, ?_, agree.commit job migration later txs holds.1.blind⟩
      simp only [Setup.step, there]
      exact if_pos closed

theorem path_agree (agree : StateAgree moduleName state other) {labels : List Label}
    (outside : ∀ label ∈ labels, (setup.jobs label.job).moduleName ≠ moduleName)
    {finish : State Data Change}
    (path : StepSystem.Path setup.system StepSystem.Unrestricted state labels finish) :
    ∃ otherFinish,
      StepSystem.Path setup.system StepSystem.Unrestricted other labels otherFinish ∧
        StateAgree moduleName finish otherFinish := by
  induction labels generalizing state other with
  | nil =>
    cases path
    exact ⟨other, rfl, agree⟩
  | cons label rest ih =>
    obtain ⟨permitted, next, fired, continued⟩ := path
    obtain ⟨otherNext, otherFired, nextAgree⟩ := step_agree relied untouched transactional
      invariant agree (outside label List.mem_cons_self) fired
    have nextInvariant := invariant_preserved relied untouched transactional state label next
      invariant permitted fired
    obtain ⟨otherFinish, otherPath, finishAgree⟩ := ih nextInvariant nextAgree
      (fun later member => outside later (List.mem_cons_of_mem _ member)) continued
    exact ⟨otherFinish, ⟨trivial, otherNext, otherFired, otherPath⟩, finishAgree⟩

end

end OnlyJs.Oj.Migrate
