import OnlyJs.Bridge.DbImport.Consumer

/-!
# What an import reports

The rows that an import settles with are those of the statements of its committed
transactions, whatever the database made of them; the errors are the rows that it
could not parse or, one by one, not insert. Both are the truth exactly when no
committed transaction holds a statement that was refused or merged rows, and no
batch that is inserted as a whole is refused.
-/

namespace OnlyJs.Bridge.DbImport

open Finmap List Lib.FiniteMap

def Statement.rows : Statement → Nat
  | delete => 0
  | insert _ others _ => others.length + 1
  | refused _ others => others.length + 1

def Statement.refusedRows : Statement → Nat
  | refused _ others => others.length + 1
  | _ => 0

def Statement.isRefused : Statement → Bool
  | refused _ _ => true
  | _ => false

def Statement.keepsAll : Statement → Bool
  | delete => true
  | insert _ _ merged => merged = 0
  | refused _ _ => false

def Statement.apply (present : Nat) : Statement → Nat
  | delete => present
  | insert _ others merged => present + (others.length + 1) - merged
  | refused _ _ => present

def Transaction.aborted (dialect : Dialect) (transaction : Transaction) : Bool :=
  dialect = .postgres && transaction.statements.any Statement.isRefused

def Transaction.leaves (dialect : Dialect) (present : Nat) (transaction : Transaction) : Nat :=
  if transaction.committed ∧ transaction.aborted dialect = false then
    transaction.statements.foldl Statement.apply present
  else present

def durable (dialect : Dialect) (past : List Transaction) : Nat :=
  past.foldl (Transaction.leaves dialect) 0

def rowsIn (statements : List Statement) : Nat := (statements.map Statement.rows).sum

def refusedIn (statements : List Statement) : Nat := (statements.map Statement.refusedRows).sum

def statementsOf (past : List Transaction) : List Statement := past.flatMap Transaction.statements

def ImportOutcome.rejected (outcome : ImportOutcome) : Nat :=
  outcome.unparsable.length + refusedIn (statementsOf outcome.past)

/-- The task has settled with the rows that are durably in the table and the number of
rejected rows, and nothing settles it again. -/
structure Truthful (task : ImportTask) (id : String) (outcome : ImportOutcome) : Prop where
  settled : ∃ entry, outcome.registry.inner.lookup id = some entry ∧ entry.state ≠ .running ∧
    entry.rows = durable task.dialect outcome.past ∧ entry.errorCount = outcome.rejected
  once : ∀ fin now, finish outcome.registry id fin now = outcome.registry

/-- No committed transaction holds a statement that was refused or merged rows, and
where the first error ends the import, no statement is refused at all. -/
structure Undisturbed (task : ImportTask) (past : List Transaction) : Prop where
  kept : ∀ transaction ∈ past, transaction.committed = true →
    ∀ statement ∈ transaction.statements, statement.keepsAll = true
  unrefused : task.skip = false → ∀ statement ∈ statementsOf past, statement.isRefused = false

@[simp] theorem rowsIn_append (first second : List Statement) :
    rowsIn (first ++ second) = rowsIn first + rowsIn second := by
  simp [rowsIn]

@[simp] theorem refusedIn_append (first second : List Statement) :
    refusedIn (first ++ second) = refusedIn first + refusedIn second := by
  simp [refusedIn]

variable (dialect : Dialect) (present : Nat) (transaction : Transaction)
  (statements : List Statement)

theorem refusedIn_eq_zero_iff :
    refusedIn statements = 0 ↔ ∀ statement ∈ statements, statement.isRefused = false := by
  induction statements with
  | nil => exact iff_of_true rfl nofun
  | cons statement rest ih =>
    have split : refusedIn (statement :: rest) = statement.refusedRows + refusedIn rest := rfl
    rw [split, forall_mem_cons, ← ih]
    cases statement <;> simp [Statement.refusedRows, Statement.isRefused]

variable (statement : Statement)

theorem apply_le :
    statement.apply present ≤ present + statement.rows := by
  cases statement with
  | delete => exact Nat.le_refl _
  | insert first others merged => exact Nat.sub_le _ _
  | refused first others => exact Nat.le_add_right _ _

theorem apply_eq_iff :
    statement.apply present = present + statement.rows ↔ statement.keepsAll = true := by
  cases statement with
  | delete => exact iff_of_true rfl rfl
  | insert first others merged =>
    simp only [Statement.apply, Statement.rows, Statement.keepsAll, decide_eq_true_eq]
    omega
  | refused first others =>
    simp only [Statement.apply, Statement.rows]
    exact iff_of_false (by omega) Bool.false_ne_true

theorem foldl_apply_le :
    statements.foldl Statement.apply present ≤ present + rowsIn statements := by
  induction statements generalizing present with
  | nil => exact Nat.le_refl _
  | cons statement rest ih =>
    have head := apply_le present statement
    have tail := ih (statement.apply present)
    have split : rowsIn (statement :: rest) = statement.rows + rowsIn rest := rfl
    rw [foldl_cons]
    omega

theorem foldl_apply_eq_iff :
    statements.foldl Statement.apply present = present + rowsIn statements ↔
      ∀ statement ∈ statements, statement.keepsAll = true := by
  induction statements generalizing present with
  | nil => exact iff_of_true rfl nofun
  | cons statement rest ih =>
    have head := apply_le present statement
    have tail := foldl_apply_le (statement.apply present) rest
    have split : rowsIn (statement :: rest) = statement.rows + rowsIn rest := rfl
    rw [forall_mem_cons, ← apply_eq_iff present, ← ih (statement.apply present),
      foldl_cons]
    omega

def confirmed (past : List Transaction) : Nat :=
  (past.map fun transaction =>
    if transaction.committed then rowsIn transaction.statements else 0).sum

@[simp] theorem confirmed_append (first second : List Transaction) :
    confirmed (first ++ second) = confirmed first + confirmed second := by
  simp [confirmed]

theorem confirmed_single :
    confirmed [transaction] =
      if transaction.committed then rowsIn transaction.statements else 0 := by
  simp [confirmed]

theorem refused_of_aborted (aborted : transaction.aborted dialect = true) :
    ∃ statement ∈ transaction.statements, statement.isRefused = true := by
  rw [Transaction.aborted, Bool.and_eq_true] at aborted
  exact any_eq_true.mp aborted.2

theorem rows_pos_of_refused (member : statement ∈ statements)
    (refused : statement.isRefused = true) :
    0 < rowsIn statements ∧ statement.keepsAll = false := by
  cases statement with
  | delete | insert => cases refused
  | refused first others =>
    refine ⟨?_, rfl⟩
    obtain ⟨before, after, rfl⟩ := append_of_mem member
    have split : rowsIn (.refused first others :: after) = others.length + 1 + rowsIn after := rfl
    rw [rowsIn_append]
    omega

theorem leaves_bound :
    transaction.leaves dialect present ≤ present + confirmed [transaction] ∧
      (transaction.leaves dialect present = present + confirmed [transaction] ↔
        (transaction.committed = true →
          ∀ statement ∈ transaction.statements, statement.keepsAll = true)) := by
  rw [Transaction.leaves]
  by_cases committed : transaction.committed = true
  · have count : confirmed [transaction] = rowsIn transaction.statements :=
      (confirmed_single transaction).trans (if_pos committed)
    rw [count]
    cases aborted : transaction.aborted dialect with
    | false =>
      rw [if_pos ⟨committed, rfl⟩]
      refine ⟨foldl_apply_le present _, ?_⟩
      rw [foldl_apply_eq_iff]
      exact ⟨fun all _ => all, fun all => all committed⟩
    | true =>
      obtain ⟨statement, member, refused⟩ := refused_of_aborted dialect transaction aborted
      obtain ⟨positive, lost⟩ := rows_pos_of_refused _ statement member refused
      rw [if_neg fun both => nomatch both.2]
      refine ⟨Nat.le_add_right _ _, iff_of_false ?_ ?_⟩
      · omega
      · intro all
        rw [all committed statement member] at lost
        cases lost
  · have count : confirmed [transaction] = 0 :=
      (confirmed_single transaction).trans (if_neg committed)
    rw [count, if_neg fun both => committed both.1]
    exact ⟨Nat.le_refl _, iff_of_true rfl fun there => absurd there committed⟩

theorem foldl_leaves (past : List Transaction) :
    past.foldl (Transaction.leaves dialect) present ≤ present + confirmed past ∧
      (past.foldl (Transaction.leaves dialect) present = present + confirmed past ↔
        ∀ transaction ∈ past, transaction.committed = true →
          ∀ statement ∈ transaction.statements, statement.keepsAll = true) := by
  induction past generalizing present with
  | nil => exact ⟨Nat.le_refl _, iff_of_true rfl nofun⟩
  | cons transaction rest ih =>
    obtain ⟨head, headIff⟩ := leaves_bound dialect present transaction
    obtain ⟨tail, tailIff⟩ := ih (transaction.leaves dialect present)
    have split : confirmed (transaction :: rest) = confirmed [transaction] + confirmed rest :=
      confirmed_append [transaction] rest
    rw [forall_mem_cons, ← headIff, ← tailIff, foldl_cons]
    omega

theorem confirmed_eq_durable_iff (past : List Transaction) :
    confirmed past = durable dialect past ↔
      ∀ transaction ∈ past, transaction.committed = true →
        ∀ statement ∈ transaction.statements, statement.keepsAll = true := by
  rw [← (foldl_leaves dialect 0 past).2, Nat.zero_add]
  exact eq_comm

/-- The entry of the task is running and counts the errors of the run. -/
def Tracks (id : String) (run : ImportRun) : Prop :=
  ∃ entry, run.registry.inner.lookup id = some entry ∧ entry.state = .running ∧
    entry.errorCount = run.errors

theorem whileRunning_running (registry : ImportRegistry) (id : String)
    (change : ImportEntry → ImportEntry) (entry : ImportEntry)
    (found : registry.inner.lookup id = some entry) (running : entry.state = .running) :
    (registry.whileRunning id change).inner.lookup id = some (change entry) := by
  simp only [ImportRegistry.whileRunning, found, running, if_true, lookup_insert]

theorem tracks_sampled (id : String) (run : ImportRun) (sample : ImportSample)
    (tracks : Tracks id run) : Tracks id (run.sampled id sample) := by
  obtain ⟨entry, found, running, count⟩ := tracks
  refine ⟨_, whileRunning_running _ id _ entry found running, running, ?_⟩
  rw [ImportRun.sampled, count]

theorem tracks_progress (id : String) (run : ImportRun) (rows bytes committed : Nat)
    (tracks : Tracks id run) :
    Tracks id { run with committed, registry := progress run.registry id rows bytes } := by
  obtain ⟨entry, found, running, count⟩ := tracks
  exact ⟨_, whileRunning_running _ id _ entry found running, running, count⟩

section Consume

variable (jsonText : Value → String) (task : ImportTask) (world : World) (id : String)

/-- Collecting a batch touches neither the database nor the counter of rows; it notes
the rows that could not be parsed. -/
structure Collected (before after : ImportRun) : Prop where
  history : after.history = before.history
  committed : after.committed = before.committed
  errors : after.errors + before.unparsable.length = before.errors + after.unparsable.length
  tracks : Tracks id before → Tracks id after

variable (first : ParsedRow) (others : List ParsedRow) (run : ImportRun)

theorem collected_source (source : RowSource) :
    Collected id run { run with source } :=
  ⟨rfl, rfl, rfl, fun tracks => tracks⟩

theorem collected_trans {first second third : ImportRun} (earlier : Collected id first second)
    (later : Collected id second third) : Collected id first third := by
  refine ⟨later.history.trans earlier.history, later.committed.trans earlier.committed, ?_,
    fun tracks => later.tracks (earlier.tracks tracks)⟩
  have one := earlier.errors
  have two := later.errors
  omega

theorem collected_bad (source : RowSource) (sample : ImportSample) (line : Nat) :
    Collected id run
      { ({ run with source } : ImportRun).sampled id sample with
        unparsable := run.unparsable ++ [line] } := by
  refine ⟨rfl, rfl, ?_, tracks_sampled id { run with source } sample⟩
  simp only [ImportRun.sampled, length_append, length_singleton]
  omega

section

variable (limit endBytes : Nat) (items : List (SourceItem × Nat)) (batch : List ParsedRow)
include items batch

theorem collectBatch_collected (run : ImportRun) :
    Collected id run (collectBatch task id limit endBytes items batch run).1 := by
  induction items generalizing batch run with
  | nil =>
    rw [collectBatch]
    split
    · exact collected_source id run _
    · exact collected_source id run _
  | cons head rest ih =>
    obtain ⟨item, bytes⟩ := head
    rw [collectBatch]
    split
    · cases item with
      | row parsed => exact collected_trans id (collected_source id run _) (ih _ _)
      | io error => exact collected_source id run _
      | bad error =>
        obtain ⟨line, reason, raw⟩ := error
        have noted := collected_bad id run { bytes, items := rest, endBytes }
          { line, reason, raw := some raw } line
        dsimp only
        split
        · exact noted
        split
        · exact noted
        · exact collected_trans id noted (ih _ _)
    · exact collected_source id run _

/-- The rows of a batch are taken from the source. -/
theorem collectBatch_consumes (run next : ImportRun) (rows : List ParsedRow) (ended : Bool)
    (collected : collectBatch task id limit endBytes items batch run = (next, .ok (rows, ended))) :
    next.source.items.length + rows.length ≤ items.length + batch.length := by
  induction items generalizing batch run with
  | nil =>
    rw [collectBatch] at collected
    split at collected
    · cases collected
      exact Nat.le_refl _
    · cases collected
      exact Nat.le_refl _
  | cons head rest ih =>
    obtain ⟨item, bytes⟩ := head
    rw [collectBatch] at collected
    split at collected
    · cases item with
      | row parsed =>
        have later := ih _ _ collected
        rw [length_append, length_singleton] at later
        rw [length_cons]
        omega
      | io error => cases collected
      | bad error =>
        dsimp only at collected
        split at collected
        · cases collected
        split at collected
        · cases collected
        · have later := ih _ _ collected
          rw [length_cons]
          omega
    · cases collected
      exact Nat.le_refl _

end

def History.all (history : History) : List Statement := statementsOf history.past ++ history.current

/-- Writing touches neither the source nor the counter of rows; where errors are
skipped, each row that was refused is counted. -/
structure Wrote (before after : ImportRun) (statements : List Statement) : Prop where
  all : after.history.all = before.history.all ++ statements
  committed : after.committed = before.committed
  source : after.source = before.source
  unparsable : after.unparsable = before.unparsable
  errors : after.errors = before.errors + if task.skip then refusedIn statements else 0
  tracks : Tracks id before → Tracks id after

theorem wrote_nothing : Wrote task id run run [] := by
  refine ⟨(append_nil _).symm, rfl, rfl, rfl, ?_, fun tracks => tracks⟩
  split <;> rfl

theorem wrote_trans {first second third : ImportRun} {one two : List Statement}
    (earlier : Wrote task id first second one) (later : Wrote task id second third two) :
    Wrote task id first third (one ++ two) := by
  refine ⟨?_, later.committed.trans earlier.committed, later.source.trans earlier.source,
    later.unparsable.trans earlier.unparsable, ?_,
      fun tracks => later.tracks (earlier.tracks tracks)⟩
  · rw [later.all, earlier.all, append_assoc]
  · rw [later.errors, earlier.errors, refusedIn_append]
    split <;> omega

theorem wrote_stated (statement : Statement)
    (uncounted : task.skip = true → statement.refusedRows = 0) :
    Wrote task id run (run.stated statement) [statement] := by
  refine ⟨?_, rfl, rfl, rfl, ?_, fun tracks => tracks⟩
  · exact (append_assoc _ _ _).symm
  · split
    · rename_i skip
      exact (congrArg (run.errors + ·) (uncounted skip)).symm
    · rfl

theorem wrote_refused (row : ParsedRow) (sample : ImportSample) (skip : task.skip = true) :
    Wrote task id run ((run.stated (.refused row [])).sampled id sample) [.refused row []] := by
  refine ⟨(append_assoc _ _ _).symm, rfl, rfl, rfl, ?_, ?_⟩
  · rw [if_pos skip]
    rfl
  · exact tracks_sampled id (run.stated (.refused row [])) sample

/-- What the statements of a batch did: they belong to the open transaction, and when
they all went through, they held its rows. -/
structure Executed (count : Nat) (before : ImportRun) (result : ImportRun × Except String Unit)
    (statements : List Statement) : Prop where
  wrote : Wrote task id before result.1 statements
  history : result.1.history =
    { before.history with current := before.history.current ++ statements }
  rows : result.2 = .ok () → rowsIn statements = count
  clean : result.2 = .ok () → task.skip = false → refusedIn statements = 0

variable (next : ImportRun) (count : Nat)

theorem executed_error (run : ImportRun) (error : String) :
    Executed task id count run (run, .error error) [] := by
  refine ⟨wrote_nothing task id run, ?_, nofun, nofun⟩
  rw [append_nil]

theorem insertEach_executed (rows : List ParsedRow) (run : ImportRun) (skip : task.skip = true) :
    ∃ statements,
      Executed task id rows.length run (insertEach jsonText task world id rows run) statements := by
  induction rows generalizing run with
  | nil =>
    refine ⟨[], wrote_nothing task id run, ?_, fun _ => rfl, fun _ _ => rfl⟩
    rw [append_nil]
    rfl
  | cons row rest ih =>
    have before : ∀ next statement result statements,
        Wrote task id run next [statement] → statement.rows = 1 →
        next.history = { run.history with current := run.history.current ++ [statement] } →
        Executed task id rest.length next result statements →
        Executed task id (rest.length + 1) run result (statement :: statements) := by
      intro next statement result statements wrote one history executed
      refine ⟨wrote_trans task id wrote executed.wrote, ?_, ?_, ?_⟩
      · rw [executed.history, history, append_assoc]
        rfl
      · intro passed
        have count := executed.rows passed
        have split : rowsIn (statement :: statements) = statement.rows + rowsIn statements := rfl
        omega
      · intro _ abort
        rw [skip] at abort
        cases abort
    rw [insertEach]
    split
    · exact ⟨[], executed_error task id _ run _⟩
    split
    · rename_i merged _
      obtain ⟨statements, executed⟩ := ih (run.stated (.insert row [] merged))
      exact ⟨_, before _ _ _ statements (wrote_stated task id run _ fun _ => rfl) rfl rfl executed⟩
    · rename_i error _
      have refused := wrote_refused task id run row
        { line := row.line
          reason := s!"insert failed: {error}"
          raw := some (jsonText (.array row.values)) } skip
      dsimp only
      split
      · exact ⟨_, refused, rfl, nofun, nofun⟩
      · obtain ⟨statements, executed⟩ := ih _
        exact ⟨_, before _ _ _ statements refused rfl rfl executed⟩

theorem insertAll_executed (abort : task.skip = false) :
    ∃ statements,
      Executed task id (others.length + 1) run (insertAll world first others run) statements := by
  have uncounted : ∀ statement : Statement, task.skip = true → statement.refusedRows = 0 := by
    intro statement skip
    rw [skip] at abort
    cases abort
  rw [insertAll]
  split
  · exact ⟨[], executed_error task id _ run _⟩
  split
  · exact ⟨_, wrote_stated task id run _ (uncounted _), rfl, fun _ => rfl, fun _ _ => rfl⟩
  · exact ⟨_, wrote_stated task id run _ (uncounted _), rfl, nofun, nofun⟩

theorem execRows_executed :
    ∃ statements, Executed task id (others.length + 1) run
      (execRows jsonText task world id first others run) statements := by
  rw [execRows]
  split
  · rename_i skip
    exact insertEach_executed jsonText task world id (first :: others) run skip
  · rename_i abort
    exact insertAll_executed task world id first others run (Bool.eq_false_of_not_eq_true abort)

def History.rows (history : History) : Nat := confirmed history.past + rowsIn history.current

/-- What the writing of a batch did, whichever transaction it belongs to. -/
structure Stored (count : Nat) (before : ImportRun) (result : ImportRun × Except String Unit)
    (statements : List Statement) : Prop where
  wrote : Wrote task id before result.1 statements
  clean : result.2 = .ok () → task.skip = false → refusedIn statements = 0
  single : task.singleTx = true → result.1.history.past = before.history.past
  multi : task.singleTx = false → result.1.history.current = []
  passed : result.2 = .ok () → result.1.history.rows = before.history.rows + count
  failed : task.singleTx = false → result.2 ≠ .ok () →
    result.1.history.rows = before.history.rows

theorem stored_ended (before run : ImportRun) (statements : List Statement) (committed : Bool)
    (result : Except String Unit) (apart : task.singleTx = false)
    (closed : before.history.current = []) (confirms : committed = true ↔ result = .ok ())
    (executed : Executed task id count before (run, .ok ()) statements ∨ committed = false ∧
      ∃ error, Executed task id count before (run, .error error) statements) :
    Stored task id count before (run.ended committed, result) statements := by
  obtain ⟨wrote, history⟩ : Wrote task id before run statements ∧
      run.history = { before.history with current := before.history.current ++ statements } := by
    rcases executed with executed | ⟨-, error, executed⟩
    · exact ⟨executed.wrote, executed.history⟩
    · exact ⟨executed.wrote, executed.history⟩
  have past : run.history.past = before.history.past := by rw [history]
  have current : run.history.current = statements := by
    rw [history, closed]
    rfl
  have grown : (run.ended committed).history.rows =
      before.history.rows + if committed then rowsIn statements else 0 := by
    simp only [ImportRun.ended, History.rows, confirmed_append, past, current,
      closed]
    rfl
  refine ⟨?_, ?_, ?_, fun _ => rfl, ?_, ?_⟩
  · refine ⟨?_, wrote.committed, wrote.source, wrote.unparsable, wrote.errors, wrote.tracks⟩
    rw [← wrote.all]
    simp [ImportRun.ended, History.all, statementsOf]
  · intro passed
    rcases executed with executed | ⟨rolled, -⟩
    · exact executed.clean rfl
    · rw [confirms.mpr passed] at rolled
      cases rolled
  · intro single
    rw [single] at apart
    cases apart
  · intro passed
    have confirmed_ := confirms.mpr passed
    rcases executed with executed | ⟨rolled, -⟩
    · rw [grown, if_pos confirmed_, executed.rows rfl]
    · rw [confirmed_] at rolled
      cases rolled
  · intro _ failed
    rw [grown, if_neg fun there => failed (confirms.mp there), Nat.add_zero]

theorem writeBatch_stored (closed : task.singleTx = false → run.history.current = []) :
    ∃ statements, Stored task id (others.length + 1) run
      (writeBatch jsonText task world id first others run) statements := by
  obtain ⟨statements, executed⟩ := execRows_executed jsonText task world id first others run
  rw [writeBatch]
  split
  · rename_i single
    refine ⟨statements, executed.wrote, executed.clean, ?_, ?_, ?_, ?_⟩
    · intro _
      rw [executed.history]
    · intro apart
      rw [single] at apart
      cases apart
    · intro passed
      rw [executed.history, History.rows, rowsIn_append, executed.rows passed, History.rows,
        Nat.add_assoc]
    · intro apart
      rw [single] at apart
      cases apart
  · rename_i apart
    have apart := Bool.eq_false_of_not_eq_true apart
    split
    · refine ⟨[], wrote_nothing task id run, nofun, fun _ => rfl, closed, nofun, fun _ _ => rfl⟩
    split
    · rename_i next error failed
      rw [failed] at executed
      exact ⟨statements, stored_ended task id _ run next statements false _ apart (closed apart)
        (by simp) (.inr ⟨rfl, error, executed⟩)⟩
    · rename_i next passed
      rw [passed] at executed
      split
      · exact ⟨statements, stored_ended task id _ run next statements false _ apart (closed apart)
          (by simp) (.inl executed)⟩
      · exact ⟨statements, stored_ended task id _ run next statements true _ apart (closed apart)
          (by simp) (.inl executed)⟩

/-- What holds before a turn. -/
structure Balanced (run : ImportRun) : Prop where
  tracks : Tracks id run
  errors : run.errors = run.unparsable.length + refusedIn run.history.all
  clean : task.skip = false → refusedIn run.history.all = 0
  single : task.singleTx = true → run.history.past = []
  multi : task.singleTx = false → run.history.current = []
  rows : run.committed = run.history.rows

/-- What holds when the loop has ended. -/
structure Closing (run : ImportRun) (ended : ImportEnd) : Prop where
  tracks : Tracks id run
  errors : run.errors = run.unparsable.length + refusedIn run.history.all ↔
    (task.skip = false → refusedIn run.history.all = 0)
  single : task.singleTx = true → run.history.past = []
  multi : task.singleTx = false → run.history.current = []
  rows : task.singleTx = false ∨ ended = .done → run.committed = run.history.rows

theorem closing_of_balanced (ended : ImportEnd) (balanced : Balanced task id run) :
    Closing task id run ended :=
  ⟨balanced.tracks, iff_of_true balanced.errors balanced.clean, balanced.single, balanced.multi,
    fun _ => balanced.rows⟩

theorem balanced_collected (balanced : Balanced task id run) (collected : Collected id run next) :
    Balanced task id next := by
  have count := collected.errors
  have errors := balanced.errors
  refine ⟨collected.tracks balanced.tracks, ?_, ?_, ?_, ?_, ?_⟩
  · rw [collected.history]
    omega
  · rw [collected.history]
    exact balanced.clean
  · rw [collected.history]
    exact balanced.single
  · rw [collected.history]
    exact balanced.multi
  · rw [collected.history, collected.committed]
    exact balanced.rows

theorem refusedIn_wrote (statements : List Statement) (wrote : Wrote task id run next statements) :
    refusedIn next.history.all = refusedIn run.history.all + refusedIn statements := by
  rw [wrote.all, refusedIn_append]

theorem balanced_stored (bytes : Nat) (statements : List Statement)
    (balanced : Balanced task id run)
    (stored : Stored task id count run (next, .ok ()) statements) :
    Balanced task id
      { next with
        committed := next.committed + count
        registry := progress next.registry id (next.committed + count) bytes } := by
  have refused := refusedIn_wrote task id run next statements stored.wrote
  have errors : next.errors = run.errors + if task.skip then refusedIn statements else 0 :=
    stored.wrote.errors
  have before := balanced.errors
  refine ⟨tracks_progress id next _ _ _ (stored.wrote.tracks balanced.tracks), ?_, ?_, ?_,
    stored.multi, ?_⟩
  · dsimp only
    rw [stored.wrote.unparsable]
    cases skip : task.skip with
    | false =>
      have none := stored.clean rfl skip
      rw [skip, if_neg Bool.false_ne_true] at errors
      omega
    | true =>
      rw [skip, if_pos rfl] at errors
      omega
  · intro abort
    have none := stored.clean rfl abort
    have earlier := balanced.clean abort
    dsimp only
    omega
  · intro single
    exact (stored.single single).trans (balanced.single single)
  · have rows := stored.passed rfl
    have committed := stored.wrote.committed
    have held := balanced.rows
    dsimp only at rows committed ⊢
    omega

theorem closing_stored (error : String) (statements : List Statement)
    (balanced : Balanced task id run)
    (stored : Stored task id count run (next, .error error) statements) :
    Closing task id next (.failed error) := by
  have refused := refusedIn_wrote task id run next statements stored.wrote
  have errors : next.errors = run.errors + if task.skip then refusedIn statements else 0 :=
    stored.wrote.errors
  have before := balanced.errors
  refine ⟨stored.wrote.tracks balanced.tracks, ?_, ?_, stored.multi, ?_⟩
  · rw [stored.wrote.unparsable]
    cases skip : task.skip with
    | false =>
      have earlier := balanced.clean skip
      rw [skip, if_neg Bool.false_ne_true] at errors
      constructor
      · intro same _
        omega
      · intro none
        have none := none rfl
        omega
    | true =>
      rw [skip, if_pos rfl] at errors
      refine iff_of_true ?_ nofun
      omega
  · intro single
    exact (stored.single single).trans (balanced.single single)
  · rintro (apart | done)
    · have rows := stored.failed apart nofun
      have committed := stored.wrote.committed
      have held := balanced.rows
      dsimp only at rows committed
      omega
    · cases done

theorem importLoop_closing (fuel turn : Nat) (run : ImportRun) (balanced : Balanced task id run)
    (enough : run.source.items.length < fuel) :
    ∃ next ended, importLoop jsonText task world id fuel turn run = some (next, ended) ∧
      Closing task id next ended := by
  induction fuel generalizing turn run with
  | zero => exact absurd enough (Nat.not_lt_zero _)
  | succ fuel ih =>
    have collected := collectBatch_collected task id
      (batchRows task.dialect task.batchSize task.ncols) run.source.endBytes run.source.items []
      run
    rw [importLoop]
    split
    · exact ⟨_, _, rfl, closing_of_balanced task id _ _ balanced⟩
    split
    · exact ⟨_, _, rfl, closing_of_balanced task id _ _ balanced⟩
    split
    · rename_i next error gathered
      rw [gathered] at collected
      have later := balanced_collected task id run next balanced collected
      exact ⟨_, _, rfl, closing_of_balanced task id _ _ later⟩
    · rename_i next done gathered
      rw [gathered] at collected
      have later := balanced_collected task id run next balanced collected
      exact ⟨_, _, rfl, closing_of_balanced task id _ _ later⟩
    · rename_i next first others done gathered
      rw [gathered] at collected
      have taken := collectBatch_consumes task id _ _ _ _ _ _ _ _ gathered
      have later := balanced_collected task id run next balanced collected
      obtain ⟨statements, stored⟩ :=
        writeBatch_stored jsonText task world id first others next later.multi
      split
      · rename_i after error failed
        rw [failed] at stored
        exact ⟨_, _, rfl, closing_stored task id next after _ error statements later stored⟩
      · rename_i after passed
        rw [passed] at stored
        have kept := balanced_stored task id next after _ after.source.bytes statements later stored
        split
        · exact ⟨_, _, rfl, closing_of_balanced task id _ _ kept⟩
        · apply ih _ _ kept
          have source := stored.wrote.source
          rw [source]
          simp only [length_cons, length_nil] at taken
          omega

theorem start_balanced (others : ImportRegistry) (source : RowSource) (startedAt : Nat) :
    Balanced task id (.start id others source startedAt) :=
  ⟨⟨_, lookup_insert _, rfl, rfl⟩, rfl, fun _ => rfl, fun _ => rfl, fun _ => rfl, rfl⟩

/-- The one transaction is open where it is held. -/
structure Opened (run : ImportRun) (held : Bool) : Prop where
  single : held = true → task.singleTx = true
  unheld : held = false → run.history.current = []

theorem openSingle_balanced (balanced : Balanced task id run) (fresh : run.history.current = [])
    (single : task.singleTx = true) (next : ImportRun) (held : Bool) (ended : Option ImportEnd)
    (opened : openSingle task world run = (next, held, ended)) :
    Balanced task id next ∧ Opened task next held ∧ next.source = run.source ∧
      ended ≠ some .done ∧ (held = false → ended ≠ none) := by
  have kept : Balanced task id (run.stated .delete) := by
    have wrote := wrote_stated task id run .delete fun _ => rfl
    have refused := refusedIn_wrote task id run _ _ wrote
    refine ⟨balanced.tracks, ?_, ?_, balanced.single, ?_, ?_⟩
    · rw [refused]
      exact balanced.errors
    · rw [refused]
      exact balanced.clean
    · intro apart
      rw [single] at apart
      cases apart
    · have rows := balanced.rows
      simp only [ImportRun.stated, History.rows, rowsIn_append] at rows ⊢
      exact rows
  rw [openSingle] at opened
  split at opened
  · cases opened
    exact ⟨balanced, ⟨nofun, fun _ => fresh⟩, rfl, nofun, nofun⟩
  split at opened
  · split at opened
    · cases opened
      exact ⟨balanced, ⟨fun _ => single, nofun⟩, rfl, nofun, nofun⟩
    split at opened
    · cases opened
      exact ⟨balanced, ⟨fun _ => single, nofun⟩, rfl, nofun, nofun⟩
    · cases opened
      exact ⟨kept, ⟨fun _ => single, nofun⟩, rfl, nofun, nofun⟩
  · cases opened
    exact ⟨balanced, ⟨fun _ => single, nofun⟩, rfl, nofun, nofun⟩

/-- What is submitted counts the rows of the committed transactions. -/
structure Closed (run : ImportRun) (result : ImportRun × ImportFinish) : Prop where
  all : statementsOf result.1.history.past = run.history.all
  rows : result.2.rows = confirmed result.1.history.past
  registry : result.1.registry = run.registry
  unparsable : result.1.unparsable = run.unparsable

theorem all_ended (committed : Bool) :
    statementsOf (run.ended committed).history.past = run.history.all := by
  simp [ImportRun.ended, History.all, statementsOf]

theorem confirmed_ended (committed : Bool) :
    confirmed (run.ended committed).history.past =
      confirmed run.history.past + if committed then rowsIn run.history.current else 0 := by
  rw [ImportRun.ended, confirmed_append, confirmed_single]

theorem closeRun_closed (held : Bool) (run : ImportRun) (ended : ImportEnd)
    (closing : Closing task id run ended) (opened : Opened task run held)
    (undone : held = false → task.singleTx = true → ended ≠ .done) :
    Closed run (closeRun task world held run ended) := by
  cases held with
  | true =>
    have single := opened.single rfl
    have past : confirmed run.history.past = 0 := by
      rw [closing.single single]
      rfl
    have rolled : confirmed (run.ended false).history.past = 0 := by
      rw [confirmed_ended, past]
      rfl
    cases ended with
    | done =>
      rw [closeRun, if_pos rfl]
      split
      · exact ⟨all_ended run false, rolled.symm, rfl, rfl⟩
      · refine ⟨all_ended run true, ?_, rfl, rfl⟩
        rw [confirmed_ended]
        exact closing.rows (.inr rfl)
    | cancelled | failed error =>
      refine ⟨all_ended run false, ?_, rfl, rfl⟩
      exact (if_pos single).trans rolled.symm
  | false =>
    have none := opened.unheld rfl
    have all : statementsOf run.history.past = run.history.all := by
      rw [History.all, none, append_nil]
    have rows : run.history.rows = confirmed run.history.past := by
      rw [History.rows, none]
      rfl
    have settled : (if task.singleTx then 0 else run.committed) = confirmed run.history.past := by
      split
      · rename_i single
        rw [closing.single single]
        rfl
      · rename_i apart
        rw [closing.rows (.inl (Bool.eq_false_of_not_eq_true apart)), rows]
    cases ended with
    | done =>
      have apart : task.singleTx = false := by
        cases single : task.singleTx with
        | false => rfl
        | true => exact absurd rfl (undone rfl single)
      exact ⟨all, (closing.rows (.inl apart)).trans rows, rfl, rfl⟩
    | cancelled | failed error => exact ⟨all, settled, rfl, rfl⟩

theorem settled_entry (entry : ImportEntry) (now : Nat) (fin : ImportFinish) :
    (entry.settled now fin).state ≠ .running ∧ (entry.settled now fin).rows = fin.rows ∧
      (entry.settled now fin).errorCount = entry.errorCount := by
  cases fin
  · exact ⟨nofun, rfl, rfl⟩
  · exact ⟨nofun, rfl, rfl⟩
  · exact ⟨nofun, rfl, rfl⟩

theorem truthful_closed (ended : ImportEnd) (fin : ImportFinish) (now : Nat)
    (closing : Closing task id run ended) (closed : Closed run (next, fin)) :
    Truthful task id
        { registry := finish next.registry id fin now
          fin
          past := next.history.past
          unparsable := next.unparsable } ↔
      Undisturbed task next.history.past := by
  obtain ⟨entry, found, running, count⟩ := closing.tracks
  have settled : (finish next.registry id fin now).inner.lookup id =
      some (entry.settled now fin) := by
    rw [closed.registry]
    exact whileRunning_running _ id _ entry found running
  obtain ⟨stopped, rows, errors⟩ := settled_entry entry now fin
  have once : ∀ later time, finish (finish next.registry id fin now) id later time =
      finish next.registry id fin now := by
    intro later time
    rw [finish, ImportRegistry.whileRunning, settled]
    exact if_neg stopped
  have truth : Truthful task id
        { registry := finish next.registry id fin now
          fin
          past := next.history.past
          unparsable := next.unparsable } ↔
      fin.rows = durable task.dialect next.history.past ∧
      run.errors = run.unparsable.length + refusedIn run.history.all := by
    constructor
    · rintro ⟨⟨other, held, -, rowsTrue, errorsTrue⟩, -⟩
      cases settled.symm.trans held
      rw [ImportOutcome.rejected, closed.all, closed.unparsable] at errorsTrue
      exact ⟨rows.symm.trans rowsTrue, by rw [← errorsTrue, errors, count]⟩
    · rintro ⟨rowsTrue, errorsTrue⟩
      refine ⟨⟨_, settled, stopped, rows.trans rowsTrue, ?_⟩, once⟩
      rw [ImportOutcome.rejected, closed.all, closed.unparsable, errors, count, errorsTrue]
  have kept : fin.rows = durable task.dialect next.history.past ↔
      ∀ transaction ∈ next.history.past, transaction.committed = true →
        ∀ statement ∈ transaction.statements, statement.keepsAll = true := by
    rw [← confirmed_eq_durable_iff task.dialect, ← closed.rows]
  rw [truth, kept, closing.errors, refusedIn_eq_zero_iff, ← closed.all]
  exact ⟨fun both => ⟨both.1, both.2⟩, fun both => ⟨both.kept, both.unrefused⟩⟩

/-- Every import ends, and it reports the truth exactly when no committed transaction
holds a statement that was refused or merged rows and no batch that is inserted as a
whole is refused. -/
theorem import_truthful_iff (others : ImportRegistry) (source : RowSource) (startedAt now : Nat) :
    ∃ outcome, runImport jsonText task world id others source startedAt now = some outcome ∧
      (Truthful task id outcome ↔ Undisturbed task outcome.past) := by
  have start := start_balanced task id others source startedAt
  have finishes : ∀ run held, Balanced task id run → Opened task run held →
      run.source = source → (held = false → task.singleTx = false) →
      ∃ next ended, importLoop jsonText task world id (source.items.length + 1) 0 run =
          some (next, ended) ∧ Closing task id next ended ∧ Opened task next held := by
    intro run held balanced opened same apart
    obtain ⟨next, ended, ran, closing⟩ :=
      importLoop_closing jsonText task world id (source.items.length + 1) 0 run balanced
        (by rw [same]; exact Nat.lt_succ_self _)
    exact ⟨next, ended, ran, closing, opened.single, fun shut => closing.multi (apart shut)⟩
  rw [runImport]
  cases single : task.singleTx with
  | false =>
    obtain ⟨next, ended, ran, closing, opened⟩ := finishes _ false start
      ⟨nofun, fun _ => rfl⟩ rfl fun _ => single
    have closed := closeRun_closed task world id false next ended closing opened
      fun _ there => absurd (single.symm.trans there) Bool.false_ne_true
    simp only [Bool.false_eq_true, if_false, ran]
    exact ⟨_, rfl, truthful_closed task id next _ ended _ now closing closed⟩
  | true =>
    simp only [if_true]
    rcases opened : openSingle task world (.start id others source startedAt) with
      ⟨run, held, early⟩
    obtain ⟨balanced, open_, same, unended, shut⟩ :=
      openSingle_balanced task world id _ start rfl single run held early opened
    cases early with
    | some ended =>
      have closing := closing_of_balanced task id run ended balanced
      have closed := closeRun_closed task world id held run ended closing open_
        fun _ _ done => unended (congrArg some done)
      exact ⟨_, rfl, truthful_closed task id run _ ended _ now closing closed⟩
    | none =>
      have holds : held = true := by
        cases held with
        | true => rfl
        | false => exact absurd rfl (shut rfl)
      obtain ⟨next, ended, ran, closing, opened_⟩ := finishes run held balanced open_ same
        fun unheld => absurd (holds.symm.trans unheld) (by decide)
      have closed := closeRun_closed task world id held next ended closing opened_
        fun unheld => absurd (holds.symm.trans unheld) (by decide)
      simp only [ran]
      exact ⟨_, rfl, truthful_closed task id next _ ended _ now closing closed⟩

end Consume

def sampleTask : ImportTask where
  dialect := .postgres
  mode := .append
  ncols := 1
  batchSize := 100
  batched := by decide
  skip := true
  maxErrors := 10
  maxBytes := 1000

def refusingWorld : World where
  cancelled _ := false
  rendersDelete := .ok ()
  renders _ := .ok ()
  begins _ := .ok ()
  deletes _ := .ok ()
  inserts _ rows := if rows.any fun row => row.line = 2 then .error "duplicate key" else .ok 0
  commits _ := .ok ()

def twoRows : RowSource where
  bytes := 0
  items := [(.row { values := [.int 1], line := 1 }, 2),
    (.row { values := [.int 1], line := 2 }, 4)]
  endBytes := 4

/-- One of two rows is refused. The task reports both of them, and PostgreSQL keeps
neither. -/
theorem import_counts_refused_rows :
    ¬ ∃ outcome, runImport (fun _ => "") sampleTask refusingWorld "t" { inner := ∅ } twoRows 0 1 =
      some outcome ∧ Truthful sampleTask "t" outcome := by
  rintro ⟨outcome, ran, truthful⟩
  have report : (runImport (fun _ => "") sampleTask refusingWorld "t" { inner := ∅ } twoRows 0 1).map
      (fun outcome => ((outcome.registry.inner.lookup "t").map ImportEntry.rows,
        durable .postgres outcome.past)) = some (some 2, 0) := by
    decide +kernel
  rw [ran] at report
  obtain ⟨reported, kept⟩ := Prod.mk.inj (Option.some.inj report)
  obtain ⟨entry, found, -, rows, -⟩ := truthful.settled
  rw [found] at reported
  have both : entry.rows = 2 := Option.some.inj reported
  have none : entry.rows = 0 := rows.trans kept
  omega

end OnlyJs.Bridge.DbImport
