import Mathlib
import OnlyJs.Oj.Reconcile

/-!
# The plan of a reconciliation

What the reconciliation does is fixed by the database it starts from: the plan
lists the statements it sends and the gate it stops at. A run follows the plan,
and where a request fails it has sent a first part of it.
-/

namespace OnlyJs.Oj

open Lib.Effects List Option

set_option autoImplicit false

variable {catalog : Catalog}

section

variable (database : Database catalog) (name : String)
include database name

theorem Database.find_create (table : Table) (other : String) :
    (database.create name table).find other =
      if other = catalog.table name then some ((database.find other).getD table)
      else database.find other := by
  unfold Database.find Database.create Database.find
  dsimp only
  cases held : database.tables.lookup (catalog.table name) with
  | some present =>
    by_cases same : other = catalog.table name
    · simp [same, held]
    · simp [same]
  | none =>
    by_cases same : other = catalog.table name
    · simp [same, lookup_append]
    · have differs : (other == catalog.table name) = false := by simpa using same
      simp [same, lookup_append, List.lookup, differs]

theorem Database.find_alter (change : Table → Table) (other : String) :
    (database.alter name change).find other =
      (database.find other).map fun table =>
        if other = catalog.table name then change table else table := by
  unfold Database.find Database.alter
  dsimp only
  induction database.tables with
  | nil => rfl
  | cons entry rest ih =>
    by_cases same : other = entry.1
    · simp [List.lookup, same]
    · have differs : (other == entry.1) = false := by simpa using same
      simp only [map_cons, List.lookup, differs]
      exact ih

theorem Database.mem_names :
    name ∈ database.names ↔ (database.find name).isSome := by
  unfold Database.names Database.find
  induction database.tables with
  | nil => simp
  | cons entry rest ih =>
    by_cases same : name = entry.1
    · simp
    · have differs : (name == entry.1) = false := by simpa using same
      simp only [map_cons, mem_cons, List.lookup, differs, same, false_or]
      exact ih

end

variable {name : String}

theorem Database.stored_of_mem (database : Database catalog) (listed : name ∈ database.names) :
    catalog.table name = name := by
  obtain ⟨entry, held, rfl⟩ := mem_map.mp listed
  exact database.stored entry held

def applyAll (database : Database catalog) (statements : List Statement) : Database catalog :=
  statements.foldl (fun before statement => statement.apply before) database

section

variable (database : Database catalog)
include database

variable (statement : Statement)

@[simp] theorem applyAll_cons (rest : List Statement) :
    applyAll database (statement :: rest) = applyAll (statement.apply database) rest := rfl

theorem applyAll_append (first second : List Statement) :
    applyAll database (first ++ second) = applyAll (applyAll database first) second :=
  foldl_append

theorem columns_apply (present : name ∈ database.names)
    (other : ∀ column, statement = .addColumn statement.table column →
      catalog.table statement.table ≠ name) :
    (statement.apply database).columns name = database.columns name := by
  rw [Database.mem_names] at present
  obtain ⟨table, held⟩ := isSome_iff_exists.mp present
  cases statement with
  | createTable created columns key =>
    simp only [Statement.apply, Database.columns, Database.find_create, held]
    split <;> rfl
  | addColumn altered column =>
    have elsewhere : name ≠ catalog.table altered := (other column rfl).symm
    simp only [Statement.apply, Database.columns, Database.find_alter, held, elsewhere,
      if_false, map_some]
  | createIndex altered index columns =>
    simp only [Statement.apply, Database.columns, Database.find_alter, held]
    split <;> rfl

theorem names_apply (present : name ∈ database.names) :
    name ∈ (statement.apply database).names := by
  rw [Database.mem_names] at present ⊢
  obtain ⟨table, held⟩ := isSome_iff_exists.mp present
  cases statement with
  | createTable created columns key =>
    simp only [Statement.apply, Database.find_create, held]
    split <;> rfl
  | addColumn altered column | createIndex altered index columns =>
    simp [Statement.apply, Database.find_alter, held]

end

def additions (table : String) (schema : TableSchema) :
    List (String × ColumnSchema) → List Statement
  | [] => []
  | (column, declared) :: rest =>
    match columnGate table schema (column, declared) with
    | some _ => []
    | none => addColumnDdl table column declared :: additions table schema rest

def indexStatements (table : String) (indexes : List (String × List String)) : List Statement :=
  indexes.map fun (index, columns) => createIndexDdl table index columns

/-- The gate that a table fails, by the columns the database shows. `tables` are
the tables that the reconciliation found at its start. -/
def gateAt (tables : List String) (database : Database catalog) :
    String × TableSchema → Option Gate
  | (name, schema) =>
    if tables.contains name then
      (renameGate name schema (database.columns name)).or
        ((missingColumns schema (database.columns name)).findSome? (columnGate name schema))
    else none

def planAt (tables : List String) (database : Database catalog) :
    String × TableSchema → List Statement
  | (name, schema) =>
    if tables.contains name then
      if (renameGate name schema (database.columns name)).isSome then []
      else
        additions name schema (missingColumns schema (database.columns name)) ++
          if (gateAt tables database (name, schema)).isSome then []
          else indexStatements name (missingIndexes schema (database.indexes name))
    else createTableDdl schema name :: indexStatements name schema.indexes.list

def planAll (tables : List String) (database : Database catalog) :
    List (String × TableSchema) → List Statement
  | [] => []
  | entry :: rest =>
    planAt tables database entry ++
      if (gateAt tables database entry).isSome then []
      else planAll tables (applyAll database (planAt tables database entry)) rest

def gateAll (tables : List String) (database : Database catalog) :
    List (String × TableSchema) → Option Gate
  | [] => none
  | entry :: rest =>
    (gateAt tables database entry).or
      (gateAll tables (applyAll database (planAt tables database entry)) rest)

/-- `Follows outage owner session statements gate ended`: a run that started in
`session` has sent `statements` and stopped at `gate`, if any, or a request has
failed before that. -/
def Follows (outage : Nat → Bool) (owner : String) (session : Session catalog)
    (statements : List Statement) (gate : Option Gate) :
    Except Failure (List String) × Session catalog → Prop
  | (.ok log, next) =>
    gate = none ∧ log = statements.map (logLine owner) ∧
      next.issued = session.issued ++ statements ∧
      next.database = applyAll session.database statements
  | (.error (.gate stopped), next) =>
    gate = some stopped ∧ next.issued = session.issued ++ statements ∧
      next.database = applyAll session.database statements
  | (.error _, next) =>
    (∃ request, outage request = true) ∧
      ∃ sent, sent <+: statements ∧ next.issued = session.issued ++ sent

variable {outage : Nat → Bool} {owner : String} {session : Session catalog}

theorem follows_nil : Follows outage owner session [] none (outcome (pure []) session) :=
  ⟨rfl, rfl, (append_nil _).symm, rfl⟩

theorem follows_gate (gate : Gate) :
    Follows outage owner session [] (some gate) (outcome (throw (.gate gate)) session) :=
  ⟨rfl, (append_nil _).symm, rfl⟩

def logged (before : List String) :
    Except Failure (List String) × Session catalog → Except Failure (List String) × Session catalog
  | (.ok log, next) => (.ok (before ++ log), next)
  | (.error failure, next) => (.error failure, next)

theorem outcome_logged (before : List String) (computation : Run catalog (List String)) :
    outcome (do let log ← computation; pure (before ++ log)) session =
      logged before (outcome computation session) := by
  rw [outcome_bind]
  rcases outcome computation session with ⟨_ | _, next⟩ <;> rfl

variable {rest : List Statement} {gate : Option Gate}

variable {first : List Statement}

theorem follows_append {middle : Session catalog} (issued : middle.issued = session.issued ++ first)
    (database : middle.database = applyAll session.database first)
    {ended : Except Failure (List String) × Session catalog}
    (follows : Follows outage owner middle rest gate ended) :
    Follows outage owner session (first ++ rest) gate
      (logged (first.map (logLine owner)) ended) := by
  have sent : ∀ statements, middle.issued ++ statements =
      session.issued ++ (first ++ statements) := by
    intro statements
    rw [issued, append_assoc]
  obtain ⟨result, next⟩ := ended
  cases result with
  | ok log =>
    obtain ⟨passed, rfl, listed, reached⟩ := follows
    refine ⟨passed, map_append.symm, ?_, ?_⟩
    · rw [listed, sent]
    · rw [reached, database, applyAll_append]
  | error failure =>
    cases failure with
    | gate stopped =>
      obtain ⟨same, listed, reached⟩ := follows
      refine ⟨same, ?_, ?_⟩
      · rw [listed, sent]
      · rw [reached, database, applyAll_append]
    | introspection | exec statement =>
      obtain ⟨failed, statements, part, listed⟩ := follows
      refine ⟨failed, first ++ statements, (prefix_append_right_inj first).mpr part, ?_⟩
      rw [listed, sent]

variable {continued : Run catalog (List String)}

theorem follows_exec (statement : Statement)
    (follows : ∀ next : Session catalog, next.database = statement.apply session.database →
      Follows outage owner next rest gate (outcome continued next)) :
    Follows outage owner session (statement :: rest) gate
      (outcome (do
        exec outage statement
        let log ← continued
        pure (logLine owner statement :: log)) session) := by
  let sent : Session catalog := { session with
    issued := session.issued ++ [statement]
    requests := session.requests + 1 }
  let accepted : Session catalog := { sent with database := statement.apply session.database }
  cases fails : outage session.requests with
  | true =>
    have ended : outcome (exec outage statement) session =
        (.error (.exec statement), sent) := by
      change (exec outage statement) session = _
      rw [exec, if_pos fails]
    rw [outcome_bind_error ended]
    exact ⟨⟨_, fails⟩, [statement], prefix_append [statement] rest, rfl⟩
  | false =>
    have ended : outcome (exec outage statement) session = (.ok (), accepted) := by
      change (exec outage statement) session = _
      rw [exec, if_neg (by rw [fails]; decide)]
    rw [outcome_bind_ok ended]
    change Follows _ _ _ _ _ (outcome (do let log ← continued; pure ([_] ++ log)) accepted)
    rw [outcome_logged]
    have first : accepted.database = applyAll session.database [statement] := rfl
    exact follows_append rfl first (follows accepted rfl)

theorem follows_bind {firstGate : Option Gate} {computation : Run catalog (List String)}
    (head : Follows outage owner session first firstGate (outcome computation session))
    {restGate : Option Gate}
    (tail : ∀ next : Session catalog, next.database = applyAll session.database first →
      Follows outage owner next rest restGate (outcome continued next)) :
    Follows outage owner session (first ++ if firstGate.isSome then [] else rest)
      (firstGate.or restGate)
      (outcome (do
        let log ← computation
        let logs ← continued
        pure (log ++ logs)) session) := by
  rcases ended : outcome computation session with ⟨result, next⟩
  rw [ended] at head
  cases result with
  | ok log =>
    obtain ⟨passed, rfl, issued, reached⟩ := head
    rw [outcome_bind_ok ended, outcome_logged, passed]
    exact follows_append issued reached (tail next reached)
  | error failure =>
    rw [outcome_bind_error ended]
    cases failure with
    | gate stopped =>
      obtain ⟨passed, issued, reached⟩ := head
      rw [passed]
      refine ⟨rfl, ?_, ?_⟩
      · rw [issued]
        simp
      · rw [reached]
        simp
    | introspection | exec statement =>
      obtain ⟨failed, statements, part, issued⟩ := head
      exact ⟨failed, statements, part.trans (prefix_append _ _), issued⟩

theorem follows_introspect {Value : Type} (read : Database catalog → Value)
    {statements : List Statement} {continued : Value → Run catalog (List String)}
    (follows : ∀ next : Session catalog, next.database = session.database →
      next.issued = session.issued → Follows outage owner next statements gate (outcome (continued
      (read session.database)) next)) :
    Follows outage owner session statements gate
      (outcome (introspect outage read >>= continued) session) := by
  let asked : Session catalog := { session with requests := session.requests + 1 }
  cases fails : outage session.requests with
  | true =>
    have ended : outcome (introspect outage read) session =
        (.error .introspection, asked) := by
      change (introspect outage read) session = _
      rw [introspect, if_pos fails]
    rw [outcome_bind_error ended]
    exact ⟨⟨_, fails⟩, [], nil_prefix, (append_nil _).symm⟩
  | false =>
    have ended : outcome (introspect outage read) session =
        (.ok (read session.database), asked) := by
      change (introspect outage read) session = _
      rw [introspect, if_neg (by rw [fails]; decide)]
    rw [outcome_bind_ok ended]
    exact follows asked rfl rfl

variable (table : String)

variable (indexes : List (String × List String))

theorem follows_createIndexes (session : Session catalog) :
    Follows outage owner session (indexStatements table indexes) none
      (outcome (createIndexes outage owner table indexes) session) := by
  induction indexes generalizing session with
  | nil => exact follows_nil
  | cons entry rest ih => exact follows_exec _ fun next _ => ih next

variable (schema : TableSchema) (missing : List (String × ColumnSchema))

theorem follows_addColumns (session : Session catalog) :
    Follows outage owner session (additions table schema missing)
      (missing.findSome? (columnGate table schema))
      (outcome (addColumns outage owner table schema missing) session) := by
  induction missing generalizing session with
  | nil => exact follows_nil
  | cons entry rest ih =>
    obtain ⟨column, declared⟩ := entry
    rw [additions, addColumns, findSome?_cons]
    cases columnGate table schema (column, declared) with
    | some gate => exact follows_gate gate
    | none => exact follows_exec _ fun next _ => ih next

theorem indexes_additions (database : Database catalog) (name : String) :
    (applyAll database (additions table schema missing)).indexes name =
      database.indexes name := by
  induction missing generalizing database with
  | nil => rfl
  | cons entry rest ih =>
    obtain ⟨column, declared⟩ := entry
    rw [additions]
    cases columnGate table schema (column, declared) with
    | some gate => rfl
    | none =>
      rw [applyAll_cons, ih]
      simp only [addColumnDdl, Statement.apply, Database.indexes, Database.find_alter]
      cases database.find name with
      | none => rfl
      | some held =>
        split <;> rfl

theorem follows_table (tables : List String) (entry : String × TableSchema)
    (session : Session catalog) :
    Follows outage owner session (planAt tables session.database entry)
      (gateAt tables session.database entry)
      (outcome (reconcileTable outage owner tables entry) session) := by
  obtain ⟨name, schema⟩ := entry
  rw [reconcileTable, planAt, gateAt]
  by_cases present : tables.contains name = true
  · rw [if_pos present, if_pos present, if_pos present]
    apply follows_introspect
    intro shown same _
    cases renamed : renameGate name schema (session.database.columns name) with
    | some gate => exact follows_gate gate
    | none =>
      conv =>
        arg 5
        rw [← or_none (o := List.findSome? _ _)]
      apply follows_bind (follows_addColumns name schema _ shown)
      intro added reached
      apply follows_introspect
      intro next _ _
      rw [reached, indexes_additions, same]
      exact follows_createIndexes name _ next
  · rw [if_neg present, if_neg present, if_neg present]
    exact follows_exec _ fun next _ => follows_createIndexes name schema.indexes.list next

theorem follows_tables (tables : List String) (entries : List (String × TableSchema))
    (session : Session catalog) :
    Follows outage owner session (planAll tables session.database entries)
      (gateAll tables session.database entries)
      (outcome (reconcileTables outage owner tables entries) session) := by
  induction entries generalizing session with
  | nil => exact follows_nil
  | cons entry rest ih =>
    apply follows_bind (follows_table tables entry session)
    intro next reached
    rw [← reached]
    exact ih next

theorem follows_reconcile (outage : Nat → Bool) (owner : String) (schema : SchemaFile)
    (session : Session catalog) :
    Follows outage owner session
      (planAll session.database.names session.database schema.tables.list)
      (gateAll session.database.names session.database schema.tables.list)
      (outcome (reconcile outage owner schema) session) := by
  apply follows_introspect
  intro shown same _
  rw [← same]
  exact follows_tables _ _ shown

variable {database : Database catalog}

theorem names_applyAll (present : name ∈ database.names) (statements : List Statement) :
    name ∈ (applyAll database statements).names := by
  induction statements generalizing database with
  | nil => exact present
  | cons statement rest ih => exact ih (names_apply database statement present)

theorem columns_applyAll {other : String} (differs : other ≠ name) (statements : List Statement)
    (present : name ∈ database.names) (placed : ∀ statement ∈ statements, statement.table = other)
    (stored : ∀ column, .addColumn other column ∈ statements → catalog.table other = other) :
    (applyAll database statements).columns name = database.columns name := by
  induction statements generalizing database with
  | nil => rfl
  | cons statement rest ih =>
    have here : statement.table = other := placed statement mem_cons_self
    rw [applyAll_cons, ih (names_apply database statement present)
      (fun later listed => placed later (mem_cons_of_mem _ listed))
      (fun column listed => stored column (mem_cons_of_mem _ listed))]
    apply columns_apply database statement present
    intro column adds
    rw [here] at adds ⊢
    rw [stored column (by rw [← adds]; exact mem_cons_self)]
    exact differs

theorem additions_table :
    ∀ statement ∈ additions table schema missing, statement.table = table := by
  induction missing with
  | nil => exact fun _ absurd => nomatch absurd
  | cons entry rest ih =>
    obtain ⟨column, declared⟩ := entry
    rw [additions]
    cases columnGate table schema (column, declared) with
    | some gate => exact fun _ absurd => nomatch absurd
    | none => exact forall_mem_cons.mpr ⟨rfl, ih⟩

theorem indexStatements_create :
    ∀ statement ∈ indexStatements table indexes,
      ∃ entry ∈ indexes, statement = .createIndex table entry.1 entry.2 := by
  intro statement listed
  obtain ⟨entry, held, rfl⟩ := mem_map.mp listed
  exact ⟨entry, held, rfl⟩

theorem planAt_table (tables : List String) (database : Database catalog)
    (entry : String × TableSchema) :
    ∀ statement ∈ planAt tables database entry, statement.table = entry.1 := by
  obtain ⟨name, schema⟩ := entry
  have indexed : ∀ indexes, ∀ statement ∈ indexStatements name indexes,
      statement.table = name := by
    intro indexes statement listed
    obtain ⟨index, _, rfl⟩ := indexStatements_create name indexes statement listed
    rfl
  intro statement listed
  rw [planAt] at listed
  split at listed
  · split at listed
    · cases listed
    · rcases mem_append.mp listed with added | listed
      · exact additions_table name schema _ statement added
      · split at listed
        · cases listed
        · exact indexed _ statement listed
  · rcases mem_cons.mp listed with rfl | listed
    · rfl
    · exact indexed _ statement listed

variable {tables : List String} {entry : String × TableSchema}

theorem planAt_addColumn {table : String} {column : ColumnDef}
    (listed : .addColumn table column ∈ planAt tables database entry) :
    tables.contains entry.1 = true := by
  obtain ⟨name, schema⟩ := entry
  by_contra absent
  rw [planAt, if_neg absent] at listed
  rcases mem_cons.mp listed with same | listed
  · cases same
  · obtain ⟨index, _, same⟩ := indexStatements_create name _ _ listed
    cases same

/-- What the gates of tables to come read is as it was in `before`. -/
def Agree (tables : List String) (before now : Database catalog)
    (entries : List (String × TableSchema)) : Prop :=
  ∀ entry ∈ entries, tables.contains entry.1 = true →
    entry.1 ∈ now.names ∧ now.columns entry.1 = before.columns entry.1

variable {before now : Database catalog}

theorem gateAt_congr
    (same : tables.contains entry.1 = true → now.columns entry.1 = before.columns entry.1) :
    gateAt tables now entry = gateAt tables before entry := by
  rw [gateAt, gateAt]
  split
  · rename_i present
    rw [same present]
  · rfl

theorem agree_visit (stored : ∀ name ∈ tables, catalog.table name = name)
    {rest : List (String × TableSchema)} (distinct : entry.1 ∉ rest.map Prod.fst)
    (agree : Agree tables before now (entry :: rest)) :
    Agree tables before (applyAll now (planAt tables now entry)) rest := by
  intro other listed present
  have ⟨shown, same⟩ := agree other (mem_cons_of_mem _ listed) present
  refine ⟨names_applyAll shown _, ?_⟩
  have differs : entry.1 ≠ other.1 := by
    intro absurd
    exact distinct (absurd ▸ mem_map_of_mem listed)
  rw [columns_applyAll differs _ shown (planAt_table tables now entry), same]
  intro column adds
  exact stored entry.1 (contains_iff_mem.mp (planAt_addColumn adds))

end OnlyJs.Oj
