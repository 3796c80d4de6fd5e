import OnlyJs.Oj.SchemaFile
import OnlyJs.Lib.Effects

/-!
# Reconciling the declared schema

The database is what introspection shows of it: the tables with their columns and
indexes, under the names its catalog keeps. The reconciliation walks the declared
tables, reads what is there and sends the statements that are missing. Any
request may fail, and a failed statement leaves the database as it was.
-/

namespace OnlyJs.Oj

open Lib.Effects

set_option autoImplicit false

/-- How a server spells the names of what it creates. PostgreSQL keeps the first
63 bytes of an identifier, a MySQL server may fold the case of table names. -/
structure Catalog where
  table : String → String
  column : String → String
  index : String → String
  table_idem : ∀ name, table (table name) = table name
  column_idem : ∀ name, column (column name) = column name
  index_idem : ∀ name, index (index name) = index name

structure Table where
  columns : List String
  indexes : List String
deriving DecidableEq

structure Database (catalog : Catalog) where
  tables : List (String × Table)
  stored : ∀ entry ∈ tables, catalog.table entry.1 = entry.1

namespace Database

variable {catalog : Catalog}

def find (database : Database catalog) (name : String) : Option Table :=
  database.tables.lookup name

def names (database : Database catalog) : List String := database.tables.map Prod.fst

def columns (database : Database catalog) (name : String) : List String :=
  ((database.find name).map Table.columns).getD []

def indexes (database : Database catalog) (name : String) : List String :=
  ((database.find name).map Table.indexes).getD []

def create (database : Database catalog) (name : String) (table : Table) : Database catalog where
  tables :=
    if (database.find (catalog.table name)).isSome then database.tables
    else database.tables ++ [(catalog.table name, table)]
  stored := by
    intro entry listed
    split at listed
    · exact database.stored entry listed
    · rcases List.mem_append.mp listed with before | new
      · exact database.stored entry before
      · rw [List.mem_singleton.mp new]
        exact catalog.table_idem name

def alter (database : Database catalog) (name : String) (change : Table → Table) :
    Database catalog where
  tables := database.tables.map fun entry =>
    (entry.1, if entry.1 = catalog.table name then change entry.2 else entry.2)
  stored := by
    intro entry listed
    obtain ⟨before, held, rfl⟩ := List.mem_map.mp listed
    exact database.stored before held

end Database

def Statement.apply {catalog : Catalog} (database : Database catalog) :
    Statement → Database catalog
  | .createTable name columns _ =>
    database.create name ⟨columns.map fun column => catalog.column column.name, []⟩
  | .addColumn name column =>
    database.alter name fun table =>
      { table with columns := table.columns ++ [catalog.column column.name] }
  | .createIndex name index _ =>
    database.alter name fun table =>
      { table with indexes := table.indexes ++ [catalog.index index] }

inductive Gate where
  | suspectedRename (table : String) (missing extra : List String)
  | missingKey (table column : String)
  | missingNotNull (table column colType : String)
deriving DecidableEq

def Gate.table : Gate → String
  | .suspectedRename table _ _ => table
  | .missingKey table _ => table
  | .missingNotNull table _ _ => table

inductive Failure where
  | introspection
  | exec (statement : Statement)
  | gate (gate : Gate)
deriving DecidableEq

/-- `issued` lists the statements sent so far; `requests` counts the requests. -/
structure Session (catalog : Catalog) where
  database : Database catalog
  issued : List Statement
  requests : Nat

abbrev Run (catalog : Catalog) := Effect (Session catalog) Failure

section

variable {catalog : Catalog}

-- the requests that fail, by their number
variable (outage : Nat → Bool)

def introspect {Value : Type} (read : Database catalog → Value) : Run catalog Value :=
  fun session =>
    let next := { session with requests := session.requests + 1 }
    if outage session.requests then (.error .introspection, next)
    else (.ok (read session.database), next)

def dbTables : Run catalog (List String) := introspect outage Database.names

def dbColumns (table : String) : Run catalog (List String) :=
  introspect outage fun database => database.columns table

def dbIndexes (table : String) : Run catalog (List String) :=
  introspect outage fun database => database.indexes table

def exec (statement : Statement) : Run catalog Unit :=
  fun session =>
    let next := { session with
      issued := session.issued ++ [statement]
      requests := session.requests + 1 }
    if outage session.requests then (.error (.exec statement), next)
    else (.ok (), { next with database := statement.apply session.database })

-- the module the schema belongs to
variable (owner : String)

def logLine : Statement → String
  | .createTable table _ _ => "[" ++ owner ++ "] create table " ++ table
  | .addColumn table column => "[" ++ owner ++ "] add column " ++ table ++ "." ++ column.name
  | .createIndex _ index _ => "[" ++ owner ++ "] create index " ++ index

def createIndexes (table : String) : List (String × List String) → Run catalog (List String)
  | [] => pure []
  | (index, columns) :: rest => do
      exec outage (createIndexDdl table index columns)
      let log ← createIndexes table rest
      pure (("[" ++ owner ++ "] create index " ++ index) :: log)

def columnGate (table : String) (schema : TableSchema) :
    String × ColumnSchema → Option Gate
  | (column, declared) =>
    if schema.pk.contains column then some (.missingKey table column)
    else if declared.null = some false then
      some (.missingNotNull table column declared.colType)
    else none

def addColumns (table : String) (schema : TableSchema) :
    List (String × ColumnSchema) → Run catalog (List String)
  | [] => pure []
  | (column, declared) :: rest =>
    match columnGate table schema (column, declared) with
    | some gate => throw (.gate gate)
    | none => do
        exec outage (addColumnDdl table column declared)
        let log ← addColumns table schema rest
        pure (("[" ++ owner ++ "] add column " ++ table ++ "." ++ column) :: log)

def missingColumns (schema : TableSchema) (dbCols : List String) :
    List (String × ColumnSchema) :=
  schema.columns.list.filter fun (column, _) => !dbCols.contains column

def extraColumns (schema : TableSchema) (dbCols : List String) : List String :=
  dbCols.filter fun column => !schema.columns.contains column

def renameGate (table : String) (schema : TableSchema) (dbCols : List String) : Option Gate :=
  let missing := missingColumns schema dbCols
  let extra := extraColumns schema dbCols
  if !missing.isEmpty && !extra.isEmpty then
    some (.suspectedRename table (missing.map Prod.fst) extra)
  else none

def missingIndexes (schema : TableSchema) (dbIx : List String) : List (String × List String) :=
  schema.indexes.list.filter fun (index, _) => !dbIx.contains index

def createMissingIndexes (table : String) (schema : TableSchema) : Run catalog (List String) := do
  let dbIx ← dbIndexes outage table
  createIndexes outage owner table (missingIndexes schema dbIx)

def reconcileTable (tables : List String) : String × TableSchema → Run catalog (List String)
  | (name, schema) =>
    if tables.contains name then do
      let dbCols ← dbColumns outage name
      match renameGate name schema dbCols with
      | some gate => throw (.gate gate)
      | none =>
        let added ← addColumns outage owner name schema (missingColumns schema dbCols)
        let indexed ← createMissingIndexes outage owner name schema
        pure (added ++ indexed)
    else do
      exec outage (createTableDdl schema name)
      let indexed ← createIndexes outage owner name schema.indexes.list
      pure (("[" ++ owner ++ "] create table " ++ name) :: indexed)

def reconcileTables (tables : List String) :
    List (String × TableSchema) → Run catalog (List String)
  | [] => pure []
  | entry :: rest => do
      let log ← reconcileTable outage owner tables entry
      let logs ← reconcileTables tables rest
      pure (log ++ logs)

def reconcile (schema : SchemaFile) : Run catalog (List String) := do
  let tables ← dbTables outage
  reconcileTables outage owner tables schema.tables.list

inductive Finding where
  | missingTable (owner table : String)
  | missingColumn (owner table column : String)
  | extraColumn (owner table column : String)
  | missingIndex (owner table index : String)
  | undeclared (table : String)
deriving DecidableEq

def Finding.missingFor : Finding → Option String
  | .missingTable owner _ => some owner
  | .missingColumn owner _ _ => some owner
  | .missingIndex owner _ _ => some owner
  | .extraColumn _ _ _ => none
  | .undeclared _ => none

def diffTable (tables : List String) : String × TableSchema → Run catalog (List Finding)
  | (name, schema) =>
    if tables.contains name then do
      let columns ← dbColumns outage name
      let indexes ← dbIndexes outage name
      pure (
        ((missingColumns schema columns).map fun (column, _) =>
          .missingColumn owner name column) ++
        ((extraColumns schema columns).map fun column => .extraColumn owner name column) ++
        ((missingIndexes schema indexes).map fun (index, _) => .missingIndex owner name index))
    else pure [.missingTable owner name]

def diffTables (tables : List String) :
    List (String × TableSchema) → Run catalog (List Finding)
  | [] => pure []
  | entry :: rest => do
      let found ← diffTable outage owner tables entry
      let others ← diffTables tables rest
      pure (found ++ others)

def diffModules (tables : List String) :
    List (String × SchemaFile) → Run catalog (List Finding)
  | [] => pure []
  | (owner, schema) :: rest => do
      let found ← diffTables outage owner tables schema.tables.list
      let others ← diffModules tables rest
      pure (found ++ others)

def undeclaredTables (tables : List String) (modules : List (String × SchemaFile)) :
    List Finding :=
  (tables.filter fun table =>
    !(modules.any fun (_, schema) => schema.tables.contains table) &&
      !"_oj_migrations".isPrefixOf table && !"sqlite_".isPrefixOf table).map .undeclared

def diff (modules : List (String × SchemaFile)) : Run catalog (List Finding) := do
  let tables ← dbTables outage
  let found ← diffModules outage tables modules
  pure (found ++ undeclaredTables tables modules)

end

end OnlyJs.Oj
