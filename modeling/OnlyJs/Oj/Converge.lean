import OnlyJs.Oj.Objects

/-!
# What a reconciliation achieves

A reconciliation that succeeds leaves a database in which everything declared
exists and nothing is left to do. It keeps that promise, and leaves a table that
fails a gate alone, exactly if the first table that fails a gate fails it before a
column is added, and the catalog keeps the names that are created.
-/

namespace OnlyJs.Oj

open Lib.Effects Lib.Fallible List

set_option autoImplicit false

variable {catalog : Catalog}

/-- The statements a reconciliation may send: the declared tables and indexes,
and declared columns that accept null and belong to no key. -/
def Additive (schema : SchemaFile) : Statement → Prop
  | .createTable table columns key =>
    ∃ declared, (table, declared) ∈ schema.tables.list ∧
      .createTable table columns key = createTableDdl declared table
  | .addColumn table column =>
    ∃ declared, (table, declared) ∈ schema.tables.list ∧
      column.name ∈ declared.columns.keys ∧ column.name ∉ declared.pk ∧
      column.notNull = false ∧ column.primaryKey = false ∧ column.autoIncrement = false
  | .createIndex table index columns =>
    ∃ declared, (table, declared) ∈ schema.tables.list ∧
      (index, columns) ∈ declared.indexes.list

def Session.start (database : Database catalog) : Session catalog where
  database := database
  issued := []
  requests := 0

/-- The reconciliation of a module keeps what its documentation says, whatever
requests fail. -/
structure Reconciles (owner : String) (schema : SchemaFile) (database : Database catalog) :
    Prop where
  additive : ∀ outage, ∀ statement ∈
    (outcome (reconcile outage owner schema) (.start database)).2.issued,
    Additive schema statement
  logged : ∀ outage log next,
    outcome (reconcile outage owner schema) (.start database) = (.ok log, next) →
    log = next.issued.map (logLine owner)
  complete : ∀ outage log next,
    outcome (reconcile outage owner schema) (.start database) = (.ok log, next) →
    Converged schema next.database
  reported : ∀ outage log next,
    outcome (reconcile outage owner schema) (.start database) = (.ok log, next) →
    ∀ modules, (∀ entry ∈ modules, entry.1 = owner → entry.2 = schema) →
    ∀ later findings last,
      outcome (diff later modules) (.start next.database) = (.ok findings, last) →
      ∀ finding ∈ findings, finding.missingFor ≠ some owner
  settled : ∀ outage log next,
    outcome (reconcile outage owner schema) (.start database) = (.ok log, next) →
    ∀ later again last,
      outcome (reconcile later owner schema) (.start next.database) = (again, last) →
      last.issued = [] ∧ (∀ lines, again = .ok lines → lines = []) ∧
        ((∀ request, later request = false) → again = .ok [])
  untouched : ∀ outage gate next,
    outcome (reconcile outage owner schema) (.start database) = (.error (.gate gate), next) →
    ∀ statement ∈ next.issued, statement.table ≠ gate.table

def gateOf (database : Database catalog) (entry : String × TableSchema) : Option Gate :=
  gateAt database.names database entry

/-- The first declared table that fails a gate fails it at once. -/
def GatesFirst (schema : SchemaFile) (database : Database catalog) : Prop :=
  ∀ entry, schema.tables.list.find? (fun entry => (gateOf database entry).isSome) = some entry →
    FailsAtOnce database entry

/-- If no table fails a gate, the catalog keeps the name of every declared object
that is missing. -/
def KeepsNames (schema : SchemaFile) (database : Database catalog) : Prop :=
  (∀ entry ∈ schema.tables.list, gateOf database entry = none) →
    ∀ object ∈ schema.objects, ¬ database.has object → catalog.Keeps object

def plan (schema : SchemaFile) (database : Database catalog) : List Statement :=
  planAll database.names database schema.tables.list

section

variable {outage : Nat → Bool} {owner : String} {schema : SchemaFile}
  {database : Database catalog} {next : Session catalog}

theorem agree_start (schema : SchemaFile) (database : Database catalog) :
    Agree database.names database database schema.tables.list :=
  fun _ _ present => ⟨contains_iff_mem.mp present, rfl⟩

theorem stored_names (database : Database catalog) :
    ∀ name ∈ database.names, catalog.table name = name :=
  fun _ => database.stored_of_mem

theorem gateAll_start (schema : SchemaFile) (database : Database catalog) :
    gateAll database.names database schema.tables.list =
      schema.tables.list.findSome? (gateOf database) :=
  gateAll_eq (stored_names database) schema.tables.distinct (agree_start schema database)

theorem run_ok {log : List String}
    (ran : outcome (reconcile outage owner schema) (.start database) = (.ok log, next)) :
    (∀ entry ∈ schema.tables.list, gateOf database entry = none) ∧
      log = (plan schema database).map (logLine owner) ∧
      next.issued = plan schema database ∧
      next.database = applyAll database (plan schema database) := by
  have follows := follows_reconcile outage owner schema (.start database)
  rw [ran] at follows
  obtain ⟨passes, logged, issued, reached⟩ := follows
  refine ⟨?_, logged, issued, reached⟩
  exact findSome?_eq_none_iff.mp (gateAll_start schema database ▸ passes)

theorem run_gate {gate : Gate}
    (ran : outcome (reconcile outage owner schema) (.start database) =
      (.error (.gate gate), next)) :
    gateAll database.names database schema.tables.list = some gate ∧
      next.issued = plan schema database := by
  have follows := follows_reconcile outage owner schema (.start database)
  rw [ran] at follows
  exact ⟨follows.1, follows.2.1⟩

theorem run_issued (outage : Nat → Bool) (owner : String) (schema : SchemaFile)
    (database : Database catalog) :
    (outcome (reconcile outage owner schema) (.start database)).2.issued <+:
      plan schema database := by
  have follows := follows_reconcile outage owner schema (.start database)
  rcases ran : outcome (reconcile outage owner schema) (.start database) with ⟨ended, next⟩
  rw [ran] at follows
  cases ended with
  | ok log =>
    rw [(run_ok ran).2.2.1]
  | error failure =>
    cases failure with
    | gate gate => rw [(run_gate ran).2]
    | introspection | exec statement =>
      obtain ⟨_, sent, part, issued⟩ := follows
      exact issued ▸ part

theorem run_quiet (owner : String) (schema : SchemaFile) (database : Database catalog)
    (quiet : ∀ request, outage request = false) :
    ∃ next, outcome (reconcile outage owner schema) (.start database) =
      ((match gateAll database.names database schema.tables.list with
        | none => .ok ((plan schema database).map (logLine owner))
        | some gate => .error (.gate gate)), next) := by
  have follows := follows_reconcile outage owner schema (.start database)
  rcases ran : outcome (reconcile outage owner schema) (.start database) with ⟨ended, next⟩
  rw [ran] at follows
  refine ⟨next, ?_⟩
  have never : ¬ ∃ request, outage request = true := by
    rintro ⟨request, fails⟩
    rw [quiet request] at fails
    cases fails
  cases ended with
  | ok log =>
    obtain ⟨passes, logged, _⟩ := follows
    have passes : gateAll database.names database schema.tables.list = none := passes
    rw [passes, logged]
    rfl
  | error failure =>
    cases failure with
    | gate gate =>
      have stops : gateAll database.names database schema.tables.list = some gate := follows.1
      rw [stops]
    | introspection | exec statement => exact absurd follows.1 never

end

theorem additive_additions {schema : SchemaFile} (parsed : schema.parse = .ok schema)
    {name : String} {table : TableSchema} (declares : (name, table) ∈ schema.tables.list)
    {missing : List (String × ColumnSchema)}
    (within : ∀ entry ∈ missing, entry ∈ table.columns.list) :
    ∀ statement ∈ additions name table missing, Additive schema statement := by
  induction missing with
  | nil => exact fun _ listed => absurd listed not_mem_nil
  | cons entry rest ih =>
    obtain ⟨column, declared⟩ := entry
    obtain ⟨here, later⟩ := forall_mem_cons.mp within
    rw [additions]
    cases gated : columnGate name table (column, declared) with
    | some gate => exact fun _ listed => absurd listed not_mem_nil
    | none =>
      rw [columnGate] at gated
      split at gated
      · cases gated
      · rename_i outside
        split at gated
        · cases gated
        · rename_i nullable
          have outside : column ∉ table.pk := by simpa using outside
          refine forall_mem_cons.mpr ⟨⟨table, declares, ?_, outside, ?_, rfl, ?_⟩,
            ih later⟩
          · exact mem_map_of_mem here
          · exact decide_eq_false nullable
          · exact Bool.eq_false_iff.mpr fun increments =>
              outside (autoincrement_key (checkTable_ok parsed declares) here increments)

theorem additive_indexStatements {schema : SchemaFile} {name : String} {table : TableSchema}
    (declares : (name, table) ∈ schema.tables.list) {indexes : List (String × List String)}
    (within : ∀ entry ∈ indexes, entry ∈ table.indexes.list) :
    ∀ statement ∈ indexStatements name indexes, Additive schema statement := by
  intro statement listed
  obtain ⟨entry, held, rfl⟩ := indexStatements_create name indexes statement listed
  exact ⟨table, declares, within entry held⟩

section

variable {schema : SchemaFile} (parsed : schema.parse = .ok schema) (tables : List String)
include parsed tables

theorem additive_planAt (database : Database catalog) {entry : String × TableSchema}
    (declares : entry ∈ schema.tables.list) :
    ∀ statement ∈ planAt tables database entry, Additive schema statement := by
  obtain ⟨name, table⟩ := entry
  intro statement listed
  rw [planAt] at listed
  split at listed
  · split at listed
    · cases listed
    · rcases mem_append.mp listed with added | listed
      · exact additive_additions parsed declares (fun _ held => mem_of_mem_filter held)
          statement added
      · split at listed
        · cases listed
        · exact additive_indexStatements declares (fun _ held => mem_of_mem_filter held)
            statement listed
  · rcases mem_cons.mp listed with rfl | listed
    · exact ⟨table, declares, rfl⟩
    · exact additive_indexStatements declares (fun _ held => held) statement listed

theorem additive_planAll {entries : List (String × TableSchema)}
    (within : ∀ entry ∈ entries, entry ∈ schema.tables.list) (database : Database catalog) :
    ∀ statement ∈ planAll tables database entries, Additive schema statement := by
  induction entries generalizing database with
  | nil => exact fun _ absurd => nomatch absurd
  | cons entry rest ih =>
    have ⟨here, later⟩ := forall_mem_cons.mp within
    intro statement listed
    rcases mem_append.mp listed with visited | listed
    · exact additive_planAt parsed tables database here statement visited
    · split at listed
      · cases listed
      · exact ih later _ statement listed

end

section

variable {schema : SchemaFile} {database : Database catalog} (converged : Converged schema database)
include converged

theorem Converged.entry {entry : String × TableSchema} (declares : entry ∈ schema.tables.list) :
    database.names.contains entry.1 = true ∧
      missingColumns entry.2 (database.columns entry.1) = [] ∧
      missingIndexes entry.2 (database.indexes entry.1) = [] := by
  obtain ⟨name, table⟩ := entry
  have held : ∀ object ∈ tableObjects (name, table), database.has object := fun object listed =>
    converged object (mem_flatMap.mpr ⟨(name, table), declares, listed⟩)
  refine ⟨?_, ?_, ?_⟩
  · exact contains_iff_mem.mpr (held (.table name) (mem_tableObjects.mpr (.inl rfl)))
  · rw [eq_nil_iff_forall_not_mem]
    rintro ⟨column, declared⟩ listed
    have ⟨known, lacks⟩ := mem_missingColumns.mp listed
    exact lacks (held (.column name column)
      (mem_tableObjects.mpr (.inr (.inl ⟨column, declared, known, rfl⟩))))
  · rw [eq_nil_iff_forall_not_mem]
    rintro ⟨index, columns⟩ listed
    have ⟨known, lacks⟩ := mem_missingIndexes.mp listed
    exact lacks (held (.index name index)
      (mem_tableObjects.mpr (.inr (.inr ⟨index, columns, known, rfl⟩))))

theorem plan_of_converged :
    plan schema database = [] ∧
      gateAll database.names database schema.tables.list = none := by
  have still : ∀ entries : List (String × TableSchema),
      (∀ entry ∈ entries, entry ∈ schema.tables.list) →
      planAll database.names database entries = [] ∧
        gateAll database.names database entries = none := by
    intro entries within
    induction entries with
    | nil => exact ⟨rfl, rfl⟩
    | cons entry rest ih =>
      have ⟨here, later⟩ := forall_mem_cons.mp within
      have ⟨shown, columns, indexes⟩ := converged.entry here
      obtain ⟨name, table⟩ := entry
      have passes : gateAt database.names database (name, table) = none := by
        rw [gateAt, if_pos shown, renameGate, columns]
        rfl
      have unplanned : planAt database.names database (name, table) = [] := by
        rw [planAt_present shown passes, columns, indexes]
        rfl
      rw [planAll, gateAll, passes, unplanned]
      exact ih later
  exact still _ fun _ listed => listed

end

section

variable {outage : Nat → Bool} {owner : String} {schema : SchemaFile}

variable {session : Session catalog}

theorem introspect_ended {Value : Type} {read : Database catalog → Value} {next : Session catalog}
    {value : Value} (ended : outcome (introspect outage read) session = (.ok value, next)) :
    value = read session.database ∧ next.database = session.database := by
  change (introspect outage read) session = _ at ended
  rw [introspect] at ended
  split at ended <;> cases ended
  exact ⟨rfl, rfl⟩

variable {findings : List Finding}

/-- What the report of one table lists, and that it changes nothing. -/
theorem diffTable_ended {tables : List String} {entry : String × TableSchema}
    {next : Session catalog}
    (ended : outcome (diffTable outage owner tables entry) session = (.ok findings, next)) :
    next.database = session.database ∧
      ((∃ finding ∈ findings, finding.missingFor.isSome) →
        tables.contains entry.1 = false ∨
          missingColumns entry.2 (session.database.columns entry.1) ≠ [] ∨
          missingIndexes entry.2 (session.database.indexes entry.1) ≠ []) ∧
      ∀ finding ∈ findings, finding.missingFor = none ∨ finding.missingFor = some owner := by
  rw [diffTable] at ended
  split at ended
  · obtain ⟨columns, middle, shown, ended⟩ := bind_ended ended
    obtain ⟨indexes, final, listed, ended⟩ := bind_ended ended
    obtain ⟨rfl, same⟩ := introspect_ended shown
    obtain ⟨rfl, kept⟩ := introspect_ended listed
    rw [same] at ended kept
    cases ended
    refine ⟨kept, ?_, ?_⟩
    · rintro ⟨finding, reported, missing⟩
      rcases mem_append.mp reported with reported | reported
      · rcases mem_append.mp reported with reported | reported
        · obtain ⟨column, held, _⟩ := mem_map.mp reported
          exact .inr (.inl (ne_nil_of_mem held))
        · obtain ⟨column, _, rfl⟩ := mem_map.mp reported
          cases missing
      · obtain ⟨index, held, _⟩ := mem_map.mp reported
        exact .inr (.inr (ne_nil_of_mem held))
    · intro finding reported
      rcases mem_append.mp reported with reported | reported
      · rcases mem_append.mp reported with reported | reported
        · obtain ⟨column, _, rfl⟩ := mem_map.mp reported
          exact .inr rfl
        · obtain ⟨column, _, rfl⟩ := mem_map.mp reported
          exact .inl rfl
      · obtain ⟨index, _, rfl⟩ := mem_map.mp reported
        exact .inr rfl
  · rename_i absent
    cases ended
    refine ⟨rfl, fun _ => .inl (by simpa using absent), ?_⟩
    intro finding reported
    rw [mem_singleton.mp reported]
    exact .inr rfl

theorem diffTables_ended {tables : List String} {entries : List (String × TableSchema)}
    {next : Session catalog}
    (ended : outcome (diffTables outage owner tables entries) session = (.ok findings, next)) :
    next.database = session.database ∧
      ((∃ finding ∈ findings, finding.missingFor.isSome) →
        ∃ entry ∈ entries, tables.contains entry.1 = false ∨
          missingColumns entry.2 (session.database.columns entry.1) ≠ [] ∨
          missingIndexes entry.2 (session.database.indexes entry.1) ≠ []) ∧
      ∀ finding ∈ findings, finding.missingFor = none ∨ finding.missingFor = some owner := by
  induction entries generalizing session next findings with
  | nil =>
    cases ended
    refine ⟨rfl, ?_, fun _ absurd => nomatch absurd⟩
    rintro ⟨_, absurd, _⟩
    cases absurd
  | cons entry rest ih =>
    obtain ⟨found, middle, first, ended⟩ := bind_ended ended
    obtain ⟨others, last, later, ended⟩ := bind_ended ended
    obtain ⟨same, here, owners⟩ := diffTable_ended first
    obtain ⟨kept, further, others_owners⟩ := ih later
    cases ended
    refine ⟨kept.trans same, ?_, ?_⟩
    · rintro ⟨finding, reported, missing⟩
      rcases mem_append.mp reported with reported | reported
      · exact ⟨entry, mem_cons_self, here ⟨finding, reported, missing⟩⟩
      · obtain ⟨other, listed, lacks⟩ := further ⟨finding, reported, missing⟩
        rw [same] at lacks
        exact ⟨other, mem_cons_of_mem _ listed, lacks⟩
    · exact forall_mem_append.mpr ⟨owners, others_owners⟩

variable {modules : List (String × SchemaFile)}

section

variable (known : ∀ entry ∈ modules, entry.1 = owner → entry.2 = schema) {next : Session catalog}
  (converged : Converged schema session.database)
include known converged

theorem diffModules_converged
    (ended : outcome (diffModules outage session.database.names modules) session =
      (.ok findings, next)) :
    ∀ finding ∈ findings, finding.missingFor ≠ some owner := by
  generalize shown : session.database.names = tables at ended
  induction modules generalizing session next findings with
  | nil =>
    cases ended
    exact fun _ absurd => nomatch absurd
  | cons entry rest ih =>
    obtain ⟨name, declared⟩ := entry
    obtain ⟨found, middle, first, ended⟩ := bind_ended ended
    obtain ⟨others, last, later, ended⟩ := bind_ended ended
    have ⟨here, known⟩ := forall_mem_cons.mp known
    obtain ⟨same, lacking, owners⟩ := diffTables_ended first
    cases ended
    refine forall_mem_append.mpr ⟨?_, ?_⟩
    · intro finding reported missing
      rcases owners finding reported with none | own
      · rw [none] at missing
        cases missing
      · rw [own] at missing
        cases missing
        obtain ⟨entry, declares, lacks⟩ := lacking ⟨finding, reported, by rw [own]; rfl⟩
        have same_schema : declared = schema := here rfl
        rw [same_schema] at declares
        have ⟨listed, columns, indexes⟩ := converged.entry declares
        rw [shown] at listed
        rcases lacks with absent | absent | absent
        · rw [listed] at absent
          cases absent
        · exact absent columns
        · exact absent indexes
    · exact ih known (same ▸ converged) (by rw [same, shown]) later

theorem diff_converged (ended : outcome (diff outage modules) session = (.ok findings, next)) :
    ∀ finding ∈ findings, finding.missingFor ≠ some owner := by
  obtain ⟨tables, middle, shown, ended⟩ := bind_ended ended
  obtain ⟨found, last, reported, ended⟩ := bind_ended ended
  obtain ⟨rfl, same⟩ := introspect_ended shown
  rw [← same] at reported converged
  cases ended
  refine forall_mem_append.mpr ⟨diffModules_converged known converged reported, ?_⟩
  intro finding listed
  obtain ⟨table, _, rfl⟩ := mem_map.mp listed
  exact nofun

end

end

theorem gates_pass_iff {schema : SchemaFile} {database : Database catalog} :
    (∀ entry ∈ schema.tables.list, gateOf database entry = none) ↔
      gateAll database.names database schema.tables.list = none := by
  rw [gateAll_start, findSome?_eq_none_iff]

theorem converged_iff {schema : SchemaFile} {database : Database catalog}
    (passes : ∀ entry ∈ schema.tables.list, gateOf database entry = none) :
    Converged schema (applyAll database (plan schema database)) ↔
      ∀ object ∈ schema.objects, ¬ database.has object → catalog.Keeps object := by
  constructor
  · intro converged object declares lacks
    rcases keeps_of_applyAll (converged object declares) with before | kept
    · exact absurd before lacks
    · exact kept
  · intro kept object declares
    obtain ⟨entry, listed, held⟩ := mem_flatMap.mp declares
    refine tables_has (stored_names database) schema.tables.distinct
      (gates_pass_iff.mp passes) (fun _ _ => contains_iff_mem) ?_ entry listed object held
    intro other known object held lacks
    exact kept object (mem_flatMap.mpr ⟨other, known, held⟩) lacks

theorem reconciles_iff (owner : String) (schema : ParsedSchema) (database : Database catalog) :
    Reconciles owner schema.toSchemaFile database ↔
      GatesFirst schema.toSchemaFile database ∧ KeepsNames schema.toSchemaFile database := by
  have quiet : ∀ request : Nat, (fun _ : Nat => false) request = false := fun _ => rfl
  constructor
  · intro reconciles
    refine ⟨?_, ?_⟩
    · intro entry found
      have ⟨gate, stops⟩ : ∃ gate, gateAll database.names database
          schema.tables.list = some gate := by
        rw [← Option.isSome_iff_exists, gateAll_start, findSome?_isSome_iff]
        have fails := find?_some found
        exact ⟨entry, mem_of_find?_eq_some found, fails⟩
      obtain ⟨next, ran⟩ := run_quiet owner schema.toSchemaFile database quiet
      rw [stops] at ran
      have apart := reconciles.untouched _ gate next ran
      rw [(run_gate ran).2] at apart
      obtain ⟨failing, same, _, untouched⟩ := planAll_of_gate (stored_names database)
        schema.tables.distinct (agree_start schema.toSchemaFile database) stops
      have same : some failing = some entry := same.symm.trans found
      cases same
      exact untouched.mp apart
    · intro passes
      obtain ⟨next, ran⟩ := run_quiet owner schema.toSchemaFile database quiet
      rw [gates_pass_iff.mp passes] at ran
      have converged := reconciles.complete _ _ next ran
      rw [(run_ok ran).2.2.2] at converged
      exact (converged_iff passes).mp converged
  · rintro ⟨gates, names⟩
    have complete : ∀ outage log next,
        outcome (reconcile outage owner schema.toSchemaFile) (.start database) =
          (.ok log, next) → Converged schema.toSchemaFile next.database := by
      intro outage log next ran
      obtain ⟨passes, _, _, reached⟩ := run_ok ran
      rw [reached]
      exact (converged_iff passes).mpr (names passes)
    refine ⟨?_, ?_, complete, ?_, ?_, ?_⟩
    · intro outage statement sent
      exact additive_planAll schema.parsed _ (fun _ listed => listed) database statement
        ((run_issued outage owner schema.toSchemaFile database).subset sent)
    · intro outage log next ran
      obtain ⟨_, logged, issued, _⟩ := run_ok ran
      rw [logged, issued]
    · intro outage log next ran modules known later findings last reported
      have converged : Converged schema.toSchemaFile (Session.start next.database).database :=
        complete outage log next ran
      exact diff_converged known converged reported
    · intro outage log next ran later again last second
      have ⟨empty, passes⟩ := plan_of_converged (complete outage log next ran)
      have sent := run_issued later owner schema.toSchemaFile next.database
      rw [second, empty] at sent
      refine ⟨prefix_nil.mp sent, ?_, ?_⟩
      · rintro lines rfl
        have logged := (run_ok second).2.1
        rwa [empty] at logged
      · intro answered
        obtain ⟨reached, ran⟩ := run_quiet owner schema.toSchemaFile next.database answered
        rw [second, passes, empty] at ran
        exact congrArg Prod.fst ran
    · intro outage gate next ran
      obtain ⟨stops, issued⟩ := run_gate ran
      obtain ⟨failing, found, _, untouched⟩ := planAll_of_gate (stored_names database)
        schema.tables.distinct (agree_start schema.toSchemaFile database) stops
      rw [issued]
      exact untouched.mpr (gates failing found)

def verbatim : Catalog where
  table := id
  column := id
  index := id
  table_idem := fun _ => rfl
  column_idem := fun _ => rfl
  index_idem := fun _ => rfl

def lateSchema : ParsedSchema where
  tables := {
    list := [("audit", {
      pk := []
      columns := {
        list := [("id", ⟨"bigint", none, false⟩), ("note", ⟨"text", none, false⟩),
          ("owner", ⟨"text", some false, false⟩)]
        distinct := by decide }
      indexes := { list := [], distinct := by decide }
      tenant := true })]
    distinct := by decide }
  parsed := rfl

def lateDatabase : Database verbatim where
  tables := [("audit", ⟨["id"], []⟩)]
  stored := fun _ _ => rfl

/-- The column `note` is added before the gate of `owner` stops the run. -/
theorem late_gate_after_column :
    ¬ Reconciles "user" lateSchema.toSchemaFile lateDatabase := by
  intro reconciles
  have apart := reconciles.untouched (fun _ => false) (.missingNotNull "audit" "owner" "text")
    _ rfl (addColumnDdl "audit" "note" ⟨"text", none, false⟩) (by decide)
  exact apart rfl

end OnlyJs.Oj
