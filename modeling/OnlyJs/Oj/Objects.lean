import OnlyJs.Oj.ReconcilePlan

/-!
# The objects along a plan

A statement removes nothing and brings the objects it names, under the names the
catalog keeps. A plan without a gate therefore leads to everything that is
declared, and a plan with one stops at the first table that fails a gate.
-/

namespace OnlyJs.Oj

open List

set_option autoImplicit false

variable {catalog : Catalog}

inductive Object where
  | table (name : String)
  | column (table column : String)
  | index (table index : String)
deriving DecidableEq

def Database.has (database : Database catalog) : Object → Prop
  | .table name => name ∈ database.names
  | .column table column => column ∈ database.columns table
  | .index table index => index ∈ database.indexes table

/-- The catalog keeps the name under which an object is created. -/
def Catalog.Keeps (catalog : Catalog) : Object → Prop
  | .table name => catalog.table name = name
  | .column _ column => catalog.column column = column
  | .index _ index => catalog.index index = index

def tableObjects : String × TableSchema → List Object
  | (name, schema) =>
    .table name :: (schema.columns.keys.map (.column name) ++
      schema.indexes.keys.map (.index name))

def SchemaFile.objects (schema : SchemaFile) : List Object :=
  schema.tables.list.flatMap tableObjects

/-- Everything declared exists. -/
def Converged (schema : SchemaFile) (database : Database catalog) : Prop :=
  ∀ object ∈ schema.objects, database.has object

/-- A table fails its gate before a column is added: it looks renamed, or the first
of its missing columns is one that cannot be added. -/
def FailsAtOnce (database : Database catalog) : String × TableSchema → Prop
  | (name, schema) =>
    (renameGate name schema (database.columns name)).isSome ∨
      ((missingColumns schema (database.columns name)).head?.bind
        (columnGate name schema)).isSome

variable {table : String}

theorem has_column_iff {database : Database catalog} {column : String} :
    database.has (.column table column) ↔
      ∃ held, database.find table = some held ∧ column ∈ held.columns := by
  rw [Database.has, Database.columns]
  cases database.find table <;> simp

theorem has_index_iff {database : Database catalog} {index : String} :
    database.has (.index table index) ↔
      ∃ held, database.find table = some held ∧ index ∈ held.indexes := by
  rw [Database.has, Database.indexes]
  cases database.find table <;> simp

section

variable {database : Database catalog} {object : Object} (present : database.has object)
include present

theorem has_apply (statement : Statement) :
    (statement.apply database).has object := by
  cases object with
  | table name => exact names_apply database statement present
  | column table column =>
    obtain ⟨held, found, listed⟩ := has_column_iff.mp present
    rw [has_column_iff]
    cases statement <;>
      simp only [Statement.apply, Database.find_create, Database.find_alter, found] <;>
      split <;> simp [listed]
  | index table index =>
    obtain ⟨held, found, listed⟩ := has_index_iff.mp present
    rw [has_index_iff]
    cases statement <;>
      simp only [Statement.apply, Database.find_create, Database.find_alter, found] <;>
      split <;> simp [listed]

theorem has_applyAll (statements : List Statement) :
    (applyAll database statements).has object := by
  induction statements generalizing database with
  | nil => exact present
  | cons statement rest ih => exact ih (has_apply present statement)

end

variable {statement : Statement}

/-- What a statement brings stands under a name that the catalog keeps. -/
theorem keeps_of_apply {database : Database catalog} {object : Object}
    (present : (statement.apply database).has object) :
    database.has object ∨ catalog.Keeps object := by
  cases object with
  | table name => exact .inr (Database.stored_of_mem _ present)
  | column table column =>
    rw [has_column_iff] at present ⊢
    obtain ⟨held, found, listed⟩ := present
    cases statement with
    | createTable created columns key =>
      rw [Statement.apply, Database.find_create] at found
      split at found
      · cases before : database.find table with
        | some old =>
          rw [before] at found
          cases found
          exact .inl ⟨_, rfl, listed⟩
        | none =>
          rw [before] at found
          cases found
          obtain ⟨declared, _, rfl⟩ := mem_map.mp listed
          exact .inr (catalog.column_idem _)
      · exact .inl ⟨held, found, listed⟩
    | addColumn altered added =>
      rw [Statement.apply, Database.find_alter] at found
      obtain ⟨old, before, rfl⟩ := Option.map_eq_some_iff.mp found
      split at listed
      · rcases mem_append.mp listed with listed | listed
        · exact .inl ⟨old, before, listed⟩
        · rw [mem_singleton.mp listed]
          exact .inr (catalog.column_idem _)
      · exact .inl ⟨old, before, listed⟩
    | createIndex altered index columns =>
      rw [Statement.apply, Database.find_alter] at found
      obtain ⟨old, before, rfl⟩ := Option.map_eq_some_iff.mp found
      refine .inl ⟨old, before, ?_⟩
      split at listed <;> exact listed
  | index table index =>
    rw [has_index_iff] at present ⊢
    obtain ⟨held, found, listed⟩ := present
    cases statement with
    | createTable created columns key =>
      rw [Statement.apply, Database.find_create] at found
      split at found
      · cases before : database.find table with
        | some old =>
          rw [before] at found
          cases found
          exact .inl ⟨_, rfl, listed⟩
        | none =>
          rw [before] at found
          cases found
          cases listed
      · exact .inl ⟨held, found, listed⟩
    | addColumn altered added =>
      rw [Statement.apply, Database.find_alter] at found
      obtain ⟨old, before, rfl⟩ := Option.map_eq_some_iff.mp found
      refine .inl ⟨old, before, ?_⟩
      split at listed <;> exact listed
    | createIndex altered created columns =>
      rw [Statement.apply, Database.find_alter] at found
      obtain ⟨old, before, rfl⟩ := Option.map_eq_some_iff.mp found
      split at listed
      · rcases mem_append.mp listed with listed | listed
        · exact .inl ⟨old, before, listed⟩
        · rw [mem_singleton.mp listed]
          exact .inr (catalog.index_idem _)
      · exact .inl ⟨old, before, listed⟩

theorem keeps_of_applyAll {statements : List Statement} {database : Database catalog}
    {object : Object} (present : (applyAll database statements).has object) :
    database.has object ∨ catalog.Keeps object := by
  induction statements generalizing database with
  | nil => exact .inl present
  | cons statement rest ih =>
    rcases ih present with present | kept
    · exact keeps_of_apply present
    · exact .inr kept

def Statement.brings : Statement → List Object
  | .createTable table columns _ =>
    .table table :: columns.map fun column => .column table column.name
  | .addColumn table column => [.column table column.name]
  | .createIndex table index _ => [.index table index]

def Statement.creates : Statement → Bool
  | .createTable _ _ _ => true
  | _ => false

/-- An accepted statement brings its objects, under the names that are kept. -/
theorem has_brought {database : Database catalog}
    (stored : catalog.table statement.table = statement.table)
    (placed : statement.creates = true ↔ statement.table ∉ database.names) {object : Object}
    (brought : object ∈ statement.brings) (kept : catalog.Keeps object) :
    (statement.apply database).has object := by
  cases statement with
  | createTable table columns key =>
    have stored : catalog.table table = table := stored
    have absent : database.find table = none := by
      have outside := placed.mp rfl
      rw [Statement.table, Database.mem_names] at outside
      simpa using outside
    have found : (Statement.apply database (.createTable table columns key)).find table =
        some ⟨columns.map fun column => catalog.column column.name, []⟩ := by
      rw [Statement.apply, Database.find_create, stored, if_pos rfl, absent]
      rfl
    rcases mem_cons.mp brought with rfl | brought
    · rw [Database.has, Database.mem_names, found]
      rfl
    · obtain ⟨column, listed, rfl⟩ := mem_map.mp brought
      refine has_column_iff.mpr ⟨_, found, ?_⟩
      exact mem_map.mpr ⟨column, listed, kept⟩
  | addColumn table column =>
    have stored : catalog.table table = table := stored
    have present : (database.find table).isSome := by
      rw [← Database.mem_names]
      by_contra outside
      cases placed.mpr outside
    obtain ⟨held, found⟩ := Option.isSome_iff_exists.mp present
    rw [mem_singleton.mp brought] at kept ⊢
    rw [has_column_iff, Statement.apply, Database.find_alter, found, stored]
    refine ⟨_, rfl, ?_⟩
    have kept : catalog.column column.name = column.name := kept
    simp [kept]
  | createIndex table index columns =>
    have stored : catalog.table table = table := stored
    have present : (database.find table).isSome := by
      rw [← Database.mem_names]
      by_contra outside
      cases placed.mpr outside
    obtain ⟨held, found⟩ := Option.isSome_iff_exists.mp present
    rw [mem_singleton.mp brought] at kept ⊢
    rw [has_index_iff, Statement.apply, Database.find_alter, found, stored]
    refine ⟨_, rfl, ?_⟩
    have kept : catalog.index index = index := kept
    simp [kept]

variable {name : String}

theorem has_brought_all (stored : catalog.table name = name) {statements : List Statement}
    {database : Database catalog} (present : name ∈ database.names)
    (placed : ∀ statement ∈ statements, statement.table = name ∧ statement.creates = false)
    (statement : Statement) (listed : statement ∈ statements) {object : Object}
    (brought : object ∈ statement.brings) (kept : catalog.Keeps object) :
    (applyAll database statements).has object := by
  induction statements generalizing database with
  | nil => cases listed
  | cons head rest ih =>
    rcases mem_cons.mp listed with rfl | listed
    · have ⟨here, alters⟩ := placed statement mem_cons_self
      refine has_applyAll (has_brought ?_ ?_ brought kept) rest
      · rw [here, stored]
      · rw [here, alters]
        simpa using present
    · exact ih (names_apply database head present)
        (fun later held => placed later (mem_cons_of_mem _ held)) listed

variable {schema : TableSchema}

theorem additions_of_no_gate {missing : List (String × ColumnSchema)}
    (passes : missing.findSome? (columnGate table schema) = none) :
    additions table schema missing =
      missing.map fun (column, declared) => addColumnDdl table column declared := by
  induction missing with
  | nil => rfl
  | cons entry rest ih =>
    obtain ⟨column, declared⟩ := entry
    rw [findSome?_cons] at passes
    cases gated : columnGate table schema (column, declared) with
    | some gate =>
      rw [gated] at passes
      cases passes
    | none =>
      rw [gated] at passes
      rw [additions, gated]
      exact congrArg _ (ih passes)

variable {tables : List String}

section

variable {database : Database catalog} (present : tables.contains name = true)
  (passes : gateAt tables database (name, schema) = none)
include present passes

theorem gateAt_none :
    renameGate name schema (database.columns name) = none ∧
      (missingColumns schema (database.columns name)).findSome? (columnGate name schema) =
        none := by
  rwa [gateAt, if_pos present, Option.or_eq_none_iff] at passes

theorem planAt_present :
    planAt tables database (name, schema) =
      ((missingColumns schema (database.columns name)).map fun (column, declared) =>
        addColumnDdl name column declared) ++
      indexStatements name (missingIndexes schema (database.indexes name)) := by
  have ⟨renamed, gated⟩ := gateAt_none present passes
  rw [planAt, if_pos present, renamed, if_neg (by decide), passes, if_neg (by decide),
    additions_of_no_gate gated]

end

variable {columns : List String}

theorem mem_missingColumns {column : String} {declared : ColumnSchema} :
    (column, declared) ∈ missingColumns schema columns ↔
      (column, declared) ∈ schema.columns.list ∧ column ∉ columns := by
  simp [missingColumns]

theorem mem_missingIndexes {indexes : List String} {index : String} :
    (index, columns) ∈ missingIndexes schema indexes ↔
      (index, columns) ∈ schema.indexes.list ∧ index ∉ indexes := by
  simp [missingIndexes]

theorem mem_tableObjects {object : Object} :
    object ∈ tableObjects (name, schema) ↔
      object = .table name ∨
        (∃ column declared, (column, declared) ∈ schema.columns.list ∧
          object = .column name column) ∨
        ∃ index columns, (index, columns) ∈ schema.indexes.list ∧ object = .index name index := by
  rw [tableObjects, mem_cons, mem_append, mem_map, mem_map]
  constructor
  · rintro (same | ⟨column, listed, rfl⟩ | ⟨index, listed, rfl⟩)
    · exact .inl same
    · obtain ⟨entry, held, rfl⟩ := mem_map.mp listed
      exact .inr (.inl ⟨entry.1, entry.2, held, rfl⟩)
    · obtain ⟨entry, held, rfl⟩ := mem_map.mp listed
      exact .inr (.inr ⟨entry.1, entry.2, held, rfl⟩)
  · rintro (same | ⟨column, declared, listed, rfl⟩ | ⟨index, columns, listed, rfl⟩)
    · exact .inl same
    · exact .inr (.inl ⟨column, mem_map_of_mem listed, rfl⟩)
    · exact .inr (.inr ⟨index, mem_map_of_mem listed, rfl⟩)

/-- A visit without a gate leaves everything declared for the table, where the names
that are missing are kept. -/
theorem visit_has {database : Database catalog}
    (passes : gateAt tables database (name, schema) = none)
    (shown : tables.contains name = true ↔ name ∈ database.names)
    (kept : ∀ object ∈ tableObjects (name, schema), ¬ database.has object → catalog.Keeps object) :
    ∀ object ∈ tableObjects (name, schema),
      (applyAll database (planAt tables database (name, schema))).has object := by
  intro object declares
  by_cases held : database.has object
  · exact has_applyAll held _
  have keeps := kept object declares held
  by_cases present : tables.contains name = true
  · have named := shown.mp present
    rw [planAt_present present passes]
    have placed : ∀ statement ∈
        ((missingColumns schema (database.columns name)).map fun (column, declared) =>
          addColumnDdl name column declared) ++
        indexStatements name (missingIndexes schema (database.indexes name)),
        statement.table = name ∧ statement.creates = false := by
      intro statement listed
      rcases mem_append.mp listed with listed | listed
      · obtain ⟨column, _, rfl⟩ := mem_map.mp listed
        exact ⟨rfl, rfl⟩
      · obtain ⟨index, _, rfl⟩ := indexStatements_create name _ statement listed
        exact ⟨rfl, rfl⟩
    have brought := fun statement listed => @has_brought_all _ _ (database.stored_of_mem named)
      _ _ named placed statement listed object
    rcases mem_tableObjects.mp declares with rfl | ⟨column, declared, listed, rfl⟩ |
      ⟨index, columns, listed, rfl⟩
    · exact absurd named held
    · refine brought (addColumnDdl name column declared) ?_
        (mem_singleton.mpr rfl) keeps
      exact mem_append_left _ (mem_map.mpr
        ⟨(column, declared), mem_missingColumns.mpr ⟨listed, held⟩, rfl⟩)
    · refine brought (createIndexDdl name index columns) ?_
        (mem_singleton.mpr rfl) keeps
      exact mem_append_right _ (mem_map.mpr
        ⟨(index, columns), mem_missingIndexes.mpr ⟨listed, held⟩, rfl⟩)
  · have unnamed : name ∉ database.names := fun named => present (shown.mpr named)
    have stored : catalog.table name = name :=
      kept (.table name) (mem_tableObjects.mpr (.inl rfl)) unnamed
    rw [planAt, if_neg present]
    have first : ∀ object ∈ (createTableDdl schema name).brings, catalog.Keeps object →
        ((createTableDdl schema name).apply database).has object := by
      intro object listed keeps
      refine has_brought stored ?_ listed keeps
      exact ⟨fun _ => unnamed, fun _ => rfl⟩
    have named : ((createTableDdl schema name).apply database).has (.table name) :=
      first (.table name) mem_cons_self stored
    rcases mem_tableObjects.mp declares with rfl | ⟨column, declared, listed, rfl⟩ |
      ⟨index, columns, listed, rfl⟩
    · exact has_applyAll named _
    · refine has_applyAll (first _ ?_ keeps) _
      refine mem_cons_of_mem _ (mem_map.mpr
        ⟨columnDef column declared (schema.pk = [column]), ?_, rfl⟩)
      exact mem_map.mpr ⟨(column, declared), listed, rfl⟩
    · refine has_brought_all stored named ?_ (createIndexDdl name index columns)
        (mem_map.mpr ⟨(index, columns), listed, rfl⟩) (mem_singleton.mpr rfl) keeps
      intro statement listed
      obtain ⟨index, _, rfl⟩ := indexStatements_create name _ statement listed
      exact ⟨rfl, rfl⟩

theorem names_of_apply {database : Database catalog}
    (present : name ∈ (statement.apply database).names) :
    name ∈ database.names ∨ name = catalog.table statement.table := by
  rw [Database.mem_names] at present ⊢
  cases statement with
  | createTable table columns key =>
    rw [Statement.apply, Database.find_create] at present
    split at present
    · rename_i same
      exact .inr same
    · exact .inl present
  | addColumn table column | createIndex table index columns =>
    rw [Statement.apply, Database.find_alter, Option.isSome_map] at present
    exact .inl present

theorem names_of_applyAll {statements : List Statement}
    (placed : ∀ statement ∈ statements, statement.table = table) {database : Database catalog}
    (present : name ∈ (applyAll database statements).names) :
    name ∈ database.names ∨ name = catalog.table table := by
  induction statements generalizing database with
  | nil => exact .inl present
  | cons statement rest ih =>
    have ⟨here, later⟩ := forall_mem_cons.mp placed
    rcases ih later present with before | same
    · rw [← here]
      exact names_of_apply before
    · exact .inr same

variable {before now : Database catalog} {entries : List (String × TableSchema)}

section

variable (stored : ∀ name ∈ tables, catalog.table name = name)
  (distinct : (entries.map Prod.fst).Nodup)
include stored distinct

theorem gateAll_eq (agree : Agree tables before now entries) :
    gateAll tables now entries = entries.findSome? (gateAt tables before) := by
  induction entries generalizing now with
  | nil => rfl
  | cons entry rest ih =>
    have ⟨outside, distinct⟩ := nodup_cons.mp distinct
    have here := gateAt_congr fun present => (agree entry mem_cons_self present).2
    rw [gateAll, ih distinct (agree_visit stored outside agree), here, findSome?_cons]
    cases gateAt tables before entry <;> rfl

theorem tables_has (passes : gateAll tables now entries = none)
    (shown : ∀ entry ∈ entries, tables.contains entry.1 = true ↔ entry.1 ∈ now.names)
    (kept : ∀ entry ∈ entries, ∀ object ∈ tableObjects entry, ¬ now.has object →
      catalog.Keeps object) :
    ∀ entry ∈ entries, ∀ object ∈ tableObjects entry,
      (applyAll now (planAll tables now entries)).has object := by
  induction entries generalizing now with
  | nil => exact fun _ absurd => nomatch absurd
  | cons entry rest ih =>
    have ⟨outside, distinct⟩ := nodup_cons.mp distinct
    rw [gateAll, Option.or_eq_none_iff] at passes
    have here := visit_has passes.1 (shown entry mem_cons_self)
      (kept entry mem_cons_self)
    rw [planAll, passes.1, applyAll_append]
    intro other listed object declares
    rcases mem_cons.mp listed with rfl | listed
    · exact has_applyAll (here object declares) _
    · refine ih distinct passes.2 ?_ ?_ other listed object declares
      · intro later held
        rw [shown later (mem_cons_of_mem _ held)]
        refine ⟨fun present => names_applyAll present _, fun present => ?_⟩
        rcases names_of_applyAll (planAt_table tables now entry) present with before | same
        · exact before
        · -- the visited table stands under its own name, which is not this one
          have own : catalog.table entry.1 = entry.1 := by
            by_cases present : tables.contains entry.1 = true
            · exact stored entry.1 (contains_iff_mem.mp present)
            · refine kept entry mem_cons_self (.table entry.1)
                (mem_tableObjects.mpr (.inl rfl)) ?_
              exact fun named => present ((shown entry mem_cons_self).mpr named)
          rw [own] at same
          exact absurd (same ▸ mem_map_of_mem held) outside
      · intro later held object declares missing
        refine kept later (mem_cons_of_mem _ held) object declares ?_
        exact fun present => missing (has_applyAll present _)

end

variable {entry : String × TableSchema} {gate : Gate}

section

variable {database : Database catalog} (fails : gateAt tables database entry = some gate)
include fails

theorem gateAt_table : gate.table = entry.1 := by
  rw [gateAt] at fails
  split at fails
  · rcases Option.or_eq_some_iff.mp fails with renamed | ⟨_, gated⟩
    · rw [renameGate] at renamed
      split at renamed
      · cases renamed
        rfl
      · cases renamed
    · obtain ⟨⟨column, declared⟩, _, gated⟩ := exists_of_findSome?_eq_some gated
      rw [columnGate] at gated
      split at gated
      · cases gated
        rfl
      · split at gated
        · cases gated
          rfl
        · cases gated
  · cases fails

theorem contains_of_gate : tables.contains entry.1 = true := by
  by_contra absent
  rw [gateAt, if_neg absent] at fails
  cases fails

end

theorem failsAtOnce_congr (same : now.columns entry.1 = before.columns entry.1) :
    FailsAtOnce now entry ↔ FailsAtOnce before entry := by
  rw [FailsAtOnce, FailsAtOnce, same]

theorem planAt_of_gate {database : Database catalog}
    (fails : gateAt tables database entry = some gate) :
    planAt tables database entry = [] ↔ FailsAtOnce database entry := by
  obtain ⟨name, schema⟩ := entry
  have present : tables.contains name = true := contains_of_gate fails
  rw [planAt, if_pos present, fails, FailsAtOnce]
  rw [gateAt, if_pos present] at fails
  cases renamed : renameGate name schema (database.columns name) with
  | some other => simp
  | none =>
    rw [renamed] at fails
    cases missing : missingColumns schema (database.columns name) with
    | nil =>
      rw [missing] at fails
      cases fails
    | cons column rest =>
      obtain ⟨column, declared⟩ := column
      cases gated : columnGate name schema (column, declared) <;>
        simp [additions, gated]

/-- A run that stops at a gate leaves the table of the gate alone exactly if the
table fails the gate at once. -/
theorem planAll_of_gate (stored : ∀ name ∈ tables, catalog.table name = name)
    (distinct : (entries.map Prod.fst).Nodup) (agree : Agree tables before now entries)
    (fails : gateAll tables now entries = some gate) :
    ∃ entry, entries.find? (fun entry => (gateAt tables before entry).isSome) = some entry ∧
      gate.table = entry.1 ∧
      ((∀ statement ∈ planAll tables now entries, statement.table ≠ gate.table) ↔
        FailsAtOnce before entry) := by
  induction entries generalizing now with
  | nil => cases fails
  | cons entry rest ih =>
    have ⟨outside, distinct⟩ := nodup_cons.mp distinct
    have same : tables.contains entry.1 = true →
        now.columns entry.1 = before.columns entry.1 :=
      fun present => (agree entry mem_cons_self present).2
    have here := gateAt_congr same
    have placed := planAt_table tables now entry
    rw [gateAll] at fails
    rw [planAll, find?_cons]
    cases gated : gateAt tables now entry with
    | some stopped =>
      rw [gated] at fails
      cases fails
      have named := gateAt_table gated
      rw [← here, gated]
      refine ⟨entry, rfl, named, ?_⟩
      rw [Option.isSome_some, if_pos rfl, append_nil,
        ← failsAtOnce_congr (same (contains_of_gate gated)), ← planAt_of_gate gated,
        eq_nil_iff_forall_not_mem, named]
      exact forall_congr' fun statement =>
        ⟨fun apart listed => apart listed (placed statement listed),
          fun none listed => absurd listed none⟩
    | none =>
      rw [gated] at fails
      obtain ⟨failing, found, named, untouched⟩ :=
        ih distinct (agree_visit stored outside agree) fails
      rw [← here, gated]
      refine ⟨failing, found, named, ?_⟩
      rw [← untouched, forall_mem_append]
      refine and_iff_right ?_
      intro statement listed same
      rw [placed statement listed, named] at same
      exact outside (same ▸ mem_map_of_mem (mem_of_find?_eq_some found))

end OnlyJs.Oj
