import OnlyJs.Bridge.Registry
import OnlyJs.Lib.Fallible

/-!
# The declared schema

What a `schema.yaml` declares, the checks that a parsed file has passed, and the
statements generated from a declaration. The file arrives here as the values its
YAML text denotes.
-/

namespace OnlyJs.Oj

open Bridge (ColumnType)
open Lib.Fallible

set_option autoImplicit false

structure Entries (Value : Type) where
  list : List (String × Value)
  distinct : (list.map Prod.fst).Nodup

namespace Entries

variable {Value : Type}

def keys (entries : Entries Value) : List String := entries.list.map Prod.fst

def contains (entries : Entries Value) (key : String) : Bool := entries.keys.contains key

end Entries

/-- One column; `null` is absent when the declaration leaves it out. -/
structure ColumnSchema where
  colType : String
  null : Option Bool
  autoincrement : Bool
deriving DecidableEq

/-- One table. `pk` is empty without a primary key and has several columns for a
composite one. -/
structure TableSchema where
  pk : List String
  columns : Entries ColumnSchema
  indexes : Entries (List String)
  tenant : Bool

structure SchemaFile where
  tables : Entries TableSchema

def fromSchemaType (name : String) : Option ColumnType :=
  if name = "integer" then some .integer
  else if name = "bigint" then some .bigInt
  else if name = "text" then some .text
  else if name = "boolean" then some .boolean
  else if name = "double" then some .double
  else if name = "blob" then some .blob
  else none

inductive SchemaError where
  | tableName (table : String)
  | keyName (table key : String)
  | keyUndeclared (table key : String)
  | compositeAutoincrement (table column : String)
  | columnName (table column : String)
  | columnType (table column colType : String)
  | autoincrementOutsideKey (table column : String)
  | indexName (table index : String)
  | indexEmpty (table index : String)
  | indexColumn (table index column : String)
deriving DecidableEq

def isIdent (name : String) : Bool :=
  (name.toList.head?.any fun c => c.isAlpha || c = '_') &&
    name.toList.all fun c => c.isAlphanum || c = '_'

def parseColType (table column colType : String) : Except SchemaError ColumnType :=
  match fromSchemaType colType with
  | some type => pure type
  | none => throw (.columnType table column colType)

def checkKey (table : String) (schema : TableSchema) (key : String) :
    Except SchemaError Unit := do
  reject (!isIdent key) (.keyName table key)
  reject (!schema.columns.contains key) (.keyUndeclared table key)

def checkCompositeKey (table : String) (schema : TableSchema) : Except SchemaError Unit :=
  if 1 < schema.pk.length then
    schema.columns.list.forM fun (column, declared) =>
      reject declared.autoincrement (.compositeAutoincrement table column)
  else pure ()

def checkColumn (table : String) (schema : TableSchema) :
    String × ColumnSchema → Except SchemaError Unit
  | (column, declared) => do
      reject (!isIdent column) (.columnName table column)
      let _ ← parseColType table column declared.colType
      reject (declared.autoincrement && !schema.pk.contains column)
        (.autoincrementOutsideKey table column)

def checkIndex (table : String) (schema : TableSchema) :
    String × List String → Except SchemaError Unit
  | (index, columns) => do
      reject (!isIdent index) (.indexName table index)
      reject columns.isEmpty (.indexEmpty table index)
      columns.forM fun column =>
        reject (!schema.columns.contains column) (.indexColumn table index column)

def checkTable : String × TableSchema → Except SchemaError Unit
  | (table, schema) => do
      reject (!isIdent table) (.tableName table)
      schema.pk.forM (checkKey table schema)
      checkCompositeKey table schema
      schema.columns.list.forM (checkColumn table schema)
      schema.indexes.list.forM (checkIndex table schema)

/-- `SchemaFile::parse` after the YAML reader: the file is returned if every
table passes its checks. -/
def SchemaFile.parse (file : SchemaFile) : Except SchemaError SchemaFile := do
  file.tables.list.forM checkTable
  pure file

/-- A file as `SchemaFile::parse` returns it. -/
structure ParsedSchema extends SchemaFile where
  parsed : toSchemaFile.parse = .ok toSchemaFile

theorem checkTable_ok {file : SchemaFile} (parsed : file.parse = .ok file)
    {entry : String × TableSchema} (listed : entry ∈ file.tables.list) :
    checkTable entry = .ok () := by
  obtain ⟨_, checked, _⟩ := bind_ok.mp parsed
  exact (forM_ok _).mp checked entry listed

theorem autoincrement_key {table : String} {schema : TableSchema}
    (checked : checkTable (table, schema) = .ok ()) {column : String} {declared : ColumnSchema}
    (listed : (column, declared) ∈ schema.columns.list)
    (increments : declared.autoincrement = true) : column ∈ schema.pk := by
  iterate 3 obtain ⟨_, _, checked⟩ := bind_ok.mp checked
  obtain ⟨_, columns, _⟩ := bind_ok.mp checked
  have passed : checkColumn table schema (column, declared) = .ok () :=
    (forM_ok _).mp columns (column, declared) listed
  obtain ⟨_, _, passed⟩ := bind_ok.mp passed
  obtain ⟨_, _, passed⟩ := bind_ok.mp passed
  rw [increments] at passed
  simpa using passed

structure ColumnDef where
  name : String
  type : ColumnType
  autoIncrement : Bool
  notNull : Bool
  primaryKey : Bool
deriving DecidableEq

def ColumnSchema.ty (column : ColumnSchema) : ColumnType :=
  (fromSchemaType column.colType).getD .unknown

def columnDef (name : String) (column : ColumnSchema) (isPk : Bool) : ColumnDef where
  name := name
  type := column.ty
  autoIncrement := column.autoincrement
  notNull := column.null = some false
  primaryKey := isPk

inductive Statement where
  | createTable (table : String) (columns : List ColumnDef) (primaryKey : List String)
  | addColumn (table : String) (column : ColumnDef)
  | createIndex (table index : String) (columns : List String)
deriving DecidableEq

def createTableDdl (schema : TableSchema) (name : String) : Statement :=
  .createTable name
    (schema.columns.list.map fun (column, declared) =>
      columnDef column declared (schema.pk = [column]))
    (if 1 < schema.pk.length then schema.pk else [])

def addColumnDdl (table name : String) (column : ColumnSchema) : Statement :=
  .addColumn table (columnDef name column false)

def createIndexDdl (table index : String) (columns : List String) : Statement :=
  .createIndex table index columns

def Statement.table : Statement → String
  | .createTable table _ _ => table
  | .addColumn table _ => table
  | .createIndex table _ _ => table

end OnlyJs.Oj
