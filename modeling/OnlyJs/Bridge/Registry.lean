import Mathlib.Algebra.Order.Ring.Int
import Mathlib.Data.Finmap

/-!
# The schema registry

The whitelist of tables and columns. Every identifier of a built statement is
looked up here.
-/

namespace OnlyJs.Bridge

inductive Dialect where
  | sqlite
  | mySql
  | postgres
deriving DecidableEq

/-- `unknown` is an undeclared type and is treated as text. -/
inductive ColumnType where
  | integer
  | bigInt
  | text
  | boolean
  | double
  | blob
  | unknown
deriving DecidableEq

structure ColumnDef where
  sortable : Bool
  ty : ColumnType
deriving DecidableEq

structure TableDef where
  columns : Finmap fun _ : String => ColumnDef
  primaryKey : List String
  shared : Bool

structure SchemaRegistry where
  tables : Finmap fun _ : String => TableDef

def SchemaRegistry.get (registry : SchemaRegistry) (name : String) : Option TableDef :=
  registry.tables.lookup name

end OnlyJs.Bridge
