import OnlyJs.Bridge.Registry
import OnlyJs.Bridge.Value

/-!
# Requests of the query builder

A request is a statement in structured form. Its conditions, its columns, its union arms, its
common table expressions and the source of an insert may hold further requests.
-/

namespace OnlyJs.Bridge.Query

inductive Op where
  | eq
  | ne
  | gt
  | gte
  | lt
  | lte
  | in_
  | like
  | isNull
  | contains
  | startsWith
  | endsWith
deriving DecidableEq

inductive Verb where
  | select
  | insert
  | update
  | delete
deriving DecidableEq

/-- `name` is the name in the registry, `asName` the name in the statement. -/
structure TableRef where
  name : String
  asName : Option String
deriving DecidableEq

def TableRef.sqlName (table : TableRef) : String := table.asName.getD table.name

inductive JoinKind where
  | inner
  | left
deriving DecidableEq

/-- A condition of a join: two columns that are equal, or a column and a value. -/
inductive OnPair where
  | cols (left right : String)
  | val (left : String) (op : Op) (value : Value)

/-- `tenantId` is the tenant that the join is bound to. -/
structure Join where
  table : TableRef
  kind : JoinKind
  on : List OnPair
  tenantId : Option Value

inductive AggFn where
  | count
  | sum
  | avg
  | min
  | max
deriving DecidableEq

inductive WinFn where
  | rowNumber
  | rank
  | denseRank
deriving DecidableEq

inductive UnionKind where
  | distinct
  | all
deriving DecidableEq

structure OrderBy where
  field : String
  dir : Option String
deriving DecidableEq

abbrev Row := List (String × Value)

def Row.insert (key : String) (value : Value) : Row → Row
  | [] => [(key, value)]
  | (name, old) :: rest =>
    if name = key then (key, value) :: rest
    else if key < name then (key, value) :: (name, old) :: rest
    else (name, old) :: Row.insert key value rest

mutual

structure Cond where
  field : String
  op : Op
  value : Option Value
  escape : Option String
  subquery : Option QueryReq

inductive CondTree where
  | leaf (cond : Cond)
  | and (trees : List CondTree)
  | or (trees : List CondTree)
  | not (tree : CondTree)
  | exists_ (query : QueryReq)

structure CaseWhen where
  cond : CondTree
  then_ : Value

inductive ColSpec where
  | name (name : String)
  | star
  | lit (lit : Value) (asName : String)
  | agg (function : AggFn) (field : Option String) (asName : Option String) (distinct : Bool)
  | case (arms : List CaseWhen) (otherwise : Option Value) (asName : String)
  | window (function : WinFn) (partitionBy : List String) (orderBy : List OrderBy)
      (asName : String)

structure UnionArm where
  kind : UnionKind
  query : QueryReq

structure CteReq where
  name : String
  columns : List String
  query : QueryReq

structure QueryReq where
  table : TableRef
  verb : Verb
  values : List Row
  sets : Row
  returning : List String
  joins : List Join
  columns : List ColSpec
  distinct : Bool
  groupBy : List String
  having : Option CondTree
  conditions : List CondTree
  orderBy : List OrderBy
  limit : Option Nat
  offset : Option Nat
  unions : List UnionArm
  ctes : List CteReq
  orIgnore : Bool
  truncate : Bool
  fromSelect : Option QueryReq
  insertCols : List String

end

def QueryReq.plain (verb : Verb) (table : String) : QueryReq where
  table := ⟨table, none⟩
  verb := verb
  values := []
  sets := []
  returning := []
  joins := []
  columns := []
  distinct := false
  groupBy := []
  having := none
  conditions := []
  orderBy := []
  limit := none
  offset := none
  unions := []
  ctes := []
  orIgnore := false
  truncate := false
  fromSelect := none
  insertCols := []

end OnlyJs.Bridge.Query
