import OnlyJs.Bridge.Query.Replay

/-!
# Select statements

What the builder hands to the renderer: a select as a tree, with the selects that stand inside
its conditions, its case columns and its union members. A tenant is bound to a statement by an
equality for each table with tenants.
-/

namespace OnlyJs.Bridge.Query

open Lib

structure ColumnRef where
  table : Option String
  column : String
deriving DecidableEq

/-- `t.c` is the column `c` of the table `t`. -/
def colRef (col : String) : ColumnRef :=
  match Text.splitOnce '.' col.toList with
  | some (table, column) => ⟨some (String.ofList table), String.ofList column⟩
  | none => ⟨none, col⟩

inductive Comparison where
  | eq
  | ne
  | gt
  | gte
  | lt
  | lte
deriving DecidableEq

inductive Predicate where
  | compare (comparison : Comparison) (value : Qv)
  | isIn (values : List Qv)
  | isNull
  | like (pattern : String) (escape : Option Char)
deriving DecidableEq

inductive Operand where
  | column (ref : ColumnRef)
  | aggregate (function : AggFn) (distinct : Bool) (argument : Option ColumnRef)
deriving DecidableEq

inductive OnExpr where
  | columns (left right : ColumnRef)
  | test (left : ColumnRef) (predicate : Predicate)
deriving DecidableEq

/-- The tenant of a join is the last conjunct of its condition. -/
structure JoinClause where
  kind : JoinKind
  table : TableRef
  on : List OnExpr
  tenant : Option OnExpr
deriving DecidableEq

mutual

inductive SqlExpr where
  | test (left : Operand) (predicate : Predicate)
  | compareSelect (left : ColumnRef) (comparison : Comparison) (statement : SelectStatement)
  | inSelect (left : ColumnRef) (statement : SelectStatement)
  | exists_ (statement : SelectStatement)
  | all (parts : List SqlExpr)
  | any (parts : List SqlExpr)
  | not (part : SqlExpr)

structure CaseArm where
  cond : SqlExpr
  value : Qv

inductive SelectExpr where
  | operand (operand : Operand) (asName : Option String)
  | literal (value : Qv) (cast : Option String) (asName : String)
  | case (arms : List CaseArm) (otherwise : Option Qv) (asName : String)
  | window (function : WinFn) (partitionBy : List ColumnRef) (orderBy : List (String × Bool))
      (asName : String)

structure UnionMember where
  kind : UnionKind
  statement : SelectStatement

structure SelectStatement where
  table : TableRef
  columns : List SelectExpr
  distinct : Bool
  joins : List JoinClause
  conditions : List SqlExpr
  groupBy : List ColumnRef
  having : Option SqlExpr
  orderBy : List (ColumnRef × Bool)
  limit : Option Nat
  offset : Option Nat
  unions : List UnionMember

end

structure CteClause where
  name : String
  columns : List String
  statement : SelectStatement

structure Statement where
  ctes : List CteClause
  select : SelectStatement

structure TenantPolicy where
  tenanted : String → Bool
  value : String → Qv

def TenantPolicy.hiding (policy : TenantPolicy) (names : List String) : TenantPolicy where
  tenanted := fun name => policy.tenanted name && !names.contains name
  value := policy.value

def tenantTest (table : TableRef) (value : Qv) : SqlExpr :=
  .test (.column ⟨some table.sqlName, "tenant_id"⟩) (.compare .eq value)

def JoinClause.withTenant (policy : TenantPolicy) (join : JoinClause) : JoinClause :=
  if policy.tenanted join.table.name then
    { join with
      tenant := some (.test ⟨some join.table.sqlName, "tenant_id"⟩
        (.compare .eq (policy.value join.table.name))) }
  else join

def tenantConjuncts (policy : TenantPolicy) (table : TableRef) : List SqlExpr :=
  if policy.tenanted table.name then [tenantTest table (policy.value table.name)] else []

mutual

def SqlExpr.withTenant (policy : TenantPolicy) : SqlExpr → SqlExpr
  | .test left predicate => .test left predicate
  | .compareSelect left comparison statement =>
    .compareSelect left comparison (statement.withTenant policy [])
  | .inSelect left statement => .inSelect left (statement.withTenant policy [])
  | .exists_ statement => .exists_ (statement.withTenant policy [])
  | .all parts => .all (exprsWithTenant policy parts)
  | .any parts => .any (exprsWithTenant policy parts)
  | .not part => .not (part.withTenant policy)

def exprsWithTenant (policy : TenantPolicy) : List SqlExpr → List SqlExpr
  | [] => []
  | expr :: rest => expr.withTenant policy :: exprsWithTenant policy rest

def havingWithTenant (policy : TenantPolicy) : Option SqlExpr → Option SqlExpr
  | none => none
  | some expr => some (expr.withTenant policy)

def armsWithTenant (policy : TenantPolicy) : List CaseArm → List CaseArm
  | [] => []
  | ⟨cond, value⟩ :: rest => ⟨cond.withTenant policy, value⟩ :: armsWithTenant policy rest

def columnsWithTenant (policy : TenantPolicy) : List SelectExpr → List SelectExpr
  | [] => []
  | .case arms otherwise asName :: rest =>
    .case (armsWithTenant policy arms) otherwise asName :: columnsWithTenant policy rest
  | column :: rest => column :: columnsWithTenant policy rest

def unionsWithTenant (policy : TenantPolicy) : List UnionMember → List UnionMember
  | [] => []
  | ⟨kind, statement⟩ :: rest =>
    ⟨kind, statement.withTenant policy []⟩ :: unionsWithTenant policy rest

def SelectStatement.withTenant (policy : TenantPolicy) (ctes : List String) :
    SelectStatement → SelectStatement
  | ⟨table, columns, distinct, joins, conditions, groupBy, having, orderBy, limit, offset,
      unions⟩ =>
      { table := table
        columns := columnsWithTenant policy columns
        distinct := distinct
        joins := joins.map (JoinClause.withTenant (policy.hiding ctes))
        conditions := exprsWithTenant policy conditions ++
          tenantConjuncts (policy.hiding ctes) table
        groupBy := groupBy
        having := havingWithTenant policy having
        orderBy := orderBy
        limit := limit
        offset := offset
        unions := unionsWithTenant policy unions }

end

attribute [grind =] SqlExpr.withTenant exprsWithTenant havingWithTenant armsWithTenant
  columnsWithTenant unionsWithTenant SelectStatement.withTenant

def Statement.withTenant (policy : TenantPolicy) (statement : Statement) : Statement where
  ctes := statement.ctes.map fun cte =>
    { cte with statement := cte.statement.withTenant policy [] }
  select := statement.select.withTenant policy (statement.ctes.map CteClause.name)

end OnlyJs.Bridge.Query
