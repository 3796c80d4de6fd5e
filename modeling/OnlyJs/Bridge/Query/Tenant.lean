import OnlyJs.Bridge.Guard.Tables
import OnlyJs.Bridge.Query.Request
import OnlyJs.Lib.Fallible

/-!
# The tenant of a request

Before a statement is built, every level of a request that touches tables with tenants is
bound to the tenant of the caller: a condition on a select, an update or a delete, a column on
an insert and a condition on each join.
-/

namespace OnlyJs.Bridge.Query

open Bridge.Guard
open Bridge.Runtime (SqlGuard)
open Lib.Fallible

inductive TenantFault where
  /-- `require tenant context (missing tenant header; use db.asSystem() for system tasks)` -/
  | requiresContext (tables : List String)
  /-- `insert fromSelect must not supply tenant_id` -/
  | suppliesTenant
  /-- `insert tenant_id mismatch` -/
  | insertMismatch (got : Value) (want : String)
  /-- `update sets.tenant_id not allowed` -/
  | updateSets (got : Value)
  /-- `is not a valid integer for numeric column` -/
  | notInteger (tenant table : String)

section Values

def digitsValue (digits : List Char) : Option Nat :=
  if digits.isEmpty || !digits.all Char.isDigit then none
  else some (digits.foldl (fun value digit => 10 * value + (digit.toNat - '0'.toNat)) 0)

def parseI64 (text : String) : Option Int :=
  let number := match text.toList with
    | '-' :: digits => (digitsValue digits).map fun value => -(value : Int)
    | '+' :: digits | digits => (digitsValue digits).map fun value => (value : Int)
  number.filter fun value => -(2 ^ 63) ≤ value ∧ value < 2 ^ 63

def parseU64 (text : String) : Option Nat :=
  let number := match text.toList with
    | '+' :: digits | digits => digitsValue digits
  number.filter fun value => value < 2 ^ 64

def maxSafeInt : Int := 2 ^ 53 - 1

def intParam (value : Int) : Value :=
  if -maxSafeInt ≤ value ∧ value ≤ maxSafeInt then .int value
  else .object [("$oj$i64", .string (toString value))]

def uintParam (value : Nat) : Value :=
  if (value : Int) ≤ maxSafeInt then .int value
  else if value < 2 ^ 63 then .object [("$oj$i64", .string (toString value))]
  else .object [("$oj$u64", .string (toString value))]

def columnType (registry : SchemaRegistry) (table column : String) : ColumnType :=
  (((registry.get table).bind fun entry => entry.columns.lookup column).map
    ColumnDef.ty).getD .unknown

def tenantValue (registry : SchemaRegistry) (table tid : String) : Except TenantFault Value :=
  match columnType registry table "tenant_id" with
  | .integer =>
    match parseI64 tid with
    | some value => .ok (intParam value)
    | none => .error (.notInteger tid table)
  | .bigInt =>
    match parseI64 tid, parseU64 tid with
    | some value, _ => .ok (intParam value)
    | none, some value => .ok (uintParam value)
    | none, none => .error (.notInteger tid table)
  | _ => .ok (.string tid)

end Values

section Level

def isScoped (registry : SchemaRegistry) (ctes : List CteReq) (name : String) : Bool :=
  !(ctes.any fun cte => cte.name = name) && (registry.get name).any TableDef.isTenantScoped

def touched (registry : SchemaRegistry) (req : QueryReq) : List String :=
  (if isScoped registry req.ctes req.table.name then [req.table.name] else []) ++
    (req.joins.filter fun join => isScoped registry req.ctes join.table.name).map (·.table.name)

/-- What the tenant adds to a level of a request. -/
structure Level where
  leaf : Option Cond
  column : Option ColSpec
  values : List Row
  joins : List Join
  insertCols : List String

def Level.unchanged (req : QueryReq) : Level where
  leaf := none
  column := none
  values := req.values
  joins := req.joins
  insertCols := req.insertCols

def tenantLeaf (registry : SchemaRegistry) (tid : String) (table : TableRef) :
    Except TenantFault Cond :=
  (tenantValue registry table.name tid).map fun value =>
    ⟨table.sqlName ++ ".tenant_id", .eq, some value, none, none⟩

def tenantAlias : String := "__oj_tenant"

def insertTenant (registry : SchemaRegistry) (table tid : String) (row : Row) :
    Except TenantFault Row :=
  match row.lookup "tenant_id" with
  | some given =>
    if paramIsTenant given tid then
      (tenantValue registry table tid).map fun value => Row.insert "tenant_id" value row
    else .error (.insertMismatch given tid)
  | none => (tenantValue registry table tid).map fun value => Row.insert "tenant_id" value row

/-- An insert from a select gets the tenant as a column of its source. -/
def injectInsert (registry : SchemaRegistry) (tid : String) (req : QueryReq) :
    Except TenantFault Level := do
  let level ← match req.fromSelect with
    | none => .ok (Level.unchanged req)
    | some _ =>
      if req.insertCols.contains "tenant_id" then .error .suppliesTenant
      else (tenantValue registry req.table.name tid).map fun value =>
        { Level.unchanged req with
          column := some (.lit value tenantAlias)
          insertCols := req.insertCols ++ ["tenant_id"] }
  let values ← req.values.mapM (insertTenant registry req.table.name tid)
  .ok { level with values := values }

def inject (registry : SchemaRegistry) (tid : String) (req : QueryReq) :
    Except TenantFault Level :=
  match req.verb with
  | .select | .update | .delete =>
    (tenantLeaf registry tid req.table).map fun leaf =>
      { Level.unchanged req with leaf := some leaf }
  | .insert => injectInsert registry tid req

def guardSets (registry : SchemaRegistry) (tid : Option String) (req : QueryReq) :
    Except TenantFault Unit :=
  match req.sets.lookup "tenant_id" with
  | some given =>
    if req.verb = .update ∧ isScoped registry req.ctes req.table.name ∧
        (tid.any fun tenant => paramIsTenant given tenant) = false then
      .error (.updateSets given)
    else .ok ()
  | none => .ok ()

def bindJoin (registry : SchemaRegistry) (ctes : List CteReq) (tid : String) (join : Join) :
    Except TenantFault Join :=
  if isScoped registry ctes join.table.name then
    (tenantValue registry join.table.name tid).map fun value =>
      { join with tenantId := some value }
  else .ok join

/-- At `warn` a level without a tenant is only logged. -/
def protect (context : TenantContext) (req : QueryReq) : Except TenantFault Level :=
  if (touched context.registry req).isEmpty then .ok (Level.unchanged req)
  else
    match context.tenantId with
    | none =>
      if context.guard = .deny then .error (.requiresContext (touched context.registry req))
      else (guardSets context.registry none req).map fun _ => Level.unchanged req
    | some tid => do
        let level ← inject context.registry tid req
        guardSets context.registry (some tid) req
        let joins ← level.joins.mapM (bindJoin context.registry req.ctes tid)
        .ok { level with joins := joins }

end Level

def QueryReq.bound (req : QueryReq) (level : Level) (conditions : List CondTree)
    (having : Option CondTree) (columns : List ColSpec) (unions : List UnionArm)
    (ctes : List CteReq) (source : Option QueryReq) : QueryReq :=
  { req with
    conditions := conditions ++ (level.leaf.map CondTree.leaf).toList
    having := having
    columns := columns
    unions := unions
    ctes := ctes
    fromSelect := source.map fun inner =>
      { inner with columns := inner.columns ++ level.column.toList }
    values := level.values
    joins := level.joins
    insertCols := level.insertCols }

mutual

def applyTenant (context : TenantContext) : QueryReq → Except TenantFault QueryReq
  | ⟨table, verb, values, sets, returning, joins, columns, distinct, groupBy, having, conditions,
      orderBy, limit, offset, unions, ctes, orIgnore, truncate, fromSelect, insertCols⟩ => do
      let req : QueryReq := ⟨table, verb, values, sets, returning, joins, columns, distinct,
        groupBy, having, conditions, orderBy, limit, offset, unions, ctes, orIgnore, truncate,
        fromSelect, insertCols⟩
      let level ← protect context req
      let conditions ← applyTenantTrees context conditions
      let having ← applyTenantHaving context having
      let columns ← applyTenantColumns context columns
      let unions ← applyTenantUnions context unions
      let ctes ← applyTenantCtes context ctes
      let source ← applyTenantSource context fromSelect
      .ok (req.bound level conditions having columns unions ctes source)

def applyTenantTree (context : TenantContext) : CondTree → Except TenantFault CondTree
  | .leaf ⟨field, op, value, escape, subquery⟩ => do
      let subquery ← applyTenantSource context subquery
      .ok (.leaf ⟨field, op, value, escape, subquery⟩)
  | .and trees => (applyTenantTrees context trees).map CondTree.and
  | .or trees => (applyTenantTrees context trees).map CondTree.or
  | .not tree => (applyTenantTree context tree).map CondTree.not
  | .exists_ query => (applyTenant context query).map CondTree.exists_

def applyTenantTrees (context : TenantContext) : List CondTree → Except TenantFault (List CondTree)
  | [] => .ok []
  | tree :: rest => do
      let tree ← applyTenantTree context tree
      let rest ← applyTenantTrees context rest
      .ok (tree :: rest)

def applyTenantHaving (context : TenantContext) :
    Option CondTree → Except TenantFault (Option CondTree)
  | none => .ok none
  | some tree => (applyTenantTree context tree).map some

def applyTenantArms (context : TenantContext) : List CaseWhen → Except TenantFault (List CaseWhen)
  | [] => .ok []
  | ⟨cond, value⟩ :: rest => do
      let cond ← applyTenantTree context cond
      let rest ← applyTenantArms context rest
      .ok (⟨cond, value⟩ :: rest)

def applyTenantColumns (context : TenantContext) :
    List ColSpec → Except TenantFault (List ColSpec)
  | [] => .ok []
  | .case arms otherwise asName :: rest => do
      let arms ← applyTenantArms context arms
      let rest ← applyTenantColumns context rest
      .ok (.case arms otherwise asName :: rest)
  | column :: rest => do
      let rest ← applyTenantColumns context rest
      .ok (column :: rest)

def applyTenantUnions (context : TenantContext) :
    List UnionArm → Except TenantFault (List UnionArm)
  | [] => .ok []
  | ⟨kind, query⟩ :: rest => do
      let query ← applyTenant context query
      let rest ← applyTenantUnions context rest
      .ok (⟨kind, query⟩ :: rest)

def applyTenantCtes (context : TenantContext) : List CteReq → Except TenantFault (List CteReq)
  | [] => .ok []
  | ⟨name, columns, query⟩ :: rest => do
      let query ← applyTenant context query
      let rest ← applyTenantCtes context rest
      .ok (⟨name, columns, query⟩ :: rest)

def applyTenantSource (context : TenantContext) :
    Option QueryReq → Except TenantFault (Option QueryReq)
  | none => .ok none
  | some query => (applyTenant context query).map some

end

attribute [grind =] applyTenant applyTenantTree applyTenantTrees applyTenantHaving applyTenantArms
  applyTenantColumns applyTenantUnions applyTenantCtes applyTenantSource

def applyTenantGuard (context : TenantContext) (req : QueryReq) : Except TenantFault QueryReq :=
  if context.guard = .off ∨ context.system then .ok req else applyTenant context req

section Bound

variable {context : TenantContext} {req : QueryReq}

def Level.bound (req : QueryReq) (leaf : Cond) (joins : List Join) : Level :=
  { Level.unchanged req with leaf := some leaf, joins := joins }

/-- What the tenant adds to a level that is no insert: nothing, or a condition. -/
theorem protect_bound (verb : req.verb ≠ .insert) {level : Level}
    (bound : protect context req = .ok level) :
    level = Level.unchanged req ∧
        (context.tenantId = none ∨ touched context.registry req = []) ∨
      touched context.registry req ≠ [] ∧ ∃ tid leaf joins, context.tenantId = some tid ∧
        tenantLeaf context.registry tid req.table = .ok leaf ∧
        guardSets context.registry (some tid) req = .ok () ∧
        req.joins.mapM (bindJoin context.registry req.ctes tid) = .ok joins ∧
        level = Level.bound req leaf joins := by
  have injects : ∀ tid, inject context.registry tid req =
      (tenantLeaf context.registry tid req.table).map fun leaf =>
        { Level.unchanged req with leaf := some leaf } := by
    intro tid
    cases same : req.verb with
    | insert => exact absurd same verb
    | select | update | delete => rw [inject, same]
  rw [protect] at bound
  split at bound
  · rename_i none_
    cases bound
    exact .inl ⟨rfl, .inr (List.isEmpty_iff.mp none_)⟩
  · rename_i some_
    cases tenant : context.tenantId with
    | none =>
      simp only [tenant] at bound
      split at bound
      · cases bound
      · cases sets : guardSets context.registry none req with
        | error fault =>
          rw [sets] at bound
          cases bound
        | ok _ =>
          rw [sets] at bound
          cases bound
          exact .inl ⟨rfl, .inl rfl⟩
    | some tid =>
      simp only [tenant] at bound
      obtain ⟨injected, added, bound⟩ := bind_ok.mp bound
      obtain ⟨_, sets, bound⟩ := bind_ok.mp bound
      obtain ⟨joins, joined, bound⟩ := bind_ok.mp bound
      rw [injects tid] at added
      cases leaf : tenantLeaf context.registry tid req.table with
      | error fault =>
        rw [leaf] at added
        cases added
      | ok found =>
        rw [leaf] at added
        cases added
        cases bound
        refine .inr ⟨?_, tid, found, joins, rfl, leaf, sets, joined, rfl⟩
        intro none_
        exact some_ (List.isEmpty_iff.mpr none_)

theorem apply_parts {out : QueryReq} (applied : applyTenant context req = .ok out) :
    ∃ level conditions having columns unions ctes source,
      protect context req = .ok level ∧
      applyTenantTrees context req.conditions = .ok conditions ∧
      applyTenantHaving context req.having = .ok having ∧
      applyTenantColumns context req.columns = .ok columns ∧
      applyTenantUnions context req.unions = .ok unions ∧
      applyTenantCtes context req.ctes = .ok ctes ∧
      applyTenantSource context req.fromSelect = .ok source ∧
      req.bound level conditions having columns unions ctes source = out := by
  obtain ⟨⟩ := req
  obtain ⟨level, bound, applied⟩ := bind_ok.mp applied
  obtain ⟨conditions, first, applied⟩ := bind_ok.mp applied
  obtain ⟨having, second, applied⟩ := bind_ok.mp applied
  obtain ⟨columns, third, applied⟩ := bind_ok.mp applied
  obtain ⟨unions, fourth, applied⟩ := bind_ok.mp applied
  obtain ⟨ctes, fifth, applied⟩ := bind_ok.mp applied
  obtain ⟨source, sixth, applied⟩ := bind_ok.mp applied
  exact ⟨level, conditions, having, columns, unions, ctes, source, bound, first, second, third,
    fourth, fifth, sixth, Except.ok.inj applied⟩

end Bound

end OnlyJs.Bridge.Query
