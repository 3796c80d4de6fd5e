import OnlyJs.Bridge.Query.Statement
import OnlyJs.Bridge.Query.Verb

/-!
# Building a select

A request becomes a select statement: every column is looked up in the tables that the request
reads, every value is bound, and the requests inside conditions, case columns and union members
are built the same way.
-/

namespace OnlyJs.Bridge.Query

open Lib

inductive OpClass where
  | compare
  | pattern
  | nullary
deriving DecidableEq

def Op.name : Op → String
  | eq => "eq"
  | ne => "ne"
  | gt => "gt"
  | gte => "gte"
  | lt => "lt"
  | lte => "lte"
  | in_ => "in"
  | like => "like"
  | isNull => "isnull"
  | contains => "contains"
  | startsWith => "startswith"
  | endsWith => "endswith"

def Op.class : Op → OpClass
  | contains | startsWith | endsWith => .pattern
  | isNull => .nullary
  | _ => .compare

def Op.comparison : Op → Option Comparison
  | eq => some .eq
  | ne => some .ne
  | gt => some .gt
  | gte => some .gte
  | lt => some .lt
  | lte => some .lte
  | _ => none

def likeEscape : Char := '\\'

/-- The characters that a pattern gives a meaning stand for themselves. -/
def escapeLike (text : String) (escape : Char) : String :=
  String.ofList (text.toList.flatMap fun char =>
    if char = escape ∨ char = '%' ∨ char = '_' then [escape, char] else [char])

def escapeCharOf : Option String → Except String Char
  | none => .ok likeEscape
  | some text =>
    match text.toList with
    | [char] => .ok char
    | _ => .error ("escape must be a single char, got '" ++ text ++ "'")

section Values

variable (display : Value → String)

def textOf : Value → String
  | .string text => text
  | other => display other

def inValues : Option Value → Except String (List Qv)
  | some (.array []) => .error "in needs non-empty array"
  | some (.array items) => .ok (items.map (toQv display))
  | _ => .error "in needs array value"

def needsValue (op : Op) : Option Value → Except String Value
  | some value => .ok value
  | none => .error (op.name ++ " needs value")

def predicateOf (op : Op) (value : Option Value) (escape : Option String) (char : Char) :
    Except String Predicate :=
  match op with
  | .eq => .ok (.compare .eq (toQv display (value.getD .null)))
  | .ne => .ok (.compare .ne (toQv display (value.getD .null)))
  | .gt => (needsValue op value).map fun value => .compare .gt (toQv display value)
  | .gte => (needsValue op value).map fun value => .compare .gte (toQv display value)
  | .lt => (needsValue op value).map fun value => .compare .lt (toQv display value)
  | .lte => (needsValue op value).map fun value => .compare .lte (toQv display value)
  | .in_ => (inValues display value).map .isIn
  | .like => (needsValue op value).map fun value =>
    .like (textOf display value) (escape.map fun _ => char)
  | .contains => (needsValue op value).map fun value =>
    .like ("%" ++ escapeLike (textOf display value) char ++ "%") (some char)
  | .startsWith => (needsValue op value).map fun value =>
    .like (escapeLike (textOf display value) char ++ "%") (some char)
  | .endsWith => (needsValue op value).map fun value =>
    .like ("%" ++ escapeLike (textOf display value) char) (some char)
  | .isNull => .ok .isNull

def applyOp (op : Op) (value : Option Value) (escape : Option String) :
    Except String Predicate :=
  (escapeCharOf escape).bind (predicateOf display op value escape)

def Op.apply (op : Op) (value : Value) : Except String Predicate :=
  match op.comparison with
  | some comparison => .ok (.compare comparison (toQv display value))
  | none =>
    match op with
    | .in_ => (inValues display (some value)).map .isIn
    | .like => .ok (.like (textOf display value) (some likeEscape))
    | other => .error ("op '" ++ other.name ++ "' is not supported here")

end Values

inductive TableSrc where
  | real (table : TableDef)
  | cte (columns : List String)

def TableSrc.hasColumn (src : TableSrc) (col : String) : Bool :=
  match src with
  | .real table => decide (col ∈ table.columns)
  | .cte columns => columns.contains col

def TableSrc.isSortable (src : TableSrc) (col : String) : Bool :=
  match src with
  | .real table => (table.columns.lookup col).any ColumnDef.sortable
  | .cte columns => columns.contains col

structure ColCtx where
  baseName : String
  base : TableSrc
  joins : List (String × TableSrc)
  ctes : List (String × TableSrc)

/-- `columnNames` is the order in which the columns of a table are walked. -/
structure Build where
  registry : SchemaRegistry
  dialect : Dialect
  columnNames : TableDef → List String
  display : Value → String

def TableSrc.colNames (b : Build) : TableSrc → List String
  | .real table => b.columnNames table
  | .cte columns => columns

def ColCtx.named (ctx : ColCtx) (table : String) : Option TableSrc :=
  if table = ctx.baseName then some ctx.base
  else (ctx.joins.lookup table).or (ctx.ctes.lookup table)

def ColCtx.tableOf (ctx : ColCtx) (col site : String) : Except String TableSrc :=
  let unknown : Except String TableSrc :=
    .error ("unknown column '" ++ col ++ "' in " ++ site)
  match Text.splitOnce '.' col.toList with
  | some (table, column) =>
    match ctx.named (String.ofList table) with
    | none => .error ("unknown table '" ++ String.ofList table ++ "' in " ++ site)
    | some src => if src.hasColumn (String.ofList column) then .ok src else unknown
  | none => if ctx.base.hasColumn col then .ok ctx.base else unknown

def ColCtx.checkCol (ctx : ColCtx) (col site : String) : Except String Unit :=
  (ctx.tableOf col site).map fun _ => ()

def aliasStart (char : Char) : Bool := char.isAlpha || char = '_'

def checkAlias (name : String) : Except String Unit :=
  match name.toList with
  | first :: rest =>
    if aliasStart first && rest.all fun char => aliasStart char || char.isDigit then .ok ()
    else .error ("illegal alias '" ++ name ++ "'")
  | [] => .error ("illegal alias '" ++ name ++ "'")

def resolve (b : Build) (ctes : List CteReq) (name : String) : Except String TableSrc :=
  match ctes.find? fun cte => cte.name = name with
  | some cte => .ok (.cte cte.columns)
  | none =>
    match b.registry.get name with
    | some table => .ok (.real table)
    | none => .error ("unknown table '" ++ name ++ "'")

def joinSource (b : Build) (table : TableRef) (ctes : List CteReq) (join : Join) :
    Except String (String × TableSrc) :=
  if join.table.sqlName = table.sqlName then
    .error (if join.table.name = table.name then
      "self join needs distinct table aliases (got '" ++ join.table.sqlName ++ "')"
      else "duplicate table alias '" ++ join.table.sqlName ++ "'")
  else if join.on.isEmpty then
    .error ("join '" ++ join.table.name ++ "' needs non-empty on")
  else (resolve b ctes join.table.name).map fun src => (join.table.sqlName, src)

def colCtx (b : Build) (table : TableRef) (joins : List Join) (ctes : List CteReq) :
    Except String ColCtx := do
  let base ← resolve b ctes table.name
  let joins ← joins.mapM (joinSource b table ctes)
  .ok
    { baseName := table.sqlName
      base := base
      joins := joins
      ctes := ctes.map fun cte => (cte.name, .cte cte.columns) }

abbrev Aliases := List (String × Operand)

def checkStar (columns : List ColSpec) (joins : List Join) : Except String Unit :=
  if columns.any ColSpec.isStar then
    if columns.length ≠ 1 then .error "select '*' must be the only column"
    else if !joins.isEmpty then .error "select '*' is not allowed with joins"
    else .ok ()
  else .ok ()

def allColumns (b : Build) (ctx : ColCtx) (joined : Bool) : List SelectExpr :=
  (ctx.base.colNames b).map fun name =>
    .operand (.column (colRef (if joined then ctx.baseName ++ "." ++ name else name))) none

def litIsScalar : Value → Bool
  | .null | .bool _ | .int _ | .double _ | .string _ => true
  | other => (markerI64 other).isSome || (markerU64 other).isSome

def litCast : Dialect → Option String
  | .sqlite => none
  | .mySql => some "CHAR"
  | .postgres => some "TEXT"

def litColumn (b : Build) (lit : Value) (asName : String) : Except String SelectExpr := do
  checkAlias asName
  if litIsScalar lit then .ok (.literal (toQv b.display lit) (litCast b.dialect) asName)
  else .error ("lit column '" ++ asName ++ "' needs a scalar value (string/number/bool/null)")

def checkDistinct (function : AggFn) (field : Option String) (distinct : Bool) :
    Except String Unit :=
  if distinct then
    match function, field with
    | .count, some name => if name = "*" then .error "count distinct needs a field" else .ok ()
    | .count, none => .error "count distinct needs a field"
    | _, _ => .error "distinct is only supported on count"
  else .ok ()

def aggregateArgument (ctx : ColCtx) (site : String) (function : AggFn) :
    Option String → Except String (Option ColumnRef)
  | none =>
    if function = .count then .ok none
    else .error "aggregate needs field (only count allows omission)"
  | some name =>
    if function = .count ∧ name = "*" then .ok none
    else (ctx.checkCol name site).map fun _ => some (colRef name)

def aggregateColumn (ctx : ColCtx) (site : String) (function : AggFn) (field : Option String)
    (distinct : Bool) : Except String Operand := do
  checkDistinct function field distinct
  let argument ← aggregateArgument ctx site function field
  .ok (.aggregate function distinct argument)

def orderDescending (order : OrderBy) : Bool := order.dir = some "desc"

def windowColumn (ctx : ColCtx) (function : WinFn) (partitionBy : List String)
    (orderBy : List OrderBy) (asName : String) : Except String SelectExpr := do
  checkAlias asName
  partitionBy.forM fun col => ctx.checkCol col "window partition_by"
  orderBy.forM fun order => ctx.checkCol order.field "window order_by"
  .ok (.window function (partitionBy.map colRef)
    (orderBy.map fun order => (order.field, orderDescending order)) asName)

def caseWhenMax : Nat := 16

def checkArms (arms : List CaseWhen) (asName : String) : Except String Unit := do
  Fallible.reject arms.isEmpty "case needs non-empty when"
  Fallible.reject (decide (caseWhenMax < arms.length))
    ("case when count exceeds " ++ toString caseWhenMax)
  checkAlias asName

def onExpr (b : Build) (ctx : ColCtx) : OnPair → Except String OnExpr
  | .cols left right => do
      ctx.checkCol left "join on"
      ctx.checkCol right "join on"
      .ok (.columns (colRef left) (colRef right))
  | .val left op value => do
      ctx.checkCol left "join on"
      let predicate ← op.apply b.display value
      .ok (.test (colRef left) predicate)

def joinClause (b : Build) (ctx : ColCtx) (join : Join) : Except String JoinClause := do
  let on ← join.on.mapM (onExpr b ctx)
  .ok
    { kind := join.kind
      table := join.table
      on := on
      tenant := join.tenantId.map fun value =>
        .test (colRef (join.table.sqlName ++ ".tenant_id")) (.compare .eq (toQv b.display value)) }

def groupColumns (ctx : ColCtx) (groupBy : List String) : Except String (List ColumnRef) := do
  groupBy.forM fun col => ctx.checkCol col "groupBy"
  .ok (groupBy.map colRef)

def bareColumn (col : String) : String :=
  String.ofList (col.toList.reverse.takeWhile fun char => char ≠ '.').reverse

def orderColumn (ctx : ColCtx) (order : OrderBy) : Except String (ColumnRef × Bool) := do
  let src ← ctx.tableOf order.field "orderBy"
  if src.isSortable (bareColumn order.field) then
    .ok (colRef order.field, orderDescending order)
  else .error ("column '" ++ order.field ++ "' not sortable")

def condDepthMax : Nat := 8

def condLeafMax : Nat := 64

def checkDepth (depth : Nat) : Except String Unit :=
  if condDepthMax < depth then .error "condition tree too deep (max 8)" else .ok ()

def countLeaf (leaves : Nat) : Except String Nat :=
  if condLeafMax < leaves + 1 then .error "condition tree too large (max 64 leaves)"
  else .ok (leaves + 1)

/-- Where a condition stands: after grouping it may also name an aggregate. -/
inductive CondSite where
  | where_
  | having (aliases : Aliases)

def CondSite.name : CondSite → String
  | where_ => "where"
  | having _ => "having"

def CondSite.operand (site : CondSite) (ctx : ColCtx) (field : String) : Except String Operand :=
  match site with
  | where_ => (ctx.checkCol field "where").map fun _ => .column (colRef field)
  | having aliases =>
    match ctx.checkCol field "having" with
    | .ok _ => .ok (.column (colRef field))
    | .error _ =>
      match aliases.lookup field with
      | some operand => .ok operand
      | none => .error ("unknown column '" ++ field ++ "' in having")

def leafTest (b : Build) (ctx : ColCtx) (site : CondSite) (field : String) (op : Op)
    (value : Option Value) (escape : Option String) : Except String SqlExpr := do
  let operand ← site.operand ctx field
  let predicate ← applyOp b.display op value escape
  .ok (.test operand predicate)

/-- What the subquery of a leaf gave, if it has one, else its test. -/
def leafExpr (b : Build) (ctx : ColCtx) (site : CondSite) (field : String) (op : Op)
    (value : Option Value) (escape : Option String) : Option SqlExpr → Except String SqlExpr
  | some expr => .ok expr
  | none => leafTest b ctx site field op value escape

def checkSubquery (op : Op) (value : Option Value) : Except String Unit :=
  if op.class ≠ .compare then .error (op.name ++ " does not accept subquery")
  else if op = .like then .error "like does not accept subquery"
  else if value.isSome then .error "value and subquery are mutually exclusive"
  else .ok ()

def subqueryExpr (op : Op) (left : ColumnRef) (statement : SelectStatement) : SqlExpr :=
  match op.comparison with
  | some comparison => .compareSelect left comparison statement
  | none => .inSelect left statement

def checkMember (width : Nat) (depth : Nat) (query : QueryReq) : Except String Unit := do
  validateNested query depth "union"
  Fallible.reject query.columns.isEmpty "union requires explicit columns"
  Fallible.reject (decide (query.columns.length ≠ width))
    ("union column count mismatch: " ++ toString width ++ " vs " ++
      toString query.columns.length)
  Fallible.reject (!query.orderBy.isEmpty || query.limit.isSome || query.offset.isSome)
    "union member does not accept order_by/limit/offset"

mutual

/-- The leaves are counted over all conditions of a list, `depth` is that of the tree and
`level` that of the select. -/
def condExpr (b : Build) (ctx : ColCtx) (site : CondSite) (level depth leaves : Nat) :
    CondTree → Except String (SqlExpr × Nat)
  | .leaf ⟨field, op, value, escape, subquery⟩ => do
      checkDepth depth
      let leaves ← countLeaf leaves
      let inner ← leafSubquery b ctx site level field op value subquery
      let expr ← leafExpr b ctx site field op value escape inner
      .ok (expr, leaves)
  | .exists_ query => do
      checkDepth depth
      let leaves ← countLeaf leaves
      validateNested query (level + 1) "exists"
      let statement ← buildSelect b (level + 1) query
      .ok (.exists_ statement, leaves)
  | .and trees => do
      checkDepth depth
      let (parts, leaves) ← condExprs b ctx site level (depth + 1) leaves trees
      .ok (.all parts, leaves)
  | .or trees => do
      checkDepth depth
      let (parts, leaves) ← condExprs b ctx site level (depth + 1) leaves trees
      .ok (.any parts, leaves)
  | .not tree => do
      checkDepth depth
      let (part, leaves) ← condExpr b ctx site level (depth + 1) leaves tree
      .ok (.not part, leaves)

def condExprs (b : Build) (ctx : ColCtx) (site : CondSite) (level depth leaves : Nat) :
    List CondTree → Except String (List SqlExpr × Nat)
  | [] => .ok ([], leaves)
  | tree :: rest => do
      let (expr, leaves) ← condExpr b ctx site level depth leaves tree
      let (exprs, leaves) ← condExprs b ctx site level depth leaves rest
      .ok (expr :: exprs, leaves)

def leafSubquery (b : Build) (ctx : ColCtx) (site : CondSite) (level : Nat) (field : String)
    (op : Op) (value : Option Value) : Option QueryReq → Except String (Option SqlExpr)
  | none => .ok none
  | some query => do
      checkSubquery op value
      validateNested query (level + 1) "subquery"
      ctx.checkCol field site.name
      let statement ← buildSelect b (level + 1) query
      .ok (some (subqueryExpr op (colRef field) statement))

def havingExpr (b : Build) (ctx : ColCtx) (aliases : Aliases) (level : Nat) :
    Option CondTree → Except String (Option SqlExpr)
  | none => .ok none
  | some tree => do
      let (expr, _) ← condExpr b ctx (.having aliases) level 1 0 tree
      .ok (some expr)

def caseArms (b : Build) (ctx : ColCtx) (level leaves : Nat) :
    List CaseWhen → Except String (List CaseArm × Nat)
  | [] => .ok ([], leaves)
  | ⟨cond, value⟩ :: rest => do
      let (expr, leaves) ← condExpr b ctx .where_ level 1 leaves cond
      let (arms, leaves) ← caseArms b ctx level leaves rest
      .ok (⟨expr, toQv b.display value⟩ :: arms, leaves)

/-- The columns, and the aggregates that have a name. `*` does not come here. -/
def selectExprs (b : Build) (ctx : ColCtx) (level : Nat) (aliases : Aliases) :
    List ColSpec → Except String (List SelectExpr × Aliases)
  | [] => .ok ([], aliases)
  | .case arms otherwise asName :: rest => do
      checkArms arms asName
      let (built, _) ← caseArms b ctx level 0 arms
      let (columns, aliases) ← selectExprs b ctx level aliases rest
      .ok (.case built (otherwise.map (toQv b.display)) asName :: columns, aliases)
  | .star :: rest => selectExprs b ctx level aliases rest
  | .lit lit asName :: rest => do
      let column ← litColumn b lit asName
      let (columns, aliases) ← selectExprs b ctx level aliases rest
      .ok (column :: columns, aliases)
  | .name name :: rest => do
      ctx.checkCol name ("on '" ++ ctx.baseName ++ "'")
      let (columns, aliases) ← selectExprs b ctx level aliases rest
      .ok (.operand (.column (colRef name)) none :: columns, aliases)
  | .agg function field asName distinct :: rest => do
      let operand ← aggregateColumn ctx ("on '" ++ ctx.baseName ++ "'") function field distinct
      (asName.toList).forM checkAlias
      let (columns, aliases) ← selectExprs b ctx level
        ((asName.map fun name => (name, operand)).toList ++ aliases) rest
      .ok (.operand operand asName :: columns, aliases)
  | .window function partitionBy orderBy asName :: rest => do
      let column ← windowColumn ctx function partitionBy orderBy asName
      let (columns, aliases) ← selectExprs b ctx level aliases rest
      .ok (column :: columns, aliases)

def unionMembers (b : Build) (level width : Nat) :
    List UnionArm → Except String (List UnionMember)
  | [] => .ok []
  | ⟨kind, query⟩ :: rest => do
      checkMember width (level + 1) query
      let statement ← buildSelect b (level + 1) query
      let members ← unionMembers b level width rest
      .ok (⟨kind, statement⟩ :: members)

def buildSelect (b : Build) (level : Nat) : QueryReq → Except String SelectStatement
  | ⟨table, _, _, _, _, joins, columns, distinct, groupBy, having, conditions, orderBy, limit,
      offset, unions, ctes, _, _, _, _⟩ => do
      let ctx ← colCtx b table joins ctes
      checkStar columns joins
      let (exprs, aliases) ←
        (if columns.isEmpty || columns.any ColSpec.isStar then
          Except.ok (allColumns b ctx (!joins.isEmpty), [])
        else selectExprs b ctx level [] columns)
      let clauses ← joins.mapM (joinClause b ctx)
      let (tests, _) ← condExprs b ctx .where_ level 1 0 conditions
      let groups ← groupColumns ctx groupBy
      let having ← havingExpr b ctx aliases level having
      let orders ← orderBy.mapM (orderColumn ctx)
      Fallible.reject (!unions.isEmpty && columns.isEmpty) "union requires explicit columns"
      let members ← unionMembers b level columns.length unions
      .ok
        { table := table
          columns := exprs
          distinct := distinct
          joins := clauses
          conditions := tests
          groupBy := groups
          having := having
          orderBy := orders
          limit := limit
          offset := offset
          unions := members }

end

attribute [grind =] condExpr condExprs leafSubquery havingExpr caseArms selectExprs unionMembers
  buildSelect

def cteClause (b : Build) (cte : CteReq) : Except String CteClause := do
  checkAlias cte.name
  Fallible.reject cte.columns.isEmpty "cte needs non-empty columns"
  cte.columns.forM checkAlias
  validateNested cte.query 1 "cte"
  let statement ← buildSelect b 1 cte.query
  .ok ⟨cte.name, cte.columns, statement⟩

def buildStatement (b : Build) (req : QueryReq) : Except String Statement := do
  validateVerb req
  let ctes ← req.ctes.mapM (cteClause b)
  let select ← buildSelect b 0 req
  .ok ⟨ctes, select⟩

end OnlyJs.Bridge.Query
