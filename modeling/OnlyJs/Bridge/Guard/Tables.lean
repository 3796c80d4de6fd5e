import OnlyJs.Bridge.Guard.Tokens
import OnlyJs.Bridge.Registry
import OnlyJs.Bridge.Runtime.ReqState
import OnlyJs.Bridge.Value

/-!
# The tenant guard of raw SQL

The tables of a text are the words behind `FROM`, `UPDATE`, `JOIN`, `INTO`, `TRUNCATE`,
`ALTER` and `DROP`. The guard judges a text by its first keyword, by its registered tables and
by whether it mentions the tenant column and is given the tenant.
-/

namespace OnlyJs.Bridge.Guard

open Bridge.Runtime (SqlGuard)
open Lib.Text

abbrev Word := List Char

def upper (word : Word) : String := String.ofList (word.map Char.toUpper)

section Tables

def unqualified (word : Word) : Word := (word.reverse.takeWhile (· ≠ '.')).reverse

def isMark (c : Char) : Bool := c = ',' || c = '(' || c = ')' || c = ';'

def trimMarks (word : Word) : Word :=
  ((word.dropWhile isMark).reverse.dropWhile isMark).reverse

def endsWithComma (word : Word) : Bool := word.getLast? = some ','

def boundaryKeywords : List String :=
  ["WHERE", "GROUP", "ORDER", "LIMIT", "OFFSET", "HAVING", "SET", "ON", "JOIN", "LEFT", "RIGHT",
    "INNER", "OUTER", "CROSS", "FULL", "UNION", "INTERSECT", "EXCEPT", "RETURNING", "USING",
    "VALUES", "SELECT"]

def isBoundaryKw (word : Word) : Bool := boundaryKeywords.contains (upper word)

def fromList : List Word → List Word × List Word
  | [] => ([], [])
  | word :: rest =>
    if word.head? = some '(' ∨ upper word = "SELECT" ∨ trimMarks word = [] then
      ([], word :: rest)
    else
      let table := unqualified (trimMarks word)
      if endsWithComma word then (table :: (fromList rest).1, (fromList rest).2)
      else
        match rest with
        | [] => ([table], [])
        | alias_ :: more =>
          if upper (trimMarks alias_) = "AS" then
            match more with
            | _ :: next :: left =>
              if endsWithComma next then (table :: (fromList left).1, (fromList left).2)
              else ([table], next :: left)
            | _ => ([table], [])
          else if endsWithComma alias_ then (table :: (fromList more).1, (fromList more).2)
          else if alias_.head? ≠ some '(' ∧ isBoundaryKw (trimMarks alias_) = false then
            match more with
            | next :: left =>
              if endsWithComma next then (table :: (fromList left).1, (fromList left).2)
              else ([table], next :: left)
            | [] => ([table], [])
          else ([table], alias_ :: more)

def pushTable (out : List String) (table : Word) : List String :=
  if out.getLast? = some (String.ofList table) then out else out ++ [String.ofList table]

/-- `fuel` bounds the words that are left. -/
def extractFrom : Nat → List String → List Word → List String
  | 0, out, _ => out
  | _ + 1, out, [] => out
  | fuel + 1, out, word :: rest =>
    if upper word = "FROM" ∨ upper word = "UPDATE" then
      extractFrom fuel ((fromList rest).1.foldl pushTable out) (fromList rest).2
    else if upper word = "JOIN" ∨ upper word = "INTO" then
      extractFrom fuel ((rest.head?.map unqualified).toList.foldl pushTable out) rest
    else if upper word = "TRUNCATE" ∨ upper word = "ALTER" ∨ upper word = "DROP" then
      let named := if rest.head?.map upper = some "TABLE" then rest.tail else rest
      extractFrom fuel ((named.head?.map unqualified).toList.foldl pushTable out) rest
    else extractFrom fuel out rest

def extractTables (sql : List Char) : List String :=
  extractFrom (tokens sql).length [] (tokens sql)

end Tables

section Parameters

def isCanonicalDecimal (text : List Char) : Bool :=
  match text with
  | ['-', '0'] => false
  | '-' :: digits => canonical digits
  | digits => canonical digits
where
  canonical (digits : List Char) : Bool :=
    !digits.isEmpty && digits.all Char.isDigit && (digits = ['0'] || digits.head? ≠ some '0')

def marker (key : String) : Value → Option Int
  | .object [(own, .string text)] =>
    if own = key ∧ isCanonicalDecimal text.toList then text.toInt? else none
  | _ => none

def markerI64 (value : Value) : Option Int :=
  (marker "$oj$i64" value).filter fun number => -(2 ^ 63) ≤ number ∧ number < 2 ^ 63

def markerU64 (value : Value) : Option Int :=
  (marker "$oj$u64" value).filter fun number => 0 ≤ number ∧ number < 2 ^ 64

def paramIsTenant (param : Value) (tid : String) : Bool :=
  if param.asStr = some tid then true
  else
    match markerI64 param, markerU64 param, param with
    | some number, _, _ => toString number = tid
    | none, some number, _ => toString number = tid
    | none, none, .int number => -(2 ^ 63) ≤ number && number < 2 ^ 64 && toString number = tid
    | none, none, _ => false

end Parameters

/-- What the guard reads of the request and of its assembly. -/
structure TenantContext where
  guard : SqlGuard
  tenantId : Option String
  system : Bool
  registry : SchemaRegistry

inductive TenantRefusal where
  /-- `cannot verify tenant scope` -/
  | noRegisteredTable (keyword : String)
  /-- `not allowed under sql_guard` -/
  | ddl (keyword : String) (registered : List String)
  /-- `lacks tenant_id condition (use db.table() builder)` -/
  | noCondition (tables : List String)
  /-- `params must include current tenant id` -/
  | noParameter (tenant : String)
  /-- `require tenant context (missing tenant header)` -/
  | noTenant (tables : List String)
deriving DecidableEq

def TableDef.isTenantScoped (table : TableDef) : Bool :=
  !table.shared && decide ("tenant_id" ∈ table.columns)

def firstKeyword (sql : List Char) : String :=
  upper ((trimStart sql).takeWhile fun c => !isWhitespace c)

def ddlKeywords : List String := ["TRUNCATE", "ALTER", "DROP", "CREATE"]

def dmlKeywords : List String := ["INSERT", "UPDATE", "DELETE"]

def tenantColumn : List Char := "tenant_id".toList

def mentionsTenant (sql : List Char) : Bool :=
  decide (tenantColumn <:+: (stripLiterals sql).map Char.toLower)

/-- At `warn` a refusal is only logged. -/
def TenantContext.verdict (context : TenantContext) (refusal : TenantRefusal) :
    Except TenantRefusal Unit :=
  if context.guard = .deny then .error refusal else .ok ()

def TenantContext.registered (context : TenantContext) (sql : List Char) : List String :=
  (extractTables sql).filter fun table => (context.registry.get table).isSome

def TenantContext.scopedTables (context : TenantContext) (sql : List Char) : List String :=
  (context.registered sql).filter fun table =>
    (context.registry.get table).any TableDef.isTenantScoped

def TenantContext.checkScope (context : TenantContext) (sql : List Char) (params : List Value) :
    Except TenantRefusal Unit :=
  if context.scopedTables sql = [] then .ok ()
  else
    match context.tenantId with
    | none => context.verdict (.noTenant (context.scopedTables sql))
    | some tid =>
      if mentionsTenant sql = false then context.verdict (.noCondition (context.scopedTables sql))
      else if (params.any fun param => paramIsTenant param tid) = false ∧
          context.guard = .deny then
        context.verdict (.noParameter tid)
      else .ok ()

def checkTenantRaw (context : TenantContext) (sql : List Char) (params : List Value) :
    Except TenantRefusal Unit :=
  if context.guard = .off ∨ context.system then .ok ()
  else
    let keyword := firstKeyword sql
    let ddl := ddlKeywords.contains keyword
    let dml := dmlKeywords.contains keyword
    if (ddl || dml) && (context.registered sql).isEmpty then
      context.verdict (.noRegisteredTable keyword)
    else if ddl then context.verdict (.ddl keyword (context.registered sql))
    else context.checkScope sql params

end OnlyJs.Bridge.Guard
