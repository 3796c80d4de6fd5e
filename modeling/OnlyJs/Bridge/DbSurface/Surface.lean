import OnlyJs.Bridge.DbPolicy.Grants
import OnlyJs.Bridge.DbSession.SessionOps
import OnlyJs.Bridge.Registry
import OnlyJs.Lib.Mediation

/-!
# The database surface

Every database operation that JavaScript can call, as the gates it passes one by one and the
statements it sends. The gates that have nothing to do with access (table and tenant guards,
quotas, placeholders, arguments) may refuse or not. A statement goes to the pool of an alias,
to the transaction of the request or to the attached session; beginning and ending a
transaction sends no statement.
-/

namespace OnlyJs.Bridge.DbSurface

open Bridge.DbPolicy
open Bridge.DbSession (Verb buildIntent)
open Lib.Mediation

structure Session where
  aliasName : String
  readOnly : Bool

structure ActiveTx where
  name : String
  aliasName : String

structure Request where
  ctx : AccessCtx
  /-- The header `x-oj-confirm`. -/
  confirm : Option String
  /-- The database that the manifest of the module binds. -/
  moduleDb : Option String
  dbOverride : Option String
  session : Option Session
  tx : Option ActiveTx

/-- `dialect` is `none` where the name of the dialect is not a known one. -/
structure Accessor where
  dialect : Option Dialect

structure Host where
  request : Request
  policies : PolicyState
  accessors : String → Option Accessor
  /-- The aliases whose sequence table is known to exist. -/
  ensured : List String

inductive Gate where
  | arguments
  | sessionBan
  | sessionLive
  | tableGuard
  | tenantGuard
  | timeout
  | placeholder
  | dialect
  | budget
  | created
  | allocated
  | retried
deriving DecidableEq

abbrev Others := Gate → Bool

inductive Effect where
  | reads
  | writes
  | changesSchema
deriving DecidableEq

/-- What is sent: the text of the caller, or a statement that the host renders itself and
knows. -/
inductive Statement where
  | text (sql : List Char)
  | rendered (effect : Effect)

abbrev Actions := List (Action String Statement)

/-- Only the literal `default` is redirected. -/
def Request.boundDb (request : Request) (name : String) : String :=
  if name = "default" then request.moduleDb.getD (request.dbOverride.getD name) else name

inductive Target where
  | tx (aliasName : String)
  | pool (aliasName : String)

def Target.aliasName : Target → String
  | .tx aliasName => aliasName
  | .pool aliasName => aliasName

def lookup (host : Host) (name : String) : Option Accessor :=
  host.accessors (host.request.boundDb name)

def resolveTarget (host : Host) (others : Others) (name : String) : Option Target :=
  match host.request.session, host.request.tx with
  | some session, _ =>
    if others .sessionLive ∧ session.aliasName = host.request.boundDb name then
      some (.tx session.aliasName)
    else none
  | none, some tx => if tx.name = name then some (.tx tx.aliasName) else none
  | none, none => (lookup host name).map fun _ => .pool (host.request.boundDb name)

def Host.policyFor (host : Host) (aliasName : String) : DbAccess :=
  policyForState host.policies aliasName

def Host.access (host : Host) (aliasName : String) (sql : List Char) : Bool :=
  (checkAccess aliasName (host.policyFor aliasName) host.request.ctx host.request.confirm
    sql).isOk

def Host.accessIntent (host : Host) (aliasName : String) (intent : Classified) : Bool :=
  (dangerousConfirmGate aliasName (host.policyFor aliasName) host.request.confirm intent).isOk &&
    (checkAccessIntent aliasName (host.policyFor aliasName) host.request.ctx intent).isOk

def Host.grantedOnly (host : Host) (aliasName : String) : Bool :=
  (host.policyFor aliasName).enforce ≠ .deny ||
    granted (host.policyFor aliasName).allow host.request.ctx

def readonlyGate (session : Option Session) (sql : List Char) : Bool :=
  session.all fun session =>
    !(session.readOnly && ((classify sql).risk = .write || (classify sql).risk = .ddl))

section Operations

variable (host : Host) (others : Others)

/-- What `query`, `exec` and their `begin` forms have in common. -/
def callPrelude (name : String) (sql : List Char) (rest : Target → Actions) : Actions :=
  let aliasName := host.request.boundDb name
  .gate (others .sessionBan) :: .gate (readonlyGate host.request.session sql) ::
    .gate (others .tableGuard) :: .gate (others .tenantGuard) ::
    .check aliasName (host.access aliasName sql) :: .gate (others .timeout) ::
    match resolveTarget host others name with
    | none => []
    | some target => .gate (others .placeholder) :: rest target

def call (name : String) (sql : List Char) : Actions :=
  callPrelude host others name sql fun target => [.send target.aliasName (.text sql)]

/-- `query` and `exec` to be polled for run on the pool only. -/
def beginCall (name : String) (sql : List Char) : Actions :=
  callPrelude host others name sql fun target =>
    match target with
    | .tx _ => []
    | .pool aliasName => [.gate (others .budget), .send aliasName (.text sql)]

def explainPrefix : Dialect → Option String
  | .postgres => some "EXPLAIN "
  | .mySql => some "EXPLAIN FORMAT=JSON "
  | .sqlite => none

def explain (name : String) (sql : List Char) : Actions :=
  .gate (others .tenantGuard) ::
    match ((lookup host name).bind Accessor.dialect).bind explainPrefix with
    | none => []
    | some start => call host others name (start.toList ++ sql)

def openCursor (name : String) (sql : List Char) : Actions :=
  let aliasName := host.request.boundDb name
  .gate (others .tableGuard) :: .gate (others .tenantGuard) ::
    .check aliasName (host.access aliasName sql) :: .gate (others .timeout) ::
    .gate (others .arguments) ::
    match resolveTarget host others name with
    | some (.pool aliasName) =>
      [.gate (others .budget), .gate (others .placeholder),
        .send aliasName (.text sql)]
    | _ => []

def syntheticSql (table : List Char) (replace : Bool) : List Char :=
  if replace then "truncate table ".toList ++ table
  else "insert into ".toList ++ table ++ " values (?)".toList

def importRows (name : String) (table : List Char) (replace : Bool) (batches : Nat) : Actions :=
  let aliasName := host.request.boundDb name
  .gate (others .arguments) :: .gate (others .tableGuard) :: .gate (others .tenantGuard) ::
    .check aliasName (host.access aliasName (syntheticSql table replace)) ::
    match resolveTarget host others name with
    | some (.pool aliasName) =>
      .gate (others .budget) ::
        List.replicate (if replace then batches + 1 else batches)
          (.send aliasName (.rendered .writes))
    | _ => []

def verbEffect (verb : Verb) : Effect :=
  if verb = .select then .reads else .writes

/-- The builder; with `lastId` the id of the row is asked for after an insert. -/
def queryBuild (name : String) (verb : Verb) (unfiltered lastId : Bool) : Actions :=
  let aliasName := host.request.boundDb name
  let intent := buildIntent verb unfiltered
  .gate (others .tableGuard) :: .gate (others .arguments) ::
    .check aliasName (host.accessIntent aliasName intent) :: .gate (others .tenantGuard) ::
    match (lookup host name).bind Accessor.dialect, resolveTarget host others name with
    | some _, some target =>
      .gate (others .placeholder) :: .gate (others .sessionLive) :: .gate (others .timeout) ::
        .send target.aliasName (.rendered (verbEffect verb)) ::
        (if lastId then [.send target.aliasName (.rendered .reads)] else [])
    | _, _ => []

def seqNext (dialect : Dialect) (aliasName : String) (inserted : Bool) : Actions :=
  .send aliasName (.rendered .writes) ::
    if dialect = .mySql ∧ inserted then [.send aliasName (.rendered .reads)] else []

def ensureSeqTable (aliasName : String) : Actions :=
  [.send aliasName (.rendered .changesSchema), .gate (others .created)]

def nextSeq (name seq : String) : Actions :=
  .gate (seq ≠ "" && seq.utf8ByteSize ≤ 128) ::
    match (lookup host name).bind Accessor.dialect with
    | none => []
    | some dialect =>
      let physical := host.request.boundDb name
      (if host.ensured.contains physical then [] else ensureSeqTable others physical) ++
        match resolveTarget host others name with
        | none => []
        | some (.tx aliasName) => seqNext dialect aliasName (others .allocated)
        | some (.pool aliasName) =>
          seqNext dialect aliasName (others .allocated) ++
            if others .allocated then []
            else
              ensureSeqTable others aliasName ++ seqNext dialect aliasName (others .retried)

/-- Introspection asks for the grant only, and sends statements of its own; the rendering of
DDL differences sends none. -/
def introspect (name : String) (count : Nat) : Actions :=
  let aliasName := host.request.boundDb name
  match resolveTarget host others name with
  | none => []
  | some target =>
    .gate (others .dialect) :: .check aliasName (host.grantedOnly aliasName) ::
      .gate (others .arguments) ::
      List.replicate count (.send target.aliasName (.rendered .reads))

end Operations

inductive Operation where
  | call (name : String) (sql : List Char)
  | beginCall (name : String) (sql : List Char)
  | explain (name : String) (sql : List Char)
  | openCursor (name : String) (sql : List Char)
  | importRows (name : String) (table : List Char) (replace : Bool) (batches : Nat)
  | queryBuild (name : String) (verb : Verb) (unfiltered lastId : Bool)
  | nextSeq (name seq : String)
  | introspect (name : String) (count : Nat)
  /-- `db.session.query` and `exec` on a session by its id. -/
  | sessionCall (session : Session) (sql : List Char)

def Operation.bind (operation : Operation) (host : Host) : Host :=
  match operation with
  | .sessionCall session _ =>
    { host with request := { host.request with session := some session } }
  | _ => host

/-- Where the operation is one by id, `host` has the session bound already. -/
def Operation.actions (operation : Operation) (host : Host) (others : Others) : Actions :=
  match operation with
  | .call name sql => DbSurface.call host others name sql
  | .beginCall name sql => DbSurface.beginCall host others name sql
  | .explain name sql => DbSurface.explain host others name sql
  | .openCursor name sql => DbSurface.openCursor host others name sql
  | .importRows name table replace batches =>
    DbSurface.importRows host others name table replace batches
  | .queryBuild name verb unfiltered lastId =>
    DbSurface.queryBuild host others name verb unfiltered lastId
  | .nextSeq name seq => DbSurface.nextSeq host others name seq
  | .introspect name count => DbSurface.introspect host others name count
  | .sessionCall session sql =>
    .gate (readonlyGate (some session) sql) :: .gate (others .sessionLive) ::
      DbSurface.call host others session.aliasName sql

end OnlyJs.Bridge.DbSurface
