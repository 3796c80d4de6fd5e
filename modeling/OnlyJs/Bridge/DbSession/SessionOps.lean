import OnlyJs.Bridge.DbPolicy.Access
import OnlyJs.Bridge.DbSession.SessionSql
import OnlyJs.Bridge.DbSession.System

/-!
# Statements on a session's connection

A request reaches the connection of a session by its id, or after attaching it,
with raw SQL or with the structured builder. One step is one operation up to the
point where it waits for the connection: all its gates and the choice of the
connection happen without an await in between. The operations of the registry
itself interleave freely.
-/

namespace OnlyJs.Bridge.DbSession

open Finmap Bridge.DbPolicy Bridge.HandleCore Lib.StepSystem

inductive Verb where
  | select
  | insert
  | update
  | delete
deriving DecidableEq

inductive Work where
  | sql (text : List Char)
  | build (verb : Verb)
deriving DecidableEq

/-- The guards of a call that do not depend on the session: table ownership and
tenant checks, the access policy of the alias with the caller it is judged for,
and what comes after them. -/
structure CallGuards where
  physical : String
  tables : Except String Unit
  tenant : Except String Unit
  policy : DbAccess
  ctx : AccessCtx
  confirm : Option String
  quota : Except String Unit
  normalized : Except String Unit

structure Admitted where
  entry : TxSessionEntry
  work : Work
deriving DecidableEq

/-- `bound` is the session attached to each request; `restores` is the binding
that a running `db.session.query` or `exec` puts back when it is done. -/
structure RequestHost where
  host : HostState
  bound : Nat → Option String
  restores : Finmap fun _ : Nat => Nat × Option String
  admitted : List Admitted

section Gates

inductive CallError where
  | message (text : String)
  | access (error : AccessError)

def forbidInSession (bound : Option String) (sql : List Char) : Except String Unit :=
  match bound, sessionSqlForbidden sql with
  | some _, some what =>
    .error ("db session: " ++ what ++ " is not allowed inside a cross-request transaction " ++
      "(use db.session.commit/rollback to end it)")
  | _, _ => .ok ()

def rejectReadonly (aliasName : String) (sql : List Char) : Except String Unit :=
  let c := classify sql
  if c.risk = .write ∨ c.risk = .ddl then
    .error ("db session on alias '" ++ aliasName ++ "' is read-only; statement classified " ++
      c.risk.text ++ " was rejected (begin a session without readOnly, or use a writable alias)")
  else .ok ()

def gateEntry (registry : TxSessionRegistry) (id : String) (sql : List Char) :
    Except String Unit :=
  match registry.inner.sessions.lookup id with
  | none => .ok ()
  | some entry => if entry.readOnly then rejectReadonly entry.aliasName sql else .ok ()

def readonlyGate (registry : TxSessionRegistry) (bound : Option String) (sql : List Char) :
    Except String Unit :=
  match bound with
  | none => .ok ()
  | some id => gateEntry registry id sql

/-- The gate of `db.session.query` and `exec`, by id. -/
def gateSessionSql (registry : TxSessionRegistry) (id : String) (sql : List Char) :
    Except String Unit :=
  gateEntry registry id sql

/-- The connection a call runs on: that of the attached session, or none. A lookup
that finds the session expired or its alias changed kills it. -/
inductive Target where
  | refused (host : HostState) (message : String)
  | session (host : HostState) (entry : TxSessionEntry)
  | other

def attachedTarget (host : HostState) (bound : Option String) (caller : Caller)
    (physical : String) : Target :=
  match bound with
  | none => .other
  | some id =>
    match lookupEntry host.registry host.epochs caller id with
    | .refused message => .refused host message
    | .killed entry end_ reason message =>
      .refused (host.kill entry end_ reason caller.now) message
    | .found entry =>
      if entry.aliasName = physical then
        .session (host.updateCell entry.arc (EntryCell.noteUse caller.now)) entry
      else
        .refused host ("db session is attached to db '" ++ entry.aliasName ++ "', not '" ++
          physical ++ "' (detach first)")

/-- The gates of raw SQL, in the order of `call_prelude`. -/
def preludeGates (registry : TxSessionRegistry) (bound : Option String) (guards : CallGuards)
    (sql : List Char) : Except CallError Unit := do
  (forbidInSession bound sql).mapError .message
  (readonlyGate registry bound sql).mapError .message
  guards.tables.mapError .message
  guards.tenant.mapError .message
  let _ ← (checkAccess guards.physical guards.policy guards.ctx guards.confirm sql).mapError .access
  guards.quota.mapError .message

def buildIntent (verb : Verb) (unfiltered : Bool) : Classified where
  risk := if verb = .select then .readOnly else .write
  dangerous := (verb = .update || verb = .delete) && unfiltered
  statements := 1

/-- The gates of the builder; none of them asks whether a session is attached. -/
def buildGates (guards : CallGuards) (verb : Verb) (unfiltered : Bool) :
    Except CallError Unit := do
  guards.tables.mapError .message
  (dangerousConfirmGate guards.physical guards.policy guards.confirm
    (buildIntent verb unfiltered)).mapError .access
  let _ ← (checkAccessIntent guards.physical guards.policy guards.ctx
    (buildIntent verb unfiltered)).mapError .access
  guards.tenant.mapError .message

end Gates

section Operations

def RequestHost.bind (state : RequestHost) (request : Nat) (id : Option String) : RequestHost :=
  { state with
    bound := fun other => if other = request then id else state.bound other }

def dispatch (state : RequestHost) (bound : Option String) (caller : Caller)
    (guards : CallGuards) (work : Work) : RequestHost :=
  match attachedTarget state.host bound caller guards.physical with
  | .refused host _ => { state with host }
  | .other => state
  | .session host entry =>
    match guards.normalized with
    | .error _ => { state with host }
    | .ok () => { state with host, admitted := ⟨entry, work⟩ :: state.admitted }

/-- `db.query` and `db.exec`. -/
def rawCall (state : RequestHost) (bound : Option String) (caller : Caller)
    (guards : CallGuards) (sql : List Char) : RequestHost :=
  match preludeGates state.host.registry bound guards sql with
  | .error _ => state
  | .ok () => dispatch state bound caller guards (.sql sql)

/-- `op_db_query_build`. -/
def buildCall (state : RequestHost) (bound : Option String) (caller : Caller)
    (guards : CallGuards) (verb : Verb) (unfiltered : Bool) : RequestHost :=
  match buildGates guards verb unfiltered with
  | .error _ => state
  | .ok () => dispatch state bound caller guards (.build verb)

/-- `db.session.query` and `db.session.exec`: the request is bound to the session
while the call runs. -/
def sessionCall (state : RequestHost) (request call : Nat) (caller : Caller)
    (guards : CallGuards) (id : String) (sql : List Char) : RequestHost :=
  match gateSessionSql state.host.registry id sql, requireGate state.host.registry caller with
  | .ok (), .ok () =>
    match lookupEntry state.host.registry state.host.epochs caller id with
    | .refused _ => state
    | .killed entry end_ reason _ =>
      { state with host := state.host.kill entry end_ reason caller.now }
    | .found entry =>
      let attached := state.bind request (some entry.id)
      rawCall { attached with
        restores := state.restores.insert call (request, state.bound request) }
        (some entry.id) caller guards sql
  | _, _ => state

def attach (state : RequestHost) (request : Nat) (caller : Caller) (txActive : Bool)
    (id : String) : RequestHost :=
  match lookupEntry state.host.registry state.host.epochs caller id with
  | .refused _ => state
  | .killed entry end_ reason _ =>
    { state with host := state.host.kill entry end_ reason caller.now }
  | .found entry =>
    if txActive ∨ ∃ previous ∈ state.bound request, previous ≠ entry.id then state
    else state.bind request (some entry.id)

end Operations

inductive RequestStep where
  | registry (label : SessionStep)
  | attach (request : Nat) (caller : Caller) (txActive : Bool) (id : String)
  | detach (request : Nat)
  | raw (request : Nat) (caller : Caller) (guards : CallGuards) (sql : List Char)
  | build (request : Nat) (caller : Caller) (guards : CallGuards) (verb : Verb)
      (unfiltered : Bool)
  | session (request call : Nat) (caller : Caller) (guards : CallGuards) (id : String)
      (sql : List Char)
  | sessionDone (call : Nat)

def requestStep (state : RequestHost) : RequestStep → Option RequestHost
  | .registry label => (step state.host label).map fun host => { state with host }
  | .attach request caller txActive id => some (attach state request caller txActive id)
  | .detach request => some (state.bind request none)
  | .raw request caller guards sql =>
    some (rawCall state (state.bound request) caller guards sql)
  | .build request caller guards verb unfiltered =>
    some (buildCall state (state.bound request) caller guards verb unfiltered)
  | .session request call caller guards id sql =>
    if call ∈ state.restores then none
    else some (sessionCall state request call caller guards id sql)
  | .sessionDone call =>
    (state.restores.lookup call).map fun (request, previous) =>
      { state.bind request previous with restores := state.restores.erase call }

def RequestHost.initial (config : DbSessionSection) (boot : BootTag) : RequestHost where
  host := .initial config boot
  bound := fun _ => none
  restores := ∅
  admitted := []

def requestSystem (config : DbSessionSection) (boot : BootTag) :
    System RequestHost RequestStep where
  init := .initial config boot
  step := requestStep

end OnlyJs.Bridge.DbSession
