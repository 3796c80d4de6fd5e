import OnlyJs.Bridge.HandleCore
import OnlyJs.Lib.FiniteMap
import OnlyJs.Lib.StepSystem

/-!
# The execution registry

One table holds every cancellable execution: streams, statements that run on
the pool for one request, and executions begun by `op_db_query_begin` and
`op_db_exec_begin`, whose result is fetched later by `take`. Done entries are
swept by whatever registers next. What an execution shares with its runner is
kept by allocation in `pools` and `streams`; rows are of any type.
-/

namespace OnlyJs.Bridge.DbError

inductive DbErrorCategory where
  | syntaxError
  | constraint
  | timeout
  | connection
  | capacity
  | unsupported
  | cancelled
  | internal
deriving DecidableEq

inductive SessionDisposition where
  | keep
  | reset
  | close
deriving DecidableEq

structure BridgeError where
  category : DbErrorCategory
  retryable : Bool
  sessionDisposition : SessionDisposition
  message : String
deriving DecidableEq

end OnlyJs.Bridge.DbError

namespace OnlyJs.Bridge.DbExec

open Finmap Bridge.DbError Bridge.HandleCore Lib.FiniteMap Lib.StepSystem

universe u

def execPrefix : String := "exec_"

def execTtl : Nat := 24 * 60 * 60 * 1000

structure CallEvent where
  phase : String
  elapsedMs : Nat
  rows : Option Nat
deriving DecidableEq

inductive PoolOutcome (Row : Type u) where
  | rows (rows : List Row)
  | affected (count : Int)
  | err (category : DbErrorCategory) (retryable : Bool) (msg : String)
deriving DecidableEq

structure QueryTakeCtx where
  sql : String
  rowCap : Option Nat
  inTx : Bool
deriving DecidableEq

/-- Shared by the runner of a pool execution and its callers. `meterFinal` says
whether the byte meter of a query has been written back. -/
structure PoolExecShared (Row : Type u) where
  owner : Owner
  aliasName : String
  cancelRequested : Bool
  cancelToken : Option Nat
  done : Bool
  events : List CallEvent
  outcome : Option (PoolOutcome Row)
  meterFinal : Bool
  queryCtx : Option QueryTakeCtx

def PoolExecShared.fresh (Row : Type u) (owner : Owner) (aliasName : String)
    (cancelToken : Option Nat) (queryCtx : Option QueryTakeCtx) : PoolExecShared Row where
  owner := owner
  aliasName := aliasName
  cancelRequested := false
  cancelToken := cancelToken
  done := false
  events := []
  outcome := none
  meterFinal := false
  queryCtx := queryCtx

structure StreamShared where
  done : Bool
  cancelled : Bool
deriving DecidableEq

inductive ExecHandle where
  | stream (arc : Nat)
  | pool (arc : Nat)
deriving DecidableEq

structure ExecEntry where
  owner : Owner
  aliasName : String
  handle : ExecHandle
  created : Nat
deriving DecidableEq

structure ExecRegistry (Row : Type u) where
  inner : Finmap fun _ : String => ExecEntry
  boot : BootTag
  pools : Nat → PoolExecShared Row
  streams : Nat → StreamShared
  nextArc : Nat

variable {Row : Type u}

def ExecRegistry.handleDone (registry : ExecRegistry Row) : ExecHandle → Bool
  | .stream arc => (registry.streams arc).done
  | .pool arc => (registry.pools arc).done

def ExecRegistry.keeps (registry : ExecRegistry Row) (now : Nat) (_ : String)
    (entry : ExecEntry) : Bool :=
  !registry.handleDone entry.handle && now - entry.created < execTtl

def insert (registry : ExecRegistry Row) (owner : Owner) (aliasName : String)
    (handle : ExecHandle) (random : Except String RandomBytes) (now : Nat) :
    Except String (String × ExecRegistry Row) :=
  match newId execPrefix registry.boot random with
  | .error e => .error e
  | .ok id =>
    .ok (id, { registry with
      inner := (retain (registry.keeps now) registry.inner).insert id
        { owner, aliasName, handle, created := now } })

def ExecRegistry.updatePool (registry : ExecRegistry Row) (arc : Nat)
    (change : PoolExecShared Row → PoolExecShared Row) : ExecRegistry Row :=
  { registry with
    pools := fun other => if other = arc then change (registry.pools other)
      else registry.pools other }

def ExecRegistry.updateStream (registry : ExecRegistry Row) (arc : Nat)
    (change : StreamShared → StreamShared) : ExecRegistry Row :=
  { registry with
    streams := fun other => if other = arc then change (registry.streams other)
      else registry.streams other }

def fireCancel (registry : ExecRegistry Row) : ExecHandle → ExecRegistry Row
  | .stream arc => registry.updateStream arc fun shared => { shared with cancelled := true }
  | .pool arc => registry.updatePool arc fun shared => { shared with cancelRequested := true }

def cancel (registry : ExecRegistry Row) (id : String) (owner : Owner) :
    Option String × ExecRegistry Row :=
  if idIsWellformed execPrefix id then
    match registry.inner.lookup id with
    | none => (none, registry)
    | some entry =>
      if entry.owner.sameSubject owner then
        (some entry.aliasName, fireCancel registry entry.handle)
      else (none, registry)
  else (none, registry)

def cancelByToken (registry : ExecRegistry Row) (token : Nat) : ExecRegistry Row :=
  { registry with
    pools := fun arc =>
      let shared := registry.pools arc
      if registry.inner.any (fun _ entry => entry.handle = .pool arc) && !shared.done &&
          shared.cancelToken = some token then
        { shared with cancelRequested := true }
      else shared }

def remove (registry : ExecRegistry Row) (id : String) : ExecRegistry Row :=
  { registry with inner := registry.inner.erase id }

def pool (registry : ExecRegistry Row) (id : String) (owner : Owner) : Option Nat :=
  if idIsWellformed execPrefix id then
    match registry.inner.lookup id with
    | none => none
    | some entry =>
      if entry.owner.sameSubject owner then
        match entry.handle with
        | .pool arc => some arc
        | .stream _ => none
      else none
  else none

def execNotFound (id : String) : String :=
  s!"execution {idPrefix execPrefix id} not found (unknown, finished, or owned by another caller)"

def execNotDone (id : String) : String :=
  s!"execution {idPrefix execPrefix id} is not done yet (poll until done before take)"

structure PollReply where
  done : Bool
  events : List CallEvent
deriving DecidableEq

def drain (registry : ExecRegistry Row) (arc : Nat) : PollReply × ExecRegistry Row :=
  ({ done := (registry.pools arc).done, events := (registry.pools arc).events },
    registry.updatePool arc fun shared => { shared with events := [] })

def callPoll (registry : ExecRegistry Row) (id : String) (owner : Owner) :
    Except String PollReply × ExecRegistry Row :=
  match pool registry id owner with
  | none => (.error (execNotFound id), registry)
  | some arc => (.ok (drain registry arc).1, (drain registry arc).2)

def takeShared (registry : ExecRegistry Row) (id : String) (owner : Owner) :
    Except String Nat × ExecRegistry Row :=
  match pool registry id owner with
  | none => (.error (execNotFound id), registry)
  | some arc =>
    if (registry.pools arc).done then (.ok arc, remove registry id)
    else (.error (execNotDone id), registry)

def internalKeep (message : String) : BridgeError where
  category := .internal
  retryable := false
  sessionDisposition := .keep
  message := message

def queryResult : PoolOutcome Row → Except BridgeError (List Row)
  | .rows rows => .ok rows
  | .err category retryable msg =>
    .error { category, retryable, sessionDisposition := .close, message := msg }
  | .affected _ => .error (internalKeep "execution outcome is not a query result")

def execResult : PoolOutcome Row → Except BridgeError Int
  | .affected count => .ok count
  | .err category retryable msg =>
    .error { category, retryable, sessionDisposition := .close, message := msg }
  | .rows _ => .error (internalKeep "execution outcome is not an exec result")

/-- Moves the outcome out of the shared state; the result is what `query_tail`
then shapes. -/
def queryTake (registry : ExecRegistry Row) (id : String) (owner : Owner) :
    Except String (Except BridgeError (List Row)) × ExecRegistry Row :=
  match takeShared registry id owner with
  | (.error e, registry) => (.error e, registry)
  | (.ok arc, registry) =>
    let shared := registry.pools arc
    match shared.outcome with
    | none => (.error "execution outcome missing", registry)
    | some outcome =>
      let registry := registry.updatePool arc fun shared => { shared with outcome := none }
      match shared.queryCtx with
      | none => (.error "query take context missing", registry)
      | some _ =>
        let registry := registry.updatePool arc fun shared => { shared with queryCtx := none }
        if shared.meterFinal then
          (.ok (queryResult outcome),
            registry.updatePool arc fun shared => { shared with meterFinal := false })
        else (.error "query meter state missing", registry)

def execTake (registry : ExecRegistry Row) (id : String) (owner : Owner) :
    Except String (Except BridgeError Int) × ExecRegistry Row :=
  match takeShared registry id owner with
  | (.error e, registry) => (.error e, registry)
  | (.ok arc, registry) =>
    let shared := registry.pools arc
    match shared.outcome with
    | none => (.error "execution outcome missing", registry)
    | some outcome =>
      let registry := registry.updatePool arc fun shared => { shared with outcome := none }
      match shared.queryCtx with
      | none => (.error "exec take context missing", registry)
      | some _ =>
        (.ok (execResult outcome),
          registry.updatePool arc fun shared => { shared with queryCtx := none })

/-- The single point where a runner settles: outcome first, then `done`. The
runner of a query has written its byte meter back before. -/
def settlePool (registry : ExecRegistry Row) (arc : Nat) (meter : Bool)
    (outcome : PoolOutcome Row) : ExecRegistry Row :=
  registry.updatePool arc fun shared =>
    { shared with
      meterFinal := shared.meterFinal || meter
      outcome := some outcome
      done := true }

end OnlyJs.Bridge.DbExec
