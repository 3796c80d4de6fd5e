import OnlyJs.Lib.Text

/-!
# The state of one request

`ReqState` is the record that the bridge's ops read and write while the code of
a request runs. It lives in the runtime and is reset, not rebuilt, for the next
request. An op either returns the state it leaves behind or panics, which it does
only where it needs the assembly snapshot and finds none pinned.
-/

namespace OnlyJs.Bridge.Runtime

open Option

inductive SqlGuard where
  | off
  | warn
  | deny
deriving DecidableEq

structure ModuleCtx where
  name : String
  version : String
deriving DecidableEq

structure PerGenAssembly where
  generation : Nat
  sqlGuard : SqlGuard
  allowAsTenant : Bool
deriving DecidableEq

structure RequestInfo where
  method : String
  body : List UInt8
  bodyBinary : Bool
  tenantId : Option String
  anonymous : Bool
  user : Option String
deriving DecidableEq

def RequestInfo.default : RequestInfo where
  method := ""
  body := []
  bodyBinary := false
  tenantId := none
  anonymous := false
  user := none

/-- An open `db.tx` transaction; `session` names its connection. -/
structure ActiveTx where
  db : String
  session : Nat
deriving DecidableEq

inductive WsSend where
  | text (data : String)
  | binary (data : List UInt8)
deriving DecidableEq

structure ReqState where
  req : RequestInfo
  response : Option (List UInt8)
  status : Nat
  raw : Bool
  headers : List (String × String)
  done : Bool
  tx : Option ActiveTx
  session : Option String
  wsSends : List WsSend
  wsClose : Bool
  wsSess : Option String
  moduleName : Option String
  moduleVersion : Option String
  assembly : Option PerGenAssembly
  system : Bool
  epoch : Nat
  driverError : Option String
deriving DecidableEq

/-- Successor of the `u32` snapshot counter. -/
def nextEpoch (epoch : Nat) : Nat := (epoch + 1) % 2 ^ 32

def ReqState.reset (state : ReqState) (req : RequestInfo) : ReqState :=
  { state with
    req := req
    epoch := nextEpoch state.epoch
    response := none
    raw := false
    status := 200
    headers := []
    done := false
    tx := none
    session := none
    wsSends := []
    wsClose := false
    wsSess := none
    moduleName := none
    moduleVersion := none
    assembly := none
    system := false
    driverError := none }

/-- What a state reset for a request must look like: nothing but the snapshot
counter depends on what the state held before. -/
def ReqState.fresh (req : RequestInfo) (moduleCtx : Option ModuleCtx)
    (assembly : Option PerGenAssembly) (epoch : Nat) : ReqState where
  req := req
  response := none
  status := 200
  raw := false
  headers := []
  done := false
  tx := none
  session := none
  wsSends := []
  wsClose := false
  wsSess := none
  moduleName := moduleCtx.map ModuleCtx.name
  moduleVersion := moduleCtx.map ModuleCtx.version
  assembly := assembly
  system := false
  epoch := epoch
  driverError := none

/-- Whether two states agree on what is pinned at the start of a request. -/
structure ReqState.SamePins (before after : ReqState) : Prop where
  moduleName : after.moduleName = before.moduleName
  assembly : after.assembly = before.assembly

/-- The ops that code can issue, as transformers of the request state; `none` is
a panic. No op writes the pins, and no op panics while an assembly is pinned. -/
structure OpSet where
  Op : Type
  perform : Op → ReqState → Option ReqState
  pins_kept : ∀ op before after, perform op before = some after → before.SamePins after
  panic_unpinned : ∀ op before, perform op before = none → before.assembly = none

def ReqState.finalizeTx (state : ReqState) : ReqState := { state with tx := none }

section BridgeOps

def opFinish (state : ReqState) : ReqState := { state with done := true }

def opDriverError (msg : String) (state : ReqState) : ReqState :=
  { state with driverError := some msg }

def opJsonHeader (name value : String) (state : ReqState) : ReqState :=
  if name.isEmpty then state
  else { state with headers := state.headers ++ [(name, value)] }

def opDbAsSystem (state : ReqState) : ReqState := { state with system := true }

def ReqState.actAs (state : ReqState) (id : String) : ReqState :=
  { state with
    req := { state.req with tenantId := some id }
    epoch := nextEpoch state.epoch }

/-- `db.asTenant`: an anonymous request names its tenant itself. -/
def opDbAsTenant (id : String) (state : ReqState) :
    Option (Except String Bool × ReqState) :=
  if Lib.Text.isBlank id.toList then
    some (.error "db.asTenant: id must not be empty", state)
  else
    state.assembly.map fun assembly =>
      if !assembly.allowAsTenant then
        (.error ("db.asTenant is disabled: set tenant.allow_as_tenant=true to let " ++
          "anonymous handlers declare a tenant"), state)
      else if !state.req.anonymous || state.req.tenantId.isSome then
        (.error ("db.asTenant is only allowed on anonymous requests " ++
          "(anonymous_paths hit, no tenant header)"), state)
      else
        (.ok true, state.actAs id)

/-- `db.tx`'s begin before it awaits the connection. -/
def opDbTxBegin (state : ReqState) : Except String Unit :=
  if state.tx.isSome then
    .error "transaction already active (nested tx not supported)"
  else if state.session.isSome then
    .error ("a db session is attached to this request; db.tx cannot nest inside it " ++
      "(detach first)")
  else .ok ()

def opDbTxBegun (tx : ActiveTx) (state : ReqState) : ReqState := { state with tx := some tx }

def takeTx (name : String) (state : ReqState) : Except String ActiveTx × ReqState :=
  match state.tx with
  | some tx =>
    if tx.db = name then (.ok tx, state.finalizeTx)
    else (.error s!"transaction belongs to db '{tx.db}', not '{name}'", state)
  | none => (.error "no active transaction", state)

def opWsSend (data : String) (state : ReqState) : ReqState :=
  { state with wsSends := state.wsSends ++ [.text data] }

def opWsSendBin (data : List UInt8) (state : ReqState) : ReqState :=
  { state with wsSends := state.wsSends ++ [.binary data] }

def opWsFrameClose (state : ReqState) : ReqState := { state with wsClose := true }

def opWsSessSet (value : String) (state : ReqState) : ReqState :=
  { state with wsSess := some value }

def checkTenantRawContext (state : ReqState) : Option (SqlGuard × Option String × Bool) :=
  state.assembly.map fun assembly => (assembly.sqlGuard, state.req.tenantId, state.system)

inductive BridgeOp where
  | finish
  | driverError (msg : String)
  | jsonHeader (name value : String)
  | dbAsSystem
  | dbAsTenant (id : String)
  | dbTxBegin
  | dbTxBegun (tx : ActiveTx)
  | dbTxEnd (name : String)
  | wsSend (data : String)
  | wsSendBin (data : List UInt8)
  | wsFrameClose
  | wsSessSet (value : String)
  | checkTenantRaw
deriving DecidableEq

def BridgeOp.perform (op : BridgeOp) (state : ReqState) : Option ReqState :=
  match op with
  | .finish => some (opFinish state)
  | .driverError msg => some (opDriverError msg state)
  | .jsonHeader name value => some (opJsonHeader name value state)
  | .dbAsSystem => some (opDbAsSystem state)
  | .dbAsTenant id => (opDbAsTenant id state).map Prod.snd
  | .dbTxBegin => some state
  | .dbTxBegun tx => some (opDbTxBegun tx state)
  | .dbTxEnd name => some (takeTx name state).2
  | .wsSend data => some (opWsSend data state)
  | .wsSendBin data => some (opWsSendBin data state)
  | .wsFrameClose => some (opWsFrameClose state)
  | .wsSessSet value => some (opWsSessSet value state)
  | .checkTenantRaw => (checkTenantRawContext state).map fun _ => state

private theorem op_db_as_tenant_pins (id : String) (before : ReqState)
    (answer : Except String Bool) (after : ReqState)
    (performed : opDbAsTenant id before = some (answer, after)) : before.SamePins after := by
  simp only [opDbAsTenant] at performed
  split at performed
  · cases performed
    exact ⟨rfl, rfl⟩
  · obtain ⟨assembly, _, replied⟩ := map_eq_some_iff.mp performed
    split at replied
    · cases replied
      exact ⟨rfl, rfl⟩
    · split at replied <;> cases replied <;> exact ⟨rfl, rfl⟩

private theorem take_tx_pins (name : String) (state : ReqState) :
    state.SamePins (takeTx name state).2 := by
  unfold takeTx
  split
  · split <;> exact ⟨rfl, rfl⟩
  · exact ⟨rfl, rfl⟩

private theorem op_json_header_pins (name value : String) (state : ReqState) :
    state.SamePins (opJsonHeader name value state) := by
  unfold opJsonHeader
  split <;> exact ⟨rfl, rfl⟩

theorem bridge_op_pins_kept (op : BridgeOp) (before after : ReqState)
    (performed : op.perform before = some after) : before.SamePins after := by
  cases op with
  | jsonHeader name value =>
    cases performed
    exact op_json_header_pins name value before
  | dbAsTenant id =>
    obtain ⟨⟨answer, left⟩, replied, rfl⟩ := map_eq_some_iff.mp performed
    exact op_db_as_tenant_pins id before answer left replied
  | dbTxEnd name =>
    cases performed
    exact take_tx_pins name before
  | checkTenantRaw =>
    obtain ⟨_, _, rfl⟩ := map_eq_some_iff.mp performed
    exact ⟨rfl, rfl⟩
  | _ =>
    cases performed
    exact ⟨rfl, rfl⟩

theorem bridge_op_panic_unpinned (op : BridgeOp) (before : ReqState)
    (panicked : op.perform before = none) : before.assembly = none := by
  cases op with
  | dbAsTenant id =>
    have unanswered : opDbAsTenant id before = none := map_eq_none_iff.mp panicked
    simp only [opDbAsTenant] at unanswered
    split at unanswered
    · cases unanswered
    · exact map_eq_none_iff.mp unanswered
  | checkTenantRaw =>
    exact map_eq_none_iff.mp (map_eq_none_iff.mp panicked)
  | _ => cases panicked

/-- The modelled ops of the bridge. -/
def bridgeOps : OpSet where
  Op := BridgeOp
  perform := BridgeOp.perform
  pins_kept := bridge_op_pins_kept
  panic_unpinned := bridge_op_panic_unpinned

end BridgeOps

end OnlyJs.Bridge.Runtime
