import OnlyJs.Bridge.DbSession.Registry
import OnlyJs.Lib.StepSystem

/-!
# Concurrent calls on the session registry

One step is one uninterrupted piece of an operation: what runs between two
awaits, or one critical section. A label names the call that moves and carries
what the environment decides (identities, clocks, random bytes, the outcome of
opening a connection). A session call passes its checks when it is issued, then
waits for the connection's mutex, acts, releases and finishes; the checks are
not repeated in between.
-/

namespace OnlyJs.Bridge.DbSession

open Finmap Bridge.HandleCore Lib.StepSystem

/-- What an operation reads of its request: the subject, the verdict of
`db_session.allow` and the clock. -/
structure Caller where
  owner : Owner
  granted : Except String Unit
  now : Nat

structure BeginRequest where
  aliasName : String
  readOnly : Bool
  txActive : Bool
  sessionAttached : Bool
  grantedOnly : Except String Unit
  accessor : Except String Unit

structure BeginCall where
  owner : Owner
  aliasName : String
  epoch : Nat
  readOnly : Bool
deriving DecidableEq

inductive CallKind where
  | statement
  | commit
  | rollback
  | close
  | closeAll
  | reap (reason : String)
  | discardAlias
deriving DecidableEq

inductive Phase where
  | waiting
  | holding
  | acted
  | released
deriving DecidableEq

structure SessionCall where
  entry : TxSessionEntry
  kind : CallKind
  phase : Phase
deriving DecidableEq

/-- What the database and the registry observed, by allocation of the entry. -/
inductive TxEvent where
  | executed (arc : Nat)
  | committed (arc : Nat)
  | rolledBack (arc : Nat)
  | killed (arc : Nat) (state : KillState)
deriving DecidableEq

/-- `events` is the history, newest first. -/
structure HostState where
  registry : TxSessionRegistry
  epochs : String → Nat
  begins : Finmap fun _ : Nat => BeginCall
  calls : Finmap fun _ : Nat => SessionCall
  events : List TxEvent

inductive SessionStep where
  | beginReserve (call : Nat) (caller : Caller) (request : BeginRequest)
  | beginAccessorFailed (call : Nat)
  | beginIdFailed (call : Nat)
  | beginInserted (call : Nat) (bytes : RandomBytes) (now : Nat)
  | beginDropped (call : Nat)
  | issue (call : Nat) (kind : CallKind) (caller : Caller) (id : String)
  | closeAllCandidate (call : Nat) (caller : Caller) (id : String)
  | reapCandidate (call : Nat) (id : String) (now : Nat)
  | bumpEpoch (aliasName : String)
  | discardCandidate (call : Nat) (aliasName id : String)
  | acquire (call : Nat)
  | act (call : Nat)
  | release (call : Nat)
  | finish (call : Nat) (now : Nat)
  | timeout (call : Nat) (attached : Option String) (now : Nat)
  | drop (call : Nat)

def requireGate (registry : TxSessionRegistry) (caller : Caller) : Except String Unit :=
  if registry.config.enabled then caller.granted
  else
    .error ("db session: cross-request transactions are disabled " ++
      "(set db_session.enabled: true and declare db_session.allow)")

/-- The checks of `op_db_session_begin` before it reserves a slot. -/
def beginChecks (registry : TxSessionRegistry) (caller : Caller) (request : BeginRequest) :
    Except String Unit := do
  requireGate registry caller
  if registry.config.requireIdentity && !caller.owner.hasIdentity then
    .error ("db session: cross-request transactions require an authenticated caller " ++
      "(user.id or tenant); set db_session.require_identity: false for local dev only")
  if request.txActive then
    .error "per-request transaction active on this request; finish db.tx before opening a session"
  if request.sessionAttached then
    .error "a db session is already attached to this request (detach first)"
  request.grantedOnly
  request.accessor

def notFound (id : String) : String :=
  s!"tx session {idPrefix handlePrefix id} not found (unknown, expired, or owned by another caller)"

def KillState.text : KillState → String
  | .closed => "closed"
  | .expired => "expired"
  | .discarded => "discarded"

def Tombstone.message (tombstone : Tombstone) (id : String) : String :=
  let ended :=
    if tombstone.state = .closed then "the transaction has ended" else "it was rolled back"
  s!"tx session {idPrefix handlePrefix id} is {tombstone.state.text} ({tombstone.reason}); {ended}"

/-- The verdict of `lookup_entry` on an id: the entry, or an error together with
the kill that the lookup performs on an expired entry or a changed alias. -/
inductive Lookup where
  | found (entry : TxSessionEntry)
  | refused (message : String)
  | killed (entry : TxSessionEntry) (state : KillState) (reason message : String)

def lookupEntry (registry : TxSessionRegistry) (epochs : String → Nat) (caller : Caller)
    (id : String) : Lookup :=
  if idIsWellformed handlePrefix id then
    match registry.inner.sessions.lookup id with
    | none =>
      match tombstoneFor registry id caller.owner caller.now with
      | some tombstone => .refused (tombstone.message id)
      | none => .refused (notFound id)
    | some entry =>
      if entry.owner.sameSubject caller.owner then
        match expiredReason entry.created (registry.cells entry.arc).lastUsed
            registry.config.idleTimeout registry.config.maxLifetime caller.now with
        | some reason =>
          .killed entry .expired reason
            s!"tx session {idPrefix handlePrefix id} expired ({reason}); it was rolled back"
        | none =>
          if epochs entry.aliasName = entry.epoch then .found entry
          else
            .killed entry .discarded s!"alias '{entry.aliasName}' changed"
              (s!"tx session {idPrefix handlePrefix id} refers to db alias " ++
                s!"'{entry.aliasName}' whose registration changed; session discarded")
      else .refused (notFound id)
  else .refused (notFound id)

variable (registry : TxSessionRegistry) (epochs : String → Nat) (caller : Caller) (id : String)
  (entry : TxSessionEntry)

theorem lookup_entry_found (found : lookupEntry registry epochs caller id = .found entry) :
    registry.inner.sessions.lookup id = some entry := by
  unfold lookupEntry at found
  split at found
  · split at found
    · split at found <;> cases found
    · rename_i held listed
      split at found
      · split at found
        · cases found
        · split at found
          · cases found
            exact listed
          · cases found
      · cases found
  · cases found

theorem lookup_entry_killed (end_ : KillState) (reason message : String)
    (found : lookupEntry registry epochs caller id = .killed entry end_ reason message) :
    registry.inner.sessions.lookup id = some entry := by
  unfold lookupEntry at found
  split at found
  · split at found
    · split at found <;> cases found
    · rename_i held listed
      split at found
      · split at found
        · cases found
          exact listed
        · split at found
          · cases found
          · cases found
            exact listed
      · cases found
  · cases found

def HostState.record (state : HostState) (event : TxEvent) : HostState :=
  { state with events := event :: state.events }

/-- `kill`, recorded in the history. -/
def HostState.kill (state : HostState) (entry : TxSessionEntry) (end_ : KillState)
    (reason : String) (now : Nat) : HostState :=
  { state with registry := DbSession.kill state.registry entry end_ reason now }.record
    (.killed entry.arc end_)

def HostState.updateCell (state : HostState) (arc : Nat) (change : EntryCell → EntryCell) :
    HostState :=
  { state with registry := DbSession.updateCell state.registry arc change }

def HostState.setCall (state : HostState) (call : Nat) (value : SessionCall) : HostState :=
  { state with calls := state.calls.insert call value }

def HostState.endCall (state : HostState) (call : Nat) (value : SessionCall) : HostState :=
  let unlocked := state.updateCell value.entry.arc fun cell =>
    if cell.holder = some call then cell.unlock else cell
  { unlocked with calls := state.calls.erase call }

def beginReserve (state : HostState) (call : Nat) (caller : Caller) (request : BeginRequest) :
    HostState :=
  match beginChecks state.registry caller request with
  | .error _ => state
  | .ok () =>
    match reserve state.registry caller.owner with
    | (.error _, registry) => { state with registry }
    | (.ok (), registry) =>
      { state with
        registry
        begins := state.begins.insert call
          { owner := caller.owner
            aliasName := request.aliasName
            epoch := state.epochs request.aliasName
            readOnly := request.readOnly } }

def newEntry (registry : TxSessionRegistry) (begun : BeginCall) (id : String) (now : Nat) :
    TxSessionEntry where
  arc := registry.nextArc
  id := id
  aliasName := begun.aliasName
  owner := begun.owner
  epoch := begun.epoch
  readOnly := begun.readOnly
  created := now

def allocate (registry : TxSessionRegistry) (now : Nat) : TxSessionRegistry :=
  { updateCell registry registry.nextArc fun _ => .fresh now with
    nextArc := registry.nextArc + 1 }

def beginInserted (state : HostState) (call : Nat) (begun : BeginCall) (bytes : RandomBytes)
    (now : Nat) : Option HostState :=
  match newId handlePrefix state.registry.boot (.ok bytes) with
  | .error _ => none
  | .ok id =>
    some { state with
      registry := insert (allocate state.registry now) (newEntry state.registry begun id now)
        begun.owner
      begins := state.begins.erase call }

def issue (state : HostState) (call : Nat) (kind : CallKind) (caller : Caller) (id : String) :
    HostState :=
  match requireGate state.registry caller with
  | .error _ => state
  | .ok () =>
    match lookupEntry state.registry state.epochs caller id with
    | .refused _ => state
    | .killed entry end_ reason _ => state.kill entry end_ reason caller.now
    | .found entry =>
      let used :=
        if kind = .statement then state.updateCell entry.arc (EntryCell.noteUse caller.now)
        else state
      used.setCall call { entry, kind, phase := .waiting }

/-- What the awaited database call does: a statement runs on a live transaction,
`commit` and `rollback` consume it, and calls on a consumed one fail. -/
def act (state : HostState) (call : Nat) (value : SessionCall) : HostState :=
  let arc := value.entry.arc
  let acted := state.setCall call { value with phase := .acted }
  if (state.registry.cells arc).session = .active then
    match value.kind with
    | .statement => acted.record (.executed arc)
    | .commit => (acted.updateCell arc EntryCell.consume).record (.committed arc)
    | _ => (acted.updateCell arc EntryCell.consume).record (.rolledBack arc)
  else acted

def finish (state : HostState) (call : Nat) (value : SessionCall) (now : Nat) : HostState :=
  let ended := { state with calls := state.calls.erase call }
  match value.kind with
  | .statement => ended
  | .commit => ended.kill value.entry .closed "commit" now
  | .rollback => ended.kill value.entry .closed "rollback" now
  | .close => ended.kill value.entry .closed "close" now
  | .closeAll => ended.kill value.entry .closed "close_all" now
  | .reap reason => ended.kill value.entry .expired reason now
  | .discardAlias =>
    ended.kill value.entry .discarded
      s!"alias '{value.entry.aliasName}' deleted or re-registered" now

def timeout (state : HostState) (call : Nat) (value : SessionCall) (attached : Option String)
    (now : Nat) : HostState :=
  let dropped := state.endCall call value
  match attached.bind fun id => dropped.registry.inner.sessions.lookup id with
  | none => dropped
  | some entry => dropped.kill entry .discarded "lifetime_exceeded" now

def isOperation : CallKind → Bool
  | .statement | .commit | .rollback | .close => true
  | _ => false

def step (state : HostState) : SessionStep → Option HostState
  | .beginReserve call caller request =>
    if call ∈ state.begins then none else some (beginReserve state call caller request)
  | .beginAccessorFailed call =>
    (state.begins.lookup call).map fun begun =>
      { state with
        registry := cancelReservation state.registry begun.owner
        begins := state.begins.erase call }
  -- `new_id(...)?` and a dropped request leave the operation without `cancel_reservation`.
  | .beginIdFailed call | .beginDropped call =>
    (state.begins.lookup call).map fun _ => { state with begins := state.begins.erase call }
  | .beginInserted call bytes now =>
    (state.begins.lookup call).bind fun begun => beginInserted state call begun bytes now
  | .issue call kind caller id =>
    if call ∈ state.calls || !isOperation kind then none
    else some (issue state call kind caller id)
  | .closeAllCandidate call caller id =>
    if call ∈ state.calls then none
    else
      match requireGate state.registry caller, state.registry.inner.sessions.lookup id with
      | .ok (), some entry =>
        if entry.owner.sameSubject caller.owner then
          some (state.setCall call { entry, kind := .closeAll, phase := .waiting })
        else none
      | _, _ => none
  | .reapCandidate call id now =>
    if call ∈ state.calls then none
    else
      (state.registry.inner.sessions.lookup id).bind fun entry =>
        let cell := state.registry.cells entry.arc
        if cell.dead then none
        else
          (expiredReason entry.created cell.lastUsed state.registry.config.idleTimeout
              state.registry.config.maxLifetime now).map fun reason =>
            state.setCall call { entry, kind := .reap reason, phase := .waiting }
  | .bumpEpoch aliasName =>
    some { state with
      epochs := fun other => if other = aliasName then state.epochs other + 1
        else state.epochs other }
  | .discardCandidate call aliasName id =>
    if call ∈ state.calls then none
    else
      (state.registry.inner.sessions.lookup id).bind fun entry =>
        if entry.aliasName = aliasName then
          some (state.setCall call { entry, kind := .discardAlias, phase := .released })
        else none
  | .acquire call =>
    (state.calls.lookup call).bind fun value =>
      if value.phase = .waiting ∧ (state.registry.cells value.entry.arc).holder = none then
        some ((state.updateCell value.entry.arc (EntryCell.lock call)).setCall call
          { value with phase := .holding })
      else none
  | .act call =>
    (state.calls.lookup call).bind fun value =>
      if value.phase = .holding ∨ (value.phase = .acted ∧ value.kind = .statement) then
        some (act state call value)
      else none
  | .release call =>
    (state.calls.lookup call).bind fun value =>
      if value.phase = .acted then
        some ((state.updateCell value.entry.arc EntryCell.unlock).setCall call
          { value with phase := .released })
      else none
  | .finish call now =>
    (state.calls.lookup call).bind fun value =>
      if value.phase = .released then some (finish state call value now) else none
  | .timeout call attached now =>
    (state.calls.lookup call).bind fun value =>
      if value.kind = .statement ∧ value.phase ≠ .released then
        some (timeout state call value attached now)
      else none
  | .drop call =>
    (state.calls.lookup call).map fun value => state.endCall call value

def HostState.initial (config : DbSessionSection) (boot : BootTag) : HostState where
  registry := .new config boot
  epochs := fun _ => 0
  begins := ∅
  calls := ∅
  events := []

def sessionSystem (config : DbSessionSection) (boot : BootTag) :
    System HostState SessionStep where
  init := .initial config boot
  step := step

def sampleCaller : Caller where
  owner := sampleOwner
  granted := .ok ()
  now := 0

def sampleRequest : BeginRequest where
  aliasName := "default"
  readOnly := false
  txActive := false
  sessionAttached := false
  grantedOnly := .ok ()
  accessor := .ok ()

def sampleId : String := "tx_0000_00000000000000000000000000000000"

def enabledSection : DbSessionSection := { DbSessionSection.default with enabled := true }

end OnlyJs.Bridge.DbSession
