import OnlyJs.Bridge.DbPolicy.Access
import OnlyJs.Lib.Association
import OnlyJs.Lib.FiniteMap
import OnlyJs.Lib.StepSystem
import OnlyJs.Lib.Tally

/-!
# Management connectors

A connector is registered behind a connection of its own: the plugin's operations are probed, a
connection is established and pinged, and only then the name is checked. A deletion takes the
entry out and disconnects behind that. A call takes a clone of the entry, and one of the
connector's permits, for its operation. Every request may be dropped where it awaits the plugin,
and the plugin finishes what was asked of it.
-/

namespace OnlyJs.Bridge.Mgmt

open Bridge.DbPolicy Lib Lib.Association Lib.FiniteMap Lib.StepSystem Lib.Tally

def callConcurrency : Nat := 4

structure MgmtSection where
  enabled : Bool
  axes : List String
  allow : AllowList
  allowRead : Option AllowList
  maxEntries : Nat
  maxPerOwner : Nat
deriving DecidableEq

/-- Connections are numbered as the plugin returns their handles. -/
structure MgmtEntry where
  registeredBy : Option String
  handle : Nat
  ops : List (String × Bool)
deriving DecidableEq

abbrev Entries := Finmap fun _ : String => MgmtEntry

structure Caller where
  ctx : AccessCtx
  operator : Option String
deriving DecidableEq

inductive Refusal where
  | disabled
  | notGranted (write : Bool)
  | unknownAxis
  | opsProbe
  | pingMissing
  | connectFailed
  | handleMissing
  | unreachable
  | alreadyRegistered
  | registryFull
  | ownerCap
  | unknownConnector
  | unsupported
  | busy
  | argsNotObject
  | callFailed
deriving DecidableEq

inductive Answer where
  | refused (refusal : Refusal)
  | registered
  | deleted (there : Bool)
  | result
deriving DecidableEq

section Registry

variable (mgmt : MgmtSection)

def requireGate (ctx : AccessCtx) (write : Bool) : Except Refusal Unit :=
  if mgmt.enabled then
    let allow := if write then mgmt.allow else mgmt.allowRead.getD mgmt.allow
    if granted allow ctx then .ok () else .error (.notGranted write)
  else .error .disabled

def ownedBy (owner : Option String) (entries : Entries) : Nat :=
  weight (fun _ entry => if entry.registeredBy = owner then 1 else 0) entries

def Entries.put (entries : Entries) (name : String) (entry : MgmtEntry) :
    Except Refusal Entries :=
  if (entries.lookup name).isSome then .error .alreadyRegistered
  else if size entries ≥ mgmt.maxEntries then .error .registryFull
  else if ownedBy entry.registeredBy entries ≥ mgmt.maxPerOwner then .error .ownerCap
  else .ok (entries.insert name entry)

/-- The items of `__ops__`, one without its name is refused; a later item stands. -/
def readOps : List (Option String × Bool) → List (String × Bool) → Except Refusal
    (List (String × Bool))
  | [], ops => .ok ops
  | (none, _) :: _, _ => .error .opsProbe
  | (some op, readOnly) :: rest, ops => readOps rest (put ops op readOnly)

def readCaps (items : List (Option String × Bool)) : Except Refusal (List (String × Bool)) :=
  match readOps items [] with
  | .error refusal => .error refusal
  | .ok ops => if ops.lookup "ping" = some true then .ok ops else .error .pingMissing

end Registry

/-- `object` says whether the arguments of a call are a JSON object. -/
inductive Work where
  | register
  | delete
  | call (op : String) (object : Bool)
deriving DecidableEq

inductive Stage where
  | entered
  /-- Awaits `__ops__`. -/
  | probing
  /-- Awaits `__connect__`. -/
  | connecting (ops : List (String × Bool))
  | pinging (ops : List (String × Bool)) (handle : Nat)
  | inserting (ops : List (String × Bool)) (handle : Nat)
  /-- The entry is taken out, and `__disconnect__` is not issued yet. -/
  | removed (handle : Nat)
  /-- Awaits `__disconnect__`. -/
  | closing (answer : Answer)
  /-- The call has its clone of the entry, and has passed the second gate. -/
  | cleared (entry : MgmtEntry)
  | gated (entry : MgmtEntry)
  | operating (entry : MgmtEntry)
  | finished (answer : Answer)
deriving DecidableEq

/-- A request can be dropped where it awaits the plugin. -/
def Stage.awaits : Stage → Bool
  | .probing | .connecting _ | .pinging _ _ | .closing _ | .operating _ => true
  | _ => false

structure Request where
  caller : Caller
  name : String
  work : Work
  stage : Stage
  alive : Bool
deriving DecidableEq

def Request.op (request : Request) : String :=
  match request.work with
  | .call op _ => op
  | _ => "ping"

/-- An operation as the plugin sees it; `late` notes that `__disconnect__` was issued before. -/
structure Invocation where
  caller : Caller
  name : String
  handle : Nat
  op : String
  mutating : Bool
  late : Bool
deriving DecidableEq

structure Registry where
  entries : Entries
  requests : List Request
  handles : Nat
  disconnected : List Nat
  invocations : List Invocation

def Registry.initial : Registry where
  entries := ∅
  requests := []
  handles := 0
  disconnected := []
  invocations := []

/-- What a call into the plugin returns. -/
inductive Reply where
  | caps (items : List (Option String × Bool))
  | handle
  /-- A result without what was asked for, or one that says no more than that all is well. -/
  | plain
  | failed
deriving DecidableEq

inductive Label where
  | request (caller : Caller) (name : String) (work : Work)
  /-- The request goes on to its next lock section or to its next call into the plugin. -/
  | proceed (index : Nat)
  /-- The plugin finishes a call. -/
  | reply (index : Nat) (reply : Reply)
  | drop (index : Nat)
deriving DecidableEq

def Request.holdsPermit (request : Request) (name : String) : Nat :=
  if request.name = name then
    match request.stage with
    | .gated _ | .operating _ => 1
    | _ => 0
  else 0

def Registry.setStage (registry : Registry) (index : Nat) (request : Request) (stage : Stage) :
    Registry :=
  { registry with requests := registry.requests.set index { request with stage } }

def Registry.refuse (registry : Registry) (index : Nat) (request : Request) (refusal : Refusal) :
    Registry :=
  registry.setStage index request (.finished (.refused refusal))

/-- `__disconnect__` is issued. -/
def Registry.disconnect (registry : Registry) (index : Nat) (request : Request) (handle : Nat)
    (answer : Answer) : Registry :=
  { registry.setStage index request (.closing answer) with
    disconnected := registry.disconnected ++ [handle] }

/-- An operation of the plugin is called. -/
def Registry.invoke (registry : Registry) (index : Nat) (request : Request) (stage : Stage)
    (handle : Nat) (ops : List (String × Bool)) : Registry :=
  { registry.setStage index request stage with
    invocations := registry.invocations ++ [{
      caller := request.caller
      name := request.name
      handle
      op := request.op
      mutating := decide (ops.lookup request.op ≠ some true)
      late := decide (handle ∈ registry.disconnected) }] }

section Steps

variable (mgmt : MgmtSection)

def Registry.register (registry : Registry) (index : Nat) (request : Request) : Registry :=
  match requireGate mgmt request.caller.ctx true with
  | .error refusal => registry.refuse index request refusal
  | .ok _ =>
    if request.name ∈ mgmt.axes then registry.setStage index request .probing
    else registry.refuse index request .unknownAxis

def Registry.delete (registry : Registry) (index : Nat) (request : Request) : Registry :=
  match requireGate mgmt request.caller.ctx true with
  | .error refusal => registry.refuse index request refusal
  | .ok _ =>
    match registry.entries.lookup request.name with
    | none => registry.setStage index request (.finished (.deleted false))
    | some entry =>
      let stage : Stage :=
        if request.name ∈ mgmt.axes then .removed entry.handle else .finished (.deleted true)
      { registry.setStage index request stage with
        entries := registry.entries.erase request.name }

def Registry.call (registry : Registry) (index : Nat) (request : Request) (op : String) :
    Registry :=
  match requireGate mgmt request.caller.ctx false with
  | .error refusal => registry.refuse index request refusal
  | .ok _ =>
    match registry.entries.lookup request.name with
    | none => registry.refuse index request .unknownConnector
    | some entry =>
      match entry.ops.lookup op with
      | none => registry.refuse index request .unsupported
      | some readOnly =>
        match requireGate mgmt request.caller.ctx (!readOnly) with
        | .error refusal => registry.refuse index request refusal
        | .ok _ => registry.setStage index request (.cleared entry)

def Registry.insert (registry : Registry) (index : Nat) (request : Request)
    (ops : List (String × Bool)) (handle : Nat) : Registry :=
  match registry.entries.put mgmt request.name ⟨request.caller.operator, handle, ops⟩ with
  | .error refusal => registry.disconnect index request handle (.refused refusal)
  | .ok entries =>
    { registry.setStage index request (.finished .registered) with entries }

def Registry.tryGate (registry : Registry) (index : Nat) (request : Request)
    (entry : MgmtEntry) : Registry :=
  let taken := tally (fun other => if other.alive then other.holdsPermit request.name else 0)
    registry.requests
  if taken < callConcurrency then registry.setStage index request (.gated entry)
  else registry.refuse index request .busy

def Registry.operate (registry : Registry) (index : Nat) (request : Request)
    (entry : MgmtEntry) : Registry :=
  if request.name ∈ mgmt.axes then
    match request.work with
    | .call _ false => registry.refuse index request .argsNotObject
    | _ => registry.invoke index request (.operating entry) entry.handle entry.ops
  else registry.refuse index request .unknownAxis

def Registry.proceed (registry : Registry) (index : Nat) (request : Request) :
    Option Registry :=
  match request.stage with
  | .entered =>
    match request.work with
    | .register => some (registry.register mgmt index request)
    | .delete => some (registry.delete mgmt index request)
    | .call op _ => some (registry.call mgmt index request op)
  | .inserting ops handle => some (registry.insert mgmt index request ops handle)
  | .removed handle => some (registry.disconnect index request handle (.deleted true))
  | .cleared entry => some (registry.tryGate index request entry)
  | .gated entry => some (registry.operate mgmt index request entry)
  | _ => none

/-- The plugin answers a request that lives. -/
def Registry.answer (registry : Registry) (index : Nat) (request : Request) (reply : Reply) :
    Option Registry :=
  match request.stage, reply with
  | .probing, .caps items =>
    match readCaps items with
    | .error refusal => some (registry.refuse index request refusal)
    | .ok ops => some (registry.setStage index request (.connecting ops))
  | .probing, _ => some (registry.refuse index request .opsProbe)
  | .connecting ops, .handle =>
    let handle := registry.handles
    some { registry.invoke index request (.pinging ops handle) handle ops with
      handles := registry.handles + 1 }
  | .connecting _, .failed => some (registry.refuse index request .connectFailed)
  | .connecting _, _ => some (registry.refuse index request .handleMissing)
  | .pinging _ handle, .failed =>
    some (registry.disconnect index request handle (.refused .unreachable))
  | .pinging ops handle, _ => some (registry.setStage index request (.inserting ops handle))
  | .closing answer, _ => some (registry.setStage index request (.finished answer))
  | .operating _, .failed => some (registry.refuse index request .callFailed)
  | .operating _, _ => some (registry.setStage index request (.finished .result))
  | _, _ => none

/-- The plugin finishes a call whose request is dropped; a handle it returns is lost. -/
def Registry.orphan (registry : Registry) (index : Nat) (request : Request) (reply : Reply) :
    Option Registry :=
  let ended := registry.setStage index request (.finished .result)
  match request.stage, reply with
  | .connecting _, .handle => some { ended with handles := registry.handles + 1 }
  | stage, _ => if stage.awaits then some ended else none

def Registry.step (registry : Registry) : Label → Option Registry
  | .request caller name work =>
    some { registry with
      requests := registry.requests ++ [⟨caller, name, work, .entered, true⟩] }
  | .proceed index => registry.requests[index]?.bind fun request =>
    if request.alive then registry.proceed mgmt index request else none
  | .reply index reply => registry.requests[index]?.bind fun request =>
    if request.alive then registry.answer index request reply
    else registry.orphan index request reply
  | .drop index => registry.requests[index]?.bind fun request =>
    if request.alive ∧ request.stage.awaits then
      some { registry with requests := registry.requests.set index { request with
        alive := false } }
    else none

def system : System Registry Label where
  init := .initial
  step := Registry.step mgmt

end Steps

end OnlyJs.Bridge.Mgmt
