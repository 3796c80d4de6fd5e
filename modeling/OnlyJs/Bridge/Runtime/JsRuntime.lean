import OnlyJs.Bridge.Runtime.ReqState
import OnlyJs.Lib.StepSystem

/-!
# One reused runtime

A runtime holds the request state, the permissions container and the unfinished
continuations of the code it has run. Every way of running code resets part of
this, drives the event loop, and then gives the runtime back, keeps it or drops
it; the seven ways differ in what they reset and in how they end.

The event loop is driven only while a run is being executed, and then it drives
every unfinished continuation, whichever run started it. The history records
each op with the run whose code issued it and the run being executed.
-/

namespace OnlyJs.Bridge.Runtime

open Lib.StepSystem

structure FsGrant where
  root : String
  readonly : Bool
deriving DecidableEq

structure PlatformGrant where
  modules : List String
  trusted : List String
deriving DecidableEq

structure PermissionsContainer where
  read : Option (List String)
  write : Option (List String)
deriving DecidableEq

def permissionsForRoots (roots : Option (List String)) (readonly : Bool) :
    PermissionsContainer where
  read := roots
  write := if readonly then none else roots

def containerFor (grant : Option FsGrant) : PermissionsContainer :=
  permissionsForRoots (grant.map fun g => [g.root]) (grant.any FsGrant.readonly)

def mergeRoots (roots trusted : List String) : List String :=
  trusted.foldl (fun merged root => if root ∈ merged then merged else merged ++ [root]) roots

def containerForModule (grant : Option FsGrant) (platform : Option PlatformGrant)
    (moduleName : Option String) : PermissionsContainer :=
  match grant, platform, moduleName with
  | some g, some p, some name =>
    if name ∈ p.modules then
      permissionsForRoots (some (mergeRoots [g.root] p.trusted)) g.readonly
    else containerFor grant
  | _, _, _ => containerFor grant

structure StableState where
  fs : Option FsGrant
  platform : Option PlatformGrant
deriving DecidableEq

/-- One way of running code, with what its caller passes; the assembly is the
snapshot taken at that moment. -/
inductive Call where
  | runWith (req : RequestInfo) (assembly : PerGenAssembly)
  | runWs (req : RequestInfo) (assembly : PerGenAssembly)
  | runSideDriver (req : RequestInfo) (moduleCtx : Option ModuleCtx)
      (assembly : PerGenAssembly)
  | wsConnect (assembly : PerGenAssembly)
  | wsEvent (req : RequestInfo)
  | taskConnect (assembly : PerGenAssembly)
  | fire (assembly : PerGenAssembly)
deriving DecidableEq

def Call.req : Call → RequestInfo
  | runWith req _ => req
  | runWs req _ => req
  | runSideDriver req _ _ => req
  | wsConnect _ => .default
  | wsEvent req => req
  | taskConnect _ => .default
  | fire _ => .default

def Call.moduleCtx : Call → Option ModuleCtx
  | runSideDriver _ moduleCtx _ => moduleCtx
  | _ => none

/-- The snapshot that the call's code must find pinned; a frame is given none. -/
def Call.assembly : Call → Option PerGenAssembly
  | runWith _ assembly => some assembly
  | runWs _ assembly => some assembly
  | runSideDriver _ _ assembly => some assembly
  | wsConnect assembly => some assembly
  | wsEvent _ => none
  | taskConnect assembly => some assembly
  | fire assembly => some assembly

inductive Holder where
  | pool
  | wsSession
  | taskSession
  | dropped
deriving DecidableEq

def Call.holder : Call → Holder
  | runWith _ _ => .pool
  | runWs _ _ => .pool
  | runSideDriver _ _ _ => .pool
  | wsConnect _ => .pool
  | wsEvent _ => .wsSession
  | taskConnect _ => .pool
  | fire _ => .taskSession

/-- What a continuation needs before it can go on: nothing, an op of the host, or
a promise that other code settles. -/
inductive Wait where
  | ready
  | host
  | promise
deriving DecidableEq

structure Continuation where
  run : Nat
  waits : Wait
deriving DecidableEq

/-- `draining` is the extra turn of the event loop before a drop: the run has
been answered with an error, its code may still go on. -/
inductive Phase where
  | idle
  | running (run : Nat)
  | draining (run : Nat)
deriving DecidableEq

def Phase.current : Phase → Option Nat
  | idle => none
  | running run => some run
  | draining run => some run

/-- One op in the history: whose code issued it, which run was being executed,
the state it found and the container in force. -/
structure Issued (ops : OpSet) where
  run : Nat
  during : Nat
  op : ops.Op
  before : ReqState
  container : PermissionsContainer

structure JsRuntime (ops : OpSet) where
  holder : Holder
  phase : Phase
  rs : ReqState
  container : PermissionsContainer
  unfinished : List Continuation
  heapGuardFired : Bool
  runs : List (Call × ReqState)
  history : List (Issued ops)

variable {ops : OpSet}

def spawn (ops : OpSet) (stable : StableState) : JsRuntime ops where
  holder := .pool
  phase := .idle
  rs := { ReqState.fresh .default none none 0 with status := 0 }
  container := containerFor stable.fs
  unfinished := []
  heapGuardFired := false
  runs := []
  history := []

section Checkout

variable (stable : StableState)

def checkoutReset (req : RequestInfo) (moduleCtx : Option ModuleCtx)
    (assembly : PerGenAssembly) (rt : JsRuntime ops) : JsRuntime ops :=
  { rt with
    rs := { rt.rs.reset req with
      moduleName := moduleCtx.map ModuleCtx.name
      moduleVersion := moduleCtx.map ModuleCtx.version
      assembly := some assembly }
    container :=
      containerForModule stable.fs stable.platform (moduleCtx.map ModuleCtx.name) }

def wsEventReset (req : RequestInfo) (rt : JsRuntime ops) : JsRuntime ops :=
  { rt with rs := rt.rs.reset req }

def fireReset (assembly : PerGenAssembly) (rt : JsRuntime ops) : JsRuntime ops :=
  { rt with rs := { rt.rs.reset .default with assembly := some assembly } }

def Call.establish (call : Call) (rt : JsRuntime ops) : JsRuntime ops :=
  match call with
  | .runWith req assembly => checkoutReset stable req none assembly rt
  | .runWs req assembly => checkoutReset stable req none assembly rt
  | .runSideDriver req moduleCtx assembly => checkoutReset stable req moduleCtx assembly rt
  | .wsConnect assembly => checkoutReset stable .default none assembly rt
  | .wsEvent req => wsEventReset req rt
  | .taskConnect assembly => checkoutReset stable .default none assembly rt
  | .fire assembly => fireReset assembly rt

def start (call : Call) (rt : JsRuntime ops) : Option (JsRuntime ops) :=
  if rt.phase = .idle ∧ rt.holder = call.holder then
    let established := call.establish stable rt
    some { established with
      phase := .running rt.runs.length
      unfinished := rt.unfinished ++ [⟨rt.runs.length, .ready⟩]
      runs := rt.runs ++ [(call, established.rs)] }
  else none

end Checkout

section EventLoop

def drop (rt : JsRuntime ops) : JsRuntime ops :=
  { rt with holder := .dropped, phase := .idle, unfinished := [] }

/-- Continuation `index`, when the event loop can let it run now. -/
def executing (index : Nat) (rt : JsRuntime ops) : Option (Nat × Continuation) :=
  rt.phase.current.bind fun during =>
    rt.unfinished[index]?.bind fun continuation =>
      if continuation.waits = .ready then some (during, continuation) else none

/-- Continuation `index` issues an op. A panic unwinds the thread and takes the
runtime with it. -/
def issue (index : Nat) (op : ops.Op) (rt : JsRuntime ops) : Option (JsRuntime ops) :=
  (executing index rt).map fun (during, continuation) =>
    let recorded := { rt with
      history := ⟨continuation.run, during, op, rt.rs, rt.container⟩ :: rt.history }
    match ops.perform op rt.rs with
    | some rs => { recorded with rs }
    | none => drop recorded

/-- Continuation `index` starts further asynchronous work of the same run. -/
def spawnWork (index : Nat) (waits : Wait) (rt : JsRuntime ops) : Option (JsRuntime ops) :=
  (executing index rt).map fun (_, continuation) =>
    { rt with unfinished := rt.unfinished ++ [⟨continuation.run, waits⟩] }

def park (index : Nat) (waits : Wait) (rt : JsRuntime ops) : Option (JsRuntime ops) :=
  (executing index rt).map fun (_, continuation) =>
    { rt with unfinished := rt.unfinished.set index ⟨continuation.run, waits⟩ }

/-- Continuation `index` comes to its end. -/
def finish (index : Nat) (rt : JsRuntime ops) : Option (JsRuntime ops) :=
  (executing index rt).map fun _ =>
    { rt with unfinished := rt.unfinished.eraseIdx index }

/-- The host op that continuation `index` waits for has completed. -/
def hostSettled (index : Nat) (rt : JsRuntime ops) : Option (JsRuntime ops) :=
  rt.phase.current.bind fun _ =>
    rt.unfinished[index]?.bind fun continuation =>
      if continuation.waits = .host then
        some { rt with unfinished := rt.unfinished.set index ⟨continuation.run, .ready⟩ }
      else none

/-- Continuation `index` settles the promise that continuation `target` awaits. -/
def resolve (index target : Nat) (rt : JsRuntime ops) : Option (JsRuntime ops) :=
  (executing index rt).bind fun _ =>
    rt.unfinished[target]?.bind fun continuation =>
      if continuation.waits = .promise then
        some { rt with unfinished := rt.unfinished.set target ⟨continuation.run, .ready⟩ }
      else none

def heapLimit (rt : JsRuntime ops) : Option (JsRuntime ops) :=
  rt.phase.current.map fun _ => { rt with heapGuardFired := true }

/-- The event loop is idle when all that is left waits for promises that nobody
is going to settle. -/
def loopIdle (rt : JsRuntime ops) : Bool :=
  rt.unfinished.all fun continuation => continuation.waits == .promise

end EventLoop

section Endings

/-- How the event loop of a run came back: idle, with an unhandled rejection, or
terminated by the watchdog. `exported` is what the connect drivers look at, the
hooks that the module reports. -/
inductive Ending where
  | idle (exported : Bool)
  | rejection
  | timeout
deriving DecidableEq

def Ending.isIdle : Ending → Bool
  | idle _ => true
  | rejection => false
  | timeout => false

def finalizeTx (rt : JsRuntime ops) : JsRuntime ops :=
  { rt with rs := rt.rs.finalizeTx }

def checkin (rt : JsRuntime ops) : JsRuntime ops :=
  if rt.heapGuardFired then drop rt else { rt with holder := .pool, phase := .idle }

def keep (holder : Holder) (rt : JsRuntime ops) : JsRuntime ops :=
  { rt with holder, phase := .idle }

def drain (run : Nat) (rt : JsRuntime ops) : JsRuntime ops :=
  { rt with phase := .draining run }

/-- No watchdog is armed for `run_with`. -/
def runWithEnd (ending : Ending) (rt : JsRuntime ops) : Option (JsRuntime ops) :=
  match ending with
  | .idle _ => some (checkin (finalizeTx rt))
  | .rejection => some (drop rt)
  | .timeout => none

def runWsEnd (ending : Ending) (rt : JsRuntime ops) : JsRuntime ops :=
  match ending with
  | .timeout => drop rt
  | .rejection => drop rt
  | .idle _ => if rt.heapGuardFired then drop rt else checkin (finalizeTx rt)

def runSideDriverEnd (ending : Ending) (rt : JsRuntime ops) : JsRuntime ops :=
  match ending with
  | .timeout => drop rt
  | .rejection => drop rt
  | .idle _ =>
    if rt.heapGuardFired || rt.rs.driverError.isSome then drop rt
    else checkin (finalizeTx rt)

def connectEnd (holder : Holder) (run : Nat) (ending : Ending) (rt : JsRuntime ops) :
    JsRuntime ops :=
  match ending with
  | .timeout => drain run rt
  | .rejection => drain run rt
  | .idle exported => if exported then keep holder (finalizeTx rt) else drop rt

def sessionEnd (holder : Holder) (ending : Ending) (rt : JsRuntime ops) : JsRuntime ops :=
  match ending with
  | .timeout => drop rt
  | .rejection => keep holder rt
  | .idle _ => keep holder (finalizeTx rt)

def Call.conclude (call : Call) (run : Nat) (ending : Ending) (rt : JsRuntime ops) :
    Option (JsRuntime ops) :=
  match call with
  | .runWith _ _ => runWithEnd ending rt
  | .runWs _ _ => some (runWsEnd ending rt)
  | .runSideDriver _ _ _ => some (runSideDriverEnd ending rt)
  | .wsConnect _ => some (connectEnd .wsSession run ending rt)
  | .wsEvent _ => some (sessionEnd .wsSession ending rt)
  | .taskConnect _ => some (connectEnd .taskSession run ending rt)
  | .fire _ => some (sessionEnd .taskSession ending rt)

def conclude (ending : Ending) (rt : JsRuntime ops) : Option (JsRuntime ops) :=
  match rt.phase with
  | .idle => none
  | .draining _ => some (drop rt)
  | .running run =>
    if ending.isIdle && !loopIdle rt then none
    else rt.runs[run]?.bind fun (call, _) => call.conclude run ending rt

end Endings

inductive Label (ops : OpSet) where
  | start (call : Call)
  | issue (index : Nat) (op : ops.Op)
  | spawnWork (index : Nat) (waits : Wait)
  | park (index : Nat) (waits : Wait)
  | finish (index : Nat)
  | hostSettled (index : Nat)
  | resolve (index target : Nat)
  | heapLimit
  | conclude (ending : Ending)

def step (stable : StableState) (rt : JsRuntime ops) (label : Label ops) :
    Option (JsRuntime ops) :=
  match label with
  | .start call => start stable call rt
  | .issue index op => issue index op rt
  | .spawnWork index waits => spawnWork index waits rt
  | .park index waits => park index waits rt
  | .finish index => finish index rt
  | .hostSettled index => hostSettled index rt
  | .resolve index target => resolve index target rt
  | .heapLimit => heapLimit rt
  | .conclude ending => conclude ending rt

def system (ops : OpSet) (stable : StableState) : System (JsRuntime ops) (Label ops) where
  init := spawn ops stable
  step := step stable

end OnlyJs.Bridge.Runtime
