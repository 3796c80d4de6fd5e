import OnlyJs.Lib.StepSystem

/-!
# Subscriptions at remote brokers

The process keeps one list of channels for each topic, for all its brokers. A subscription puts
its channel on the list, and starts a loop at the plugin if the list was empty. The plugin runs
a call to its end whether the host waits for it or not; a loop hands every message of its topic
to the channels of the list, and ends with its handle. One subscription is under way at a time.
-/

namespace OnlyJs.Bridge.RemoteBus

open Lib.StepSystem

/-- A subscription that has started a plugin call, with what the call has returned. -/
structure Pending where
  handle : Nat
  topic : String
  tx : Nat
  inserted : Bool
  result : Option Bool
deriving DecidableEq

structure Bus where
  targets : String → List Nat
  closed : List Nat
  subs : Nat → Option (List (String × Nat))
  nextHandle : Nat
  loops : List (Nat × String)
  pending : Option Pending
  orphans : List (Nat × String)

def Bus.empty : Bus where
  targets := fun _ => []
  closed := []
  subs := fun _ => none
  nextHandle := 1
  loops := []
  pending := none
  orphans := []

def Bus.isOpen (bus : Bus) (tx : Nat) : Bool := !bus.closed.contains tx

def Bus.setTargets (bus : Bus) (topic : String) (list : List Nat) : Bus :=
  { bus with targets := fun other => if other = topic then list else bus.targets other }

def Bus.setSubs (bus : Bus) (handle : Nat) (subs : Option (List (String × Nat))) : Bus :=
  { bus with subs := fun other => if other = handle then subs else bus.subs other }

/-- `subs.lock().unwrap().push(…)` -/
def Bus.register (bus : Bus) (handle : Nat) (topic : String) (tx : Nat) : Bus :=
  bus.setSubs handle ((bus.subs handle).map fun registered => registered ++ [(topic, tx)])

/-- `FfiEventBroker::subscribe` up to the plugin call, or to its end where none is made. -/
def Bus.subscribe (bus : Bus) (handle : Nat) (topic : String) (tx : Nat) : Bus :=
  let list := bus.targets topic
  let inserted := !list.contains tx
  let entered := bus.setTargets topic (if inserted then list ++ [tx] else list)
  if list.isEmpty then { entered with pending := some ⟨handle, topic, tx, inserted, none⟩ }
  else entered.register handle topic tx

/-- The rest of `subscribe` behind the plugin call. -/
def Bus.resume (bus : Bus) (pending : Pending) (succeeded : Bool) : Bus :=
  let idle := { bus with pending := none }
  if succeeded then idle.register pending.handle pending.topic pending.tx
  else if pending.inserted then
    idle.setTargets pending.topic ((idle.targets pending.topic).filter (· ≠ pending.tx))
  else idle

/-- `fanout_targets`: a channel whose receiver is gone leaves the list. -/
def Bus.fanout (bus : Bus) (topic : String) : Bus :=
  bus.setTargets topic ((bus.targets topic).filter bus.isOpen)

def Bus.startLoop (bus : Bus) (handle : Nat) (topic : String) : Bus :=
  if (bus.subs handle).isSome then { bus with loops := bus.loops ++ [(handle, topic)] } else bus

/-- `Drop for FfiEventBroker` -/
def Bus.drop (bus : Bus) (handle : Nat) (registered : List (String × Nat)) : Bus :=
  { bus with
    subs := fun other => if other = handle then none else bus.subs other
    loops := bus.loops.filter fun loop => loop.1 ≠ handle
    targets := fun topic => (bus.targets topic).filter fun tx => (topic, tx) ∉ registered }

def Bus.receivers (bus : Bus) (topic : String) : List Nat :=
  (bus.loops.filter fun loop => loop.2 = topic).flatMap fun _ =>
    (bus.targets topic).filter bus.isOpen

inductive Label where
  | connect
  | subscribe (handle : Nat) (topic : String) (tx : Nat)
  /-- The plugin call of the pending subscription ends. -/
  | called (succeeded : Bool)
  /-- The host sees its result. -/
  | resume
  /-- The future of the pending subscription is dropped. -/
  | abandon
  /-- A call that the host has abandoned ends. -/
  | calledLate (index : Nat) (succeeded : Bool)
  | deliver (handle : Nat) (topic : String)
  | publishLocal (topic : String)
  | close (tx : Nat)
  | drop (handle : Nat)
deriving DecidableEq

/-- A broker outlives the subscription that waits at it. -/
def Bus.step (bus : Bus) : Label → Option Bus
  | .connect =>
    some { bus.setSubs bus.nextHandle (some []) with nextHandle := bus.nextHandle + 1 }
  | .subscribe handle topic tx =>
    if bus.pending.isNone ∧ (bus.subs handle).isSome then some (bus.subscribe handle topic tx)
    else none
  | .called succeeded =>
    match bus.pending with
    | some ⟨handle, topic, tx, inserted, none⟩ =>
      let answered :=
        { bus with pending := some ⟨handle, topic, tx, inserted, some succeeded⟩ }
      some (if succeeded then answered.startLoop handle topic else answered)
    | _ => none
  | .resume =>
    match bus.pending with
    | some pending => pending.result.map (bus.resume pending)
    | none => none
  | .abandon =>
    match bus.pending with
    | some pending =>
      some { bus with
        pending := none
        orphans :=
          if pending.result.isNone then bus.orphans ++ [(pending.handle, pending.topic)]
          else bus.orphans }
    | none => none
  | .calledLate index succeeded =>
    match bus.orphans[index]? with
    | some (handle, topic) =>
      let ended := { bus with orphans := bus.orphans.eraseIdx index }
      some (if succeeded then ended.startLoop handle topic else ended)
    | none => none
  | .deliver handle topic =>
    if (handle, topic) ∈ bus.loops then some (bus.fanout topic) else none
  | .publishLocal topic => some (bus.fanout topic)
  | .close tx => some { bus with closed := tx :: bus.closed }
  | .drop handle =>
    match bus.subs handle with
    | some registered =>
      if bus.pending.any fun pending => pending.handle = handle then none
      else some (bus.drop handle registered)
    | none => none

def system : System Bus Label where
  init := Bus.empty
  step := Bus.step

end OnlyJs.Bridge.RemoteBus
