import OnlyJs.Lib.StepSystem

/-!
# Cancellable calls on a connection pool

A call takes a connection, hands its statement to the backend, and listens to its notification
at the same time. A cancel raises the flag and notifies who listens at that moment: nobody who
begins to listen later hears of it. The steps of the call are those between which another
thread can act. The task that waits for the call is on the thread of the call, and moves only
where the call is suspended.
-/

namespace OnlyJs.Bridge.PoolCall

open Lib.StepSystem

inductive Kind where
  | query
  | exec
deriving DecidableEq

inductive Mode where
  | direct
  | spawned
deriving DecidableEq

/-- `noted` is the number of notifications at the time when the listening began. The arms that
are still to be polled in this round are marked. -/
inductive Stage where
  | start
  | acquiring
  | acquired (conn : Nat)
  | checked (conn : Nat)
  | selecting (conn noted : Nat) (backend notified : Bool)
  | suspended (conn noted : Nat)
  | finished
deriving DecidableEq

inductive Outcome where
  | ok
  | failed
  | cancelled
deriving DecidableEq

section Pool

structure Pool where
  idle : List Nat
  lent : List Nat
  cut : List Nat
  nextConn : Nat
  recycled : Bool
deriving DecidableEq

def Pool.empty : Pool where
  idle := []
  lent := []
  cut := []
  nextConn := 0
  recycled := false

def Pool.handOut (pool : Pool) : Option Nat → Option (Nat × Pool)
  | none => some (pool.nextConn, { pool with nextConn := pool.nextConn + 1 })
  | some index =>
    pool.idle[index]?.map fun conn =>
      (conn, { pool with
        idle := pool.idle.eraseIdx index
        recycled := pool.recycled || pool.cut.contains conn })

def Pool.giveBack (pool : Pool) (conn : Nat) : Pool := { pool with idle := pool.idle ++ [conn] }

/-- `close_on_drop` -/
def Pool.close (pool : Pool) (conn : Nat) : Pool := { pool with cut := pool.cut ++ [conn] }

def Pool.abandon (pool : Pool) (conn : Nat) : Pool := (pool.giveBack conn).close conn

def Pool.lend (pool : Pool) (choice : Option Nat) : Option Pool :=
  (pool.handOut choice).map fun taken =>
    { taken.2 with lent := taken.2.lent ++ [taken.1] }

def Pool.return_ (pool : Pool) (index : Nat) : Option Pool :=
  pool.lent[index]?.map fun conn =>
    { pool with lent := pool.lent.eraseIdx index, idle := pool.idle ++ [conn] }

end Pool

/-- The flag and the notification. `firing` is a cancel between the two. -/
structure Signal where
  flag : Bool
  generation : Nat
  firing : Bool
  fired : Bool
deriving DecidableEq

def Signal.notify (signal : Signal) : Signal := { signal with generation := signal.generation + 1 }

inductive Waiter where
  | listening (noted : Nat)
  | returned
  | gone
deriving DecidableEq

structure Entry where
  registered : Bool
  done : Bool
  settles : Nat
  outcome : Option Outcome
  waiter : Waiter
deriving DecidableEq

structure Call where
  stage : Stage
  submitted : Bool
  /-- The statement was handed to the backend behind a completed cancel. -/
  late : Bool
  signal : Signal
  entry : Entry
  pool : Pool
deriving DecidableEq

def Call.initial : Call where
  stage := .start
  submitted := false
  late := false
  signal := { flag := false, generation := 0, firing := false, fired := false }
  entry := {
    registered := true
    done := false
    settles := 0
    outcome := none
    waiter := .listening 0 }
  pool := .empty

/-- `settle_pool` of a spawned call; a direct one is marked as done only. -/
def Call.settle (mode : Mode) (call : Call) (outcome : Outcome) : Call :=
  { call with
    stage := .finished
    entry := { call.entry with
      done := true
      settles := call.entry.settles + 1
      outcome := some outcome }
    signal := match mode with
      | .direct => call.signal
      | .spawned => call.signal.notify }

def Call.discard (mode : Mode) (call : Call) (conn : Nat) : Call :=
  { call with pool := call.pool.close conn }.settle mode .cancelled

def Call.finish (mode : Mode) (call : Call) (conn : Nat) (outcome : Outcome) : Call :=
  { call with pool := call.pool.giveBack conn }.settle mode outcome

def Call.listen (call : Call) (conn : Nat) : Call :=
  { call with stage := .selecting conn call.signal.generation true true }

/-- What the backend has when it is polled: a query may be stopped by its meter, and fail over
a row. -/
inductive Arrival where
  | pending
  | row
  | ended
  | stopped
  | failed
deriving DecidableEq

inductive Label where
  | refuse
  | begin_
  | acquire (choice : Option Nat)
  | acquireFails
  | proceed
  | listen
  | pollBackend (arrival : Arrival)
  | pollNotified
  | wake
  | timeout
  | setFlag
  | notify
  | pollWaiter
  | remove
  | lend (choice : Option Nat)
  | return_ (index : Nat)
deriving DecidableEq

def Stage.resting : Stage → Bool
  | .start | .acquiring | .suspended _ _ | .finished => true
  | _ => false

section Steps

variable (kind : Kind) (mode : Mode)

def Call.proceed (call : Call) (conn : Nat) : Call :=
  match kind with
  | .query =>
    if call.signal.flag then call.discard mode conn else { call with stage := .checked conn }
  | .exec => call.listen conn

def Call.arrive (call : Call) (conn noted : Nat) (notified : Bool) : Arrival → Option Call
  | .pending =>
    some { call with
      stage := if notified then .selecting conn noted false true else .suspended conn noted }
  | .row =>
    match kind with
    | .query => some { call with stage := .acquired conn }
    | .exec => none
  | .ended =>
    match kind with
    | .query => some (call.finish mode conn .ok)
    | .exec =>
      some (if call.signal.flag then call.discard mode conn else call.finish mode conn .ok)
  | .stopped =>
    match kind with
    | .query => some (call.finish mode conn .ok)
    | .exec => none
  | .failed => some (call.finish mode conn .failed)

def Call.submit (call : Call) : Call :=
  { call with
    submitted := true
    late := call.late || (call.signal.fired && !call.submitted) }

def Call.hear (call : Call) (conn : Nat) : Call :=
  match kind with
  | .query =>
    if call.signal.flag then call.discard mode conn else { call with stage := .acquired conn }
  | .exec => call.discard mode conn

def Call.expire (call : Call) : Option Call :=
  match mode, call.stage with
  | .direct, .acquiring => some (call.settle mode .failed)
  | .direct, .suspended conn _ =>
    some ({ call with pool := call.pool.abandon conn }.settle mode .failed)
  | .direct, _ => none
  | .spawned, stage =>
    match call.entry.waiter with
    | .listening _ =>
      if stage.resting then
        some { call with
          signal := { call.signal.notify with flag := true, fired := true }
          entry := { call.entry with waiter := .gone } }
      else none
    | _ => none

def Call.left (call : Call) : Bool :=
  match mode, call.entry.waiter with
  | .direct, _ => call.entry.done
  | .spawned, .listening _ => false
  | .spawned, _ => true

def Call.step (call : Call) : Label → Option Call
  | .refuse => if call.stage = .start then some (call.settle mode .failed) else none
  | .begin_ =>
    if call.stage = .start then
      some (if call.signal.flag then call.settle mode .cancelled
        else { call with stage := .acquiring })
    else none
  | .acquire choice =>
    if call.stage = .acquiring then
      (call.pool.handOut choice).map fun taken =>
        { call with stage := .acquired taken.1, pool := taken.2 }
    else none
  | .acquireFails => if call.stage = .acquiring then some (call.settle mode .failed) else none
  | .proceed =>
    match call.stage with
    | .acquired conn => some (call.proceed kind mode conn)
    | _ => none
  | .listen =>
    match call.stage with
    | .checked conn => some (call.listen conn)
    | _ => none
  | .pollBackend arrival =>
    match call.stage with
    | .selecting conn noted true notified =>
      call.submit.arrive kind mode conn noted notified arrival
    | _ => none
  | .pollNotified =>
    match call.stage with
    | .selecting conn noted backend true =>
      if call.signal.generation ≠ noted then some (call.hear kind mode conn)
      else
        some { call with
          stage :=
            if backend then .selecting conn noted true false else .suspended conn noted }
    | _ => none
  | .wake =>
    match call.stage with
    | .suspended conn noted => some { call with stage := .selecting conn noted true true }
    | _ => none
  | .timeout => call.expire mode
  | .setFlag =>
    if call.entry.registered ∧ call.signal.firing = false then
      some { call with signal := { call.signal with flag := true, firing := true } }
    else none
  | .notify =>
    if call.signal.firing then
      some { call with signal := { call.signal.notify with firing := false, fired := true } }
    else none
  | .pollWaiter =>
    match mode, call.entry.waiter with
    | .spawned, .listening noted =>
      if call.stage.resting ∧ call.signal.generation ≠ noted then
        some { call with
          entry := { call.entry with
            waiter :=
              if call.entry.done then .returned else .listening call.signal.generation } }
      else none
    | _, _ => none
  | .remove =>
    if call.entry.registered ∧ call.signal.firing = false ∧ call.left mode then
      some { call with entry := { call.entry with registered := false } }
    else none
  | .lend choice => (call.pool.lend choice).map fun pool => { call with pool }
  | .return_ index => (call.pool.return_ index).map fun pool => { call with pool }

def system : System Call Label where
  init := .initial
  step := Call.step kind mode

end Steps

end OnlyJs.Bridge.PoolCall
