import OnlyJs.Bridge.Value
import OnlyJs.Lib.FiniteMap
import OnlyJs.Lib.StepSystem

/-!
# The frame pool of a websocket route

Frames of all connections of a route wait in one queue for a set of workers. A
connection has at most one frame in flight, later ones wait behind it, and the
session state of a connection lives in a table outside the workers. The scheduler
and the session table have a lock each; a step of the system is one critical
section, or one call or answer of a worker between two of them. How many workers
there are is left open: one may start at any time.
-/

namespace OnlyJs.Bridge.FramePool

open Lib

/-- `id` is the number of the `fire` call that submitted the frame. -/
structure Frame where
  id : Nat
  conn : Nat
deriving DecidableEq

inductive Ended where
  | ok (state : Option Value)
  | timeout
  | oom
  | core

/-- What `fire` returns. -/
inductive Answer where
  | ok
  | timeout
  | core
  | dropped
  | poolClosed
deriving DecidableEq

def Ended.answer : Ended → Answer
  | .ok _ => .ok
  | .timeout => .timeout
  | .oom => .core
  | .core => .core

def Ended.poisons : Ended → Bool
  | .timeout => true
  | .oom => true
  | .ok _ => false
  | .core => false

/-- Where a worker stands in `worker_main` and in the recovery after a panic. -/
inductive Phase where
  | absent
  | starting
  | failing
  | pulling
  | pulled (frame : Frame)
  | running (frame : Frame) (state : Value)
  | ended (frame : Frame) (result : Ended)
  | completed (frame : Frame) (result : Ended)
  | answering (frame : Frame) (result : Ended)
  | panicked (conn : Nat)
  | dropped (conn : Nat)

inductive Event where
  | fired (frame : Frame)
  | started (frame : Frame) (state : Value)
  | returned (frame : Frame) (state : Value)
  | answered (frame : Frame) (answer : Answer)

/-- The scheduler, the session table and the workers. `waiting` holds the frames
behind one in flight, of all connections, in the order they came in; `history`
lists the events, the latest first. -/
structure Pool where
  ready : List Frame
  waiting : List Frame
  inFlight : Nat → Bool
  closed : Bool
  sessions : Finmap fun _ : Nat => Value
  failed : Bool
  workers : Nat → Phase
  connSeq : Nat
  nextFrame : Nat
  history : List Event

def Pool.initial : Pool where
  ready := []
  waiting := []
  inFlight := fun _ => false
  closed := false
  sessions := ∅
  failed := false
  workers := fun _ => .absent
  connSeq := 0
  nextFrame := 0
  history := []

namespace Pool

def answer (pool : Pool) (frames : List Frame) (answer : Answer) : Pool :=
  { pool with history := frames.map (.answered · answer) ++ pool.history }

def submit (pool : Pool) (conn : Nat) : Pool :=
  let frame : Frame := ⟨pool.nextFrame, conn⟩
  let pool := { pool with
    nextFrame := pool.nextFrame + 1
    history := .fired frame :: pool.history }
  if pool.closed then pool.answer [frame] .poolClosed
  else if pool.inFlight conn then { pool with waiting := pool.waiting ++ [frame] }
  else { pool with
    inFlight := Function.update pool.inFlight conn true
    ready := pool.ready ++ [frame] }

def complete (pool : Pool) (conn : Nat) : Pool :=
  let pool := { pool with inFlight := Function.update pool.inFlight conn false }
  match pool.waiting.find? fun frame => frame.conn = conn with
  | none => pool
  | some frame =>
    let pool := { pool with waiting := pool.waiting.eraseP fun frame => frame.conn = conn }
    if pool.closed then pool.answer [frame] .poolClosed
    else { pool with
      inFlight := Function.update pool.inFlight conn true
      ready := pool.ready ++ [frame] }

def dropConn (pool : Pool) (conn : Nat) : Pool :=
  { pool with waiting := pool.waiting.filter fun frame => frame.conn ≠ conn }.answer
    (pool.waiting.filter fun frame => frame.conn = conn) .dropped

/-- The second half of `panic_conn`, under a lock of its own. -/
def unmark (pool : Pool) (conn : Nat) : Pool :=
  { pool with inFlight := Function.update pool.inFlight conn false }

def close (pool : Pool) : Pool :=
  { pool with closed := true, ready := [], waiting := [] }.answer
    (pool.ready ++ pool.waiting) .poolClosed

def place (pool : Pool) (worker : Nat) (phase : Phase) : Pool :=
  { pool with workers := Function.update pool.workers worker phase }

def observe (pool : Pool) (event : Event) : Pool :=
  { pool with history := event :: pool.history }

def stateOf (pool : Pool) (conn : Nat) : Value := (pool.sessions.lookup conn).getD .null

def writeBack (pool : Pool) (conn : Nat) : Ended → Pool
  | .ok (some state) =>
    if (pool.sessions.lookup conn).isSome then
      { pool with sessions := pool.sessions.insert conn state }
    else pool
  | _ => pool

def returned (pool : Pool) (frame : Frame) : Ended → Pool
  | .ok (some state) => pool.observe (.returned frame state)
  | _ => pool

end Pool

/-- What the environment decides about a worker's next step. -/
inductive Input where
  | proceed
  | fail
  | finish (result : Ended)
  | panic

/-- The next step of a worker. Between `complete` and the write-back of the state,
and between the write-back and the answer, other steps may come. -/
def work (pool : Pool) (worker : Nat) (input : Input) : Option Pool :=
  match pool.workers worker, input with
  | .starting, .proceed => some (pool.place worker .pulling)
  | .starting, .fail => some ({ pool with failed := true }.place worker .failing)
  | .starting, .panic => some (pool.place worker .absent)
  | .failing, .proceed => some (pool.close.place worker .absent)
  | .pulling, .proceed =>
    match pool.ready with
    | frame :: rest => some ({ pool with ready := rest }.place worker (.pulled frame))
    | [] => if pool.closed then some (pool.place worker .absent) else none
  | .pulled frame, .proceed =>
    let state := pool.stateOf frame.conn
    some ((pool.observe (.started frame state)).place worker (.running frame state))
  | .running frame _, .finish result =>
    some ((pool.returned frame result).place worker (.ended frame result))
  | .running frame _, .panic =>
    -- the frame dies with its sender; connection 0 is the mark of a worker without a frame
    some ((pool.answer [frame] .poolClosed).place worker
      (if frame.conn = 0 then .absent else .panicked frame.conn))
  | .ended frame result, .proceed =>
    some ((pool.complete frame.conn).place worker (.completed frame result))
  | .completed frame result, .proceed =>
    some ((pool.writeBack frame.conn result).place worker (.answering frame result))
  | .answering frame result, .proceed =>
    some ((pool.answer [frame] result.answer).place worker
      (if result.poisons then .absent else .pulling))
  | .panicked conn, .proceed => some ((pool.dropConn conn).place worker (.dropped conn))
  | .dropped conn, .proceed => some ((pool.unmark conn).place worker .absent)
  | _, _ => none

inductive Retiring where
  | idle
  | sleeping
  | resolved
deriving DecidableEq

/-- `attaching` and `opened` count the calls of `attach` that have seen no failure,
and those that have passed the scheduler. `dropping` lists the connections whose
`detach` has removed the session, and `checking` counts the calls that are about to
look at the session table again. -/
structure State where
  pool : Pool
  attaching : Nat
  opened : Nat
  dropping : List Nat
  checking : Nat
  retiring : Retiring

def State.initial : State where
  pool := .initial
  attaching := 0
  opened := 0
  dropping := []
  checking := 0
  retiring := .idle

inductive Label where
  | spawn (worker : Nat)
  | work (worker : Nat) (input : Input)
  | attach
  | attachOpen
  | attachInsert
  | fire (conn : Nat)
  | detach (conn : Nat)
  | detachDrop (conn : Nat)
  | detachCheck
  | retireWake
  | retireClose

def State.handed (state : State) (conn : Nat) : Bool :=
  if conn = 0 then state.pool.failed else conn ≤ state.pool.connSeq

def step (state : State) : Label → Option State
  | .spawn worker =>
    match state.pool.workers worker with
    | .absent => some { state with pool := state.pool.place worker .starting }
    | _ => none
  | .work worker input =>
    (work state.pool worker input).map fun pool => { state with pool }
  | .attach =>
    if state.pool.failed then none else some { state with attaching := state.attaching + 1 }
  | .attachOpen =>
    if state.attaching = 0 then none
    else some { state with
      pool := { state.pool with closed := false }
      attaching := state.attaching - 1
      opened := state.opened + 1 }
  | .attachInsert =>
    if state.opened = 0 then none
    else some { state with
      pool := { state.pool with
        connSeq := state.pool.connSeq + 1
        sessions := state.pool.sessions.insert (state.pool.connSeq + 1) .null }
      opened := state.opened - 1 }
  | .fire conn =>
    if state.handed conn then some { state with pool := state.pool.submit conn } else none
  | .detach conn =>
    if state.handed conn then
      some { state with
        pool := { state.pool with sessions := state.pool.sessions.erase conn }
        dropping := conn :: state.dropping }
    else none
  | .detachDrop conn =>
    if conn ∈ state.dropping then
      some { state with
        pool := state.pool.dropConn conn
        dropping := state.dropping.erase conn
        checking := state.checking + 1 }
    else none
  | .detachCheck =>
    if state.checking = 0 then none
    else some { state with
      checking := state.checking - 1
      retiring :=
        if FiniteMap.size state.pool.sessions = 0 ∧ state.retiring = .idle then .sleeping
        else state.retiring }
  | .retireWake =>
    if state.retiring = .sleeping then
      some { state with retiring :=
        if FiniteMap.size state.pool.sessions = 0 then .resolved else .idle }
    else none
  | .retireClose =>
    if state.retiring = .resolved then
      some { state with pool := state.pool.close, retiring := .idle }
    else none

def system : StepSystem.System State Label := ⟨.initial, step⟩

end OnlyJs.Bridge.FramePool
