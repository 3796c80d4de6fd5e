import OnlyJs.Bridge.FramePool.Pool

/-!
# The threads of a route

The frame pool with what keeps its workers going: the notifications of the scheduler, the
count of live workers, the workers that an attaching connection or the loss of another
worker brings up. A preload always succeeds. A step is one critical section or one atomic
access; each of them is a step of the pool or leaves the pool alone.
-/

namespace OnlyJs.Bridge.FramePool

open Lib

/-- Where a worker stands in `pull`. It has noted how often all waiting workers had been
woken when it made its notification. -/
inductive Pull where
  | fresh
  | checking (round : Nat)
  | awaiting (round : Nat)
  | parked
deriving DecidableEq

/-- A worker is in `worker_main` or in the recovery after a panic, in `pull`, or about to
be gone: `leaving` has seen the pool closed and not yet given up its count. `lost`
has run into a limit or a panic; it gives up its count, looks at the count and then at the
sessions, and is replaced. -/
inductive Thread where
  | gone
  | started
  | pulling (pull : Pull)
  | leaving
  | lost
  | counted
  | short
  | replacing
deriving DecidableEq

/-- `permit` is the stored notification, `round` counts the calls that wake all waiting
workers, and `parked` are the waiting ones, the first first. `quiet` and `loud` count the
calls of `attach` that have passed the scheduler, without and with workers to spawn;
`spawning` counts the workers that are still to be spawned. `notifying` and
`broadcasting` count the calls that have left the scheduler and not yet notified one or
all. `owed` are the frames fired on a connection with a session, `crashed` those whose
worker panicked. -/
structure Route where
  state : State
  live : Nat
  permit : Bool
  round : Nat
  parked : List Nat
  threads : Nat → Thread
  quiet : Nat
  loud : Nat
  spawning : Nat
  notifying : Nat
  broadcasting : Nat
  owed : List Nat
  crashed : List Nat

namespace Route

def initial : Route where
  state := .initial
  live := 0
  permit := false
  round := 0
  parked := []
  threads := fun _ => .gone
  quiet := 0
  loud := 0
  spawning := 0
  notifying := 0
  broadcasting := 0
  owed := []
  crashed := []

def pool (route : Route) : Pool := route.state.pool

def become (route : Route) (worker : Nat) (thread : Thread) : Route :=
  { route with threads := Function.update route.threads worker thread }

def withPool (route : Route) (pool : Pool) : Route :=
  { route with state := { route.state with pool } }

def hasSessions (route : Route) : Bool := FiniteMap.size route.pool.sessions ≠ 0

/-- `notify_one`: the first waiting worker is woken, or the permit is stored. -/
def notifyOne (route : Route) : Route :=
  match route.parked with
  | [] => { route with permit := true }
  | worker :: rest => { route with parked := rest }.become worker (.pulling .fresh)

/-- `notify_waiters`: all waiting workers are woken, and nothing is stored. -/
def notifyWaiters (route : Route) : Route :=
  { route with
    round := route.round + 1
    parked := []
    threads := fun worker =>
      if route.threads worker = .pulling .parked then .pulling .fresh
      else route.threads worker }

/-- What a worker outside `pull` becomes by its next phase. -/
def afterwards : Phase → Thread
  | .absent => .lost
  | .pulling => .pulling .fresh
  | _ => .started

/-- What the step of a worker in this phase adds to the record. -/
def crash (phase : Phase) (input : Input) : List Nat :=
  match phase, input with
  | .running frame _, .panic => [frame.id]
  | _, _ => []

/-- `complete` notifies in the end. -/
def notifies : Phase → Nat
  | .ended _ _ => 1
  | _ => 0

/-- The step of a worker in `pull`. -/
def pull (route : Route) (worker : Nat) : Pull → Option Route
  | .fresh => some (route.become worker (.pulling (.checking route.round)))
  | .checking round =>
    match FramePool.work route.pool worker .proceed with
    | some pool =>
      some ((route.withPool pool).become worker
        (match pool.workers worker with
          | .absent => .leaving
          | _ => .started))
    | none => some (route.become worker (.pulling (.awaiting round)))
  | .awaiting round =>
    if route.permit then
      some ({ route with permit := false }.become worker (.pulling .fresh))
    else if round ≠ route.round then some (route.become worker (.pulling .fresh))
    else some ({ route with parked := route.parked ++ [worker] }.become worker
      (.pulling .parked))
  | .parked => none

def work (route : Route) (worker : Nat) (input : Input) : Option Route :=
  match route.threads worker, input with
  | .started, .fail => none
  | .started, input =>
    (FramePool.work route.pool worker input).map fun pool =>
      { (route.withPool pool).become worker (afterwards (pool.workers worker)) with
        notifying := route.notifying + notifies (route.pool.workers worker)
        crashed := crash (route.pool.workers worker) input ++ route.crashed }
  | .pulling pull, .proceed => route.pull worker pull
  | _, _ => none

def discount (route : Route) (worker : Nat) : Option Route :=
  match route.threads worker with
  | .leaving => some ({ route with live := route.live - 1 }.become worker .gone)
  | .lost => some ({ route with live := route.live - 1 }.become worker .counted)
  | _ => none

/-- `respawn_if_needed`, with the two tests apart. -/
def measure (route : Route) (workers worker : Nat) : Option Route :=
  match route.threads worker with
  | .counted =>
    some (route.become worker (if route.live < max workers 1 then .short else .gone))
  | .short => some (route.become worker (if route.hasSessions then .replacing else .gone))
  | _ => none

def spawnWorker (route : Route) (worker : Nat) : Option Route :=
  if route.threads worker = .gone then
    (step route.state (.spawn worker)).map fun state =>
      { route with state, live := route.live + 1 }.become worker .started
  else none

end Route

inductive RouteLabel where
  | attach
  | attachOpen
  | attachInsert (spawns : Bool)
  | attachSpawn (worker : Nat)
  | fire (conn : Nat)
  | detach (conn : Nat)
  | detachDrop (conn : Nat)
  | detachCheck
  | retireWake
  | retireClose
  | notify
  | broadcast
  | work (worker : Nat) (input : Input)
  | discount (worker : Nat)
  | measure (worker : Nat)
  | replace (worker new : Nat)

/-- The steps of a route of so many workers. -/
def routeStep (workers : Nat) (route : Route) : RouteLabel → Option Route
  | .attach => (step route.state .attach).map fun state => { route with state }
  | .attachOpen =>
    (step route.state .attachOpen).map fun state =>
      if route.pool.closed ∨ route.live = 0 then { route with state, loud := route.loud + 1 }
      else { route with state, quiet := route.quiet + 1 }
  | .attachInsert true =>
    if route.loud = 0 then none
    else (step route.state .attachInsert).map fun state =>
      { route with
        state
        loud := route.loud - 1
        spawning := route.spawning + max workers 1 }
  | .attachInsert false =>
    if route.quiet = 0 then none
    else (step route.state .attachInsert).map fun state =>
      { route with state, quiet := route.quiet - 1 }
  | .attachSpawn worker =>
    if route.spawning = 0 then none
    else (route.spawnWorker worker).map fun route =>
      { route with spawning := route.spawning - 1 }
  | .fire conn =>
    (step route.state (.fire conn)).map fun state =>
      { route with
        state
        -- a frame that is refused notifies nobody
        notifying := route.notifying + if route.pool.closed then 0 else 1
        owed :=
          if (route.pool.sessions.lookup conn).isSome then route.pool.nextFrame :: route.owed
          else route.owed }
  | .detach conn => (step route.state (.detach conn)).map fun state => { route with state }
  | .detachDrop conn =>
    (step route.state (.detachDrop conn)).map fun state => { route with state }
  | .detachCheck => (step route.state .detachCheck).map fun state => { route with state }
  | .retireWake => (step route.state .retireWake).map fun state => { route with state }
  | .retireClose =>
    (step route.state .retireClose).map fun state =>
      { route with state, broadcasting := route.broadcasting + 1 }
  | .notify =>
    if route.notifying = 0 then none
    else some { route with notifying := route.notifying - 1 }.notifyOne
  | .broadcast =>
    if route.broadcasting = 0 then none
    else some { route with broadcasting := route.broadcasting - 1 }.notifyWaiters
  | .work worker input => route.work worker input
  | .discount worker => route.discount worker
  | .measure worker => route.measure workers worker
  | .replace worker new =>
    if route.threads worker = .replacing then
      (route.become worker .gone).spawnWorker new
    else none

def routeSystem (workers : Nat) : StepSystem.System Route RouteLabel :=
  ⟨.initial, routeStep workers⟩

end OnlyJs.Bridge.FramePool
