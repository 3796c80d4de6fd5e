import OnlyJs.Bridge.TaskPool.Registry
import OnlyJs.Lib.StepSystem

/-!
# The workers of the task pool

Long tasks are dealt out to the workers once, when the pool is spawned. A worker clears
the queue of one-time jobs and then visits its tasks in turn: it takes a snapshot of the
entry, looks whether it holds a session, takes the reload flag, and acts on what it has
noted. A step is one access to the registry, or the begin or the end of a hook.
-/

namespace OnlyJs.Bridge.TaskPool

open Lib

structure OnceJob where
  name : String
  path : String
deriving DecidableEq

inductive Fired where
  | ok
  | core (message : String)
  | oom (limit : Nat)
  | timeout
deriving DecidableEq

structure Seen where
  name : String
  want : Bool
  status : TaskStatus
  path : String
  connected : Bool
deriving DecidableEq

/-- Where a worker goes on after `teardown`, with the tasks left to visit or to close. -/
inductive Next where
  | align (task : Seen) (rest : List String)
  | visit (rest : List String)
  | close (rest : List String)
deriving DecidableEq

inductive Phase where
  | absent
  | holding
  | top
  | clearing
  | working (job : OnceJob)
  | visiting (rest : List String)
  | seen (task : Seen) (rest : List String)
  | aligning (task : Seen) (rest : List String)
  | connecting (task : Seen) (rest : List String)
  | looping (name : String) (session : Nat) (rest : List String)
  | tearing (name : String) (session : Nat) (next : Next)
  | failing (name : String) (session : Nat) (error : String) (rest : List String)
  | closing (rest : List String)
  | panicked
deriving DecidableEq

def Next.phase : Next → Phase
  | .align task rest => .aligning task rest
  | .visit rest => .visiting rest
  | .close rest => .closing rest

structure Worker where
  assigned : List String
  sessions : Std.TreeMap String Nat
  phase : Phase

inductive Event where
  | looped (session : Nat)
  | tornDown (session : Nat)
  | poisoned (session : Nat)
  | dropped (session : Nat)
  | unwound (sessions : List Nat)
deriving DecidableEq

/-- `created` lists the worker and the task of every session that was connected; a
session is known by its place there. `history` lists the events, the latest first. -/
structure State where
  registry : Registry
  jobs : List OnceJob
  shutdown : Bool
  resume : Bool
  workers : Nat → Worker
  created : List (Nat × String)
  history : List Event

namespace State

def place (state : State) (worker : Nat) (phase : Phase) : State :=
  { state with workers :=
      Function.update state.workers worker { state.workers worker with phase } }

def hold (state : State) (worker : Nat) (sessions : Std.TreeMap String Nat) : State :=
  { state with workers :=
      Function.update state.workers worker { state.workers worker with sessions } }

def observe (state : State) (event : Event) : State :=
  { state with history := event :: state.history }

def mark (state : State) (name : String) (status : TaskStatus) (error : Option String) : State :=
  { state with registry := state.registry.setStatus name status error }

def sessions (state : State) (worker : Nat) : Std.TreeMap String Nat :=
  (state.workers worker).sessions

def phase (state : State) (worker : Nat) : Phase := (state.workers worker).phase

end State

def deal (longs : List String) (workers worker : Nat) : List String :=
  (longs.zipIdx.filter fun entry => entry.2 % workers = worker).map Prod.fst

def spawn (registry : Registry) (workers : Nat) (resume : Bool) : State where
  registry := registry
  jobs := []
  shutdown := false
  resume := resume
  workers := fun worker =>
    { assigned := deal ((registry.list.filter fun entry => entry.kind = .long).map
        TaskEntry.name) (max workers 1) worker
      sessions := ∅
      phase := if worker < max workers 1 then .holding else .absent }
  created := []
  history := []

/-- `teardown`: the hook is fired if there is a session. -/
def teardown (state : State) (worker : Nat) (name : String) (next : Next) : State :=
  match (state.sessions worker)[name]? with
  | some session =>
    ((state.hold worker ((state.sessions worker).erase name)).observe
      (.tornDown session)).place worker (.tearing name session next)
  | none => (state.mark name .stopped none).place worker next.phase

def align (state : State) (worker : Nat) (task : Seen) (rest : List String) : State :=
  if task.want && !task.connected then state.place worker (.connecting task rest)
  else if !task.want && task.connected then teardown state worker task.name (.visit rest)
  else if task.want then
    match (state.sessions worker)[task.name]? with
    | some session =>
      ((state.hold worker ((state.sessions worker).erase task.name)).observe
        (.looped session)).place worker (.looping task.name session rest)
    | none =>
      ((state.hold worker ∅).observe (.unwound (state.sessions worker).values)).place worker
        .panicked
  else if task.status = .running ∨ task.status = .pending then
    (state.mark task.name .stopped none).place worker (.visiting rest)
  else state.place worker (.visiting rest)

def lose (state : State) (worker : Nat) (name : String) (session : Nat) (rest : List String)
    (error : String) : State :=
  (((state.observe (.poisoned session)).observe (.dropped session)).mark name .failed
    (some error)).place worker (.visiting rest)

def looped (timeout : Nat) (state : State) (worker : Nat) (name : String) (session : Nat)
    (rest : List String) : Fired → State
  | .ok =>
    ({ state with registry := state.registry.bumpRun name }.hold worker
      ((state.sessions worker).insert name session)).place worker (.visiting rest)
  | .core message =>
    (state.observe (.tornDown session)).place worker (.failing name session message rest)
  | .oom limit =>
    lose state worker name session rest
      s!"loop_body js heap limit exceeded (limit {limit} bytes; server.js_heap_limit_bytes)"
  | .timeout => lose state worker name session rest s!"loop_body timeout ({timeout}ms)"

/-- What the environment decides about a worker's next step. -/
inductive Input where
  | proceed
  | connected (result : Except String Unit)
  | fired (result : Fired)
  | finished (result : Except String Unit)

def work (timeout : Nat) (state : State) (worker : Nat) (input : Input) : Option State :=
  match state.phase worker, input with
  | .holding, .proceed =>
    if state.resume then some (state.place worker .top)
    else if state.shutdown then some (state.place worker .absent)
    else none
  | .top, .proceed =>
    if state.shutdown then
      some (state.place worker (.closing (state.sessions worker).keys))
    else some (state.place worker .clearing)
  | .clearing, .proceed =>
    match state.jobs with
    | [] => some (state.place worker (.visiting (state.workers worker).assigned))
    | job :: rest =>
      let state := { state with jobs := rest }
      -- a job is refused once the pool is stopping
      if state.shutdown then some (state.place worker .clearing)
      else some ((state.mark job.name .running none).place worker (.working job))
  | .working job, .finished (.ok ()) =>
    some (({ state with registry := state.registry.bumpRun job.name }.mark job.name .stopped
      none).place worker .clearing)
  | .working job, .finished (.error error) =>
    some ((state.mark job.name .failed (some error)).place worker .clearing)
  | .visiting [], .proceed => some (state.place worker .top)
  | .visiting (name :: rest), .proceed =>
    match state.registry.snapshot name with
    | none => some (state.place worker (.visiting rest))
    | some (want, status, path) =>
      some (state.place worker
        (.seen ⟨name, want, status, path, (state.sessions worker).contains name⟩ rest))
  | .seen task rest, .proceed =>
    let (reload, registry) := state.registry.takeReload task.name
    let state := { state with registry }
    if reload && task.connected then
      some (teardown state worker task.name (.align task rest))
    else some (state.place worker (.aligning task rest))
  | .aligning task rest, .proceed => some (align state worker task rest)
  | .connecting task rest, .connected (.ok ()) =>
    some (({ state with created := state.created ++ [(worker, task.name)] }.hold worker
      ((state.sessions worker).insert task.name state.created.length)).mark task.name .running
        none |>.place worker (.visiting rest))
  | .connecting task rest, .connected (.error error) =>
    some ((state.mark task.name .failed (some error)).place worker (.visiting rest))
  | .looping name session rest, .fired result =>
    some (looped timeout state worker name session rest result)
  | .failing name session error rest, .fired _ =>
    some (((state.observe (.dropped session)).mark name .failed (some error)).place worker
      (.visiting rest))
  | .tearing name session next, .fired _ =>
    some (((state.observe (.dropped session)).mark name .stopped none).place worker next.phase)
  | .closing [], .proceed => some (state.place worker .absent)
  | .closing (name :: rest), .proceed => some (teardown state worker name (.close rest))
  | .panicked, .proceed =>
    some (state.place worker (if state.shutdown then .absent else .holding))
  | _, _ => none

inductive Label where
  | command (command : Command)
  | submit (job : OnceJob)
  | shutdown
  | resume
  | work (worker : Nat) (input : Input)

def step (timeout : Nat) (state : State) : Label → Option State
  | .command command => some { state with registry := state.registry.command command }
  | .submit job => some { state with jobs := state.jobs ++ [job] }
  | .shutdown => some { state with shutdown := true }
  | .resume => some { state with resume := true }
  | .work worker input => work timeout state worker input

def system (timeout : Nat) (registry : Registry) (workers : Nat) (resume : Bool) :
    StepSystem.System State Label :=
  ⟨spawn registry workers resume, step timeout⟩

end OnlyJs.Bridge.TaskPool
