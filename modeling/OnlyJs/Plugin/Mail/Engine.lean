import OnlyJs.Lib.StepSystem

/-!
# The mail engine

A submission takes a clone of the queue's sender, looks its profile up, and tries to put its job
into the bounded queue; the clone is dropped as the submission returns. Workers take jobs, hand
them to the transport and report one result for each, through the reply channel or through the
callback. A worker exits when the queue is empty and every sender is gone, and signals it. A
drain drops the engine's own sender, waits for the signals up to its deadline, and destroys the
runtime; it returns `Ok` if it has as many signals as there are workers.
-/

namespace OnlyJs.Plugin.Mail

open Lib.StepSystem

set_option autoImplicit false

/-- `with_rt` refuses an engine without workers or without capacity. -/
structure Config where
  workers : Nat
  capacity : Nat
  workersPos : 0 < workers
  capacityPos : 0 < capacity

structure Job where
  id : Nat
  enqueueOnly : Bool
deriving DecidableEq

inductive Answer where
  /-- `code:4` -/
  | queueFull
  /-- `STOPPED` -/
  | stopped
  /-- `code:5`, for attachments over the limits -/
  | validation
  | unknownProfile
  /-- The envelope with the job's number. -/
  | enqueued
  | result
  /-- The task that forwards the reply went down with the runtime. -/
  | lost
deriving DecidableEq

/-- How far `submit` has come. -/
inductive Phase where
  | entered
  | cloned
  | checked
  | queued
  | waiting
  | answered (answer : Answer)
deriving DecidableEq

/-- The clone of the sender lives until `submit` returns. -/
def Phase.holds : Phase → Bool
  | .cloned | .checked | .queued => true
  | _ => false

structure Submission where
  enqueueOnly : Bool
  phase : Phase
deriving DecidableEq

inductive Worker where
  | idle
  | holding (job : Job)
  | sending (job : Job)
  | exited
  | killed (job : Option Job)
deriving DecidableEq

def Worker.job : Worker → Option Job
  | .holding job | .sending job => some job
  | .killed job => job
  | _ => none

/-- How far `drain` has come. `leaving` is a drain that has broken off its wait. -/
inductive DrainPhase where
  | called
  | waiting
  | leaving
  | disposing
  | returned
deriving DecidableEq

structure Drain where
  got : Nat
  phase : DrainPhase
deriving DecidableEq

/-- `delivered` are the jobs handed to the transport, `rejected` those whose result is a
validation code. `late` notes a job that was accepted when a drain had returned, `gaveUp` a
drain that ran into its deadline before the accepted jobs had finished. -/
structure Engine where
  txOpen : Bool
  targetsThere : Bool
  rtThere : Bool
  queue : List Job
  workers : List Worker
  submissions : List Submission
  drains : List Drain
  signals : Nat
  accepted : List Job
  delivered : List Job
  rejected : List Job
  replied : List Job
  emitted : List Job
  late : Bool
  gaveUp : Bool
deriving DecidableEq

def Engine.initial (config : Config) : Engine where
  txOpen := true
  targetsThere := true
  rtThere := true
  queue := []
  workers := List.replicate config.workers .idle
  submissions := []
  drains := []
  signals := 0
  accepted := []
  delivered := []
  rejected := []
  replied := []
  emitted := []
  late := false
  gaveUp := false

def Engine.setPhase (engine : Engine) (index : Nat) (submission : Submission) (phase : Phase) :
    Engine :=
  { engine with submissions := engine.submissions.set index { submission with phase } }

def Engine.answer (engine : Engine) (index : Nat) (submission : Submission) (answer : Answer) :
    Engine :=
  engine.setPhase index submission (.answered answer)

def Engine.setWorker (engine : Engine) (index : Nat) (worker : Worker) : Engine :=
  { engine with workers := engine.workers.set index worker }

def Engine.setDrain (engine : Engine) (index : Nat) (drain : Drain) : Engine :=
  { engine with drains := engine.drains.set index drain }

def Engine.deserted (engine : Engine) : Bool :=
  engine.workers.all fun worker =>
    match worker with
    | .exited | .killed _ => true
    | _ => false

def Engine.closed (engine : Engine) : Bool :=
  !engine.txOpen && (engine.submissions.all fun submission => !submission.phase.holds) &&
    engine.queue.isEmpty

def Engine.finished (engine : Engine) : Bool :=
  engine.queue.isEmpty && engine.workers.all fun worker => worker.job.isNone

/-- `run_job` behind the transport. -/
def Engine.report (engine : Engine) (index : Nat) (job : Job) : Engine :=
  let idle := engine.setWorker index .idle
  if job.enqueueOnly then { idle with emitted := engine.emitted ++ [job] }
  else { idle with replied := engine.replied ++ [job] }

/-- What the checks of `submit` say of a request. -/
inductive Check where
  | passes
  | unknownProfile
  | overLimit
deriving DecidableEq

inductive Label where
  | submit (enqueueOnly : Bool)
  | obtain_ (index : Nat)
  | look (index : Nat) (check : Check)
  | trySend (index : Nat)
  | attach (index : Nat)
  | forward (index : Nat)
  | lose (index : Nat)
  | take (worker : Nat)
  /-- The job is handed to the transport. -/
  | invoke (worker : Nat)
  /-- The job is invalid: its result says so, and nothing is handed over. -/
  | reject (worker : Nat)
  /-- The transport has succeeded, has failed, or has exceeded its timeout. -/
  | report (worker : Nat)
  | exit (worker : Nat)
  | kill (worker : Nat)
  | drain
  | close (drain : Nat)
  | signal (drain : Nat)
  | giveUp (drain : Nat)
  | disconnect (drain : Nat)
  | dispose (drain : Nat)
  | return_ (drain : Nat)
deriving DecidableEq

section Steps

variable (config : Config)

def Engine.onSubmission (engine : Engine) (index : Nat) (phase : Phase)
    (next : Submission → Option Engine) : Option Engine :=
  engine.submissions[index]?.bind fun submission =>
    if submission.phase = phase then next submission else none

def Engine.onDrain (engine : Engine) (index : Nat) (next : Drain → Option Engine) :
    Option Engine :=
  engine.drains[index]?.bind next

def Engine.look (engine : Engine) (index : Nat) (submission : Submission) (check : Check) :
    Engine :=
  if engine.targetsThere then
    match check with
    | .passes => engine.setPhase index submission .checked
    | .unknownProfile => engine.answer index submission .unknownProfile
    | .overLimit => engine.answer index submission .validation
  else engine.answer index submission .stopped

def Drain.isReturned (drain : Drain) : Bool := drain.phase = .returned

def Engine.trySend (engine : Engine) (index : Nat) (submission : Submission) : Engine :=
  if engine.deserted then engine.answer index submission .stopped
  else if engine.queue.length ≥ config.capacity then engine.answer index submission .queueFull
  else
    let job : Job := ⟨index, submission.enqueueOnly⟩
    let accepted :=
      if submission.enqueueOnly then engine.answer index submission .enqueued
      else engine.setPhase index submission .queued
    { accepted with
      queue := engine.queue ++ [job]
      accepted := engine.accepted ++ [job]
      late := engine.late || engine.drains.any Drain.isReturned }

def Engine.attach (engine : Engine) (index : Nat) (submission : Submission) : Engine :=
  if engine.rtThere then engine.setPhase index submission .waiting
  else engine.answer index submission .stopped

def Engine.submissionStep (engine : Engine) : Label → Option Engine
  | .submit enqueueOnly =>
    some { engine with submissions := engine.submissions ++ [⟨enqueueOnly, .entered⟩] }
  | .obtain_ index => engine.onSubmission index .entered fun submission =>
    some (if engine.txOpen then engine.setPhase index submission .cloned
      else engine.answer index submission .stopped)
  | .look index check => engine.onSubmission index .cloned fun submission =>
    some (engine.look index submission check)
  | .trySend index => engine.onSubmission index .checked fun submission =>
    some (engine.trySend config index submission)
  | .attach index => engine.onSubmission index .queued fun submission =>
    some (engine.attach index submission)
  | .forward index => engine.onSubmission index .waiting fun submission =>
    if ⟨index, submission.enqueueOnly⟩ ∈ engine.replied then
      some (engine.answer index submission .result)
    else none
  | .lose index => engine.onSubmission index .waiting fun submission =>
    if engine.rtThere then none else some (engine.answer index submission .lost)
  | _ => none

def Engine.workerStep (engine : Engine) : Label → Option Engine
  | .take index =>
    match engine.workers[index]?, engine.queue with
    | some .idle, job :: rest => some { engine.setWorker index (.holding job) with queue := rest }
    | _, _ => none
  | .invoke index =>
    match engine.workers[index]? with
    | some (.holding job) =>
      some { engine.setWorker index (.sending job) with
        delivered := engine.delivered ++ [job] }
    | _ => none
  | .reject index =>
    match engine.workers[index]? with
    | some (.holding job) =>
      some { engine.report index job with rejected := engine.rejected ++ [job] }
    | _ => none
  | .report index =>
    match engine.workers[index]? with
    | some (.sending job) => some (engine.report index job)
    | _ => none
  | .exit index =>
    match engine.workers[index]? with
    | some .idle =>
      if engine.closed then
        some { engine.setWorker index .exited with signals := engine.signals + 1 }
      else none
    | _ => none
  | .kill index =>
    match engine.workers[index]? with
    | some .exited | some (.killed _) | none => none
    | some worker =>
      if engine.rtThere then none else some (engine.setWorker index (.killed worker.job))
  | _ => none

def Engine.drainStep (engine : Engine) : Label → Option Engine
  | .drain => some { engine with drains := engine.drains ++ [⟨0, .called⟩] }
  | .close index => engine.onDrain index fun drain =>
    if drain.phase = .called then
      some { engine.setDrain index { drain with phase := .waiting } with txOpen := false }
    else none
  | .signal index => engine.onDrain index fun drain =>
    if drain.phase = .waiting ∧ drain.got < config.workers ∧ 0 < engine.signals then
      some { engine.setDrain index { drain with got := drain.got + 1 } with
        signals := engine.signals - 1 }
    else none
  | .giveUp index => engine.onDrain index fun drain =>
    if drain.phase = .waiting ∧ drain.got < config.workers then
      some { engine.setDrain index { drain with phase := .leaving } with
        gaveUp := engine.gaveUp || !engine.finished }
    else none
  | .disconnect index => engine.onDrain index fun drain =>
    if drain.phase = .waiting ∧ drain.got < config.workers ∧ engine.signals = 0 ∧
        engine.deserted then
      some (engine.setDrain index { drain with phase := .leaving })
    else none
  | .dispose index => engine.onDrain index fun drain =>
    if drain.phase = .leaving ∨ (drain.phase = .waiting ∧ drain.got = config.workers) then
      some { engine.setDrain index { drain with phase := .disposing } with rtThere := false }
    else none
  | .return_ index => engine.onDrain index fun drain =>
    if drain.phase = .disposing then
      some { engine.setDrain index { drain with phase := .returned } with targetsThere := false }
    else none
  | _ => none

def Engine.step (engine : Engine) (label : Label) : Option Engine :=
  match label with
  | .submit _ | .obtain_ _ | .look _ _ | .trySend _ | .attach _ | .forward _ | .lose _ =>
    engine.submissionStep config label
  | .take _ | .invoke _ | .reject _ | .report _ | .exit _ | .kill _ => engine.workerStep label
  | _ => engine.drainStep config label

def system : System Engine Label where
  init := .initial config
  step := Engine.step config

end Steps

end OnlyJs.Plugin.Mail
