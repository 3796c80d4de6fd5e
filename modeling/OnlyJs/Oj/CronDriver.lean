import Mathlib.Data.List.MinMax
import OnlyJs.Bridge.TaskPool.Worker

/-!
# The cron driver

A thread sleeps until the cron entry that is due first, then reads the entry again,
advances it and puts a job into the queue of the task pool. Meanwhile the control plane
changes entries and asks for single runs, and the workers run the jobs. One clock serves
all; it stands still during a step and never goes back.
-/

namespace OnlyJs.Oj.Tasks

open Bridge.TaskPool Lib

set_option autoImplicit false

inductive Driver where
  | gate
  | listing
  | idling (since wake : Nat)
  | sleeping (name : String) (since wake : Nat)
  | due (name : String)
  | resolved (name : String) (job : OnceJob) (next : Option Nat)
  | submitting (job : OnceJob)
  | stopped
deriving DecidableEq

inductive Firing where
  | fired (name : String) (expr : CronExpr) (scheduled : Option Nat) (moment : Nat)
  | submitted (name : String)
deriving DecidableEq

/-- `requests` are the single runs whose check has passed and that are not yet queued. -/
structure Cron where
  pool : State
  clock : Nat
  flag : Bool
  driver : Driver
  requests : List OnceJob
  history : List Firing

namespace Cron

def earliest (registry : Registry) : Option (Nat × TaskEntry) :=
  (registry.list.filterMap fun entry => entry.due.map fun due => (due, entry)).argmin Prod.fst

/-- `cron_resolved_next`: the next run of an entry that is still an enabled cron entry. -/
def resolvedNext (fresh : TaskEntry) (now : Nat) : Option (Option Nat) :=
  match fresh.kind, fresh.enabled with
  | .cron expr _, true => some (expr.nextAfter now)
  | _, _ => none

def firing (registry : Registry) (name : String) (now : Nat) : List Firing :=
  match (registry.get name).map TaskEntry.kind with
  | some (.cron expr scheduled) => [.fired name expr scheduled now]
  | _ => []

def submit (cron : Cron) (job : OnceJob) : Cron :=
  { cron with pool := { cron.pool with jobs := cron.pool.jobs ++ [job] } }

def drive (cron : Cron) : Option Cron :=
  match cron.driver with
  | .gate =>
    if cron.flag then some { cron with driver := .stopped }
    else if cron.pool.resume then some { cron with driver := .listing }
    else none
  | .listing =>
    match earliest cron.pool.registry with
    | none => some { cron with driver := .idling cron.clock (cron.clock + nanosPerSecond) }
    | some (due, entry) =>
      some { cron with
        driver := .sleeping entry.name cron.clock (cron.clock + (due - cron.clock)) }
  | .idling _ wake =>
    if wake ≤ cron.clock then some { cron with driver := .gate } else none
  | .sleeping name _ wake =>
    if wake ≤ cron.clock then some { cron with driver := .due name } else none
  | .due name =>
    match cron.pool.registry.get name with
    | none => some { cron with driver := .gate }
    | some fresh =>
      match resolvedNext fresh cron.clock with
      | none => some { cron with driver := .gate }
      | some next =>
        some { cron with driver := .resolved name ⟨fresh.name, fresh.path⟩ next }
  | .resolved name job next =>
    some { cron with
      pool := { cron.pool with registry := cron.pool.registry.setNextRun name next }
      driver := .submitting job
      history := firing cron.pool.registry name cron.clock ++ cron.history }
  | .submitting job =>
    some { cron.submit job with
      driver := .gate
      history := .submitted job.name :: cron.history }
  | .stopped => none

def leave (cron : Cron) : Option Cron :=
  if cron.flag then
    match cron.driver with
    | .idling _ _ => some { cron with driver := .stopped }
    | .sleeping _ _ _ => some { cron with driver := .stopped }
    | _ => none
  else none

/-- The check of `run-once`: a cron task that is not running. -/
def request (registry : Registry) (name : String) : Option OnceJob :=
  match registry.get name with
  | some entry =>
    match entry.kind with
    | .cron _ _ => if entry.status = .running then none else some ⟨entry.name, entry.path⟩
    | .long => none
  | none => none

end Cron

inductive CronLabel where
  | tick (nanos : Nat)
  | drive
  | leave
  | stop
  | command (command : Command)
  | request (name : String)
  | send (job : OnceJob)
  | work (worker : Nat) (input : Input)
  | shutdown
  | resume

def timely (clock : Nat) : Command → Bool
  | .setCronExpr _ _ now => now = clock
  | _ => true

def cronStep (timeout : Nat) (cron : Cron) : CronLabel → Option Cron
  | .tick nanos => some { cron with clock := cron.clock + nanos }
  | .drive => cron.drive
  | .leave => cron.leave
  | .stop => some { cron with flag := true }
  | .command command =>
    if timely cron.clock command then
      some { cron with
        pool := { cron.pool with registry := cron.pool.registry.command command } }
    else none
  | .request name =>
    (Cron.request cron.pool.registry name).map fun job =>
      { cron with requests := cron.requests ++ [job] }
  | .send job =>
    if job ∈ cron.requests then
      some { cron.submit job with requests := cron.requests.erase job }
    else none
  | .work worker input => (work timeout cron.pool worker input).map fun pool => { cron with pool }
  | .shutdown => some { cron with pool := { cron.pool with shutdown := true } }
  | .resume => some { cron with pool := { cron.pool with resume := true } }

structure CrontabLine where
  line : Nat
  name : String
  path : String
  expr : CronExpr
  now : Nat

def assembleCrontab (registry : Registry) : List CrontabLine → Except String Registry
  | [] => .ok registry
  | entry :: rest =>
    if (registry.get entry.name).isSome then
      .error s!"crontab:{entry.line}: task '{entry.name}' duplicates a pool task"
    else
      assembleCrontab (registry.upsert (.cron entry.name entry.path entry.expr entry.now)) rest

def assembleTasks (pooled : List (String × String)) (crontab : List CrontabLine) :
    Except String Registry :=
  assembleCrontab
    (pooled.foldl (fun registry task => registry.upsert (.long task.1 task.2)) ∅) crontab

def Cron.initial (registry : Registry) (workers clock : Nat) (resume : Bool) : Cron where
  pool := spawn registry workers resume
  clock := clock
  flag := false
  driver := .gate
  requests := []
  history := []

def cronSystem (timeout : Nat) (registry : Registry) (workers clock : Nat) (resume : Bool) :
    StepSystem.System Cron CronLabel :=
  ⟨.initial registry workers clock resume, cronStep timeout⟩

end OnlyJs.Oj.Tasks
