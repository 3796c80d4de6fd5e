import OnlyJs.Oj.CronDriver
import OnlyJs.Oj.Platform
import OnlyJs.Oj.Reload.Contracts
import OnlyJs.Oj.Reload.Locks

/-!
# The server that is reloaded

What all generations share, what belongs to the running one, and what a reload finds
outside: the files it reads, and how the steps end that leave the process.
-/

namespace OnlyJs.Oj.Reload

open Bridge.TaskPool Contract Serve

set_option autoImplicit false

structure Yaml where
  Doc : Type
  Section : Type
  sections : DecidableEq Section
  get : Doc → String → Option Section
  fromSlice : List UInt8 → Except String Doc
  docSha : Doc → Except String String

variable {host : Host} {yaml : Yaml}

/-- `stopping` says that the pool has been told to stop. -/
structure Pool where
  registry : Registry
  stopping : Bool

structure Tasking where
  /-- The tasks that have a thread of their own. -/
  sup : Option (List String)
  pool : Option Pool

structure Router where
  tables : List MountTable
  routeTimeouts : List (List Char × Nat)
  /-- The task routes are merged in. -/
  tasksApi : Bool

structure PerGenAssembly where
  modules : List (Platform.Path × String)
  sqlGuard : Bridge.Runtime.SqlGuard
  ownershipDeny : Bool
  allowAsTenant : Bool

structure Server (host : Host) (yaml : Yaml) where
  generation : Nat
  cfgSha256 : String
  modules : List String
  router : Router
  contracts : InputContractRegistry host
  assembly : PerGenAssembly
  tasking : Tasking
  /-- The stop flag of the running task generation. -/
  taskFlag : Bool
  currentDoc : yaml.Doc
  currentSha : String
  currentLocks : Locks
  /-- The executor has been injected. -/
  executor : Bool

def Pool.running (pool : Pool) : List String :=
  if pool.stopping then [] else pool.registry.list.map TaskEntry.name

def Tasking.running (tasking : Tasking) : List String :=
  tasking.sup.getD [] ++ (tasking.pool.map Pool.running).getD []

def Tasking.stop (tasking : Tasking) : Tasking where
  sup := none
  pool := tasking.pool.map fun pool => { pool with stopping := true }

/-- Nothing is left to stop. -/
def Tasking.Idle (tasking : Tasking) : Prop :=
  tasking.sup = none ∧ ∀ pool ∈ tasking.pool, pool.stopping = true

/-- What stays the same over all generations. `platform` are the granted module names. -/
structure Context where
  matcher : Matcher
  certPath : Option String
  keyPath : Option String
  platform : Option (List String)
  auth : Bool
  boot : Bool

/-- An expired certificate panics. -/
inductive Certificate where
  | loaded
  | refused (error : String)
  | expired

inductive StopOld where
  | stopped
  | joinFailed (error : String)
  | timedOut

/-- One reload, with all that it reads and the ends of the steps that leave the process.
`lockMounts` and `mounts` resolve the mounts at two different moments. -/
structure Attempt where
  force : Bool
  /-- Another reload holds the lock. -/
  busy : Bool
  loadCfg : Except String Config
  foldMounts : Config → Except String Config
  readConfig : Except String (List UInt8)
  lockMounts : Except String (List ResolvedMount)
  loadLock : FilePath → Except String Lock
  mounts : Except String (List ResolvedMount)
  buildModules : Except String (List (Platform.Path × String))
  verify : Except String Unit
  prewarm : Except String Unit
  tables : Except String (List MountTable)
  certificate : Certificate
  parseDuration : String → Except String Nat
  wsMounts : Except String Unit
  scan : Except String (List (String × String))
  /-- Which of the tasks run in the pool. -/
  probe : Except String (List Bool)
  eventLog : Except String Unit
  crontab : List (Except String Tasks.CrontabLine)
  cronDriver : Except String Unit
  spawnSelected : Except String Unit
  stopOld : StopOld

def readCrontab (registry : Registry) :
    List (Except String Tasks.CrontabLine) → Except String Registry
  | [] => .ok registry
  | line :: rest =>
    line.bind fun line =>
      (Tasks.assembleCrontab registry [line]).bind fun registry => readCrontab registry rest

def probeTasks (attempt : Attempt) (scanned : List (String × String)) :
    Except String (List Bool) :=
  if scanned.isEmpty then .ok [] else attempt.probe

def spawnCronDriver (attempt : Attempt) (registry : Registry) : Except String Unit :=
  if !registry.list.isEmpty && !attempt.crontab.isEmpty then attempt.cronDriver else .ok ()

def spawnSupervisor (attempt : Attempt) (tla : List (String × String)) : Except String Unit :=
  if tla.isEmpty then .ok () else attempt.spawnSelected

/-- A pool is started when there is a task for it, the cron driver when there is a line of
the crontab, and threads for the tasks that the pool does not run. All of them wait at the
gate until the generation before has ended. -/
def assembleTasking (attempt : Attempt) : Except String Tasking := do
  let scanned ← attempt.scan
  let loops ← probeTasks attempt scanned
  let sorted := scanned.zip loops
  let pooled := (sorted.filter Prod.snd).map Prod.fst
  let tla := (sorted.filter fun task => !task.2).map Prod.fst
  attempt.eventLog.mapError ("task event log: " ++ ·)
  let longs := pooled.foldl
    (fun (registry : Registry) task => registry.upsert (.long task.1 task.2)) ∅
  let registry ← readCrontab longs attempt.crontab
  spawnCronDriver attempt registry
  spawnSupervisor attempt tla
  let pool : Pool := {
    registry
    stopping := false }
  return {
    sup := if tla.isEmpty then none else some (tla.map Prod.fst)
    pool := if registry.list.isEmpty then none else some pool }

end OnlyJs.Oj.Reload
