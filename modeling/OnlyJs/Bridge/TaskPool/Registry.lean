import OnlyJs.Bridge.TaskPool.Cron

/-!
# The task registry

The entries of all tasks in the order of their names. Commands turn the desired state of
an entry; its status is for the workers to set. The moment of a command is given to it.
Start and finish times of a run, which nothing here reads, are left out.
-/

namespace OnlyJs.Bridge.TaskPool

inductive TaskKind where
  | long
  | cron (expr : CronExpr) (nextRun : Option Nat)
deriving DecidableEq

inductive TaskStatus where
  | pending
  | running
  | stopped
  | failed
deriving DecidableEq

structure TaskEntry where
  name : String
  path : String
  kind : TaskKind
  enabled : Bool
  status : TaskStatus
  lastError : Option String
  runCount : Nat
  reloadPending : Bool
deriving DecidableEq

namespace TaskEntry

def long (name path : String) : TaskEntry where
  name := name
  path := path
  kind := .long
  enabled := true
  status := .pending
  lastError := none
  runCount := 0
  reloadPending := false

def cron (name path : String) (expr : CronExpr) (now : Nat) : TaskEntry :=
  { long name path with kind := .cron expr (expr.nextAfter now) }

def wanted (entry : TaskEntry) : Bool := entry.enabled && entry.status ≠ .failed

def plan (entry : TaskEntry) : String × TaskKind × Bool :=
  (entry.name, entry.kind, entry.enabled)

def due (entry : TaskEntry) : Option Nat :=
  match entry.kind, entry.enabled with
  | .cron _ nextRun, true => nextRun
  | _, _ => none

end TaskEntry

abbrev Registry := Std.TreeMap String TaskEntry

namespace Registry

def get (registry : Registry) (name : String) : Option TaskEntry := registry[name]?

def upsert (registry : Registry) (entry : TaskEntry) : Registry :=
  registry.insert entry.name entry

def remove (registry : Registry) (name : String) : Registry := registry.erase name

def list (registry : Registry) : List TaskEntry := registry.toList.map Prod.snd

def snapshot (registry : Registry) (name : String) : Option (Bool × TaskStatus × String) :=
  (registry.get name).map fun entry => (entry.wanted, entry.status, entry.path)

def update (registry : Registry) (name : String) (change : TaskEntry → TaskEntry) : Registry :=
  registry.modify name change

def setEnabled (registry : Registry) (name : String) (enabled : Bool) : Registry :=
  registry.update name fun entry => { entry with enabled }

def start (registry : Registry) (name : String) : Registry :=
  registry.update name fun entry =>
    if entry.status = .failed then
      { entry with enabled := true, status := .pending, lastError := none }
    else { entry with enabled := true }

def setCronExpr (registry : Registry) (name : String) (expr : CronExpr) (now : Nat) : Registry :=
  registry.update name fun entry =>
    match entry.kind with
    | .cron _ _ => { entry with kind := .cron expr (expr.nextAfter now) }
    | .long => entry

def requestReload (registry : Registry) (name : String) : Registry :=
  registry.update name fun entry => { entry with reloadPending := true }

def setNextRun (registry : Registry) (name : String) (next : Option Nat) : Registry :=
  registry.update name fun entry =>
    match entry.kind with
    | .cron expr _ => { entry with kind := .cron expr next }
    | .long => entry

def setStatus (registry : Registry) (name : String) (status : TaskStatus)
    (error : Option String) : Registry :=
  registry.update name fun entry => { entry with
    status := status
    lastError := error.orElse fun _ => entry.lastError }

def bumpRun (registry : Registry) (name : String) : Registry :=
  registry.update name fun entry => { entry with runCount := entry.runCount + 1 }

def takeReload (registry : Registry) (name : String) : Bool × Registry :=
  ((registry.get name).any TaskEntry.reloadPending,
    registry.update name fun entry => { entry with reloadPending := false })

variable (registry : Registry) (name other : String)

theorem get_update (change : TaskEntry → TaskEntry) :
    (registry.update name change).get other =
      if name = other then (registry.get other).map change else registry.get other := by
  unfold get update
  rw [Std.TreeMap.getElem?_modify]
  by_cases same : name = other
  · subst same
    simp
  · simp [same]

theorem get_upsert (entry : TaskEntry) :
    (registry.upsert entry).get other =
      if entry.name = other then some entry else registry.get other := by
  unfold get upsert
  rw [Std.TreeMap.getElem?_insert]
  simp

theorem get_remove :
    (registry.remove name).get other = if name = other then none else registry.get other := by
  unfold get remove
  rw [Std.TreeMap.getElem?_erase]
  simp

theorem mem_list_iff (entry : TaskEntry) :
    entry ∈ registry.list ↔ ∃ name, registry.get name = some entry := by
  unfold list get
  simp only [List.mem_map, Prod.exists, exists_eq_right]
  exact exists_congr fun name => Std.TreeMap.mem_toList_iff_getElem?_eq_some

end Registry

/-- What the control plane asks of the registry. -/
inductive Command where
  | setEnabled (name : String) (enabled : Bool)
  | start (name : String)
  | requestReload (name : String)
  | setCronExpr (name : String) (expr : CronExpr) (now : Nat)
  | remove (name : String)
  | upsert (entry : TaskEntry)
deriving DecidableEq

def Registry.command (registry : Registry) : Command → Registry
  | .setEnabled name enabled => registry.setEnabled name enabled
  | .start name => registry.start name
  | .requestReload name => registry.requestReload name
  | .setCronExpr name expr now => registry.setCronExpr name expr now
  | .remove name => registry.remove name
  | .upsert entry => registry.upsert entry

end OnlyJs.Bridge.TaskPool
