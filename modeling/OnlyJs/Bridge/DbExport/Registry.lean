import OnlyJs.Bridge.HandleCore
import OnlyJs.Lib.FiniteMap

/-!
# The export registry

One table holds every export task since the process started, next to a ledger of
the artifacts that exports have stored. The two quotas are counted over the
running tasks of the table on each registration. Entries do not leave the table.
-/

namespace OnlyJs.Bridge.DbExport

open Finmap Bridge.HandleCore Lib.FiniteMap

def exportPrefix : String := "export_"

inductive ExportState where
  | running
  | done
  | failed
  | cancelled
deriving DecidableEq

inductive RegisterError where
  | globalFull
  | subjectFull
deriving DecidableEq

def RegisterError.message : RegisterError → String
  | globalFull => "db.export: global export concurrency limit reached, try again later"
  | subjectFull => "db.export: per-subject export concurrency limit reached, try again later"

structure Degraded where
  col : String
  ty : String
deriving DecidableEq

/-- What the consumer of a task submits when it ends. -/
inductive Finish where
  | done (rows bytes : Nat) (truncated : Bool) (truncatedReason : Option String)
      (blobKey : String) (degraded : List Degraded)
  | failed (rows bytes : Nat) (error : String)
  | cancelled (rows bytes : Nat)
deriving DecidableEq

def Finish.state : Finish → ExportState
  | done _ _ _ _ _ _ => .done
  | failed _ _ _ => .failed
  | cancelled _ _ => .cancelled

def Finish.artifact : Finish → Option String
  | done _ _ _ _ blobKey _ => some blobKey
  | failed _ _ _ => none
  | cancelled _ _ => none

structure ExportEntry where
  owner : Owner
  aliasName : String
  state : ExportState
  rows : Nat
  bytes : Nat
  truncated : Bool
  truncatedReason : Option String
  startedAtMs : Nat
  finishedAtMs : Option Nat
  error : Option String
  blobKey : Option String
  degraded : List Degraded
  cancelRequested : Bool
deriving DecidableEq

def ExportEntry.started (owner : Owner) (aliasName : String) (now : Nat) : ExportEntry where
  owner := owner
  aliasName := aliasName
  state := .running
  rows := 0
  bytes := 0
  truncated := false
  truncatedReason := none
  startedAtMs := now
  finishedAtMs := none
  error := none
  blobKey := none
  degraded := []
  cancelRequested := false

def ExportEntry.settled (entry : ExportEntry) (now : Nat) : Finish → ExportEntry
  | .done rows bytes truncated truncatedReason blobKey degraded =>
    { entry with
      finishedAtMs := some now
      state := .done
      rows := rows
      bytes := bytes
      truncated := truncated
      truncatedReason := truncatedReason
      blobKey := some blobKey
      degraded := degraded }
  | .failed rows bytes error =>
    { entry with
      finishedAtMs := some now
      state := .failed
      rows := rows
      bytes := bytes
      error := some error }
  | .cancelled rows bytes =>
    { entry with
      finishedAtMs := some now
      state := .cancelled
      rows := rows
      bytes := bytes }

structure ExportRegistry where
  inner : Finmap fun _ : String => ExportEntry
  boot : BootTag
  globalConcurrency : Nat
  perSubjectConcurrency : Nat
  ledger : Finmap fun _ : String => Nat

/-- One for a running entry that `counts`, so that the weight of the table is the
number of these entries. -/
def runningWhere (counts : Owner → Bool) (_ : String) (entry : ExportEntry) : Nat :=
  if entry.state = .running ∧ counts entry.owner = true then 1 else 0

def ExportRegistry.running (registry : ExportRegistry) : Nat :=
  weight (runningWhere fun _ => true) registry.inner

def ExportRegistry.subjectRunning (registry : ExportRegistry) (owner : Owner) : Nat :=
  weight (runningWhere fun other => other.sameSubject owner) registry.inner

def register (registry : ExportRegistry) (owner : Owner) (aliasName : String)
    (random : Except String RandomBytes) (now : Nat) :
    Except RegisterError (String × ExportRegistry) :=
  match newId exportPrefix registry.boot random with
  | .error _ => .error .globalFull
  | .ok id =>
    if registry.globalConcurrency ≤ registry.running then .error .globalFull
    else if registry.perSubjectConcurrency ≤ registry.subjectRunning owner then
      .error .subjectFull
    else
      .ok (id, { registry with
        inner := registry.inner.insert id (.started owner aliasName now) })

/-- The random source gives no id that a task already has. -/
def ExportRegistry.drawsFresh (registry : ExportRegistry) (random : Except String RandomBytes) :
    Bool :=
  match newId exportPrefix registry.boot random with
  | .error _ => true
  | .ok id => decide (id ∉ registry.inner)

def progress (registry : ExportRegistry) (id : String) (rows bytes : Nat) : ExportRegistry :=
  match registry.inner.lookup id with
  | none => registry
  | some entry =>
    if entry.state = .running then
      { registry with inner := registry.inner.insert id { entry with rows, bytes } }
    else registry

/-- `none` is the answer to an unknown id and to a foreign one. -/
def cancel (registry : ExportRegistry) (id : String) (owner : Owner) :
    Option Bool × ExportRegistry :=
  if idIsWellformed exportPrefix id then
    match registry.inner.lookup id with
    | none => (none, registry)
    | some entry =>
      if entry.owner.sameSubject owner then
        if entry.state = .running then
          if entry.cancelRequested then (some false, registry)
          else
            (some true, { registry with
              inner := registry.inner.insert id { entry with cancelRequested := true } })
        else (some false, registry)
      else (none, registry)
  else (none, registry)

def finish (registry : ExportRegistry) (id : String) (fin : Finish) (now : Nat) :
    ExportRegistry :=
  match registry.inner.lookup id with
  | none => registry
  | some entry =>
    if entry.state = .running then
      { registry with
        inner := registry.inner.insert id (entry.settled now fin)
        ledger :=
          match fin.artifact with
          | some key => registry.ledger.insert key now
          | none => registry.ledger }
    else registry

def ExportRegistry.live (registry : ExportRegistry) : Multiset String :=
  registry.inner.entries.filterMap fun entry => entry.2.blobKey

def ExportRegistry.expires (registry : ExportRegistry) (nowMs ttlMs : Nat) (key : String)
    (openMs : Nat) : Bool :=
  decide (key ∉ registry.live) && decide (openMs ≤ nowMs - ttlMs)

def sweep (registry : ExportRegistry) (nowMs ttlMs : Nat) : Finset String × ExportRegistry :=
  ((retain (registry.expires nowMs ttlMs) registry.ledger).keys,
    { registry with
      ledger := retain (fun key openMs => !registry.expires nowMs ttlMs key openMs)
        registry.ledger })

def blobKey (taskId ext : String) : String := s!"export/{taskId}.{ext}"

section

variable (entry : ExportEntry) (now : Nat) (fin : Finish)
include entry now fin

theorem settled_state :
    (entry.settled now fin).state = fin.state := by
  cases fin <;> rfl

theorem settled_owner :
    (entry.settled now fin).owner = entry.owner := by
  cases fin <;> rfl

theorem settled_blobKey (unnamed : entry.blobKey = none) :
    (entry.settled now fin).blobKey = fin.artifact := by
  cases fin
  · rfl
  · exact unnamed
  · exact unnamed

end

variable (registry : ExportRegistry) (id : String) (fin : Finish)

theorem finish_not_running : fin.state ≠ .running := by
  cases fin <;> exact ExportState.noConfusion

/-- An operation on one task leaves the registry as it is, or changes the entry of
a running task. -/
inductive Touches (registry next : ExportRegistry) (id : String)
    (change : ExportEntry → ExportEntry) : Prop where
  | unchanged (same : next = registry)
  | changed (entry : ExportEntry) (found : registry.inner.lookup id = some entry)
      (running : entry.state = .running)
      (table : next.inner = registry.inner.insert id (change entry))

variable (owner : Owner) (rows bytes : Nat)

theorem progress_touches :
    Touches registry (progress registry id rows bytes) id
      fun entry => { entry with rows, bytes } := by
  unfold progress
  split
  · exact .unchanged rfl
  · rename_i entry found
    split
    · rename_i running
      exact .changed entry found running rfl
    · exact .unchanged rfl

theorem progress_ledger :
    (progress registry id rows bytes).ledger = registry.ledger := by
  unfold progress
  split
  · rfl
  · split <;> rfl

theorem cancel_touches :
    Touches registry (cancel registry id owner).2 id
      fun entry => { entry with cancelRequested := true } := by
  unfold cancel
  split
  · split
    · exact .unchanged rfl
    · rename_i entry found
      split
      · split
        · rename_i running
          split
          · exact .unchanged rfl
          · exact .changed entry found running rfl
        · exact .unchanged rfl
      · exact .unchanged rfl
  · exact .unchanged rfl

theorem cancel_ledger :
    (cancel registry id owner).2.ledger = registry.ledger := by
  unfold cancel
  split
  · split
    · rfl
    · split
      · split
        · split <;> rfl
        · rfl
      · rfl
  · rfl

def ExportRegistry.settles (registry : ExportRegistry) (id : String) : Bool :=
  (registry.inner.lookup id).any fun entry => entry.state = .running

theorem settles_iff :
    registry.settles id = true ↔
      ∃ entry, registry.inner.lookup id = some entry ∧ entry.state = .running := by
  simp [ExportRegistry.settles, Option.any_eq_true]

theorem finish_settles (now : Nat) (entry : ExportEntry)
    (found : registry.inner.lookup id = some entry) (running : entry.state = .running) :
    finish registry id fin now =
      { registry with
        inner := registry.inner.insert id (entry.settled now fin)
        ledger :=
          match fin.artifact with
          | some key => registry.ledger.insert key now
          | none => registry.ledger } := by
  simp only [finish, found, running, if_true]

theorem finish_ignored (now : Nat) (ignored : registry.settles id = false) :
    finish registry id fin now = registry := by
  unfold finish
  split
  · rfl
  · rename_i entry found
    split
    · rename_i running
      simp [ExportRegistry.settles, found, running] at ignored
    · rfl

theorem fresh_of_drawsFresh (random : Except String RandomBytes) (id : String)
    (fresh : registry.drawsFresh random = true)
    (made : newId exportPrefix registry.boot random = .ok id) : id ∉ registry.inner := by
  simp only [ExportRegistry.drawsFresh, made, decide_eq_true_eq] at fresh
  exact fresh

/-- What a registration that was admitted did. -/
structure Registers (registry next : ExportRegistry) (owner : Owner) (id : String)
    (entry : ExportEntry) : Prop where
  table : next = { registry with inner := registry.inner.insert id entry }
  running : entry.state = .running
  own : entry.owner = owner
  unnamed : entry.blobKey = none
  globalRoom : registry.running < registry.globalConcurrency
  subjectRoom : registry.subjectRunning owner < registry.perSubjectConcurrency

theorem register_registers (next : ExportRegistry) (owner : Owner) (aliasName : String)
    (random : Except String RandomBytes) (now : Nat) (id : String)
    (registered : register registry owner aliasName random now = .ok (id, next)) :
    newId exportPrefix registry.boot random = .ok id ∧
      Registers registry next owner id (.started owner aliasName now) := by
  simp only [register] at registered
  split at registered
  · cases registered
  · rename_i made
    split at registered
    · cases registered
    · rename_i globalRoom
      split at registered
      · cases registered
      · rename_i subjectRoom
        cases registered
        exact ⟨made, rfl, rfl, rfl, rfl, Nat.lt_of_not_le globalRoom, Nat.lt_of_not_le subjectRoom⟩

end OnlyJs.Bridge.DbExport
