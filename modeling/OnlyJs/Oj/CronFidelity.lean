import OnlyJs.Bridge.TaskPool.Moves
import OnlyJs.Oj.CronDriver

/-!
# Fidelity of the cron driver

The driver sleeps on what it read of one entry. Where no command makes an entry due
before the driver wakes, or moves the entry it sleeps on to a later time, it fires every
entry at a time the entry is due, sleeps past none, and fires no time twice. Nothing
keeps two runs of a task apart but the absence of a run when the next one is queued.
-/

namespace OnlyJs.Oj.Tasks

open Bridge.TaskPool List Option Lib

set_option autoImplicit false

/-- No enabled entry falls due before the driver wakes, unless it wakes at once. -/
def Patient (registry : Registry) (since wake : Nat) : Prop :=
  ∀ name entry due, registry.get name = some entry → entry.due = some due →
    wake ≤ due ∨ wake ≤ since

/-- The entry, if it is an enabled cron entry still, is due by that time. -/
def DueBy (registry : Registry) (name : String) (limit : Nat) : Prop :=
  ∀ entry expr next, registry.get name = some entry → entry.kind = .cron expr next →
    entry.enabled = true → ∃ due, next = some due ∧ due ≤ limit

/-- No job of the task is queued or running. -/
def Idle (pool : State) (name : String) : Prop :=
  (∀ job ∈ pool.jobs, job.name ≠ name) ∧
    ∀ worker job, pool.phase worker = .working job → job.name ≠ name

def target : Command → String
  | .setEnabled name _ => name
  | .start name => name
  | .requestReload name => name
  | .setCronExpr name _ _ => name
  | .remove name => name
  | .upsert entry => entry.name

/-- The command does not make its entry due before the driver wakes. -/
def Waits (registry : Registry) (command : Command) (since wake : Nat) : Prop :=
  ∀ entry due, (registry.command command).get (target command) = some entry →
    entry.due = some due → wake ≤ due ∨ wake ≤ since

/-- An entry is brought in with a firing time ahead. While the driver sleeps, no command
makes an entry due before it wakes, and none moves the entry it sleeps on to a later time;
from then on no command moves that entry until it is advanced. A job is queued when the
task has none. -/
def Orderly (cron : Cron) : CronLabel → Prop
  | .command command =>
    (∀ entry expr next, command = .upsert entry → entry.kind = .cron expr (some next) →
      expr.FiresAt next ∧ cron.clock < next) ∧
    match cron.driver with
    | .idling since wake => Waits cron.pool.registry command since wake
    | .sleeping name since wake => Waits cron.pool.registry command since wake ∧
        (target command = name → DueBy (cron.pool.registry.command command) name wake)
    | .due name =>
      target command = name → DueBy (cron.pool.registry.command command) name cron.clock
    | .resolved name _ _ => target command = name →
        ((cron.pool.registry.command command).get name).map TaskEntry.plan =
          (cron.pool.registry.get name).map TaskEntry.plan
    | _ => True
  | .drive =>
    match cron.driver with
    | .submitting job => Idle cron.pool job.name
    | _ => True
  | .send job => Idle cron.pool job.name
  | _ => True

/-- Each firing is followed by the submission of its job. -/
def Paired : List Firing → Prop
  | [] => True
  | .submitted name :: .fired other _ _ _ :: rest => name = other ∧ Paired rest
  | _ => False

/-- Two firings are not of one time of one task. -/
def Apart : Firing → Firing → Prop
  | .fired name _ scheduled _, .fired other _ earlier _ => name = other → scheduled ≠ earlier
  | _, _ => True

/-- The entry was due, under the expression in force. -/
def Firing.Punctual : Firing → Prop
  | .fired _ expr scheduled moment =>
    ∃ due, scheduled = some due ∧ due ≤ moment ∧ expr.FiresAt due
  | .submitted _ => True

/-- Every time the task has been fired for is before that one. -/
def Past (history : List Firing) (name : String) (limit : Nat) : Prop :=
  ∀ expr due moment, .fired name expr (some due) moment ∈ history → due < limit

variable {other : Registry} {name : String} {entry : TaskEntry}

theorem plan_of_alike {registry : Registry} (alike : registry.Alike other)
    (found : registry.get name = some entry) :
    ∃ before, other.get name = some before ∧ before.plan = entry.plan := by
  have same := alike name
  rw [found] at same
  exact map_eq_some_iff.mp same.symm

theorem due_of_plan {other : TaskEntry} (same : entry.plan = other.plan) :
    entry.due = other.due := by
  simp only [TaskEntry.plan, Prod.mk.injEq] at same
  simp only [TaskEntry.due, same.2.1, same.2.2]

variable {command : Command}

/-- An entry after a command is that of before with its name and kind, or one with a new
expression, or the one brought in. -/
theorem command_get {registry : Registry}
    (found : (registry.command command).get name = some entry) :
    (∃ before, registry.get name = some before ∧ before.name = entry.name ∧
      before.kind = entry.kind) ∨
    (∃ before expr now, command = .setCronExpr name expr now ∧ registry.get name = some before ∧
      before.name = entry.name ∧ entry.kind = .cron expr (expr.nextAfter now)) ∨
    (command = .upsert entry ∧ name = entry.name) := by
  have updated : ∀ {other : String} {change : TaskEntry → TaskEntry},
      (registry.update other change).get name = some entry →
        (∀ before, (change before).name = before.name ∧ (change before).kind = before.kind) →
          ∃ before, registry.get name = some before ∧ before.name = entry.name ∧
            before.kind = entry.kind := by
    intro other change found kept
    rw [Registry.get_update] at found
    split at found
    · obtain ⟨before, there, rfl⟩ := map_eq_some_iff.mp found
      exact ⟨before, there, (kept before).1.symm, (kept before).2.symm⟩
    · exact ⟨entry, found, rfl, rfl⟩
  cases command with
  | setEnabled other enabled => exact .inl (updated found fun _ => ⟨rfl, rfl⟩)
  | start other =>
    refine .inl (updated found fun before => ?_)
    split <;> exact ⟨rfl, rfl⟩
  | requestReload other => exact .inl (updated found fun _ => ⟨rfl, rfl⟩)
  | setCronExpr other expr now =>
    simp only [Registry.command, Registry.setCronExpr, Registry.get_update] at found
    split at found
    · rename_i same
      obtain ⟨before, there, rfl⟩ := map_eq_some_iff.mp found
      cases kind : before.kind with
      | long => exact .inl ⟨before, there, by simp, by simp⟩
      | cron old next =>
        exact .inr (.inl ⟨before, expr, now, by rw [same], there, by simp, by simp⟩)
    · exact .inl ⟨entry, found, rfl, rfl⟩
  | remove other =>
    simp only [Registry.command, Registry.get_remove] at found
    split at found
    · cases found
    · exact .inl ⟨entry, found, rfl, rfl⟩
  | upsert added =>
    simp only [Registry.command, Registry.get_upsert] at found
    split at found
    · rename_i same
      cases found
      exact .inr (.inr ⟨rfl, same.symm⟩)
    · exact .inl ⟨entry, found, rfl, rfl⟩

/-- Entries stand under their names, and the next run of a cron entry is a firing time of
its expression that has not been fired for. -/
structure Entries (registry : Registry) (history : List Firing) : Prop where
  keyed : ∀ name entry, registry.get name = some entry → entry.name = name
  ahead : ∀ name entry expr next, registry.get name = some entry →
    entry.kind = .cron expr (some next) → expr.FiresAt next ∧ Past history name next

variable {history : List Firing}

theorem entries_alike {registry : Registry} (entries : Entries other history)
    (alike : registry.Alike other) :
    Entries registry history := by
  constructor
  · intro name entry found
    obtain ⟨before, there, same⟩ := plan_of_alike alike found
    rw [← entries.keyed name before there]
    exact (congrArg Prod.fst same).symm
  · intro name entry expr next found kind
    obtain ⟨before, there, same⟩ := plan_of_alike alike found
    have kinds := congrArg (fun plan => plan.2.1) same
    exact entries.ahead name before expr next there (kinds.trans kind)

theorem entries_command {registry : Registry} {clock : Nat} (entries : Entries registry history)
    (past : ∀ name expr due moment, .fired name expr (some due) moment ∈ history → due ≤ clock)
    (timely : timely clock command = true)
    (fresh : ∀ entry expr next, command = .upsert entry → entry.kind = .cron expr (some next) →
      expr.FiresAt next ∧ clock < next) :
    Entries (registry.command command) history := by
  constructor
  · intro name entry found
    rcases command_get found with ⟨before, there, same, -⟩ | ⟨before, -, -, -, there, same, -⟩ |
      ⟨-, same⟩
    · exact same.symm.trans (entries.keyed name before there)
    · exact same.symm.trans (entries.keyed name before there)
    · exact same.symm
  · intro name entry expr next found kind
    rcases command_get found with ⟨before, there, -, same⟩ | ⟨before, other, now, rfl, -, -, same⟩ |
      ⟨brought, -⟩
    · exact entries.ahead name before expr next there (same.trans kind)
    · rw [kind] at same
      injection same with exprs nexts
      subst exprs
      have now_eq : now = clock := by simpa [OnlyJs.Oj.Tasks.timely] using timely
      subst now_eq
      obtain ⟨later, fires, -⟩ := CronExpr.next_after_some nexts.symm
      exact ⟨fires, fun old due moment fired => (past _ _ _ _ fired).trans_lt later⟩
    · obtain ⟨fires, later⟩ := fresh entry expr next brought kind
      exact ⟨fires, fun old due moment fired => (past _ _ _ _ fired).trans_lt later⟩

/-- What holds while the driver stands there. -/
def Stands (cron : Cron) : Driver → Prop
  | .idling since wake => Patient cron.pool.registry since wake
  | .sleeping name since wake =>
    Patient cron.pool.registry since wake ∧ DueBy cron.pool.registry name wake
  | .due name => DueBy cron.pool.registry name cron.clock
  | .resolved name job next => job.name = name ∧
    ∃ entry expr due, cron.pool.registry.get name = some entry ∧
      entry.kind = .cron expr (some due) ∧ due ≤ cron.clock ∧
        ∀ time, next = some time → expr.FiresAt time ∧ due < time ∧ Past cron.history name time
  | _ => True

def Followed (cron : Cron) : Driver → Prop
  | .submitting job => ∃ expr scheduled moment rest,
      cron.history = .fired job.name expr scheduled moment :: rest ∧ Paired rest
  | _ => Paired cron.history

structure Faithful (cron : Cron) : Prop where
  entries : Entries cron.pool.registry cron.history
  past : ∀ name expr due moment, .fired name expr (some due) moment ∈ cron.history →
    due ≤ cron.clock
  punctual : ∀ firing ∈ cron.history, firing.Punctual
  apart : cron.history.Pairwise Apart
  stands : Stands cron cron.driver
  followed : Followed cron cron.driver

variable {cron next : Cron}

theorem patient_alike {registry : Registry} {since wake : Nat} (patient : Patient other since wake)
    (alike : registry.Alike other) :
    Patient registry since wake := by
  intro name entry due found enabled
  obtain ⟨before, there, same⟩ := plan_of_alike alike found
  exact patient name before due there ((due_of_plan same).trans enabled)

variable {limit : Nat}

theorem dueBy_alike {registry : Registry} (dueBy : DueBy other name limit)
    (alike : registry.Alike other) :
    DueBy registry name limit := by
  intro entry expr next found kind enabled
  obtain ⟨before, there, same⟩ := plan_of_alike alike found
  simp only [TaskEntry.plan, Prod.mk.injEq] at same
  exact dueBy before expr next there (same.2.1.trans kind) (same.2.2.trans enabled)

theorem dueBy_mono {registry : Registry} {later : Nat} (dueBy : DueBy registry name limit)
    (order : limit ≤ later) : DueBy registry name later := by
  intro entry expr next found kind enabled
  obtain ⟨due, scheduled, bound⟩ := dueBy entry expr next found kind enabled
  exact ⟨due, scheduled, bound.trans order⟩

theorem faithful_beside (faithful : Faithful cron)
    (alike : next.pool.registry.Alike cron.pool.registry) (clock : cron.clock ≤ next.clock)
    (driver : next.driver = cron.driver) (history : next.history = cron.history) :
    Faithful next := by
  have stands := faithful.stands
  have followed := faithful.followed
  refine ⟨?_, ?_, ?_, ?_, ?_, ?_⟩
  · rw [history]
    exact entries_alike faithful.entries alike
  · intro name expr due moment fired
    rw [history] at fired
    exact (faithful.past name expr due moment fired).trans clock
  · rw [history]
    exact faithful.punctual
  · rw [history]
    exact faithful.apart
  · rw [driver]
    cases stood : cron.driver with
    | idling since wake =>
      rw [stood] at stands
      exact patient_alike stands alike
    | sleeping name since wake =>
      rw [stood] at stands
      exact ⟨patient_alike stands.1 alike, dueBy_alike stands.2 alike⟩
    | due name =>
      rw [stood] at stands
      exact dueBy_mono (dueBy_alike stands alike) clock
    | resolved name job after =>
      rw [stood] at stands
      obtain ⟨named, before, expr, due, there, kind, bound, later⟩ := stands
      have same := alike name
      rw [there] at same
      obtain ⟨entry, found, plans⟩ := map_eq_some_iff.mp same
      have kinds := congrArg (fun plan => plan.2.1) plans
      refine ⟨named, entry, expr, due, found, kinds.trans kind, bound.trans clock, ?_⟩
      rw [history]
      exact later
    | _ => trivial
  · rw [driver]
    cases stood : cron.driver <;> rw [stood] at followed <;> simpa only [Followed, history]

theorem faithful_driver (faithful : Faithful cron) (driver : Driver)
    (stands : Stands { cron with driver } driver)
    (followed : Followed { cron with driver } driver) :
    Faithful { cron with driver } :=
  ⟨faithful.entries, faithful.past, faithful.punctual, faithful.apart, stands, followed⟩

theorem earliest_none {registry : Registry} (none : Cron.earliest registry = none)
    (found : registry.get name = some entry) : entry.due = Option.none := by
  have empty := argmin_eq_none.mp none
  rw [filterMap_eq_nil_iff] at empty
  have listed := empty entry ((Registry.mem_list_iff registry entry).mpr ⟨name, found⟩)
  simpa using listed

theorem earliest_some {registry : Registry} {due : Nat}
    (first : Cron.earliest registry = some (due, entry)) :
    entry.due = some due ∧ (∃ name, registry.get name = some entry) ∧
      ∀ name other later, registry.get name = some other → other.due = some later →
        due ≤ later := by
  have member := mem_filterMap.mp (argmin_mem first)
  obtain ⟨listed, there, paired⟩ := member
  obtain ⟨time, held, same⟩ := map_eq_some_iff.mp paired
  cases same
  refine ⟨held, (Registry.mem_list_iff registry _).mp there, ?_⟩
  intro name other later found enabled
  have candidate : (later, other) ∈
      registry.list.filterMap fun entry => entry.due.map fun due => (due, entry) := by
    refine mem_filterMap.mpr ⟨other, (Registry.mem_list_iff registry other).mpr
      ⟨name, found⟩, ?_⟩
    rw [enabled, map_some]
  exact le_of_mem_argmin candidate first

theorem due_cron {expr : CronExpr} {next : Option Nat} (kind : entry.kind = .cron expr next)
    (enabled : entry.enabled = true) :
    entry.due = next := by
  simp only [TaskEntry.due, kind, enabled]

theorem faithful_listing (faithful : Faithful cron) (stood : cron.driver = .listing)
    (drove : cron.drive = some next) : Faithful next := by
  have followed := faithful.followed
  rw [stood] at followed
  simp only [Cron.drive, stood] at drove
  cases first : Cron.earliest cron.pool.registry with
  | none =>
    rw [first] at drove
    cases drove
    refine faithful_driver faithful _ ?_ followed
    intro name entry due found enabled
    rw [earliest_none first found] at enabled
    cases enabled
  | some chosen =>
    obtain ⟨due, entry⟩ := chosen
    rw [first] at drove
    cases drove
    obtain ⟨enabled, ⟨name, found⟩, least⟩ := earliest_some first
    have keyed := faithful.entries.keyed name entry found
    subst keyed
    refine faithful_driver faithful _ ⟨?_, ?_⟩ followed
    · intro other listed later there held
      have order := least other listed later there held
      omega
    · intro fresh expr scheduled there kind on
      rw [found] at there
      cases there
      rw [due_cron kind on] at enabled
      exact ⟨due, enabled, by omega⟩

theorem faithful_due (faithful : Faithful cron) (stood : cron.driver = .due name)
    (drove : cron.drive = some next) : Faithful next := by
  have followed := faithful.followed
  have stands := faithful.stands
  rw [stood] at followed stands
  simp only [Cron.drive, stood] at drove
  cases found : cron.pool.registry.get name with
  | none =>
    rw [found] at drove
    cases drove
    exact faithful_driver faithful .gate trivial followed
  | some fresh =>
    rw [found] at drove
    dsimp only at drove
    cases on : fresh.enabled with
    | false =>
      have gone : Cron.resolvedNext fresh cron.clock = none := by
        unfold Cron.resolvedNext
        rw [on]
        cases fresh.kind <;> rfl
      rw [gone] at drove
      cases drove
      exact faithful_driver faithful .gate trivial followed
    | true =>
      cases kind : fresh.kind with
      | long =>
        have gone : Cron.resolvedNext fresh cron.clock = none := by
          simp only [Cron.resolvedNext, kind]
        rw [gone] at drove
        cases drove
        exact faithful_driver faithful .gate trivial followed
      | cron expr scheduled =>
        have after : Cron.resolvedNext fresh cron.clock =
            some (expr.nextAfter cron.clock) := by
          simp only [Cron.resolvedNext, kind, on]
        rw [after] at drove
        cases drove
        obtain ⟨due, rfl, bound⟩ := stands fresh expr scheduled found kind on
        have keyed := faithful.entries.keyed name fresh found
        refine faithful_driver faithful _
          ⟨keyed, fresh, expr, due, found, kind, bound, ?_⟩ followed
        intro time later
        obtain ⟨above, fires, -⟩ := CronExpr.next_after_some later
        exact ⟨fires, bound.trans_lt above, fun old earlier moment fired =>
          (faithful.past _ _ _ _ fired).trans_lt above⟩

theorem past_cons {other : String} {expr : CronExpr} {due moment : Nat}
    (past : Past history other limit) (before : name = other → due < limit) :
    Past (.fired name expr (some due) moment :: history) other limit := by
  intro old earlier at_ fired
  rcases mem_cons.mp fired with same | late
  · cases same
    exact before rfl
  · exact past old earlier at_ late

variable {job : OnceJob}

theorem faithful_resolved (faithful : Faithful cron) {after : Option Nat}
    (stood : cron.driver = .resolved name job after) (drove : cron.drive = some next) :
    Faithful next := by
  have followed := faithful.followed
  have stands := faithful.stands
  rw [stood] at followed stands
  obtain ⟨named, entry, expr, due, found, kind, bound, later⟩ := stands
  obtain ⟨fires, before⟩ := faithful.entries.ahead name entry expr due found kind
  have recorded : Cron.firing cron.pool.registry name cron.clock =
      [.fired name expr (some due) cron.clock] := by
    simp only [Cron.firing, found, map_some, kind]
  simp only [Cron.drive, stood, recorded] at drove
  cases drove
  have advanced : ∀ other, ((cron.pool.registry.setNextRun name after).get other) =
      if name = other then (cron.pool.registry.get other).map _
      else cron.pool.registry.get other := fun other => Registry.get_update _ _ _ _
  refine ⟨⟨?_, ?_⟩, ?_, ?_, ?_, trivial,
    ⟨expr, some due, cron.clock, _, by rw [named]; rfl, followed⟩⟩
  · intro other there held
    rw [advanced] at held
    split at held
    · obtain ⟨old, was, rfl⟩ := map_eq_some_iff.mp held
      have keyed := faithful.entries.keyed other old was
      split <;> exact keyed
    · exact faithful.entries.keyed other there held
  · intro other there expression time held kinds
    rw [advanced] at held
    split at held
    · rename_i same
      subst same
      rw [found] at held
      cases held
      simp only [kind] at kinds
      cases kinds
      obtain ⟨fires, above, past⟩ := later time rfl
      exact ⟨fires, past_cons past fun _ => above⟩
    · rename_i distinct
      obtain ⟨fires, past⟩ := faithful.entries.ahead other there expression time held kinds
      exact ⟨fires, past_cons past fun same => absurd same distinct⟩
  · intro other old earlier moment fired
    rcases mem_cons.mp fired with same | late
    · cases same
      exact bound
    · exact faithful.past _ _ _ _ late
  · intro firing recorded
    rcases mem_cons.mp recorded with rfl | late
    · exact ⟨due, rfl, bound, fires⟩
    · exact faithful.punctual firing late
  · refine pairwise_cons.mpr ⟨fun firing late => ?_, faithful.apart⟩
    cases firing with
    | submitted other => trivial
    | fired other old scheduled moment =>
      intro same equal
      subst same equal
      exact absurd (before old due moment late) (lt_irrefl _)

theorem faithful_submitting (faithful : Faithful cron) (stood : cron.driver = .submitting job)
    (drove : cron.drive = some next) :
    Faithful next := by
  have followed := faithful.followed
  rw [stood] at followed
  obtain ⟨expr, scheduled, moment, rest, shape, paired⟩ := followed
  simp only [Cron.drive, stood] at drove
  cases drove
  refine ⟨⟨faithful.entries.keyed, ?_⟩, ?_, ?_, ?_, trivial, ?_⟩
  · intro other entry expression time found kind
    obtain ⟨fires, past⟩ := faithful.entries.ahead other entry expression time found kind
    refine ⟨fires, fun old due at_ fired => past old due at_ ?_⟩
    simpa using fired
  · intro other old due at_ fired
    exact faithful.past other old due at_ (by simpa using fired)
  · intro firing recorded
    rcases mem_cons.mp recorded with rfl | late
    · trivial
    · exact faithful.punctual firing late
  · exact pairwise_cons.mpr ⟨fun _ _ => trivial, faithful.apart⟩
  · simp only [shape]
    exact ⟨rfl, paired⟩

theorem faithful_drive (faithful : Faithful cron) (drove : cron.drive = some next) :
    Faithful next := by
  have followed := faithful.followed
  have stands := faithful.stands
  cases stood : cron.driver with
  | gate =>
    rw [stood] at followed
    simp only [Cron.drive, stood] at drove
    split at drove
    · cases drove
      exact faithful_driver faithful .stopped trivial followed
    · split at drove <;> cases drove
      exact faithful_driver faithful .listing trivial followed
  | listing => exact faithful_listing faithful stood drove
  | idling since wake =>
    rw [stood] at followed
    simp only [Cron.drive, stood] at drove
    split at drove <;> cases drove
    exact faithful_driver faithful .gate trivial followed
  | sleeping name since wake =>
    rw [stood] at followed stands
    simp only [Cron.drive, stood] at drove
    split at drove
    · rename_i late
      cases drove
      exact faithful_driver faithful (.due name) (dueBy_mono stands.2 late) followed
    · cases drove
  | due name => exact faithful_due faithful stood drove
  | resolved name job after => exact faithful_resolved faithful stood drove
  | submitting job => exact faithful_submitting faithful stood drove
  | stopped =>
    simp only [Cron.drive, stood] at drove
    cases drove

theorem command_other {registry : Registry} (other : target command ≠ name) :
    (registry.command command).get name = registry.get name := by
  cases command with
  | setEnabled updated enabled | start updated | requestReload updated
  | setCronExpr updated expr now => exact (Registry.get_update _ _ _ _).trans (if_neg other)
  | remove removed => exact (Registry.get_remove _ _ _).trans (if_neg other)
  | upsert entry => exact (Registry.get_upsert _ _ _).trans (if_neg other)

theorem patient_command {registry : Registry} {since wake : Nat}
    (patient : Patient registry since wake) (waits : Waits registry command since wake) :
    Patient (registry.command command) since wake := by
  intro name entry due found enabled
  by_cases same : target command = name
  · subst same
    exact waits entry due found enabled
  · rw [command_other same] at found
    exact patient name entry due found enabled

theorem dueBy_command {registry : Registry} (dueBy : DueBy registry name limit)
    (kept : target command = name → DueBy (registry.command command) name limit) :
    DueBy (registry.command command) name limit := by
  by_cases same : target command = name
  · exact kept same
  · unfold DueBy
    rw [command_other same]
    exact dueBy

section

variable (faithful : Faithful cron) (orderly : Orderly cron (.command command))
include faithful orderly

theorem stands_command :
    Stands { cron with
      pool := { cron.pool with registry := cron.pool.registry.command command } } cron.driver := by
  have stands := faithful.stands
  have kept := orderly.2
  cases stood : cron.driver with
  | idling since wake =>
    rw [stood] at stands kept
    exact patient_command stands kept
  | sleeping name since wake =>
    rw [stood] at stands kept
    exact ⟨patient_command stands.1 kept.1, dueBy_command stands.2 kept.2⟩
  | due name =>
    rw [stood] at stands kept
    exact dueBy_command stands kept
  | resolved name job after =>
    rw [stood] at stands kept
    obtain ⟨named, before, expr, due, there, kind, bound, later⟩ := stands
    have plans : ((cron.pool.registry.command command).get name).map TaskEntry.plan =
        some before.plan := by
      by_cases same : target command = name
      · exact (kept same).trans (congrArg (Option.map TaskEntry.plan) there)
      · rw [command_other same, there]
        rfl
    obtain ⟨entry, found, plan⟩ := map_eq_some_iff.mp plans
    have kinds := congrArg (fun plan => plan.2.1) plan
    exact ⟨named, entry, expr, due, found, kinds.trans kind, bound, later⟩
  | _ => trivial

theorem faithful_command (timely : timely cron.clock command = true) :
    Faithful { cron with
      pool := { cron.pool with registry := cron.pool.registry.command command } } := by
  refine ⟨entries_command faithful.entries faithful.past timely orderly.1, faithful.past,
    faithful.punctual, faithful.apart, stands_command faithful orderly, ?_⟩
  have followed := faithful.followed
  cases stood : cron.driver <;> rw [stood] at followed <;> exact followed

end

theorem faithful_leave (faithful : Faithful cron) (left : cron.leave = some next) :
    Faithful next := by
  have followed := faithful.followed
  unfold Cron.leave at left
  split at left
  · split at left
    case h_1 stood =>
      cases left
      rw [stood] at followed
      exact faithful_driver faithful .stopped trivial followed
    case h_2 stood =>
      cases left
      rw [stood] at followed
      exact faithful_driver faithful .stopped trivial followed
    case h_3 => cases left
  · cases left

/-- No task has two jobs queued or running. -/
structure Single (pool : State) : Prop where
  queued : (pool.jobs.map OnceJob.name).Nodup
  apart : ∀ worker job, pool.phase worker = .working job →
    ∀ other ∈ pool.jobs, other.name ≠ job.name
  alone : ∀ worker other job later, pool.phase worker = .working job →
    pool.phase other = .working later → job.name = later.name → worker = other

variable {pool : State}

theorem single_submit (single : Single pool) (idle : Idle pool job.name) :
    Single { pool with jobs := pool.jobs ++ [job] } := by
  refine ⟨?_, ?_, single.alone⟩
  · rw [map_append]
    refine nodup_append.mpr ⟨single.queued, nodup_singleton _, ?_⟩
    intro name queued other last
    obtain ⟨before, there, rfl⟩ := mem_map.mp queued
    rw [map_singleton, mem_singleton] at last
    subst last
    exact idle.1 before there
  · intro worker running stood other queued
    rcases mem_append.mp queued with before | last
    · exact single.apart worker running stood other before
    · cases mem_singleton.mp last
      exact (idle.2 worker running stood).symm

theorem single_work {after : State} {timeout worker : Nat} {input : Input} (single : Single pool)
    (worked : work timeout pool worker input = some after) :
    Single after := by
  obtain ⟨shorter, taken⟩ := work_jobs worked
  have others : ∀ other, other ≠ worker → after.phase other = pool.phase other :=
    fun other distinct => (others_moves (work_moves worked) distinct).1
  -- the job that the worker has taken is of no other worker's task
  have clear : ∀ other job later, other ≠ worker → after.phase worker = .working job →
      after.phase other = .working later → job.name ≠ later.name := by
    intro other job later distinct mine theirs
    rw [others other distinct] at theirs
    refine single.apart other later theirs job ?_
    rw [taken job mine]
    exact mem_cons_self
  refine ⟨single.queued.sublist (shorter.sublist.map _), ?_, ?_⟩
  · intro other job stood queued there
    by_cases own : other = worker
    · subst own
      have distinct := single.queued
      rw [taken job stood, map_cons, nodup_cons] at distinct
      exact fun same => distinct.1 (mem_map.mpr ⟨queued, there, same⟩)
    · rw [others other own] at stood
      exact single.apart other job stood queued (shorter.subset there)
  · intro first second job later mine theirs same
    by_cases own : first = worker
    · subst own
      by_contra distinct
      exact clear second job later (Ne.symm distinct) mine theirs same
    · by_cases second_own : second = worker
      · subst second_own
        exact absurd same.symm (clear first later job own theirs mine)
      · rw [others first own] at mine
        rw [others second second_own] at theirs
        exact single.alone first second job later mine theirs same

variable {timeout workers clock : Nat} {resume : Bool} {registry : Registry}

theorem faithful_step :
    StepSystem.Preserved (cronSystem timeout registry workers clock resume) Orderly Faithful := by
  intro cron label next faithful orderly fired
  cases label with
  | tick nanos =>
    cases fired
    exact faithful_beside faithful (fun _ => rfl) (Nat.le_add_right _ _) rfl rfl
  | drive => exact faithful_drive faithful fired
  | leave => exact faithful_leave faithful fired
  | stop =>
    cases fired
    exact faithful_beside faithful (fun _ => rfl) le_rfl rfl rfl
  | command command =>
    obtain ⟨timely, same⟩ := ite_none_right_eq_some.mp fired
    cases same
    exact faithful_command faithful orderly timely
  | request name =>
    obtain ⟨job, -, rfl⟩ := map_eq_some_iff.mp fired
    exact faithful_beside faithful (fun _ => rfl) le_rfl rfl rfl
  | send job =>
    obtain ⟨-, same⟩ := ite_none_right_eq_some.mp fired
    cases same
    exact faithful_beside faithful (fun _ => rfl) le_rfl rfl rfl
  | work worker input =>
    obtain ⟨pool, worked, rfl⟩ := map_eq_some_iff.mp fired
    exact faithful_beside faithful (registry_moves (work_moves worked)) le_rfl rfl rfl
  | shutdown | resume =>
    cases fired
    exact faithful_beside faithful (fun _ => rfl) le_rfl rfl rfl

theorem single_same {other : State} (single : Single pool) (jobs : other.jobs = pool.jobs)
    (workers : other.workers = pool.workers) : Single other := by
  have phase : ∀ worker, other.phase worker = pool.phase worker := by
    intro worker
    unfold State.phase
    rw [workers]
  constructor
  · rw [jobs]
    exact single.queued
  · intro worker job stood
    rw [jobs]
    exact single.apart worker job ((phase worker).symm.trans stood)
  · intro worker second job later mine theirs
    exact single.alone worker second job later ((phase worker).symm.trans mine)
      ((phase second).symm.trans theirs)

theorem single_drive (single : Single cron.pool) (orderly : Orderly cron .drive)
    (drove : cron.drive = some next) : Single next.pool := by
  cases stood : cron.driver with
  | submitting job =>
    simp only [Orderly, stood] at orderly
    simp only [Cron.drive, stood] at drove
    cases drove
    exact single_submit single orderly
  | resolved name job after =>
    simp only [Cron.drive, stood] at drove
    cases drove
    exact single_same single rfl rfl
  | _ =>
    simp only [Cron.drive, stood] at drove
    repeat' split at drove
    all_goals cases drove <;> exact single

theorem single_step :
    StepSystem.Preserved (cronSystem timeout registry workers clock resume) Orderly
      fun cron => Single cron.pool := by
  intro cron label next single orderly fired
  cases label with
  | drive => exact single_drive single orderly fired
  | leave =>
    replace fired : cron.leave = some next := fired
    unfold Cron.leave at fired
    repeat' split at fired
    all_goals cases fired <;> exact single
  | command command =>
    obtain ⟨-, same⟩ := ite_none_right_eq_some.mp fired
    cases same
    exact single_same single rfl rfl
  | request name =>
    obtain ⟨job, -, rfl⟩ := map_eq_some_iff.mp fired
    exact single
  | send job =>
    obtain ⟨-, same⟩ := ite_none_right_eq_some.mp fired
    cases same
    exact single_submit single orderly
  | work worker input =>
    obtain ⟨pool, worked, rfl⟩ := map_eq_some_iff.mp fired
    exact single_work single worked
  | _ =>
    cases fired
    exact single_same single rfl rfl

theorem entries_upsert (entries : Entries registry [])
    (fires : ∀ expr next, entry.kind = .cron expr (some next) → expr.FiresAt next) :
    Entries (registry.upsert entry) [] := by
  constructor
  · intro name held found
    rw [Registry.get_upsert] at found
    split at found
    · cases found
      assumption
    · exact entries.keyed name held found
  · intro name held expr next found kind
    rw [Registry.get_upsert] at found
    split at found
    · cases found
      exact ⟨fires expr next kind, nofun⟩
    · exact entries.ahead name held expr next found kind

theorem entries_pooled (pooled : List (String × String)) (entries : Entries registry []) :
    Entries (pooled.foldl (fun registry task => registry.upsert (.long task.1 task.2))
      registry) [] := by
  induction pooled generalizing registry with
  | nil => exact entries
  | cons task rest ih => exact ih (entries_upsert entries nofun)

variable {crontab : List CrontabLine}

theorem entries_crontab {assembled : Registry} (entries : Entries registry [])
    (ran : assembleCrontab registry crontab = .ok assembled) :
    Entries assembled [] := by
  induction crontab generalizing registry with
  | nil =>
    cases ran
    exact entries
  | cons line rest ih =>
    unfold assembleCrontab at ran
    split at ran
    · cases ran
    · refine ih (entries_upsert entries ?_) ran
      intro expr next kind
      injection kind with same found
      subst same
      exact (CronExpr.next_after_some found).2.1

theorem entries_assembled {pooled : List (String × String)}
    (assembled : assembleTasks pooled crontab = .ok registry) : Entries registry [] := by
  refine entries_crontab (entries_pooled pooled ⟨?_, ?_⟩) assembled
  · intro name entry found
    simp [Registry.get] at found
  · intro name entry expr next found
    simp [Registry.get] at found

theorem faithful_initial (entries : Entries registry []) :
    Faithful (.initial registry workers clock resume) :=
  ⟨entries, nofun, nofun, .nil, trivial, trivial⟩

theorem single_initial : Single (Cron.initial registry workers clock resume).pool := by
  have nowhere : ∀ worker job,
      (Cron.initial registry workers clock resume).pool.phase worker ≠ .working job := by
    intro worker job
    simp only [Cron.initial, State.phase, spawn]
    split <;> exact fun working => by cases working
  exact ⟨.nil, fun worker job stood => absurd stood (nowhere worker job),
    fun worker other job later stood => absurd stood (nowhere worker job)⟩

def everyMinute : CronExpr := ⟨⟨2 ^ 60 - 1⟩, ⟨2 ^ 24 - 1⟩, ⟨2 ^ 32 - 2⟩, ⟨2 ^ 13 - 2⟩, ⟨2 ^ 7 - 1⟩⟩

def fivePast : CronExpr := { everyMinute with min := ⟨2 ^ 5⟩ }

end OnlyJs.Oj.Tasks
