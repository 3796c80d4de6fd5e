import Mathlib.Algebra.Order.Ring.Int

/-!
# Labelled step systems

A system is an initial state together with a partial, executable step function;
a label carries every nondeterministic choice, so a run is fixed by its labels.
Runs may be restricted to steps whose label is allowed in the state it fires
from. Invariants are proved from one preservation fact about a single step.
-/

namespace OnlyJs.Lib.StepSystem

set_option autoImplicit false

universe u v

structure System (State : Type u) (Label : Type v) where
  init : State
  step : State → Label → Option State

variable {State : Type u} {Label : Type v}

/-- The state after the given labels, or `none` once a label is not enabled or
fails the check. -/
def System.runWhere (system : System State Label) (check : State → Label → Bool) :
    State → List Label → Option State
  | state, [] => some state
  | state, label :: rest =>
    if check state label then
      (system.step state label).bind fun next => system.runWhere check next rest
    else none

def System.run (system : System State Label) : State → List Label → Option State :=
  system.runWhere fun _ _ => true

/-- `Path system allowed start labels finish`: firing `labels` in order leads
from `start` to `finish`, and every label is allowed where it fires. -/
def Path (system : System State Label) (allowed : State → Label → Prop) :
    State → List Label → State → Prop
  | start, [], finish => start = finish
  | start, label :: rest, finish =>
    allowed start label ∧
      ∃ next, system.step start label = some next ∧ Path system allowed next rest finish

/-- States reached from the initial one through allowed steps only. -/
def Reachable (system : System State Label) (allowed : State → Label → Prop)
    (state : State) : Prop :=
  ∃ labels, Path system allowed system.init labels state

/-- The restriction that forbids no step. -/
def Unrestricted (_ : State) (_ : Label) : Prop := True

/-- `Preserved system allowed invariant`: one allowed step keeps the invariant. -/
def Preserved (system : System State Label) (allowed : State → Label → Prop)
    (invariant : State → Prop) : Prop :=
  ∀ state label next, invariant state → allowed state label →
    system.step state label = some next → invariant next

variable {system : System State Label} {allowed : State → Label → Prop}

/-- A run whose check implies that its steps are allowed is a path. -/
theorem path_of_run_where (check : State → Label → Bool)
    (sound : ∀ state label, check state label = true → allowed state label)
    (start finish : State) (labels : List Label)
    (ran : system.runWhere check start labels = some finish) :
    Path system allowed start labels finish := by
  induction labels generalizing start with
  | nil => exact Option.some.inj ran
  | cons label rest ih =>
    obtain ⟨passed, ran⟩ := Option.ite_none_right_eq_some.mp ran
    obtain ⟨next, fired, continued⟩ := Option.bind_eq_some_iff.mp ran
    exact ⟨sound start label passed, next, fired, ih next continued⟩

theorem path_of_run (start finish : State) (labels : List Label)
    (ran : system.run start labels = some finish) :
    Path system Unrestricted start labels finish :=
  path_of_run_where (fun _ _ => true) (fun _ _ _ => trivial) start finish labels ran

theorem path_append {start middle finish : State} {before after : List Label}
    (first : Path system allowed start before middle)
    (second : Path system allowed middle after finish) :
    Path system allowed start (before ++ after) finish := by
  induction before generalizing start with
  | nil =>
    cases first
    exact second
  | cons label rest ih =>
    obtain ⟨permitted, next, fired, continued⟩ := first
    exact ⟨permitted, next, fired, ih continued⟩

/-- The run lemma: what one allowed step preserves, a whole run preserves. -/
theorem path_preserves {invariant : State → Prop}
    (preserved : Preserved system allowed invariant)
    {start finish : State} {labels : List Label}
    (path : Path system allowed start labels finish) (holds : invariant start) :
    invariant finish := by
  induction labels generalizing start with
  | nil =>
    cases path
    exact holds
  | cons label rest ih =>
    obtain ⟨permitted, next, fired, continued⟩ := path
    exact ih continued (preserved start label next holds permitted fired)

theorem reachable_init : Reachable system allowed system.init := ⟨[], rfl⟩

theorem reachable_path {state finish : State} {labels : List Label}
    (reached : Reachable system allowed state)
    (path : Path system allowed state labels finish) :
    Reachable system allowed finish := by
  obtain ⟨before, arrived⟩ := reached
  exact ⟨before ++ labels, path_append arrived path⟩

theorem reachable_step {state next : State} {label : Label}
    (reached : Reachable system allowed state) (permitted : allowed state label)
    (fired : system.step state label = some next) :
    Reachable system allowed next := by
  have path : Path system allowed state [label] next := ⟨permitted, next, fired, rfl⟩
  exact reachable_path reached path

/-- The invariant rule: an invariant of the initial state that every allowed
step keeps holds in every reachable state. -/
theorem invariant_of_step {invariant : State → Prop}
    (initial : invariant system.init)
    (preserved : Preserved system allowed invariant)
    {state : State} (reached : Reachable system allowed state) : invariant state := by
  obtain ⟨labels, path⟩ := reached
  exact path_preserves preserved path initial

end OnlyJs.Lib.StepSystem
