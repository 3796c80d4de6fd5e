import OnlyJs.Bridge.DbExport.Registry
import OnlyJs.Lib.StepSystem

/-!
# Expiry of export artifacts

Tasks are registered, make progress, are cancelled and finish, and the registry
is swept from time to time. The history keeps when a finish recorded an artifact
and what each sweep returned. An artifact that was recorded stays named by the
entry of its task, and such an artifact is never returned.
-/

namespace OnlyJs.Bridge.DbExport

open Finmap Option Bridge.HandleCore Lib.FiniteMap Lib.StepSystem

/-- `running` lists the tasks that were running when the sweep came. -/
inductive ExpiryEvent where
  | recorded (key : String) (time : Nat)
  | swept (nowMs ttlMs : Nat) (keys : Finset String) (running : Finset String)
deriving DecidableEq

structure ExpiryState where
  registry : ExportRegistry
  clock : Nat
  history : List ExpiryEvent

inductive ExpiryStep where
  | register (owner : Owner) (aliasName : String) (random : Except String RandomBytes) (now : Nat)
  | progress (id : String) (rows bytes : Nat)
  | cancel (id : String) (owner : Owner)
  | finish (id : String) (fin : Finish) (now : Nat)
  | sweep (nowMs ttlMs : Nat)

def ExpiryStep.time : ExpiryStep → Option Nat
  | register _ _ _ now => some now
  | progress _ _ _ => none
  | cancel _ _ => none
  | finish _ _ now => some now
  | sweep nowMs _ => some nowMs

def ExportRegistry.runningTasks (registry : ExportRegistry) : Finset String :=
  (retain (fun _ entry => entry.state = .running) registry.inner).keys

def ExpiryState.apply (state : ExpiryState) : ExpiryStep → ExportRegistry × List ExpiryEvent
  | .register owner aliasName random now =>
    match DbExport.register state.registry owner aliasName random now with
    | .error _ => (state.registry, state.history)
    | .ok (_, registry) => (registry, state.history)
  | .progress id rows bytes => (DbExport.progress state.registry id rows bytes, state.history)
  | .cancel id owner => ((DbExport.cancel state.registry id owner).2, state.history)
  | .finish id fin now =>
    (DbExport.finish state.registry id fin now,
      match fin.artifact with
      | some key =>
        if state.registry.settles id then state.history ++ [.recorded key now]
        else state.history
      | none => state.history)
  | .sweep nowMs ttlMs =>
    ((DbExport.sweep state.registry nowMs ttlMs).2,
      state.history ++
        [.swept nowMs ttlMs (DbExport.sweep state.registry nowMs ttlMs).1
          state.registry.runningTasks])

def expiryStep (state : ExpiryState) (label : ExpiryStep) : Option ExpiryState :=
  let time := label.time.getD state.clock
  if state.clock ≤ time then
    some {
      registry := (state.apply label).1
      clock := time
      history := (state.apply label).2 }
  else none

def ExpiryState.initial (boot : BootTag) (globalConcurrency perSubjectConcurrency : Nat) :
    ExpiryState where
  registry := { inner := ∅, boot, globalConcurrency, perSubjectConcurrency, ledger := ∅ }
  clock := 0
  history := []

def expirySystem (boot : BootTag) (globalConcurrency perSubjectConcurrency : Nat) :
    System ExpiryState ExpiryStep where
  init := .initial boot globalConcurrency perSubjectConcurrency
  step := expiryStep

/-- The random source repeats no task id. -/
def drawsFresh (state : ExpiryState) : ExpiryStep → Bool
  | .register _ _ random _ => state.registry.drawsFresh random
  | _ => true

def DrawsFresh (state : ExpiryState) (label : ExpiryStep) : Prop :=
  drawsFresh state label = true

def ExpiryEvent.due (time : Nat) : ExpiryEvent → Bool
  | recorded _ _ => false
  | swept nowMs ttlMs _ _ => decide (time + ttlMs ≤ nowMs)

/-- Of the sweeps that follow the recording of an artifact, exactly the first one
that finds it due returns it; and no sweep returns the artifact of a task that is
still running. -/
structure Expires (history : List ExpiryEvent) : Prop where
  returned : ∀ before key time between nowMs ttlMs keys running after,
    history = before ++ .recorded key time ::
      (between ++ .swept nowMs ttlMs keys running :: after) →
    (key ∈ keys ↔ time + ttlMs ≤ nowMs ∧ ∀ event ∈ between, event.due time = false)
  spared : ∀ nowMs ttlMs keys running, .swept nowMs ttlMs keys running ∈ history →
    ∀ task ∈ running, ∀ ext, blobKey task ext ∉ keys

/-- A sweep has come after an artifact was due. -/
def SweptDue (history : List ExpiryEvent) : Prop :=
  ∃ before key time after, history = before ++ .recorded key time :: after ∧
    ∃ event ∈ after, event.due time = true

variable (registry : ExportRegistry)

variable (nowMs ttlMs : Nat) (next : ExportRegistry) (id key : String)

theorem mem_live :
    key ∈ registry.live ↔
      ∃ id entry, registry.inner.lookup id = some entry ∧ entry.blobKey = some key := by
  simp only [ExportRegistry.live, Multiset.mem_filterMap]
  constructor
  · rintro ⟨⟨id, entry⟩, listed, named⟩
    exact ⟨id, entry, (lookup_eq_some_iff registry.inner id entry).mpr listed, named⟩
  · rintro ⟨id, entry, found, named⟩
    exact ⟨⟨id, entry⟩, (lookup_eq_some_iff registry.inner id entry).mp found, named⟩

/-- Every artifact of the ledger is named by an entry of the table, and a running
task names none. -/
structure Named (registry : ExportRegistry) : Prop where
  ledger : ∀ key ∈ registry.ledger, key ∈ registry.live
  running : ∀ id entry, registry.inner.lookup id = some entry → entry.state = .running →
    entry.blobKey = none

theorem sweep_returns_nothing (named : Named registry) :
    (sweep registry nowMs ttlMs).1 = ∅ := by
  apply Finset.eq_empty_of_forall_notMem
  intro key listed
  rw [sweep, mem_keys, mem_iff] at listed
  obtain ⟨openMs, found⟩ := listed
  rw [lookup_retain, filter_eq_some_iff] at found
  have present : key ∈ registry.ledger := mem_iff.mpr ⟨openMs, found.1⟩
  have absent : key ∉ registry.live := by
    have expired := found.2
    rw [ExportRegistry.expires, Bool.and_eq_true, decide_eq_true_eq] at expired
    exact expired.1
  exact absent (named.ledger key present)

variable (entry : ExportEntry)

theorem live_insert (unnamed : ∀ old, registry.inner.lookup id = some old → old.blobKey = none)
    (named : key ∈ registry.live) :
    key ∈ ({ registry with inner := registry.inner.insert id entry } : ExportRegistry).live := by
  rw [mem_live] at named ⊢
  obtain ⟨other, old, found, names⟩ := named
  refine ⟨other, old, ?_, names⟩
  by_cases same : other = id
  · subst same
    rw [unnamed old found] at names
    cases names
  · rw [lookup_insert_of_ne _ same]
    exact found

theorem live_congr (other : ExportRegistry) (same : other.inner = registry.inner) :
    other.live = registry.live := by
  rw [ExportRegistry.live, ExportRegistry.live, same]

theorem named_insert (table : next.inner = registry.inner.insert id entry)
    (unnamed : ∀ old, registry.inner.lookup id = some old → old.blobKey = none)
    (running : entry.state = .running → entry.blobKey = none)
    (ledger : ∀ key ∈ next.ledger, key ∈ registry.ledger ∨ entry.blobKey = some key)
    (named : Named registry) : Named next := by
  constructor
  · intro key listed
    rw [live_congr { registry with inner := registry.inner.insert id entry } next table]
    rcases ledger key listed with old | fresh
    · exact live_insert registry id key entry unnamed (named.ledger key old)
    · rw [mem_live]
      exact ⟨id, entry, lookup_insert _, fresh⟩
  · intro other old found isRunning
    rw [table] at found
    by_cases same : other = id
    · subst same
      rw [lookup_insert] at found
      cases found
      exact running isRunning
    · rw [lookup_insert_of_ne _ same] at found
      exact named.running other old found isRunning

theorem named_touches (change : ExportEntry → ExportEntry)
    (touches : Touches registry next id change) (ledger : next.ledger = registry.ledger)
    (kept : ∀ entry, (change entry).blobKey = entry.blobKey) (named : Named registry) :
    Named next := by
  cases touches with
  | unchanged same => exact same ▸ named
  | changed entry found running table =>
    have none : entry.blobKey = none := named.running id entry found running
    apply named_insert registry next id (change entry) table ?_ ?_ ?_ named
    · intro old there
      rw [found] at there
      cases there
      exact none
    · intro _
      rw [kept, none]
    · intro key listed
      exact .inl (ledger ▸ listed)

theorem named_finish (fin : Finish) (now : Nat) (named : Named registry) :
    Named (finish registry id fin now) := by
  by_cases settles : registry.settles id = true
  · obtain ⟨entry, found, running⟩ := (settles_iff registry id).mp settles
    have none : entry.blobKey = none := named.running id entry found running
    rw [finish_settles registry id fin now entry found running]
    apply named_insert registry _ id (entry.settled now fin) rfl ?_ ?_ ?_ named
    · intro old there
      rw [found] at there
      cases there
      exact none
    · intro isRunning
      rw [settled_state] at isRunning
      exact absurd isRunning (finish_not_running fin)
    · intro key listed
      rw [settled_blobKey entry now fin none]
      cases artifact : fin.artifact with
      | none =>
        rw [artifact] at listed
        exact .inl listed
      | some recorded =>
        rw [artifact] at listed
        rcases mem_insert.mp listed with rfl | old
        · exact .inr rfl
        · exact .inl old
  · rw [Bool.not_eq_true] at settles
    rw [finish_ignored registry id fin now settles]
    exact named

theorem named_sweep (named : Named registry) :
    Named (sweep registry nowMs ttlMs).2 := by
  constructor
  · intro key listed
    have kept : key ∈ registry.ledger := by
      rw [sweep, mem_iff] at listed
      obtain ⟨openMs, found⟩ := listed
      rw [lookup_retain, filter_eq_some_iff] at found
      exact mem_iff.mpr ⟨openMs, found.1⟩
    exact named.ledger key kept
  · exact named.running

/-- What holds along a run: the ledger stays named and no sweep has returned
anything. -/
structure Retained (state : ExpiryState) : Prop where
  named : Named state.registry
  empty : ∀ nowMs ttlMs keys running, .swept nowMs ttlMs keys running ∈ state.history → keys = ∅

theorem retained_apply (state : ExpiryState) (label : ExpiryStep) (retained : Retained state)
    (fresh : DrawsFresh state label) :
    Named (state.apply label).1 ∧
      ∀ nowMs ttlMs keys running, .swept nowMs ttlMs keys running ∈ (state.apply label).2 →
        keys = ∅ := by
  cases label with
  | register owner aliasName random now =>
    simp only [ExpiryState.apply]
    split
    · exact ⟨retained.named, retained.empty⟩
    · rename_i id next registered
      obtain ⟨made, registers⟩ :=
        register_registers state.registry next owner aliasName random now id registered
      refine ⟨?_, retained.empty⟩
      apply named_insert state.registry next id (.started owner aliasName now) ?_ ?_ ?_ ?_
        retained.named
      · rw [registers.table]
      · intro old found
        exact absurd (mem_of_lookup_eq_some found)
          (fresh_of_drawsFresh state.registry random id fresh made)
      · intro _
        exact registers.unnamed
      · intro key listed
        rw [registers.table] at listed
        exact .inl listed
  | progress id rows bytes =>
    refine ⟨?_, retained.empty⟩
    exact named_touches _ _ id _ (progress_touches state.registry id rows bytes)
      (progress_ledger state.registry id rows bytes) (fun _ => rfl) retained.named
  | cancel id owner =>
    refine ⟨?_, retained.empty⟩
    exact named_touches _ _ id _ (cancel_touches state.registry id owner)
      (cancel_ledger state.registry id owner) (fun _ => rfl) retained.named
  | finish id fin now =>
    refine ⟨named_finish state.registry id fin now retained.named, ?_⟩
    intro nowMs ttlMs keys running listed
    simp only [ExpiryState.apply] at listed
    have old : .swept nowMs ttlMs keys running ∈ state.history := by
      split at listed
      · split at listed
        · simpa using listed
        · exact listed
      · exact listed
    exact retained.empty nowMs ttlMs keys running old
  | sweep nowMs ttlMs =>
    refine ⟨named_sweep state.registry nowMs ttlMs retained.named, ?_⟩
    intro laterMs laterTtl keys running listed
    rcases List.mem_append.mp listed with old | new
    · exact retained.empty laterMs laterTtl keys running old
    · cases List.mem_singleton.mp new
      exact sweep_returns_nothing state.registry nowMs ttlMs retained.named

variable {boot : BootTag} {globalConcurrency perSubjectConcurrency : Nat}

theorem retained_step : Preserved (expirySystem boot globalConcurrency perSubjectConcurrency)
    DrawsFresh Retained := by
  intro state label next retained fresh fired
  obtain ⟨-, fired⟩ := ite_none_right_eq_some.mp fired
  cases fired
  obtain ⟨named, empty⟩ := retained_apply state label retained fresh
  exact ⟨named, empty⟩

theorem retained_initial :
    Retained (.initial boot globalConcurrency perSubjectConcurrency) := by
  constructor
  · constructor
    · intro key listed
      exact absurd listed notMem_empty
    · intro id entry found
      cases found
  · intro nowMs ttlMs keys running listed
    cases listed

theorem first_due (time : Nat) (events : List ExpiryEvent)
    (exists_due : ∃ event ∈ events, event.due time = true) :
    ∃ between event after, events = between ++ event :: after ∧ event.due time = true ∧
      ∀ earlier ∈ between, earlier.due time = false := by
  induction events with
  | nil =>
    obtain ⟨event, listed, -⟩ := exists_due
    cases listed
  | cons head rest ih =>
    by_cases due : head.due time = true
    · exact ⟨[], head, rest, rfl, due, fun earlier listed => nomatch listed⟩
    · rw [Bool.not_eq_true] at due
      have later : ∃ event ∈ rest, event.due time = true := by
        obtain ⟨event, listed, found⟩ := exists_due
        rcases List.mem_cons.mp listed with rfl | tail
        · rw [due] at found
          cases found
        · exact ⟨event, tail, found⟩
      obtain ⟨between, event, after, split, found, before⟩ := ih later
      refine ⟨head :: between, event, after, ?_, found, ?_⟩
      · rw [split, List.cons_append]
      · intro earlier listed
        rcases List.mem_cons.mp listed with rfl | tail
        · exact due
        · exact before earlier tail

theorem expires_iff_of_empty (history : List ExpiryEvent)
    (empty : ∀ nowMs ttlMs keys running, .swept nowMs ttlMs keys running ∈ history → keys = ∅) :
    Expires history ↔ ¬ SweptDue history := by
  constructor
  · rintro expires ⟨before, key, time, after, split, exists_due⟩
    obtain ⟨between, event, rest, cut, due, earlier⟩ := first_due time after exists_due
    cases event with
    | recorded other at_ => cases due
    | swept nowMs ttlMs keys running =>
      have whole : history = before ++ .recorded key time ::
          (between ++ .swept nowMs ttlMs keys running :: rest) := by
        rw [split, cut]
      have late : time + ttlMs ≤ nowMs := of_decide_eq_true due
      have listed : key ∈ keys :=
        (expires.returned before key time between nowMs ttlMs keys running rest whole).mpr
          ⟨late, earlier⟩
      have none : keys = ∅ := by
        apply empty nowMs ttlMs keys running
        rw [whole]
        simp
      rw [none] at listed
      exact absurd listed (Finset.notMem_empty key)
  · intro never
    constructor
    · intro before key time between nowMs ttlMs keys running after split
      have member : .swept nowMs ttlMs keys running ∈ history := by
        rw [split]
        simp
      constructor
      · intro listed
        rw [empty nowMs ttlMs keys running member] at listed
        exact absurd listed (Finset.notMem_empty key)
      · rintro ⟨late, -⟩
        refine absurd ⟨before, key, time, _, split, .swept nowMs ttlMs keys running, ?_, ?_⟩ never
        · simp
        · exact decide_eq_true late
    · intro nowMs ttlMs keys running member task _ ext
      rw [empty nowMs ttlMs keys running member]
      exact Finset.notMem_empty _

/-- In every run, artifacts expire exactly when no sweep ever comes at which a
recorded artifact is due: such a sweep returns nothing. -/
theorem expires_iff (labels : List ExpiryStep) (state : ExpiryState)
    (path : Path (expirySystem boot globalConcurrency perSubjectConcurrency) DrawsFresh
      (.initial boot globalConcurrency perSubjectConcurrency) labels state) :
    Expires state.history ↔ ¬ SweptDue state.history := by
  have retained : Retained state := path_preserves retained_step path retained_initial
  exact expires_iff_of_empty state.history retained.empty

def finishThenSweep : List ExpiryStep :=
  [.register sampleOwner "main" (.ok (sampleBytes 0)) 0,
    .finish sampleTask (.done 1 2 false none (blobKey sampleTask "csv") []) 0,
    .sweep 7200000 3600000]
where
  sampleTask : String := "export_0000_00000000000000000000000000000000"

def finishThenSweepHistory : List ExpiryEvent :=
  [.recorded (blobKey finishThenSweep.sampleTask "csv") 0, .swept 7200000 3600000 ∅ ∅]

private theorem finish_then_sweep_runs :
    ∃ state, Path (expirySystem sampleBoot 4 2) DrawsFresh (.initial sampleBoot 4 2) finishThenSweep
      state ∧ state.history = finishThenSweepHistory := by
  have ran : ((expirySystem sampleBoot 4 2).runWhere drawsFresh (.initial sampleBoot 4 2)
      finishThenSweep).map ExpiryState.history = some finishThenSweepHistory := by
    decide +kernel
  obtain ⟨state, ran, history⟩ := map_eq_some_iff.mp ran
  exact ⟨state, path_of_run_where drawsFresh (fun _ _ passed => passed) _ _ _ ran, history⟩

/-- The sweep that comes an hour late returns nothing. -/
theorem artifact_never_expires :
    ∃ state, Path (expirySystem sampleBoot 4 2) DrawsFresh (.initial sampleBoot 4 2) finishThenSweep
      state ∧ ¬ Expires state.history := by
  obtain ⟨state, path, history⟩ := finish_then_sweep_runs
  refine ⟨state, path, ?_⟩
  intro expires
  have listed := (expires.returned [] _ 0 [] 7200000 3600000 ∅ ∅ [] history).mpr
    ⟨by decide, fun event member => nomatch member⟩
  exact absurd listed (Finset.notMem_empty _)

theorem expires_iff_finish_then_sweep :
    ∃ state : ExpiryState, Expires state.history ↔ ¬ SweptDue state.history := by
  obtain ⟨state, path, -⟩ := finish_then_sweep_runs
  exact ⟨state, expires_iff finishThenSweep state path⟩

end OnlyJs.Bridge.DbExport
