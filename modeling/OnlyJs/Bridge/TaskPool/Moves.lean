import OnlyJs.Bridge.TaskPool.Worker

/-!
# What a step of a worker does

The steps of a worker fall into few kinds by what they do to its sessions: most leave
them alone, and a session is connected, taken for its loop body, given back, torn down,
lost or dropped. The registry keeps its names through all of them.
-/

namespace OnlyJs.Bridge.TaskPool

open Lib Option Function

def Phase.idle : Phase → Bool
  | .absent => true
  | .holding => true
  | .top => true
  | .clearing => true
  | .working _ => true
  | .visiting _ => true
  | .closing _ => true
  | _ => false

def Phase.hand : Phase → Option Nat
  | .looping _ session _ => some session
  | .tearing _ session _ => some session
  | .failing _ session _ _ => some session
  | _ => none

/-- The entries have the same names, kinds and desired states. -/
def Registry.Alike (registry other : Registry) : Prop :=
  ∀ name, (registry.get name).map TaskEntry.plan = (other.get name).map TaskEntry.plan

theorem alike_update (registry : Registry) (name : String) (change : TaskEntry → TaskEntry)
    (kept : ∀ entry, (change entry).plan = entry.plan) :
    (registry.update name change).Alike registry := by
  intro other
  rw [Registry.get_update]
  split
  · rw [map_map]
    exact congrArg (fun read => (registry.get other).map read) (funext kept)
  · rfl

theorem alike_mark (registry : Registry) (name : String) (status : TaskStatus)
    (error : Option String) : (registry.setStatus name status error).Alike registry :=
  alike_update registry name _ fun _ => rfl

theorem alike_isSome {registry other : Registry} (alike : registry.Alike other) (name : String) :
    (registry.get name).isSome = (other.get name).isSome := by
  have same := congrArg Option.isSome (alike name)
  rwa [isSome_map, isSome_map] at same

theorem alike_trans {first second third : Registry} (left : first.Alike second)
    (right : second.Alike third) : first.Alike third :=
  fun name => (left name).trans (right name)

/-- A teardown is asked for by a visit or at the end, or by the reload flag of a task
that the worker has noted as connected. -/
def Next.Due (state : State) (worker : Nat) (name : String) : Next → Prop
  | .align task rest => name = task.name ∧ state.phase worker = .seen task rest ∧
      task.connected = true ∧
        ((state.registry.get task.name).any TaskEntry.reloadPending) = true
  | .visit _ => True
  | .close _ => True

/-- What a step of a worker does, by its sessions. -/
inductive Moves (state : State) (worker : Nat) : State → Prop
  | rest (phase : Phase) (registry : Registry) (jobs : List OnceJob)
      (before : (state.phase worker).hand = none) (after : phase.idle = true)
      (alike : registry.Alike state.registry) :
      Moves state worker ({ state with registry, jobs }.place worker phase)
  | see (task : Seen) (rest : List String)
      (before : state.phase worker = .visiting (task.name :: rest))
      (listed : (state.registry.get task.name).isSome = true)
      (connected : task.connected = (state.sessions worker).contains task.name) :
      Moves state worker (state.place worker (.seen task rest))
  | aligned (task : Seen) (rest : List String) (registry : Registry)
      (before : state.phase worker = .seen task rest) (alike : registry.Alike state.registry) :
      Moves state worker ({ state with registry }.place worker (.aligning task rest))
  | connecting (task : Seen) (rest : List String)
      (before : state.phase worker = .aligning task rest) (want : task.want = true)
      (apart : task.connected = false) :
      Moves state worker (state.place worker (.connecting task rest))
  | tear (name : String) (session : Nat) (next : Next) (registry : Registry)
      (before : (state.phase worker).hand = none)
      (found : (state.sessions worker)[name]? = some session)
      (due : next.Due state worker name) (alike : registry.Alike state.registry) :
      Moves state worker ((({ state with registry }.hold worker
        ((state.sessions worker).erase name)).observe (.tornDown session)).place worker
          (.tearing name session next))
  | loop (task : Seen) (rest : List String) (session : Nat)
      (before : state.phase worker = .aligning task rest)
      (found : (state.sessions worker)[task.name]? = some session) :
      Moves state worker (((state.hold worker ((state.sessions worker).erase task.name)).observe
        (.looped session)).place worker (.looping task.name session rest))
  | connect (task : Seen) (rest : List String) (registry : Registry)
      (before : state.phase worker = .connecting task rest)
      (alike : registry.Alike state.registry) :
      Moves state worker ({ state with
        registry := registry
        created := state.created ++ [(worker, task.name)] }.hold worker
          ((state.sessions worker).insert task.name state.created.length) |>.place worker
            (.visiting rest))
  | giveBack (name : String) (session : Nat) (rest : List String) (registry : Registry)
      (before : state.phase worker = .looping name session rest)
      (alike : registry.Alike state.registry) :
      Moves state worker (({ state with registry }.hold worker
        ((state.sessions worker).insert name session)).place worker (.visiting rest))
  | fail (name : String) (session : Nat) (message : String) (rest : List String)
      (before : state.phase worker = .looping name session rest) :
      Moves state worker ((state.observe (.tornDown session)).place worker
        (.failing name session message rest))
  | lose (name : String) (session : Nat) (rest : List String) (registry : Registry)
      (before : state.phase worker = .looping name session rest)
      (alike : registry.Alike state.registry) :
      Moves state worker ((({ state with registry }.observe (.poisoned session)).observe
        (.dropped session)).place worker (.visiting rest))
  | dropFailed (name : String) (session : Nat) (message : String) (rest : List String)
      (registry : Registry) (before : state.phase worker = .failing name session message rest)
      (alike : registry.Alike state.registry) :
      Moves state worker (({ state with registry }.observe (.dropped session)).place worker
        (.visiting rest))
  | dropTorn (name : String) (session : Nat) (next : Next) (registry : Registry)
      (before : state.phase worker = .tearing name session next)
      (alike : registry.Alike state.registry) :
      Moves state worker (({ state with registry }.observe (.dropped session)).place worker
        next.phase)
  | panic (task : Seen) (rest : List String)
      (before : state.phase worker = .aligning task rest) (want : task.want = true)
      (connected : task.connected = true)
      (missing : (state.sessions worker)[task.name]? = none) :
      Moves state worker (((state.hold worker ∅).observe
        (.unwound (state.sessions worker).values)).place worker .panicked)

section Changes

variable (state : State) (worker other : Nat) (phase : Phase) (table : Std.TreeMap String Nat)
  (event : Event)

@[simp] theorem phase_place :
    (state.place worker phase).phase other =
      if other = worker then phase else state.phase other := by
  simp only [State.phase, State.place, update_apply]
  split <;> rfl

@[simp] theorem sessions_place :
    (state.place worker phase).sessions other = state.sessions other := by
  simp only [State.sessions, State.place, update_apply]
  split
  · rename_i same
    rw [same]
  · rfl

@[simp] theorem phase_hold : (state.hold worker table).phase other = state.phase other := by
  simp only [State.phase, State.hold, update_apply]
  split
  · rename_i same
    rw [same]
  · rfl

@[simp] theorem sessions_hold :
    (state.hold worker table).sessions other =
      if other = worker then table else state.sessions other := by
  simp only [State.sessions, State.hold, update_apply]
  split <;> rfl

@[simp] theorem phase_observe : (state.observe event).phase other = state.phase other := rfl

@[simp] theorem sessions_observe : (state.observe event).sessions other = state.sessions other :=
  rfl

@[simp] theorem place_created : (state.place worker phase).created = state.created := rfl

@[simp] theorem place_history : (state.place worker phase).history = state.history := rfl

@[simp] theorem place_registry : (state.place worker phase).registry = state.registry := rfl

@[simp] theorem hold_created : (state.hold worker table).created = state.created := rfl

@[simp] theorem hold_history : (state.hold worker table).history = state.history := rfl

@[simp] theorem hold_registry : (state.hold worker table).registry = state.registry := rfl

@[simp] theorem observe_created : (state.observe event).created = state.created := rfl

@[simp] theorem observe_history : (state.observe event).history = event :: state.history := rfl

@[simp] theorem observe_registry : (state.observe event).registry = state.registry := rfl

end Changes

variable {state next : State} {worker : Nat}

theorem registry_moves (moved : Moves state worker next) : next.registry.Alike state.registry := by
  cases moved with
  | rest phase registry jobs before after alike | aligned task rest registry before alike
  | tear name session after registry before found due alike
  | connect task rest registry before alike | giveBack name session rest registry before alike
  | lose name session rest registry before alike
  | dropFailed name session message rest registry before alike
  | dropTorn name session after registry before alike => exact alike
  | _ => exact fun _ => rfl

theorem others_moves {other : Nat} (moved : Moves state worker next) (distinct : other ≠ worker) :
    next.phase other = state.phase other ∧ next.sessions other = state.sessions other := by
  constructor <;> cases moved <;> simp [distinct] <;> rfl

variable {name : String}

theorem teardown_moves {after : Next} (before : (state.phase worker).hand = none)
    (idle : after.phase.idle = true) (due : after.Due state worker name) :
    Moves state worker (teardown state worker name after) := by
  unfold teardown
  cases found : (state.sessions worker)[name]? with
  | none => exact .rest after.phase _ state.jobs before idle (alike_update _ _ _ fun _ => rfl)
  | some session => exact .tear name session after state.registry before found due fun _ => rfl

theorem align_moves {task : Seen} {rest : List String}
    (before : state.phase worker = .aligning task rest) :
    Moves state worker (align state worker task rest) := by
  have free : (state.phase worker).hand = none := by
    rw [before]
    rfl
  unfold align
  cases want : task.want <;> cases connected : task.connected
  · simp only [Bool.not_false, Bool.and_true, Bool.false_eq_true, if_false, Bool.and_false]
    split
    · exact .rest (.visiting rest) _ state.jobs free rfl (alike_update _ _ _ fun _ => rfl)
    · exact .rest (.visiting rest) state.registry state.jobs free rfl fun _ => rfl
  · exact teardown_moves free rfl trivial
  · exact .connecting task rest before want connected
  · simp only [Bool.not_true]
    cases found : (state.sessions worker)[task.name]? with
    | none => exact .panic task rest before want connected found
    | some session => exact .loop task rest session before found

variable {timeout : Nat}

theorem looped_moves {session : Nat} {rest : List String} {result : Fired}
    (before : state.phase worker = .looping name session rest) :
    Moves state worker (looped timeout state worker name session rest result) := by
  cases result with
  | ok => exact .giveBack name session rest _ before (alike_update _ _ _ fun _ => rfl)
  | core message => exact .fail name session message rest before
  | oom limit | timeout => exact .lose name session rest _ before (alike_update _ _ _ fun _ => rfl)

theorem snapshot_some {registry : Registry} {seen : Bool × TaskStatus × String}
    (taken : registry.snapshot name = some seen) : (registry.get name).isSome = true := by
  obtain ⟨entry, found, -⟩ := map_eq_some_iff.mp taken
  rw [found]
  rfl

theorem work_moves {input : Input} (worked : work timeout state worker input = some next) :
    Moves state worker next := by
  have free : ∀ phase, state.phase worker = phase → phase.hand = none →
      (state.phase worker).hand = none := by
    intro phase stood free
    rwa [stood]
  unfold work at worked
  split at worked
  case h_1 stood =>
    split at worked
    · cases worked
      exact .rest .top state.registry state.jobs (free _ stood rfl) rfl fun _ => rfl
    · split at worked
      · cases worked
        exact .rest .absent state.registry state.jobs (free _ stood rfl) rfl fun _ => rfl
      · cases worked
  case h_2 stood =>
    split at worked <;> cases worked
    · exact .rest (.closing _) state.registry state.jobs (free _ stood rfl) rfl fun _ => rfl
    · exact .rest .clearing state.registry state.jobs (free _ stood rfl) rfl fun _ => rfl
  case h_3 stood =>
    split at worked
    · cases worked
      exact .rest (.visiting _) state.registry state.jobs (free _ stood rfl) rfl fun _ => rfl
    · rename_i job rest queued
      dsimp only at worked
      split at worked <;> cases worked
      · exact .rest .clearing state.registry rest (free _ stood rfl) rfl fun _ => rfl
      · exact .rest (.working job) _ rest (free _ stood rfl) rfl (alike_update _ _ _ fun _ => rfl)
  case h_4 job stood =>
    cases worked
    exact .rest .clearing _ state.jobs (free _ stood rfl) rfl
      (alike_trans (alike_mark _ _ _ _) (alike_update _ _ _ fun _ => rfl))
  case h_5 job error stood =>
    cases worked
    exact .rest .clearing _ state.jobs (free _ stood rfl) rfl (alike_update _ _ _ fun _ => rfl)
  case h_6 stood =>
    cases worked
    exact .rest .top state.registry state.jobs (free _ stood rfl) rfl fun _ => rfl
  case h_7 name rest stood =>
    split at worked
    · cases worked
      exact .rest (.visiting rest) state.registry state.jobs (free _ stood rfl) rfl fun _ => rfl
    · rename_i want status path taken
      cases worked
      exact .see _ rest stood (snapshot_some taken) rfl
  case h_8 task rest stood =>
    dsimp only at worked
    split at worked
    · rename_i both
      cases worked
      rw [Bool.and_eq_true] at both
      unfold teardown
      dsimp only [State.sessions]
      cases found : (state.workers worker).sessions[task.name]? with
      | none =>
        exact .aligned task rest _ stood
          (alike_trans (alike_mark _ _ _ _) (alike_update _ _ _ fun _ => rfl))
      | some session =>
        exact .tear task.name session (.align task rest) _ (free _ stood rfl) found
          ⟨rfl, stood, both.2, both.1⟩ (alike_update _ _ _ fun _ => rfl)
    · cases worked
      exact .aligned task rest _ stood (alike_update _ _ _ fun _ => rfl)
  case h_9 task rest stood =>
    cases worked
    exact align_moves stood
  case h_10 task rest stood =>
    cases worked
    exact .connect task rest _ stood (alike_update _ _ _ fun _ => rfl)
  case h_11 task rest error stood =>
    cases worked
    exact .rest (.visiting rest) _ state.jobs (free _ stood rfl) rfl
      (alike_update _ _ _ fun _ => rfl)
  case h_12 name session rest result stood =>
    cases worked
    exact looped_moves stood
  case h_13 name session error rest result stood =>
    cases worked
    exact .dropFailed name session error rest _ stood (alike_update _ _ _ fun _ => rfl)
  case h_14 name session after result stood =>
    cases worked
    exact .dropTorn name session after _ stood (alike_update _ _ _ fun _ => rfl)
  case h_15 stood =>
    cases worked
    exact .rest .absent state.registry state.jobs (free _ stood rfl) rfl fun _ => rfl
  case h_16 name rest stood =>
    cases worked
    exact teardown_moves (free _ stood rfl) rfl trivial
  case h_17 stood =>
    cases worked
    refine .rest _ state.registry state.jobs (free _ stood rfl) ?_ fun _ => rfl
    split <;> rfl
  case h_18 => cases worked

theorem teardown_jobs (name : String) (after : Next) :
    (teardown state worker name after).jobs = state.jobs ∧
      ∀ job, (teardown state worker name after).phase worker ≠ .working job := by
  unfold teardown
  split
  · exact ⟨rfl, by simp⟩
  · exact ⟨rfl, by cases after <;> simp [Next.phase]⟩

theorem align_jobs (task : Seen) (rest : List String) :
    (align state worker task rest).jobs = state.jobs ∧
      ∀ job, (align state worker task rest).phase worker ≠ .working job := by
  unfold align
  split
  · exact ⟨rfl, by simp⟩
  split
  · exact teardown_jobs _ _
  split
  · split <;> exact ⟨rfl, by simp⟩
  split <;> exact ⟨rfl, by simp⟩

theorem looped_jobs (timeout : Nat) (name : String) (session : Nat) (rest : List String)
    (result : Fired) : (looped timeout state worker name session rest result).jobs = state.jobs ∧
      ∀ job, (looped timeout state worker name session rest result).phase worker ≠
        .working job := by
  cases result <;> exact ⟨rfl, by simp [looped, lose]⟩

/-- A step takes the first job of the queue at most, and a worker that runs a job after
it has taken that one. -/
theorem work_jobs {input : Input} (worked : work timeout state worker input = some next) :
    next.jobs <:+ state.jobs ∧
      ∀ job, next.phase worker = .working job → state.jobs = job :: next.jobs := by
  have same : ∀ after : State,
      after.jobs = state.jobs ∧ (∀ job, after.phase worker ≠ .working job) →
      after.jobs <:+ state.jobs ∧
        ∀ job, after.phase worker = .working job → state.jobs = job :: after.jobs := by
    rintro after ⟨jobs, elsewhere⟩
    exact ⟨jobs ▸ List.suffix_refl _, fun job stood => absurd stood (elsewhere job)⟩
  unfold work at worked
  split at worked
  case h_1 =>
    split at worked
    · cases worked
      exact same _ ⟨rfl, by simp⟩
    · split at worked <;> cases worked
      exact same _ ⟨rfl, by simp⟩
  case h_2 =>
    split at worked <;> cases worked <;> exact same _ ⟨rfl, by simp⟩
  case h_3 =>
    split at worked
    · cases worked
      exact same _ ⟨rfl, by simp⟩
    · rename_i job rest queued
      have shorter : rest <:+ state.jobs := queued ▸ List.suffix_cons job rest
      dsimp only at worked
      split at worked <;> cases worked
      · exact ⟨shorter, by simp⟩
      · refine ⟨shorter, fun other stood => ?_⟩
        simp only [phase_place, if_true, Phase.working.injEq] at stood
        rw [← stood]
        exact queued
  case h_7 =>
    split at worked <;> cases worked <;> exact same _ ⟨rfl, by simp⟩
  case h_8 =>
    dsimp only at worked
    split at worked <;> cases worked
    · exact same _ (teardown_jobs _ _)
    · exact same _ ⟨rfl, by simp⟩
  case h_9 =>
    cases worked
    exact same _ (align_jobs _ _)
  case h_12 =>
    cases worked
    exact same _ (looped_jobs _ _ _ _ _)
  case h_14 name session after result stood =>
    cases worked
    exact same _ ⟨rfl, by cases after <;> simp [Next.phase]⟩
  case h_16 =>
    cases worked
    exact same _ (teardown_jobs _ _)
  case h_17 =>
    cases worked
    refine same _ ⟨rfl, ?_⟩
    split <;> simp
  case h_18 => cases worked
  all_goals
    cases worked
    exact same _ ⟨rfl, by simp⟩

end OnlyJs.Bridge.TaskPool
