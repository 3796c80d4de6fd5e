import OnlyJs.Bridge.Runtime.JsRuntime

/-!
# Request contexts on a reused runtime

What an op of a run may depend on is the state a fresh reset would have given the
run, changed by the run's own ops and by nothing else. The runs of this module
start on a runtime on which no earlier run has left a continuation; a WebSocket
frame is excluded, since it pins no assembly.
-/

namespace OnlyJs.Bridge.Runtime

open Lib.StepSystem List Option

variable {ops : OpSet} {stable : StableState}

@[grind =]
def ownView (run : Nat) (established : ReqState) : List (Issued ops) → Option ReqState
  | [] => some established
  | issued :: earlier =>
    if issued.run = run then (ownView run established earlier).bind (ops.perform issued.op)
    else ownView run established earlier

/-- The op was issued while its own run was being executed; it found the state
that this run's call, module and assembly and its own earlier ops determine, the
container of its module, and it did not panic. -/
structure IssuedInContext (stable : StableState) (runs : List (Call × ReqState))
    (earlier : List (Issued ops)) (issued : Issued ops) : Prop where
  during : issued.during = issued.run
  view : ∃ call epoch, runs[issued.run]? =
      some (call, ReqState.fresh call.req call.moduleCtx call.assembly epoch) ∧
    ownView issued.run (ReqState.fresh call.req call.moduleCtx call.assembly epoch) earlier =
      some issued.before
  container : issued.container =
    containerForModule stable.fs stable.platform issued.before.moduleName
  answered : ops.perform issued.op issued.before ≠ none

/-- Request contexts do not mix: every op of the history was issued in its run's
context, and the assembly of the run being executed is pinned. -/
structure ContextsSeparate (stable : StableState) (rt : JsRuntime ops) : Prop where
  issued : ∀ issued earlier, (issued :: earlier) <:+ rt.history →
    IssuedInContext stable rt.runs earlier issued
  pinned : ∀ run, rt.phase.current = some run → rt.rs.assembly.isSome ∧
    ∃ call established, rt.runs[run]? = some (call, established) ∧
      rt.rs.assembly = call.assembly

/-- A run starts where no continuation of an earlier run is unfinished, and it is
not a frame. -/
def FreshStart (rt : JsRuntime ops) : Label ops → Prop
  | .start call => rt.unfinished = [] ∧ call.assembly.isSome
  | _ => True

/-- What holds while a run is being executed. -/
structure Executing (stable : StableState) (rt : JsRuntime ops) (run : Nat) : Prop where
  latest : rt.runs.length = run + 1
  owned : ∀ continuation ∈ rt.unfinished, continuation.run = run
  context : ∃ call epoch, rt.runs[run]? =
      some (call, ReqState.fresh call.req call.moduleCtx call.assembly epoch) ∧
    call.assembly.isSome ∧
    ownView run (ReqState.fresh call.req call.moduleCtx call.assembly epoch) rt.history =
      some rt.rs
  container : rt.container = containerForModule stable.fs stable.platform rt.rs.moduleName

def SessionHolder (holder : Holder) : Prop := holder = .wsSession ∨ holder = .taskSession

/-- The invariant of a runtime whose runs all start fresh. -/
structure Separated (stable : StableState) (rt : JsRuntime ops) : Prop where
  issued : ∀ issued earlier, (issued :: earlier) <:+ rt.history →
    IssuedInContext stable rt.runs earlier issued
  known : ∀ issued ∈ rt.history, issued.run < rt.runs.length
  executing : ∀ run, rt.phase.current = some run → Executing stable rt run
  session : SessionHolder rt.holder →
    rt.container = containerForModule stable.fs stable.platform none

section OwnView

theorem own_view_unknown (run : Nat) (established : ReqState) (history : List (Issued ops))
    (unknown : ∀ issued ∈ history, issued.run ≠ run) :
    ownView run established history = some established := by
  induction history with
  | nil => rfl
  | cons issued earlier ih =>
    rw [ownView, if_neg (unknown issued mem_cons_self)]
    exact ih fun other member => unknown other (mem_cons_of_mem issued member)

theorem own_view_issued (run : Nat) (established before : ReqState) (issued : Issued ops)
    (earlier : List (Issued ops)) (own : issued.run = run)
    (view : ownView run established earlier = some before) :
    ownView run established (issued :: earlier) = ops.perform issued.op before := by
  rw [ownView, if_pos own, view, bind_some]

theorem own_view_pins (run : Nat) (established before : ReqState)
    (history : List (Issued ops)) (view : ownView run established history = some before) :
    established.SamePins before := by
  induction history generalizing before with
  | nil =>
    cases view
    exact ⟨rfl, rfl⟩
  | cons issued earlier ih =>
    rw [ownView] at view
    split at view
    · obtain ⟨middle, viewed, performed⟩ := bind_eq_some_iff.mp view
      have kept := ih middle viewed
      have last := ops.pins_kept issued.op middle before performed
      exact ⟨last.moduleName.trans kept.moduleName, last.assembly.trans kept.assembly⟩
    · exact ih before view

end OwnView

section Steps

theorem establish_fresh (stable : StableState) (call : Call) (rt : JsRuntime ops) :
    (call.establish stable rt).rs =
      ReqState.fresh call.req call.moduleCtx call.assembly (nextEpoch rt.rs.epoch) := by
  cases call <;> rfl

theorem establish_frame (stable : StableState) (call : Call) (rt : JsRuntime ops) :
    (call.establish stable rt).unfinished = rt.unfinished ∧
      (call.establish stable rt).history = rt.history ∧
      (call.establish stable rt).holder = rt.holder := by
  cases call <;> exact ⟨rfl, rfl, rfl⟩

theorem establish_container (stable : StableState) (call : Call) (rt : JsRuntime ops) :
    (call.establish stable rt).container =
      if call.holder = .pool then
        containerForModule stable.fs stable.platform (call.moduleCtx.map ModuleCtx.name)
      else rt.container := by
  cases call <;> rfl

theorem pool_or_session (call : Call) :
    call.holder = .pool ∨ (SessionHolder call.holder ∧ call.moduleCtx = none) := by
  cases call with
  | wsEvent req => exact .inr ⟨.inl rfl, rfl⟩
  | fire assembly => exact .inr ⟨.inr rfl, rfl⟩
  | _ => exact .inl rfl

theorem session_not_pool {holder : Holder} (session : SessionHolder holder) :
    holder ≠ .pool := by
  rcases session with kept | kept <;> rw [kept] <;> intro absurd <;> cases absurd

/-- What one step other than a start does to a runtime. -/
inductive Effect (stable : StableState) (rt : JsRuntime ops) : JsRuntime ops → Prop where
  | issued (during : Nat) (continuation : Continuation) (op : ops.Op) (rs : ReqState)
      (driven : rt.phase.current = some during) (member : continuation ∈ rt.unfinished)
      (performed : ops.perform op rt.rs = some rs) :
      Effect stable rt
        { rt with
          history := ⟨continuation.run, during, op, rt.rs, rt.container⟩ :: rt.history
          rs }
  | panicked (during : Nat) (continuation : Continuation) (op : ops.Op)
      (driven : rt.phase.current = some during) (member : continuation ∈ rt.unfinished)
      (performed : ops.perform op rt.rs = none) :
      Effect stable rt
        (drop { rt with
          history := ⟨continuation.run, during, op, rt.rs, rt.container⟩ :: rt.history })
  | progressed (unfinished : List Continuation) (heapGuardFired : Bool)
      (owners : ∀ continuation ∈ unfinished, ∃ old ∈ rt.unfinished, old.run = continuation.run) :
      Effect stable rt { rt with unfinished, heapGuardFired }
  | drained (run : Nat) (running : rt.phase = .running run) :
      Effect stable rt { rt with phase := .draining run }
  | released (holder : Holder) (rs : ReqState) (unfinished : List Continuation)
      (plain : SessionHolder holder → ∃ run call established, rt.phase.current = some run ∧
        rt.runs[run]? = some (call, established) ∧ call.moduleCtx = none) :
      Effect stable rt { rt with holder, phase := .idle, rs, unfinished }

private theorem executing_spec (index : Nat) (rt : JsRuntime ops) (during : Nat)
    (continuation : Continuation) (found : executing index rt = some (during, continuation)) :
    rt.phase.current = some during ∧ continuation ∈ rt.unfinished := by
  obtain ⟨run, current, found⟩ := bind_eq_some_iff.mp found
  obtain ⟨held, listed, found⟩ := bind_eq_some_iff.mp found
  obtain ⟨_, same⟩ := ite_none_right_eq_some.mp found
  cases same
  exact ⟨current, mem_of_getElem? listed⟩

private theorem owners_set (unfinished : List Continuation) (index : Nat) (waits : Wait)
    (replaced : Continuation) (member : replaced ∈ unfinished) :
    ∀ continuation ∈ unfinished.set index ⟨replaced.run, waits⟩,
      ∃ old ∈ unfinished, old.run = continuation.run := by
  intro continuation listed
  rcases mem_or_eq_of_mem_set listed with old | same
  · exact ⟨continuation, old, rfl⟩
  · rw [same]
    exact ⟨replaced, member, rfl⟩

private theorem not_session_dropped : ¬ SessionHolder .dropped := by
  intro session
  rcases session with absurd | absurd <;> cases absurd

theorem drop_effect (rt : JsRuntime ops) : Effect stable rt (drop rt) := by
  exact .released .dropped rt.rs [] fun session => absurd session not_session_dropped

theorem checkin_effect (rt : JsRuntime ops) : Effect stable rt (checkin (finalizeTx rt)) := by
  unfold checkin
  split
  · exact .released .dropped rt.rs.finalizeTx []
      fun session => absurd session not_session_dropped
  · exact .released .pool rt.rs.finalizeTx rt.unfinished
      fun session => absurd rfl (session_not_pool session)

variable (ending : Ending)

theorem run_with_end_effect (rt next : JsRuntime ops) (ended : runWithEnd ending rt = some next) :
    Effect stable rt next := by
  cases ending with
  | idle exported =>
    cases ended
    exact checkin_effect rt
  | rejection =>
    cases ended
    exact drop_effect rt
  | timeout => cases ended

theorem run_ws_end_effect (rt : JsRuntime ops) :
    Effect stable rt (runWsEnd ending rt) := by
  cases ending with
  | idle exported =>
    simp only [runWsEnd]
    split
    · exact drop_effect rt
    · exact checkin_effect rt
  | rejection | timeout => exact drop_effect rt

theorem run_side_driver_end_effect (rt : JsRuntime ops) :
    Effect stable rt (runSideDriverEnd ending rt) := by
  cases ending with
  | idle exported =>
    simp only [runSideDriverEnd]
    split
    · exact drop_effect rt
    · exact checkin_effect rt
  | rejection | timeout => exact drop_effect rt

section SessionEndings

variable {rt : JsRuntime ops} {run : Nat} {call : Call} {established : ReqState}

theorem connect_end_effect (holder : Holder) (ending : Ending)
    (running : rt.phase = .running run) (listed : rt.runs[run]? = some (call, established))
    (plain : call.moduleCtx = none) :
    Effect stable rt (connectEnd holder run ending rt) := by
  have current : rt.phase.current = some run := by rw [running]; rfl
  cases ending with
  | idle exported =>
    simp only [connectEnd]
    split
    · exact .released holder rt.rs.finalizeTx rt.unfinished
        fun _ => ⟨run, call, established, current, listed, plain⟩
    · exact drop_effect rt
  | rejection | timeout => exact .drained run running

theorem session_end_effect (holder : Holder) (ending : Ending)
    (running : rt.phase = .running run) (listed : rt.runs[run]? = some (call, established))
    (plain : call.moduleCtx = none) :
    Effect stable rt (sessionEnd holder ending rt) := by
  have current : rt.phase.current = some run := by rw [running]; rfl
  cases ending with
  | idle exported =>
    exact .released holder rt.rs.finalizeTx rt.unfinished
      fun _ => ⟨run, call, established, current, listed, plain⟩
  | rejection =>
    exact .released holder rt.rs rt.unfinished
      fun _ => ⟨run, call, established, current, listed, plain⟩
  | timeout => exact drop_effect rt

theorem call_conclude_effect (ending : Ending) (next : JsRuntime ops)
    (running : rt.phase = .running run) (listed : rt.runs[run]? = some (call, established))
    (ended : call.conclude run ending rt = some next) : Effect stable rt next := by
  cases call with
  | runWith req assembly => exact run_with_end_effect ending rt next ended
  | runWs req assembly =>
    cases ended
    exact run_ws_end_effect ending rt
  | runSideDriver req moduleCtx assembly =>
    cases ended
    exact run_side_driver_end_effect ending rt
  | wsConnect assembly =>
    cases ended
    exact connect_end_effect .wsSession ending running listed rfl
  | wsEvent req =>
    cases ended
    exact session_end_effect .wsSession ending running listed rfl
  | taskConnect assembly =>
    cases ended
    exact connect_end_effect .taskSession ending running listed rfl
  | fire assembly =>
    cases ended
    exact session_end_effect .taskSession ending running listed rfl

end SessionEndings

theorem conclude_effect (rt next : JsRuntime ops) (ended : conclude ending rt = some next) :
    Effect stable rt next := by
  unfold conclude at ended
  split at ended
  · cases ended
  · cases ended
    exact drop_effect rt
  · rename_i run running
    split at ended
    · cases ended
    · obtain ⟨⟨call, established⟩, listed, ended⟩ := bind_eq_some_iff.mp ended
      exact call_conclude_effect ending next running listed ended

theorem issue_effect (index : Nat) (op : ops.Op) (rt next : JsRuntime ops)
    (fired : issue index op rt = some next) : Effect stable rt next := by
  obtain ⟨⟨during, continuation⟩, found, rfl⟩ := map_eq_some_iff.mp fired
  obtain ⟨driven, member⟩ := executing_spec index rt during continuation found
  cases performed : ops.perform op rt.rs with
  | some rs =>
    exact .issued during continuation op rs driven member performed
  | none =>
    exact .panicked during continuation op driven member performed

theorem step_effect (rt next : JsRuntime ops) (label : Label ops)
    (fired : step stable rt label = some next) :
    Effect stable rt next ∨
      ∃ call, label = .start call ∧ start stable call rt = some next := by
  cases label with
  | start call => exact .inr ⟨call, rfl, fired⟩
  | issue index op =>
    exact .inl (issue_effect index op rt next fired)
  | spawnWork index waits =>
    left
    obtain ⟨⟨during, continuation⟩, found, rfl⟩ := map_eq_some_iff.mp fired
    obtain ⟨_, member⟩ := executing_spec index rt during continuation found
    refine .progressed (rt.unfinished ++ [⟨continuation.run, waits⟩]) rt.heapGuardFired ?_
    intro other listed
    rcases mem_append.mp listed with old | new
    · exact ⟨other, old, rfl⟩
    · rw [mem_singleton.mp new]
      exact ⟨continuation, member, rfl⟩
  | park index waits =>
    left
    obtain ⟨⟨during, continuation⟩, found, rfl⟩ := map_eq_some_iff.mp fired
    obtain ⟨_, member⟩ := executing_spec index rt during continuation found
    exact .progressed _ rt.heapGuardFired (owners_set rt.unfinished index waits continuation member)
  | finish index =>
    left
    obtain ⟨_, _, rfl⟩ := map_eq_some_iff.mp fired
    refine .progressed (rt.unfinished.eraseIdx index) rt.heapGuardFired ?_
    intro other listed
    exact ⟨other, mem_of_mem_eraseIdx listed, rfl⟩
  | hostSettled index =>
    left
    obtain ⟨_, _, fired⟩ := bind_eq_some_iff.mp fired
    obtain ⟨continuation, listed, fired⟩ := bind_eq_some_iff.mp fired
    obtain ⟨_, same⟩ := ite_none_right_eq_some.mp fired
    cases same
    exact .progressed _ rt.heapGuardFired
      (owners_set rt.unfinished index .ready continuation (mem_of_getElem? listed))
  | resolve index target =>
    left
    obtain ⟨_, _, fired⟩ := bind_eq_some_iff.mp fired
    obtain ⟨continuation, listed, fired⟩ := bind_eq_some_iff.mp fired
    obtain ⟨_, same⟩ := ite_none_right_eq_some.mp fired
    cases same
    exact .progressed _ rt.heapGuardFired
      (owners_set rt.unfinished target .ready continuation (mem_of_getElem? listed))
  | heapLimit =>
    left
    obtain ⟨_, _, rfl⟩ := map_eq_some_iff.mp fired
    exact .progressed rt.unfinished true fun continuation listed => ⟨continuation, listed, rfl⟩
  | conclude ending =>
    exact .inl (conclude_effect ending rt next fired)

end Steps

section Preservation

theorem issued_in_context_mono (runs : List (Call × ReqState)) (latest : Call × ReqState)
    (earlier : List (Issued ops)) (issued : Issued ops)
    (context : IssuedInContext stable runs earlier issued) :
    IssuedInContext stable (runs ++ [latest]) earlier issued := by
  obtain ⟨call, epoch, listed, viewed⟩ := context.view
  have inside : issued.run < runs.length := (List.getElem?_eq_some_iff.mp listed).1
  refine ⟨context.during, ⟨call, epoch, ?_, viewed⟩, context.container, context.answered⟩
  rw [getElem?_append_left inside]
  exact listed

theorem separated_start (call : Call) (rt next : JsRuntime ops)
    (separated : Separated stable rt) (nothing : rt.unfinished = [])
    (pinned : call.assembly.isSome) (started : start stable call rt = some next) :
    Separated stable next := by
  obtain ⟨⟨idle, held⟩, same⟩ := ite_none_right_eq_some.mp started
  cases same
  obtain ⟨unfinished, history, holder⟩ := establish_frame stable call rt
  have fresh := establish_fresh stable call rt
  have installed := establish_container stable call rt
  have kept : SessionHolder rt.holder →
      (call.establish stable rt).container =
        containerForModule stable.fs stable.platform none := by
    intro session
    rw [installed, if_neg (session_not_pool (held ▸ session)), separated.session session]
  constructor
  · intro issued earlier suffix
    have old : (issued :: earlier) <:+ rt.history := by
      rw [← history]
      exact suffix
    exact issued_in_context_mono rt.runs _ earlier issued (separated.issued issued earlier old)
  · intro issued member
    have old : issued ∈ rt.history := by
      rw [← history]
      exact member
    have known := separated.known issued old
    simp only [length_append]
    omega
  · intro run current
    cases current
    refine ⟨length_append, ?_, ⟨call, nextEpoch rt.rs.epoch, ?_, pinned, ?_⟩, ?_⟩
    · intro continuation listed
      simp only [nothing, nil_append, mem_singleton] at listed
      rw [listed]
    · simp only [getElem?_concat_length, fresh]
    · rw [history, fresh]
      refine own_view_unknown rt.runs.length _ rt.history fun issued member => ?_
      exact Nat.ne_of_lt (separated.known issued member)
    · rw [installed, fresh]
      rcases pool_or_session call with pooled | ⟨session, plain⟩
      · rw [if_pos pooled]
        rfl
      · rw [← installed, kept (held ▸ session)]
        simp only [ReqState.fresh, plain, map_none]
  · intro session
    exact kept (holder ▸ session)

theorem separated_issued (rt : JsRuntime ops) (separated : Separated stable rt)
    (during : Nat) (continuation : Continuation) (op : ops.Op)
    (driven : rt.phase.current = some during) (member : continuation ∈ rt.unfinished)
    (answered : ops.perform op rt.rs ≠ none) (issued : Issued ops) (earlier : List (Issued ops))
    (suffix : (issued :: earlier) <:+
      ⟨continuation.run, during, op, rt.rs, rt.container⟩ :: rt.history) :
    IssuedInContext stable rt.runs earlier issued := by
  obtain ⟨_, owned, ⟨call, epoch, listed, _, viewed⟩, container⟩ :=
    separated.executing during driven
  rcases suffix_cons_iff.mp suffix with same | old
  · cases same
    have own : continuation.run = during := owned continuation member
    refine ⟨own.symm, ⟨call, epoch, ?_, ?_⟩, container, answered⟩
    · rw [own]
      exact listed
    · rw [own]
      exact viewed
  · exact separated.issued issued earlier old

/-- One op, spawned or resumed continuation, or ending keeps the separation. -/
theorem separated_effect (rt next : JsRuntime ops) (separated : Separated stable rt)
    (effect : Effect stable rt next) : Separated stable next := by
  cases effect with
  | issued during continuation op rs driven member performed =>
    have executing := separated.executing during driven
    obtain ⟨call, epoch, listed, pinned, viewed⟩ := executing.context
    have own := executing.owned continuation member
    have known : continuation.run < rt.runs.length := by
      rw [own, executing.latest]
      exact Nat.lt_succ_self during
    have answered : ops.perform op rt.rs ≠ none := by
      rw [performed]
      exact some_ne_none rs
    refine ⟨?_, ?_, ?_, separated.session⟩
    · intro issued earlier suffix
      exact separated_issued rt separated during continuation op driven member answered
        issued earlier suffix
    · intro issued listed
      rcases mem_cons.mp listed with same | old
      · rw [same]
        exact known
      · exact separated.known issued old
    · intro run current
      cases driven.symm.trans current
      refine ⟨executing.latest, executing.owned, ⟨call, epoch, listed, pinned, ?_⟩, ?_⟩
      · rw [own_view_issued during _ rt.rs _ rt.history own viewed]
        exact performed
      · rw [(ops.pins_kept op rt.rs rs performed).moduleName]
        exact executing.container
  | panicked during continuation op driven member performed =>
    obtain ⟨call, epoch, _, pinned, viewed⟩ := (separated.executing during driven).context
    have kept := own_view_pins during _ rt.rs rt.history viewed
    have unpinned := ops.panic_unpinned op rt.rs performed
    rw [kept.assembly] at unpinned
    simp only [ReqState.fresh] at unpinned
    rw [unpinned] at pinned
    cases pinned
  | progressed unfinished heapGuardFired owners =>
    refine ⟨separated.issued, separated.known, ?_, separated.session⟩
    intro run current
    have executing := separated.executing run current
    refine ⟨executing.latest, ?_, executing.context, executing.container⟩
    intro continuation listed
    obtain ⟨old, member, same⟩ := owners continuation listed
    rw [← same]
    exact executing.owned old member
  | drained run running =>
    have current : rt.phase.current = some run := by rw [running]; rfl
    have executing := separated.executing run current
    refine ⟨separated.issued, separated.known, ?_, separated.session⟩
    intro other now
    cases now
    exact ⟨executing.latest, executing.owned, executing.context, executing.container⟩
  | released holder rs unfinished plain =>
    refine ⟨separated.issued, separated.known, ?_, ?_⟩
    · intro run current
      cases current
    · intro session
      obtain ⟨run, call, established, current, listed, unprivileged⟩ := plain session
      have executing := separated.executing run current
      obtain ⟨other, epoch, same, _, viewed⟩ := executing.context
      cases listed.symm.trans same
      rw [executing.container, (own_view_pins run _ rt.rs rt.history viewed).moduleName]
      simp only [ReqState.fresh, unprivileged, map_none]

theorem separated_step : Preserved (system ops stable) FreshStart (Separated stable) := by
  intro rt label next separated fresh fired
  rcases step_effect rt next label fired with effect | ⟨call, rfl, started⟩
  · exact separated_effect rt next separated effect
  · exact separated_start call rt next separated fresh.1 fresh.2 started

theorem separated_spawn : Separated stable (spawn ops stable) := by
  refine ⟨?_, ?_, ?_, ?_⟩
  · intro issued earlier suffix
    cases suffix_nil.mp suffix
  · intro issued member
    cases member
  · intro run current
    cases current
  · intro session
    rcases session with absurd | absurd <;> cases absurd

theorem contexts_separate_of_separated (rt : JsRuntime ops) (separated : Separated stable rt) :
    ContextsSeparate stable rt := by
  refine ⟨separated.issued, ?_⟩
  intro run current
  obtain ⟨call, epoch, listed, pinned, viewed⟩ := (separated.executing run current).context
  have kept := own_view_pins run _ rt.rs rt.history viewed
  refine ⟨?_, call, _, listed, kept.assembly⟩
  rw [kept.assembly]
  exact pinned

end Preservation

section Runs

def sampleStable : StableState where
  fs := some ⟨"/srv", false⟩
  platform := some ⟨["ojm"], ["/opt"]⟩

def sampleAssembly : PerGenAssembly where
  generation := 1
  sqlGuard := .deny
  allowAsTenant := false

def sampleRequest (tenant : String) : RequestInfo :=
  { RequestInfo.default with tenantId := some tenant }

def startsFresh (rt : JsRuntime ops) : Label ops → Bool
  | .start call => rt.unfinished.isEmpty && call.assembly.isSome
  | _ => true

theorem starts_fresh_sound (rt : JsRuntime ops) (label : Label ops)
    (passed : startsFresh rt label = true) : FreshStart rt label := by
  cases label with
  | start call =>
    obtain ⟨nothing, pinned⟩ := Bool.and_eq_true_iff.mp passed
    exact ⟨List.isEmpty_iff.mp nothing, pinned⟩
  | _ => trivial

def reusedLabels : List (Label bridgeOps) :=
  [.start (.runSideDriver (sampleRequest "a") (some ⟨"ojm", "1.0"⟩) sampleAssembly),
    .issue 0 .dbAsSystem, .issue 0 .checkTenantRaw, .finish 0, .conclude (.idle false),
    .start (.runWs (sampleRequest "b") sampleAssembly), .issue 0 .checkTenantRaw]

structure Found where
  run : Nat
  tenantId : Option String
  system : Bool
  read : Option (List String)
deriving DecidableEq

def Issued.found (issued : Issued ops) : Found where
  run := issued.run
  tenantId := issued.before.req.tenantId
  system := issued.before.system
  read := issued.container.read

/-- A task hook starts a timer and throws; the session keeps the runtime, and the
timer's code goes on while the teardown hook is run. -/
def lateLabels : List (Label bridgeOps) :=
  [.start (.taskConnect sampleAssembly), .finish 0, .conclude (.idle true),
    .start (.fire sampleAssembly), .spawnWork 0 .host, .finish 0, .conclude .rejection,
    .start (.fire sampleAssembly), .hostSettled 0, .issue 0 .dbAsSystem]

end Runs

end OnlyJs.Bridge.Runtime
