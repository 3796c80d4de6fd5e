import OnlyJs.Lib.StepSystem

/-!
# Upload sessions

The two pumps that carry a request body into the blob store: the direct `PUT` and the
multipart reader. A phase is an await point with the locals that are alive there, a step is
the answer that arrives, and at every await point the request may be dropped instead. A
guard held by the pump aborts the session when it is dropped armed.
-/

namespace OnlyJs.Serve.Upload

open Lib List

structure Limits where
  maxUpload : Nat
  blobUploadMax : Nat

structure PutStreamGuard where
  uploadId : Nat
  armed : Bool
deriving DecidableEq

inductive Phase where
  | putOpening
  | putReading (id total : Nat)
  | putSending (id total : Nat)
  | putFinishing (id : Nat)
  | putBuffering
  | nextField
  | textField (buffered : Nat)
  | fileField (session : Option Nat) (buffered total : Nat)
  | opening (total : Nat)
  | flushing (id total : Nat)
  | sending (id total : Nat)
  | finishing (id : Nat)
  | naming
  | aborting (id : Nat)
  | ended
deriving DecidableEq

/-- What the pump waits for has come: from the backend, from the body, or a drop of the
request. -/
inductive Answer where
  | opened (id : Nat)
  | refused
  | field (isFile : Bool)
  | noField
  | chunk (size : Nat)
  | done
  | broken
  | sent
  | sendFailed
  | finished
  | finishFailed
  | aborted (clean : Bool)
  | answered
  | dropped
deriving DecidableEq

/-- What the backend is asked: an id it has handed out, a finish that succeeded or failed,
an abort. -/
inductive Call where
  | opened (id : Nat)
  | finished (id : Nat)
  | finishFailed (id : Nat)
  | aborted (id : Nat)
deriving DecidableEq

inductive Guarding where
  | keep
  | arm (id : Nat)
  | disarm
deriving DecidableEq

def Guarding.apply : Guarding → Option PutStreamGuard → Option PutStreamGuard
  | keep, guard => guard
  | arm id, _ => some { uploadId := id, armed := true }
  | disarm, guard => guard.map fun guard => { guard with armed := false }

structure State where
  phase : Phase
  guard : Option PutStreamGuard
  calls : List Call
deriving DecidableEq

def abort (id : Nat) : Phase × Guarding × List Call := (.aborting id, .disarm, [.aborted id])

section Steps

variable (limits : Limits)

def next : Phase → Answer → Option (Phase × Guarding × List Call)
  | .putOpening, .opened id => some (.putReading id 0, .arm id, [.opened id])
  | .putOpening, .refused => some (.putBuffering, .keep, [])
  | .putReading id total, .chunk size =>
    if total + size > limits.blobUploadMax then some (abort id)
    else some (.putSending id (total + size), .keep, [])
  | .putReading id _, .broken => some (abort id)
  | .putReading id _, .done => some (.putFinishing id, .disarm, [])
  | .putSending id total, .sent => some (.putReading id total, .keep, [])
  | .putSending id _, .sendFailed => some (abort id)
  | .putFinishing id, .finished => some (.ended, .keep, [.finished id])
  | .putFinishing id, .finishFailed => some (.ended, .keep, [.finishFailed id])
  | .putBuffering, .answered => some (.ended, .keep, [])
  | .nextField, .field true => some (.fileField none 0 0, .keep, [])
  | .nextField, .field false => some (.textField 0, .keep, [])
  | .nextField, .noField => some (.ended, .keep, [])
  | .nextField, .broken => some (.ended, .keep, [])
  | .textField buffered, .chunk size =>
    if buffered + size > limits.maxUpload then some (.ended, .keep, [])
    else some (.textField (buffered + size), .keep, [])
  | .textField _, .done => some (.nextField, .keep, [])
  | .textField _, .broken => some (.ended, .keep, [])
  | .fileField session buffered total, .chunk size =>
    if total + size > limits.blobUploadMax then
      match session with
      | some id => some (abort id)
      | none => some (.ended, .disarm, [])
    else
      match session with
      | some id => some (.sending id (total + size), .keep, [])
      | none =>
        if buffered + size > limits.maxUpload then
          some (.opening (total + size), .keep, [])
        else some (.fileField none (buffered + size) (total + size), .keep, [])
  | .fileField session _ _, .broken =>
    match session with
    | some id => some (abort id)
    | none => some (.ended, .disarm, [])
  | .fileField session _ _, .done =>
    match session with
    | some id => some (.finishing id, .disarm, [])
    | none => some (.nextField, .keep, [])
  | .opening total, .opened id => some (.flushing id total, .keep, [.opened id])
  | .opening _, .refused => some (.ended, .keep, [])
  | .flushing id total, .sent => some (.sending id total, .arm id, [])
  | .flushing id _, .sendFailed => some (abort id)
  | .sending id total, .sent => some (.fileField (some id) 0 total, .keep, [])
  | .sending id _, .sendFailed => some (abort id)
  | .finishing id, .finished => some (.naming, .keep, [.finished id])
  | .finishing id, .finishFailed => some (.ended, .keep, [.finishFailed id])
  | .naming, .answered => some (.nextField, .keep, [])
  | .aborting _, .aborted _ => some (.ended, .keep, [])
  | _, _ => none

def State.leave (state : State) : State :=
  match state.guard with
  | some guard =>
    { state with
      guard := none
      calls := if guard.armed then state.calls ++ [.aborted guard.uploadId] else state.calls }
  | none => state

def Phase.leaves : Phase → Bool
  | nextField | ended => true
  | _ => false

def fresh (state : State) : Answer → Bool
  | .opened id => !state.calls.contains (.opened id)
  | _ => true

def step (state : State) (answer : Answer) : Option State :=
  if answer = .dropped then
    if state.phase = .ended then none else some ({ state with phase := .ended }.leave)
  else if fresh state answer then
    (next limits state.phase answer).map fun (phase, guarding, calls) =>
      let moved : State :=
        { phase, guard := guarding.apply state.guard, calls := state.calls ++ calls }
      if phase.leaves then moved.leave else moved
  else none

/-- A request is a direct `PUT` or a multipart body. -/
def system (multipart : Bool) : StepSystem.System State Answer :=
  { init :=
      { phase := if multipart then .nextField else .putOpening
        guard := none
        calls := [] }
    step := step limits }

end Steps

def closes (id : Nat) (call : Call) : Bool := call = .finished id || call = .aborted id

def closings (calls : List Call) (id : Nat) : Nat := calls.countP (closes id)

/-- Every session that was opened has been finished or aborted, once. -/
def Closed (state : State) : Prop :=
  ∀ id, .opened id ∈ state.calls → closings state.calls id = 1

/-- No finish fails, and no request is dropped during a finish or between the opening of a
session and the arming of its guard. -/
def Orderly (state : State) (answer : Answer) : Prop :=
  match state.phase with
  | .flushing _ _ => answer ≠ .dropped
  | .putFinishing _ | .finishing _ => answer ≠ .finishFailed ∧ answer ≠ .dropped
  | _ => True

def Phase.live : Phase → Option Nat
  | putReading id _ | putSending id _ | putFinishing id => some id
  | fileField session _ _ => session
  | flushing id _ | sending id _ | finishing id => some id
  | _ => none

def Phase.guarded : Phase → Option Nat
  | putReading id _ | putSending id _ => some id
  | fileField session _ _ => session
  | sending id _ => some id
  | _ => none

def armedFor (guard : Option PutStreamGuard) : Option Nat :=
  (guard.filter PutStreamGuard.armed).map PutStreamGuard.uploadId

/-- The open session has not been closed, every other one once, and the armed guard is the
open session's. -/
structure Sound (state : State) : Prop where
  guard : armedFor state.guard = state.phase.guarded
  live : ∀ id, state.phase.live = some id →
    .opened id ∈ state.calls ∧ closings state.calls id = 0
  settled : ∀ id, .opened id ∈ state.calls → state.phase.live ≠ some id →
    closings state.calls id = 1
  unopened : ∀ id, .opened id ∉ state.calls → closings state.calls id = 0

variable {limits : Limits} {state following : State} {phase after : Phase} {answer : Answer}
  {guarding : Guarding} {calls : List Call}

def Guarding.armed : Guarding → Option Nat → Option Nat
  | keep, armed => armed
  | arm id, _ => some id
  | disarm, _ => none

theorem armedFor_apply (guarding : Guarding) (guard : Option PutStreamGuard) :
    armedFor (guarding.apply guard) = guarding.armed (armedFor guard) := by
  cases guarding with
  | keep => rfl
  | arm id => rfl
  | disarm => cases guard <;> rfl

theorem guarded_next (fired : next limits phase answer = some (after, guarding, calls)) :
    guarding.armed phase.guarded = after.guarded := by
  cases phase <;> cases answer <;> simp only [next, reduceCtorEq] at fired
  case nextField.field isFile => cases isFile <;> cases fired <;> rfl
  case fileField.chunk session buffered total size =>
    split at fired <;> cases session <;> dsimp only at fired
    · cases fired
      rfl
    · cases fired
      rfl
    · split at fired <;> cases fired <;> rfl
    · cases fired
      rfl
  case fileField.done session _ _ => cases session <;> cases fired <;> rfl
  case fileField.broken session _ _ => cases session <;> cases fired <;> rfl
  all_goals first
    | cases fired
      rfl
    | split at fired <;> cases fired <;> rfl

/-- A step leaves the sessions alone, opens one, closes the open one, or finishes it in
vain. -/
theorem live_next (fired : next limits phase answer = some (after, guarding, calls)) :
    (calls = [] ∧ after.live = phase.live) ∨
    (∃ id, answer = .opened id ∧ calls = [.opened id] ∧ phase.live = none ∧
      after.live = some id) ∨
    (∃ id call, calls = [call] ∧ (call = .finished id ∨ call = .aborted id) ∧
      phase.live = some id ∧ after.live = none) ∨
    ∃ id, answer = .finishFailed ∧ (phase = .putFinishing id ∨ phase = .finishing id) ∧
      calls = [.finishFailed id] ∧ after = .ended := by
  cases phase <;> cases answer <;> simp only [next] at fired
  case nextField.field isFile => cases isFile <;> cases fired <;> exact .inl ⟨rfl, rfl⟩
  case putFinishing.finishFailed id =>
    cases fired
    exact .inr (.inr (.inr ⟨id, rfl, .inl rfl, rfl, rfl⟩))
  case finishing.finishFailed id =>
    cases fired
    exact .inr (.inr (.inr ⟨id, rfl, .inr rfl, rfl, rfl⟩))
  case putOpening.opened id =>
    cases fired
    exact .inr (.inl ⟨id, rfl, rfl, rfl, rfl⟩)
  case opening.opened _ id =>
    cases fired
    exact .inr (.inl ⟨id, rfl, rfl, rfl, rfl⟩)
  case putFinishing.finished id =>
    cases fired
    exact .inr (.inr (.inl ⟨id, _, rfl, .inl rfl, rfl, rfl⟩))
  case finishing.finished id =>
    cases fired
    exact .inr (.inr (.inl ⟨id, _, rfl, .inl rfl, rfl, rfl⟩))
  case fileField.chunk session buffered total size =>
    split at fired <;> cases session with
    | none =>
      dsimp only at fired
      first
      | cases fired
        exact .inl ⟨rfl, rfl⟩
      | split at fired <;> cases fired <;> exact .inl ⟨rfl, rfl⟩
    | some id =>
      cases fired
      first
      | exact .inl ⟨rfl, rfl⟩
      | exact .inr (.inr (.inl ⟨id, _, rfl, .inr rfl, rfl, rfl⟩))
  case fileField.done session _ _ => cases session <;> cases fired <;> exact .inl ⟨rfl, rfl⟩
  case fileField.broken session _ _ =>
    cases session with
    | none =>
      cases fired
      exact .inl ⟨rfl, rfl⟩
    | some id =>
      cases fired
      exact .inr (.inr (.inl ⟨id, _, rfl, .inr rfl, rfl, rfl⟩))
  case putReading.chunk id total size =>
    split at fired <;> cases fired
    · exact .inr (.inr (.inl ⟨id, _, rfl, .inr rfl, rfl, rfl⟩))
    · exact .inl ⟨rfl, rfl⟩
  case textField.chunk buffered size =>
    split at fired <;> cases fired <;> exact .inl ⟨rfl, rfl⟩
  -- what is left hands the session on or aborts it
  all_goals cases fired
  all_goals first
    | exact .inl ⟨rfl, rfl⟩
    | exact .inr (.inr (.inl ⟨_, _, rfl, .inr rfl, rfl, rfl⟩))

theorem closings_append (calls : List Call) (call : Call) (id : Nat) :
    closings (calls ++ [call]) id = closings calls id + if closes id call then 1 else 0 := by
  rw [closings, countP_append, countP_singleton]
  rfl

theorem leave_unarmed (unarmed : armedFor state.guard = none) :
    state.leave = { state with guard := none } := by
  rw [State.leave]
  cases held : state.guard with
  | none =>
    cases state
    cases held
    rfl
  | some guard =>
    rw [held] at unarmed
    cases armed : guard.armed with
    | true => simp [armedFor, armed] at unarmed
    | false => simp [armed]

theorem leave_armed {id : Nat} (armed : armedFor state.guard = some id) :
    state.leave = { state with guard := none, calls := state.calls ++ [.aborted id] } := by
  rw [State.leave]
  cases held : state.guard with
  | none =>
    rw [held] at armed
    cases armed
  | some guard =>
    rw [held] at armed
    obtain ⟨kept, kept_armed, rfl⟩ := Option.map_eq_some_iff.mp armed
    obtain ⟨same, flag⟩ := Option.filter_eq_some_iff.mp kept_armed
    cases same
    simp [flag]

theorem leaves_guarded (leaves : after.leaves = true) : after.guarded = none := by
  cases after <;> first | rfl | cases leaves

/-- What a phase does not hold open after an answer, the answer has closed. -/
theorem sound_append (sound : Sound state) (after : Phase) (guard : Option PutStreamGuard)
    (guards : armedFor guard = after.guarded)
    (sessions : (calls = [] ∧ after.live = state.phase.live) ∨
      (∃ id, .opened id ∉ state.calls ∧ calls = [.opened id] ∧ state.phase.live = none ∧
        after.live = some id) ∨
      ∃ id call, calls = [call] ∧ (call = .finished id ∨ call = .aborted id) ∧
        state.phase.live = some id ∧ after.live = none) :
    Sound { phase := after, guard, calls := state.calls ++ calls } := by
  rcases sessions with ⟨rfl, same⟩ | ⟨id, unused, rfl, idle, opens⟩ |
    ⟨id, call, rfl, closing, open_session, closed⟩
  · refine ⟨guards, ?_, ?_, ?_⟩ <;> rw [append_nil]
    · rw [same]
      exact sound.live
    · rw [same]
      exact sound.settled
    · exact sound.unopened
  · have unclosed : ∀ other, closings (state.calls ++ [.opened id]) other =
        closings state.calls other := by
      intro other
      rw [closings_append]
      rfl
    refine ⟨guards, ?_, ?_, ?_⟩
    · rw [opens]
      rintro other ⟨⟩
      rw [unclosed]
      exact ⟨mem_append_right _ mem_cons_self, sound.unopened id unused⟩
    · rw [opens]
      intro other opened differs
      rw [unclosed]
      rcases mem_append.mp opened with before | now
      · exact sound.settled other before (by rw [idle]; exact (Option.some_ne_none _).symm)
      · rw [mem_singleton, Call.opened.injEq] at now
        exact absurd (congrArg some now.symm) differs
    · intro other unopened
      rw [unclosed]
      exact sound.unopened other fun before => unopened (mem_append_left _ before)
  · have counts : ∀ other, closings (state.calls ++ [call]) other =
        closings state.calls other + if other = id then 1 else 0 := by
      intro other
      rw [closings_append]
      rcases closing with rfl | rfl <;> simp [closes, eq_comm]
    have kept : ∀ other, .opened other ∈ state.calls ++ [call] ↔ .opened other ∈ state.calls := by
      rcases closing with rfl | rfl <;> simp
    refine ⟨guards, ?_, ?_, ?_⟩
    · rw [closed]
      intro other absurd
      cases absurd
    · intro other opened _
      rw [counts]
      by_cases same : other = id
      · rw [same, (sound.live id open_session).2, if_pos rfl]
      · rw [if_neg same]
        refine sound.settled other ((kept other).mp opened) ?_
        rw [open_session]
        exact fun equal => same (Option.some.inj equal).symm
    · intro other unopened
      have before := fun opened => unopened ((kept other).mpr opened)
      rw [counts, if_neg]
      · exact sound.unopened other before
      · rintro rfl
        exact before (sound.live other open_session).1

theorem sound_unguarded (sound : Sound state) (bare : state.phase.guarded = none) :
    Sound { state with guard := none } :=
  ⟨bare.symm, sound.live, sound.settled, sound.unopened⟩

/-- The step lemma. -/
theorem sound_preserved (multipart : Bool) :
    StepSystem.Preserved (system limits multipart) Orderly Sound := by
  intro state answer following sound permitted stepped
  have stepped : step limits state answer = some following := stepped
  rw [step] at stepped
  split at stepped
  · rename_i dropped
    split at stepped
    · cases stepped
    · cases stepped
      -- an orderly drop finds the guard of the open session armed
      have same : state.phase.guarded = state.phase.live := by
        rw [dropped] at permitted
        cases stood : state.phase with
        | flushing id total =>
          rw [Orderly, stood] at permitted
          exact absurd rfl permitted
        | putFinishing id | finishing id =>
          rw [Orderly, stood] at permitted
          exact absurd rfl permitted.2
        | _ => rfl
      cases armed : state.phase.guarded with
      | none =>
        have quiet : armedFor ({ state with phase := .ended } : State).guard = none := by
          rw [sound.guard, armed]
        rw [leave_unarmed quiet]
        have moved := sound_append sound .ended none rfl
          (.inl ⟨rfl, by rw [← same, armed]; rfl⟩)
        rwa [append_nil] at moved
      | some id =>
        have set : armedFor ({ state with phase := .ended } : State).guard = some id := by
          rw [sound.guard, armed]
        rw [leave_armed set]
        exact sound_append sound .ended none rfl
          (.inr (.inr ⟨id, _, rfl, .inr rfl, by rw [← same, armed], rfl⟩))
  · split at stepped
    · rename_i unused
      obtain ⟨⟨after, guarding, calls⟩, fired, rfl⟩ := Option.map_eq_some_iff.mp stepped
      have guards : armedFor (guarding.apply state.guard) = after.guarded := by
        rw [armedFor_apply, sound.guard, guarded_next fired]
      have moved : Sound {
          phase := after
          guard := guarding.apply state.guard
          calls := state.calls ++ calls } := by
        apply sound_append sound _ _ guards
        rcases live_next fired with quiet | ⟨id, rfl, opens⟩ | closes |
          ⟨id, rfl, stood | stood, _⟩
        · exact .inl quiet
        · refine .inr (.inl ⟨id, ?_, opens⟩)
          simpa [fresh] using unused
        · exact .inr (.inr closes)
        · rw [Orderly, stood] at permitted
          exact absurd rfl permitted.1
        · rw [Orderly, stood] at permitted
          exact absurd rfl permitted.1
      dsimp only
      split
      · rename_i leaves
        rw [leave_unarmed (by rw [guards, leaves_guarded leaves])]
        exact sound_unguarded moved (leaves_guarded leaves)
      · exact moved
    · cases stepped

theorem sound_initial (multipart : Bool) : Sound (system limits multipart).init := by
  cases multipart <;> exact ⟨rfl, nofun, nofun, fun _ _ => rfl⟩

theorem closed_of_ended (sound : Sound state) (ended : state.phase = .ended) : Closed state := by
  intro id opened
  apply sound.settled id opened
  rw [ended]
  exact (Option.some_ne_none id).symm

theorem step_ended (ended : state.phase = .ended) : step limits state answer = none := by
  have idle : next limits .ended answer = none := by
    cases answer <;> rfl
  rw [step, ended, idle, if_pos rfl, Option.map_none, ite_self, ite_self]

section Leaks

variable {id : Nat}

theorem leave_unguarded (sound : Sound state) (unguarded : state.phase.guarded = none)
    (calls : List Call) :
    State.leave { phase := .ended, guard := state.guard, calls } =
      { phase := .ended, guard := none, calls } :=
  leave_unarmed (by rw [sound.guard, unguarded])

section

variable (sound : Sound state) (live : state.phase.live = some id)
  (unguarded : state.phase.guarded = none)
include sound live unguarded

theorem leak_of_drop (running : state.phase ≠ .ended)
    (stepped : step limits state .dropped = some following) :
    following.phase = .ended ∧ ¬ Closed following := by
  rw [step, if_pos rfl, if_neg running, Option.some_inj, leave_unguarded sound unguarded] at stepped
  rw [← stepped]
  refine ⟨rfl, fun closed => ?_⟩
  obtain ⟨opened, unclosed⟩ := sound.live id live
  have once := closed id opened
  rw [unclosed] at once
  cases once

theorem leak_of_finish
    (fails : next limits state.phase .finishFailed = some (.ended, .keep, [.finishFailed id]))
    (stepped : step limits state .finishFailed = some following) :
    following.phase = .ended ∧ ¬ Closed following := by
  rw [step, fails] at stepped
  have stepped : State.leave
      { phase := .ended, guard := state.guard, calls := state.calls ++ [.finishFailed id] } =
        following := Option.some.inj stepped
  rw [leave_unguarded sound unguarded] at stepped
  rw [← stepped]
  refine ⟨rfl, fun closed => ?_⟩
  obtain ⟨opened, unclosed⟩ := sound.live id live
  have once := closed id (mem_append_left _ opened)
  rw [closings_append, unclosed] at once
  cases once

end

theorem leak_of_disorder (sound : Sound state) (disorder : ¬ Orderly state answer)
    (stepped : step limits state answer = some following) :
    following.phase = .ended ∧ ¬ Closed following := by
  have either : ¬ (answer ≠ .finishFailed ∧ answer ≠ .dropped) →
      answer = .finishFailed ∨ answer = .dropped := by
    intro neither
    by_cases failed : answer = .finishFailed
    · exact .inl failed
    · exact .inr (Decidable.not_not.mp fun kept => neither ⟨failed, kept⟩)
  cases stood : state.phase with
  | flushing id total =>
    rw [Orderly, stood] at disorder
    rw [Decidable.not_not.mp disorder] at stepped
    exact leak_of_drop sound (by rw [stood]; rfl) (by rw [stood]; rfl)
      (by rw [stood]; nofun) stepped
  | putFinishing id | finishing id =>
    rw [Orderly, stood] at disorder
    rcases either disorder with failed | dropped
    · rw [failed] at stepped
      exact leak_of_finish sound (by rw [stood]; rfl) (by rw [stood]; rfl)
        (by rw [stood]; rfl) stepped
    · rw [dropped] at stepped
      exact leak_of_drop sound (by rw [stood]; rfl) (by rw [stood]; rfl)
        (by rw [stood]; nofun) stepped
  | _ =>
    rw [Orderly, stood] at disorder
    exact absurd trivial disorder

end Leaks

theorem orderly_of_closed {multipart : Bool} {labels : List Answer} {start finish : State}
    (sound : Sound start)
    (path : StepSystem.Path (system limits multipart) StepSystem.Unrestricted start labels finish)
    (closed : Closed finish) :
    StepSystem.Path (system limits multipart) Orderly start labels finish := by
  induction labels generalizing start with
  | nil => exact path
  | cons answer rest ih =>
    obtain ⟨_, following, stepped, continued⟩ := path
    by_cases permitted : Orderly start answer
    · have kept := sound_preserved multipart start answer following sound permitted stepped
      exact ⟨permitted, following, stepped, ih kept continued⟩
    · obtain ⟨ended, unclosed⟩ := leak_of_disorder sound permitted stepped
      cases rest with
      | nil =>
        cases continued
        exact absurd closed unclosed
      | cons more _ =>
        obtain ⟨_, _, impossible, _⟩ := continued
        have impossible : step limits following more = some _ := impossible
        rw [step_ended ended] at impossible
        cases impossible

/-- When a request has come to its end, every session it opened has been closed once exactly
when no finish failed, and the request was dropped neither during a finish nor before the
guard of a session was armed. -/
theorem sessions_closed_iff {multipart : Bool} {answers : List Answer} {finish : State}
    (path : StepSystem.Path (system limits multipart) StepSystem.Unrestricted
      (system limits multipart).init answers finish)
    (ended : finish.phase = .ended) :
    Closed finish ↔ StepSystem.Path (system limits multipart) Orderly
      (system limits multipart).init answers finish := by
  constructor
  · exact orderly_of_closed (sound_initial multipart) path
  · intro orderly
    exact closed_of_ended
      (StepSystem.path_preserves (sound_preserved multipart) orderly
        (sound_initial multipart)) ended

def smallLimits : Limits := { maxUpload := 10, blobUploadMax := 100 }

theorem sessions_closed_put :
    Closed { phase := .ended, guard := none, calls := [.opened 0, .finished 0] } ↔
      StepSystem.Path (system smallLimits false) Orderly (system smallLimits false).init
        [.opened 0, .chunk 5, .sent, .done, .finished]
        { phase := .ended, guard := none, calls := [.opened 0, .finished 0] } :=
  sessions_closed_iff (StepSystem.path_of_run _ _ _ rfl) rfl

/-- A finish that fails, a drop during a finish, and a drop before the guard is armed. -/
theorem sessions_left_open :
    (system smallLimits false).run (system smallLimits false).init
        [.opened 0, .done, .finishFailed] =
      some { phase := .ended, guard := none, calls := [.opened 0, .finishFailed 0] } ∧
    (system smallLimits false).run (system smallLimits false).init [.opened 0, .done, .dropped] =
      some { phase := .ended, guard := none, calls := [.opened 0] } ∧
    (system smallLimits true).run (system smallLimits true).init
        [.field true, .chunk 11, .opened 0, .dropped] =
      some { phase := .ended, guard := none, calls := [.opened 0] } ∧
    ¬ Closed { phase := .ended, guard := none, calls := [.opened 0, .finishFailed 0] } ∧
    ¬ Closed { phase := .ended, guard := none, calls := [.opened 0] } := by
  refine ⟨rfl, rfl, rfl, fun closed => ?_, fun closed => ?_⟩
  · exact absurd (closed 0 mem_cons_self) (by decide)
  · exact absurd (closed 0 mem_cons_self) (by decide)

end OnlyJs.Serve.Upload
