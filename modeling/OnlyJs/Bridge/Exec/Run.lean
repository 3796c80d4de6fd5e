import OnlyJs.Bridge.Exec.Spawn
import OnlyJs.Lib.Utf8

/-!
# A child that is run to its end

The call writes the input, collects what both drains have read and waits for the child, all
of it within one timeout; whatever goes wrong, the process group is killed. The condition
under which the call answers as the child ended leaves out one thing above all: a child that
ends or closes its input before it was given all of it.
-/

namespace OnlyJs.Bridge.Exec.Run

open Lib List Option Function Lib.StepSystem

structure ExecResult where
  code : Int
  stdout : String
  stderr : String
  encoding : Option String

def decodeLossy (bytes : Bytes) : String × Bool :=
  let text := Utf8.decodeLossy bytes
  (String.ofList text, Utf8.encode text ≠ bytes)

def execResult (status : Status) (stdout stderr : Bytes) : ExecResult :=
  let (out, outLossy) := decodeLossy stdout
  let (err, errLossy) := decodeLossy stderr
  { code := status.exitCode
    stdout := out
    stderr := err
    encoding := if outLossy || errLossy then some "lossy" else none }

def stdinWriteFailed (error : String) : String := s!"exec: stdin write failed: {error}"

def outputReadFailed (error : String) : String := s!"exec: output read failed: {error}"

def waitFailed (error : String) : String := s!"exec: wait failed: {error}"

def limitExceeded : String :=
  s!"exec output limit exceeded ({outputLimit} bytes cap, stdout+stderr combined)"

def timedOut (timeoutMs : Nat) : String :=
  s!"exec timed out after {timeoutMs} ms (process group killed)"

inductive Drain where
  | reading (out : Bytes)
  | finished (outcome : Except String Bytes)

structure Stream where
  pipe : Pipe
  drain : Drain
  /-- What the drain answered was collected. -/
  joined : Bool

inductive Phase where
  /-- What is left of the input. -/
  | feeding (rest : Bytes)
  | collecting
  | returned

structure Ending where
  status : Status
  expired : Bool
  /-- The call had already returned. -/
  returned : Bool

structure State where
  streams : Output → Stream
  /-- The child's end of its input. -/
  stdinOpen : Bool
  ending : Option Ending
  total : Nat
  phase : Phase
  expired : Bool
  result : Option (Except String ExecResult)
  groupKilled : Bool

inductive Label where
  | write (out : Output) (bytes : Bytes)
  | close (out : Output)
  | closeStdin
  | exit (status : Status)
  | feed (n : Nat) (error : String)
  | fed
  | read (out : Output) (n : Nat)
  | eof (out : Output)
  | failRead (out : Output) (error : String)
  | join (out : Output)
  | wait
  | expire
  | timeOut

def initial (input : Option Bytes) : State where
  streams := fun _ => { pipe := .empty, drain := .reading [], joined := false }
  stdinOpen := true
  ending := none
  total := 0
  phase := .feeding (input.getD [])
  expired := false
  result := none
  groupKilled := false

def State.setStream (state : State) (out : Output) (stream : Stream) : State :=
  { state with streams := Function.update state.streams out stream }

def State.fail (state : State) (message : String) : State :=
  { state with phase := .returned, result := some (.error message), groupKilled := true }

def writeStep (state : State) (out : Output) (bytes : Bytes) : Option State :=
  let stream := state.streams out
  match state.ending, stream.drain with
  | none, .reading _ =>
    if stream.pipe.writable then
      some (state.setStream out { stream with pipe := stream.pipe.write bytes })
    else none
  | _, _ => none

def closeStep (state : State) (out : Output) : Option State :=
  match state.ending with
  | some _ => none
  | none =>
    some (state.setStream out
      { state.streams out with pipe := (state.streams out).pipe.close })

def exitStep (state : State) (status : Status) : Option State :=
  match state.ending with
  | some _ => none
  | none =>
    some { state with
      ending := some { status, expired := state.expired, returned := state.result.isSome }
      stdinOpen := false
      streams := fun out =>
        { state.streams out with pipe := (state.streams out).pipe.close } }

/-- `write_all` writes `n` bytes more; without a reader it fails. -/
def feedStep (state : State) (n : Nat) (error : String) : Option State :=
  match state.phase with
  | .feeding rest =>
    if 0 < n && n ≤ rest.length then
      if state.stdinOpen then some { state with phase := .feeding (rest.drop n) }
      else some (state.fail (stdinWriteFailed error))
    else none
  | _ => none

def fedStep (state : State) : Option State :=
  match state.phase with
  | .feeding [] => some { state with phase := .collecting }
  | _ => none

/-- `drain` reads and counts. -/
def readStep (state : State) (out : Output) (n : Nat) : Option State :=
  let stream := state.streams out
  match stream.drain with
  | .reading content =>
    if stream.pipe.offers n then
      let state := { state with total := state.total + n }
      let drain :=
        if outputLimit < state.total then .finished (.error limitExceeded)
        else .reading (content ++ stream.pipe.unread.take n)
      some (state.setStream out { stream with pipe := stream.pipe.drop n, drain })
    else none
  | .finished _ => none

def eofStep (state : State) (out : Output) : Option State :=
  let stream := state.streams out
  match stream.drain with
  | .reading content =>
    if stream.pipe.atEnd then
      some (state.setStream out { stream with drain := .finished (.ok content) })
    else none
  | .finished _ => none

def failReadStep (state : State) (out : Output) (error : String) : Option State :=
  let stream := state.streams out
  match stream.drain with
  | .reading _ =>
    some (state.setStream out
      { stream with drain := .finished (.error (outputReadFailed error)) })
  | .finished _ => none

def joinStep (state : State) (out : Output) : Option State :=
  let stream := state.streams out
  match state.phase, stream.joined, stream.drain with
  | .collecting, false, .finished (.ok _) =>
    some (state.setStream out { stream with joined := true })
  | .collecting, false, .finished (.error message) => some (state.fail message)
  | _, _, _ => none

def Drain.content : Drain → Bytes
  | .reading content => content
  | .finished (.ok content) => content
  | .finished (.error _) => []

def State.answer (state : State) (status : Status) : State :=
  match status with
  | .lost error => state.fail (waitFailed error)
  | status =>
    { state with
      phase := .returned
      result := some (.ok (execResult status (state.streams .stdout).drain.content
        (state.streams .stderr).drain.content)) }

def waitStep (state : State) : Option State :=
  match state.phase, (state.streams .stdout).joined, (state.streams .stderr).joined with
  | .collecting, true, true => state.ending.map fun ending => state.answer ending.status
  | _, _, _ => none

def timeOutStep (timeoutMs : Nat) (state : State) : Option State :=
  match state.result with
  | some _ => none
  | none => if state.expired then some (state.fail (timedOut timeoutMs)) else none

def step (timeoutMs : Nat) (state : State) : Label → Option State
  | .write out bytes => writeStep state out bytes
  | .close out => closeStep state out
  | .closeStdin =>
    match state.ending with
    | some _ => none
    | none => some { state with stdinOpen := false }
  | .exit status => exitStep state status
  | .feed n error => feedStep state n error
  | .fed => fedStep state
  | .read out n => readStep state out n
  | .eof out => eofStep state out
  | .failRead out error => failReadStep state out error
  | .join out => joinStep state out
  | .wait => waitStep state
  | .expire => some { state with expired := true }
  | .timeOut => timeOutStep timeoutMs state

def system (timeoutMs : Nat) (input : Option Bytes) : System State Label where
  init := initial input
  step := step timeoutMs

def State.written (state : State) : Nat :=
  both (fun stream => stream.pipe.written.length) state.streams

def State.unread (state : State) : Nat :=
  both (fun stream => stream.pipe.unread.length) state.streams

def State.own (state : State) : Option Status :=
  match state.ending with
  | none => none
  | some ending =>
    if ending.returned || ending.expired || outputLimit < state.written then none
    else
      match ending.status with
      | .lost _ => none
      | status => some status

/-- The call answers with the code and the output of a child that ended by itself, and every
other ending is a failure that kills the group. -/
def Truthful (state : State) : Prop :=
  ∀ result, state.result = some result →
    match state.own with
    | some status =>
      result = .ok (execResult status (state.streams .stdout).pipe.written
        (state.streams .stderr).pipe.written)
    | none => (∃ message, result = .error message) ∧ state.groupKilled = true

def State.wholeInput (state : State) : Bool :=
  match state.phase with
  | .feeding rest => rest.isEmpty
  | _ => true

/-- While the call goes on: no read fails, the child neither ends nor closes its input before
it was given all of it, and the timer does not expire between the end of the child and the
return of the call, nor the child end between the expiry and the next poll. -/
def Orderly (state : State) (label : Label) : Prop :=
  state.result = none →
    match label with
    | .closeStdin => state.wholeInput = true
    | .exit _ => state.wholeInput = true ∧ state.expired = false
    | .failRead _ _ => False
    | .expire => state.ending = none
    | _ => True

/-- `true` exits without a look at its input, and the call fails. -/
theorem exit_without_reading :
    ∃ labels state, Path (system 60000 (some [120])) Unrestricted (initial (some [120])) labels
        state ∧
      state.own = some (.exited 0) ∧
      state.result = some (.error "exec: stdin write failed: Broken pipe (os error 32)") := by
  refine ⟨[.exit (.exited 0), .feed 1 "Broken pipe (os error 32)"], _,
    ⟨trivial, _, rfl, trivial, _, rfl, rfl⟩, ?_, ?_⟩
  · rfl
  · rfl

/-- What a drain holds of its stream; it fails on nothing but the limit. -/
def Kept (total : Nat) (stream : Stream) : Prop :=
  match stream.drain with
  | .reading content => stream.pipe.written = content ++ stream.pipe.unread
  | .finished (.ok content) => stream.pipe.written = content ∧ stream.pipe.unread = []
  | .finished (.error _) => outputLimit < total

def Drain.failed : Drain → Bool
  | .finished (.error _) => true
  | _ => false

structure Live (state : State) : Prop where
  counted : state.total + state.unread = state.written
  kept : ∀ out, Kept state.total (state.streams out)
  joined : ∀ out, (state.streams out).joined = true →
    ∃ content, (state.streams out).drain = .finished (.ok content)
  limited : outputLimit < state.total → ∃ out, (state.streams out).drain.failed = true
  fed : state.wholeInput = false → state.stdinOpen = true
  shut : state.ending.isSome = true → ∀ out, (state.streams out).pipe.writable = false
  ended : ∀ ending, state.ending = some ending →
    ending.returned = false ∧ ending.expired = false ∧ state.wholeInput = true ∧
      state.expired = false
  unanswered : state.result = none
  running : state.phase ≠ .returned

theorem live_initial (input : Option Bytes) : Live (initial input) where
  counted := rfl
  kept := fun _ => rfl
  joined := fun _ joined => by cases joined
  limited := fun passed => absurd passed (Nat.not_lt_zero _)
  fed := fun _ => rfl
  shut := fun some => by cases some
  ended := fun _ found => by cases found
  unanswered := rfl
  running := fun same => by cases same

variable {total : Nat} {stream : Stream}

theorem kept_mono {more : Nat} (kept : Kept total stream) (le : total ≤ more) :
    Kept more stream := by
  unfold Kept at kept ⊢
  split
  · next found =>
      rw [found] at kept
      exact kept
  · next found =>
      rw [found] at kept
      exact kept
  · next found =>
      rw [found] at kept
      exact Nat.lt_of_lt_of_le kept le

variable {state : State} {out : Output}

theorem live_stream (live : Live state) (le : state.total ≤ total)
    (counted : ({ state with total }.setStream out stream).total +
      ({ state with total }.setStream out stream).unread =
      ({ state with total }.setStream out stream).written)
    (kept : Kept total stream)
    (joined : stream.joined = true → ∃ content, stream.drain = .finished (.ok content))
    (limited : outputLimit < total → outputLimit < state.total ∨ stream.drain.failed = true)
    (failed : (state.streams out).drain.failed = true → stream.drain.failed = true)
    (shut : (state.streams out).pipe.writable = false → stream.pipe.writable = false) :
    Live ({ state with total }.setStream out stream) := by
  refine { live with
    counted := counted, kept := ?_, joined := ?_, limited := ?_, shut := ?_ }
  · intro other
    by_cases same : other = out
    · subst same
      simpa only [State.setStream, update_self] using kept
    · simp only [State.setStream, update_of_ne same]
      exact kept_mono (live.kept other) le
  · intro other
    by_cases same : other = out
    · subst same
      simpa only [State.setStream, update_self] using joined
    · simpa only [State.setStream, update_of_ne same] using live.joined other
  · intro passed
    have here : stream.drain.failed = true →
        ∃ other, ((({ state with total } : State).setStream out stream).streams
          other).drain.failed = true := by
      intro fails
      exact ⟨out, by simpa only [State.setStream, update_self] using fails⟩
    rcases limited passed with old | new
    · obtain ⟨other, fails⟩ := live.limited old
      by_cases same : other = out
      · subst same
        exact here (failed fails)
      · exact ⟨other, by simpa only [State.setStream, update_of_ne same] using fails⟩
    · exact here new
  · intro gone other
    by_cases same : other = out
    · subst same
      simp only [State.setStream, update_self]
      exact shut (live.shut gone other)
    · simpa only [State.setStream, update_of_ne same] using live.shut gone other

theorem counted_update (live : Live state)
    (balance : total + stream.pipe.unread.length + (state.streams out).pipe.written.length =
      state.total + (state.streams out).pipe.unread.length + stream.pipe.written.length) :
    ({ state with total }.setStream out stream).total +
      ({ state with total }.setStream out stream).unread =
        ({ state with total }.setStream out stream).written := by
  have more := both_update (fun stream => stream.pipe.written.length) state.streams out stream
  have left := both_update (fun stream => stream.pipe.unread.length) state.streams out stream
  have counted := live.counted
  simp only [State.written, State.unread] at counted
  simp only [State.setStream, State.written, State.unread]
  omega

variable {next : State}

theorem write_live {bytes : Bytes} (live : Live state)
    (fired : writeStep state out bytes = some next) : Live next := by
  have kept := live.kept out
  unfold writeStep at fired
  simp only at fired
  split at fired
  · next content alive reading =>
      obtain ⟨_, same⟩ := ite_none_right_eq_some.mp fired
      cases same
      apply live_stream live (Nat.le_refl _)
      · apply counted_update live
        simp only [Pipe.write, length_append]
        omega
      · simp only [Kept, reading] at kept ⊢
        simp only [Pipe.write, kept, append_assoc]
      · exact live.joined out
      · exact .inl
      · exact id
      · exact id
  · cases fired

theorem close_live (live : Live state) (fired : closeStep state out = some next) : Live next := by
  unfold closeStep at fired
  split at fired
  · cases fired
  · cases fired
    apply live_stream live (Nat.le_refl _)
    · exact counted_update live rfl
    · exact live.kept out
    · exact live.joined out
    · exact .inl
    · exact id
    · exact fun _ => rfl

theorem exit_live {status : Status} (live : Live state) (whole : state.wholeInput = true)
    (intime : state.expired = false) (fired : exitStep state status = some next) : Live next := by
  unfold exitStep at fired
  split at fired
  · cases fired
  · cases fired
    refine { live with fed := ?_, shut := fun _ _ => rfl, ended := ?_ }
    · intro left
      have same : state.wholeInput = false := left
      rw [whole] at same
      cases same
    · intro ending found
      cases found
      refine ⟨?_, intime, whole, intime⟩
      rw [live.unanswered]
      rfl

theorem read_live {n : Nat} (live : Live state) (fired : readStep state out n = some next) :
    Live next := by
  have kept := live.kept out
  unfold readStep at fired
  simp only at fired
  split at fired
  · next content reading =>
      obtain ⟨offered, same⟩ := ite_none_right_eq_some.mp fired
      obtain ⟨_, _, fits⟩ := (offers_iff _ _).mp offered
      cases same
      simp only [Kept, reading] at kept
      have whole : content ++ (state.streams out).pipe.unread.take n ++
          (state.streams out).pipe.unread.drop n = (state.streams out).pipe.written := by
        rw [append_assoc, take_append_drop, kept]
      have unjoined : (state.streams out).joined ≠ true := by
        intro joined
        obtain ⟨content, finished⟩ := live.joined out joined
        rw [reading] at finished
        cases finished
      apply live_stream live (Nat.le_add_right _ _)
      · apply counted_update live
        simp only [Pipe.drop, length_drop]
        omega
      · simp only [Kept]
        split <;> rename_i chosen
        · split at chosen
          · cases chosen
          · cases chosen
            exact whole.symm
        · split at chosen
          · cases chosen
          · cases chosen
        · split at chosen
          · assumption
          · cases chosen
      · exact fun joined => absurd joined unjoined
      · intro passed
        right
        simp only [if_pos passed, Drain.failed]
      · intro failed
        rw [reading] at failed
        cases failed
      · exact id
  · cases fired

theorem eof_live (live : Live state) (fired : eofStep state out = some next) : Live next := by
  have kept := live.kept out
  unfold eofStep at fired
  simp only at fired
  split at fired
  · next content reading =>
      obtain ⟨atEnd, same⟩ := ite_none_right_eq_some.mp fired
      cases same
      have read := ((at_end_iff _).mp atEnd).1
      simp only [Kept, reading, read, append_nil] at kept
      apply live_stream live (Nat.le_refl _)
      · exact counted_update live rfl
      · exact ⟨kept, read⟩
      · exact fun _ => ⟨content, rfl⟩
      · exact .inl
      · intro failed
        rw [reading] at failed
        cases failed
      · exact id
  · cases fired

def Settled (state : State) : Prop :=
  state.result.isSome = true ∧ state.phase = .returned ∧ Truthful state

theorem settled_fail (message : String) (own : state.own = none) :
    Settled (state.fail message) := by
  refine ⟨rfl, rfl, ?_⟩
  intro result found
  cases found
  have same : (state.fail message).own = none := own
  rw [same]
  exact ⟨⟨message, rfl⟩, rfl⟩

theorem settled_ok {status : Status} (own : state.own = some status)
    (whole : ∀ out, (state.streams out).drain.content = (state.streams out).pipe.written) :
    Settled { state with
      phase := .returned
      result := some (.ok (execResult status (state.streams .stdout).drain.content
        (state.streams .stderr).drain.content)) } := by
  refine ⟨rfl, rfl, ?_⟩
  intro result found
  cases found
  have same : ({ state with
      phase := .returned
      result := some (.ok (execResult status (state.streams .stdout).drain.content
        (state.streams .stderr).drain.content)) } : State).own = some status := own
  rw [same, whole, whole]

theorem own_none_of_passed (passed : outputLimit < state.written) :
    state.own = none := by
  unfold State.own
  split
  · rfl
  · simp only [passed, decide_true, Bool.or_true, if_true]

theorem join_live (live : Live state) (fired : joinStep state out = some next) :
    Live next ∨ Settled next := by
  have kept := live.kept out
  unfold joinStep at fired
  simp only at fired
  split at fired
  · next content _ _ finished =>
      cases fired
      left
      apply live_stream live (Nat.le_refl _)
      · exact counted_update live rfl
      · exact kept
      · exact fun _ => ⟨content, finished⟩
      · exact .inl
      · exact id
      · exact id
  · next message _ _ finished =>
      cases fired
      right
      apply settled_fail
      simp only [Kept, finished] at kept
      have counted := live.counted
      exact own_none_of_passed (by omega)
  · cases fired

theorem feed_live {n : Nat} {error : String} (live : Live state)
    (fired : feedStep state n error = some next) : Live next := by
  unfold feedStep at fired
  split at fired
  · next rest feeding =>
      obtain ⟨some, fired⟩ := ite_none_right_eq_some.mp fired
      simp only [Bool.and_eq_true, decide_eq_true_eq] at some
      have left : state.wholeInput = false := by
        unfold State.wholeInput
        rw [feeding]
        cases rest with
        | nil =>
          have none := some.2
          rw [length_nil] at none
          omega
        | cons byte rest => rfl
      have opened := live.fed left
      simp only [opened] at fired
      cases fired
      refine { live with fed := fun _ => rfl, ended := ?_, running := ?_ }
      · intro ending found
        have whole := (live.ended ending found).2.2.1
        rw [left] at whole
        cases whole
      · intro same
        cases same
  · cases fired

theorem fed_live (live : Live state) (fired : fedStep state = some next) :
    Live next := by
  unfold fedStep at fired
  split at fired
  · next feeding =>
      cases fired
      refine { live with fed := ?_, ended := ?_, running := ?_ }
      · intro left
        cases left
      · intro ending found
        obtain ⟨returned, expired, _, intime⟩ := live.ended ending found
        exact ⟨returned, expired, rfl, intime⟩
      · intro same
        cases same
  · cases fired

theorem collected (live : Live state) (joined : ∀ out, (state.streams out).joined = true) :
    state.written ≤ outputLimit ∧
      ∀ out, (state.streams out).drain.content = (state.streams out).pipe.written := by
  have answered : ∀ out, (state.streams out).pipe.unread = [] ∧
      (state.streams out).drain.content = (state.streams out).pipe.written := by
    intro out
    obtain ⟨content, finished⟩ := live.joined out (joined out)
    have kept := live.kept out
    simp only [Kept, finished] at kept
    refine ⟨kept.2, ?_⟩
    rw [finished, Drain.content, kept.1]
  refine ⟨?_, fun out => (answered out).2⟩
  have read : state.unread = 0 := by
    simp only [State.unread, both, (answered .stdout).1, (answered .stderr).1, length_nil]
  have counted := live.counted
  apply Nat.le_of_not_lt
  intro passed
  obtain ⟨out, failed⟩ := live.limited (by omega)
  obtain ⟨content, finished⟩ := live.joined out (joined out)
  rw [finished] at failed
  cases failed

theorem wait_live (live : Live state) (fired : waitStep state = some next) : Settled next := by
  unfold waitStep at fired
  split at fired
  · next _ first second =>
      obtain ⟨ending, ended, same⟩ := map_eq_some_iff.mp fired
      cases same
      have joined : ∀ out, (state.streams out).joined = true := by
        intro out
        cases out with
        | stdout => exact first
        | stderr => exact second
      obtain ⟨within, whole⟩ := collected live joined
      obtain ⟨early, intime, _⟩ := live.ended ending ended
      have own : state.own = match ending.status with
          | .lost _ => none
          | status => some status := by
        have below : decide (outputLimit < state.written) = false := by
          simpa using within
        simp only [State.own, ended, early, intime, below, Bool.or_self, Bool.false_eq_true,
          if_false]
      cases status : ending.status with
      | lost error =>
        apply settled_fail
        rw [own, status]
      | exited code | signalled signal =>
        rw [status] at own
        exact settled_ok own whole
  · cases fired

variable {timeoutMs : Nat}

theorem time_out_live (live : Live state) (fired : timeOutStep timeoutMs state = some next) :
    Settled next := by
  unfold timeOutStep at fired
  rw [live.unanswered] at fired
  obtain ⟨expired, same⟩ := ite_none_right_eq_some.mp fired
  cases same
  apply settled_fail
  cases alive : state.ending with
  | none => simp only [State.own, alive]
  | some ending =>
    have intime := (live.ended ending alive).2.2.2
    rw [expired] at intime
    cases intime

/-- What a step does once the call has returned. -/
structure Quiet (state next : State) : Prop where
  result : next.result = state.result
  phase : next.phase = state.phase
  killed : next.groupKilled = state.groupKilled
  ended : state.ending.isSome = true → next.ending = state.ending ∧
    ∀ out, (next.streams out).pipe.written = (state.streams out).pipe.written
  alive : state.ending = none → next.own = none

theorem settled_quiet (settled : Settled state) (quiet : Quiet state next) :
    Settled next := by
  obtain ⟨answered, returned, truthful⟩ := settled
  refine ⟨by rw [quiet.result, answered], by rw [quiet.phase, returned], ?_⟩
  intro result found
  rw [quiet.result] at found
  have before := truthful result found
  cases alive : state.ending with
  | none =>
    have none : state.own = none := by simp only [State.own, alive]
    rw [none] at before
    rw [quiet.alive alive, quiet.killed]
    exact before
  | some ending =>
    have isSome : state.ending.isSome = true := by rw [alive, isSome_some]
    obtain ⟨same, written⟩ := quiet.ended isSome
    have size : next.written = state.written := by
      apply both_congr
      intro out
      rw [written]
    have own : next.own = state.own := by simp only [State.own, same, size]
    rw [own, written, written, quiet.killed]
    exact before

theorem quiet_stream
    (written : state.ending.isSome = true →
      stream.pipe.written = (state.streams out).pipe.written) :
    Quiet state ({ state with total }.setStream out stream) where
  result := rfl
  phase := rfl
  killed := rfl
  ended := by
    intro ended
    refine ⟨rfl, ?_⟩
    intro other
    by_cases same : other = out
    · subst same
      simp only [State.setStream, update_self]
      exact written ended
    · simp only [State.setStream, update_of_ne same]
  alive := by
    intro alive
    simp only [State.own, State.setStream, alive]

variable {label : Label}

theorem settled_step (settled : Settled state) (fired : step timeoutMs state label = some next) :
    Settled next := by
  have answered := settled.1
  have returned := settled.2.1
  apply settled_quiet settled
  cases label with
  | write out bytes =>
    simp only [step, writeStep] at fired
    split at fired
    · next content alive reading =>
        obtain ⟨_, same⟩ := ite_none_right_eq_some.mp fired
        cases same
        apply quiet_stream
        intro ended
        rw [alive] at ended
        cases ended
    · cases fired
  | close out =>
    simp only [step, closeStep] at fired
    split at fired
    · cases fired
    · cases fired
      exact quiet_stream fun _ => rfl
  | closeStdin =>
    simp only [step] at fired
    split at fired
    · cases fired
    · next alive =>
        cases fired
        refine ⟨rfl, rfl, rfl, fun _ => ⟨rfl, fun _ => rfl⟩, ?_⟩
        intro _
        simp only [State.own, alive]
  | exit status =>
    simp only [step, exitStep] at fired
    split at fired
    · cases fired
    · next alive =>
        cases fired
        refine ⟨rfl, rfl, rfl, ?_, ?_⟩
        · intro ended
          rw [alive] at ended
          cases ended
        · intro _
          simp only [State.own, answered, Bool.true_or, if_true]
  | feed n error => simp only [step, feedStep, returned, reduceCtorEq] at fired
  | fed => simp only [step, fedStep, returned, reduceCtorEq] at fired
  | read out n =>
    simp only [step, readStep] at fired
    split at fired
    · obtain ⟨_, same⟩ := ite_none_right_eq_some.mp fired
      cases same
      exact quiet_stream fun _ => rfl
    · cases fired
  | eof out =>
    simp only [step, eofStep] at fired
    split at fired
    · obtain ⟨_, same⟩ := ite_none_right_eq_some.mp fired
      cases same
      exact quiet_stream fun _ => rfl
    · cases fired
  | failRead out error =>
    simp only [step, failReadStep] at fired
    split at fired
    · cases fired
      exact quiet_stream fun _ => rfl
    · cases fired
  | join out => simp only [step, joinStep, returned, reduceCtorEq] at fired
  | wait => simp only [step, waitStep, returned, reduceCtorEq] at fired
  | expire =>
    cases fired
    refine ⟨rfl, rfl, rfl, fun _ => ⟨rfl, fun _ => rfl⟩, ?_⟩
    intro alive
    simp only [State.own, alive]
  | timeOut =>
    obtain ⟨result, found⟩ := isSome_iff_exists.mp answered
    simp only [step, timeOutStep, found, reduceCtorEq] at fired

def Invariant (state : State) : Prop := Live state ∨ Settled state

theorem live_step (live : Live state) (orderly : Orderly state label)
    (fired : step timeoutMs state label = some next) :
    Invariant next := by
  have allowed := orderly live.unanswered
  cases label with
  | write out bytes => exact .inl (write_live live fired)
  | close out => exact .inl (close_live live fired)
  | closeStdin =>
    simp only [step] at fired
    split at fired
    · cases fired
    · cases fired
      left
      refine { live with fed := ?_ }
      intro left
      have same : state.wholeInput = false := left
      rw [allowed] at same
      cases same
  | exit status => exact .inl (exit_live live allowed.1 allowed.2 fired)
  | feed n error => exact .inl (feed_live live fired)
  | fed => exact .inl (fed_live live fired)
  | read out n => exact .inl (read_live live fired)
  | eof out => exact .inl (eof_live live fired)
  | failRead out error => exact allowed.elim
  | join out => exact join_live live fired
  | wait => exact .inr (wait_live live fired)
  | expire =>
    cases fired
    left
    refine { live with ended := ?_ }
    intro ending found
    rw [show state.ending = none from allowed] at found
    cases found
  | timeOut => exact .inr (time_out_live live fired)

theorem preserved (timeoutMs : Nat) (input : Option Bytes) :
    Preserved (system timeoutMs input) Orderly Invariant := by
  intro state label next inv orderly fired
  rcases inv with live | settled
  · exact live_step live orderly fired
  · exact .inr (settled_step settled fired)

theorem truthful_of_invariant (inv : Invariant state) : Truthful state := by
  rcases inv with live | settled
  · intro result found
    rw [live.unanswered] at found
    cases found
  · exact settled.2.2

def Drain.work : Drain → Nat
  | .reading _ => 1
  | .finished _ => 0

theorem drain_work_le (drain : Drain) : drain.work ≤ 1 := by
  cases drain with
  | reading content => exact Nat.le_refl 1
  | finished outcome => exact Nat.zero_le 1

def Stream.work (stream : Stream) : Nat :=
  stream.pipe.unread.length + stream.drain.work + (if stream.joined then 0 else 1)

def Phase.work : Phase → Nat
  | .feeding _ => 1
  | _ => 0

def State.work (state : State) : Nat := both Stream.work state.streams + state.phase.work

theorem work_stream (less : stream.work < (state.streams out).work) :
    ({ state with total }.setStream out stream).work < state.work := by
  have sum := both_update Stream.work state.streams out stream
  simp only [State.setStream, State.work]
  omega

/-- Every step of a call whose child has ended brings it nearer to its return. -/
theorem work_decreases (live : Live state) (ended : state.ending.isSome = true)
    (orderly : Orderly state label) (fired : step timeoutMs state label = some next)
    (goesOn : next.result = none) :
    next.work < state.work ∧ next.ending.isSome = true := by
  obtain ⟨ending, found⟩ := isSome_iff_exists.mp ended
  obtain ⟨_, _, whole, intime⟩ := live.ended ending found
  have allowed := orderly live.unanswered
  cases label with
  | write out bytes => simp only [step, writeStep, found, reduceCtorEq] at fired
  | close out => simp only [step, closeStep, found, reduceCtorEq] at fired
  | closeStdin => simp only [step, found, reduceCtorEq] at fired
  | exit status => simp only [step, exitStep, found, reduceCtorEq] at fired
  | feed n error =>
    simp only [step, feedStep] at fired
    split at fired
    · next rest feeding =>
        obtain ⟨some, _⟩ := ite_none_right_eq_some.mp fired
        simp only [Bool.and_eq_true, decide_eq_true_eq] at some
        simp only [State.wholeInput, feeding, List.isEmpty_iff] at whole
        rw [whole, length_nil] at some
        omega
    · cases fired
  | fed =>
    simp only [step, fedStep] at fired
    split at fired
    · next feeding =>
        cases fired
        refine ⟨?_, ended⟩
        simp only [State.work, feeding, Phase.work]
        omega
    · cases fired
  | read out n =>
    simp only [step, readStep] at fired
    split at fired
    · next content reading =>
        obtain ⟨offered, same⟩ := ite_none_right_eq_some.mp fired
        obtain ⟨positive, _, fits⟩ := (offers_iff _ _).mp offered
        cases same
        refine ⟨work_stream ?_, ended⟩
        have one : (state.streams out).drain.work = 1 := by rw [reading, Drain.work]
        refine Nat.lt_of_le_of_lt
          (Nat.add_le_add_right (Nat.add_le_add_left (drain_work_le _) _) _) ?_
        simp only [Stream.work, Pipe.drop, length_drop]
        omega
    · cases fired
  | eof out =>
    simp only [step, eofStep] at fired
    split at fired
    · next content reading =>
        obtain ⟨_, same⟩ := ite_none_right_eq_some.mp fired
        cases same
        refine ⟨work_stream ?_, ended⟩
        simp only [Stream.work, reading, Drain.work]
        omega
    · cases fired
  | failRead out error => exact allowed.elim
  | join out =>
    simp only [step, joinStep] at fired
    split at fired
    · next content _ unjoined finished =>
        cases fired
        refine ⟨work_stream ?_, ended⟩
        simp only [Stream.work, unjoined, if_true, Bool.false_eq_true, if_false]
        omega
    · cases fired
      cases goesOn
    · cases fired
  | wait =>
    have answered := (wait_live live fired).1
    rw [goesOn] at answered
    cases answered
  | expire =>
    rw [show state.ending = none from allowed] at found
    cases found
  | timeOut =>
    simp only [step, timeOutStep, live.unanswered, intime, if_false,
      reduceCtorEq] at fired

/-- And as long as it has not returned there is such a step. -/
theorem step_enabled (timeoutMs : Nat) (live : Live state) (ended : state.ending.isSome = true) :
    ∃ label, Orderly state label ∧ (step timeoutMs state label).isSome = true := by
  obtain ⟨ending, found⟩ := isSome_iff_exists.mp ended
  obtain ⟨_, _, whole, _⟩ := live.ended ending found
  have oneOf : ∀ out, (state.streams out).joined = false → state.phase = .collecting →
      ∃ label, Orderly state label ∧ (step timeoutMs state label).isSome = true := by
    intro out unjoined collecting
    cases drain : (state.streams out).drain with
    | reading content =>
      cases unread : (state.streams out).pipe.unread with
      | nil =>
        have atEnd : (state.streams out).pipe.atEnd = true :=
          (at_end_iff _).mpr ⟨unread, live.shut ended out⟩
        refine ⟨.eof out, fun _ => trivial, ?_⟩
        simp only [step, eofStep, drain, atEnd, if_true, isSome_some]
      | cons byte rest =>
        have offered : (state.streams out).pipe.offers 1 = true := by
          rw [offers_iff, unread]
          exact ⟨Nat.one_pos, by decide, Nat.succ_le_succ (Nat.zero_le _)⟩
        refine ⟨.read out 1, fun _ => trivial, ?_⟩
        simp only [step, readStep, drain, offered, if_true, isSome_some]
    | finished outcome =>
      cases outcome with
      | ok content | error message =>
        refine ⟨.join out, fun _ => trivial, ?_⟩
        simp only [step, joinStep, collecting, unjoined, drain, isSome_some]
  cases phase : state.phase with
  | returned => exact absurd phase live.running
  | feeding rest =>
    simp only [State.wholeInput, phase, List.isEmpty_iff] at whole
    subst whole
    refine ⟨.fed, fun _ => trivial, ?_⟩
    simp only [step, fedStep, phase, isSome_some]
  | collecting =>
    cases first : (state.streams .stdout).joined with
    | false => exact oneOf .stdout first phase
    | true =>
      cases second : (state.streams .stderr).joined with
      | false => exact oneOf .stderr second phase
      | true =>
        refine ⟨.wait, fun _ => trivial, ?_⟩
        simp only [step, waitStep, phase, first, second, found, map_some,
          isSome_some]

/-- The call cannot go on for longer than there is work, and does not stand still. -/
def Returns (timeoutMs : Nat) (state : State) : Prop :=
  state.ending.isSome = true → state.result = none →
    (∃ label, Orderly state label ∧ (step timeoutMs state label).isSome = true) ∧
    ∀ input labels next, Path (system timeoutMs input) Orderly state labels next →
      next.result = none → labels.length ≤ state.work

theorem path_work {input : Option Bytes} {labels : List Label} (live : Live state)
    (ended : state.ending.isSome = true)
    (path : Path (system timeoutMs input) Orderly state labels next) (goesOn : next.result = none) :
    labels.length ≤ state.work := by
  induction labels generalizing state with
  | nil => exact Nat.zero_le _
  | cons label rest ih =>
    obtain ⟨orderly, middle, fired, continued⟩ := path
    have inv := live_step live orderly fired
    rcases inv with later | settled
    · obtain ⟨less, still⟩ := work_decreases live ended orderly fired later.unanswered
      have bound := ih later still continued
      rw [length_cons]
      omega
    · have stays : Preserved (system timeoutMs input) Orderly Settled :=
        fun _ _ _ settled _ fired => settled_step settled fired
      have answered := (path_preserves stays continued settled).1
      rw [goesOn] at answered
      cases answered

theorem run_truthful {input : Option Bytes} {labels : List Label}
    (path : Path (system timeoutMs input) Orderly (initial input) labels state) :
    Truthful state ∧ Returns timeoutMs state := by
  have inv := path_preserves (preserved timeoutMs input) path (.inl (live_initial input))
  refine ⟨truthful_of_invariant inv, ?_⟩
  intro ended unanswered
  rcases inv with live | settled
  · refine ⟨step_enabled timeoutMs live ended, ?_⟩
    intro other labels next continued goesOn
    exact path_work live ended continued goesOn
  · have answered := settled.1
    rw [unanswered] at answered
    cases answered

end OnlyJs.Bridge.Exec.Run