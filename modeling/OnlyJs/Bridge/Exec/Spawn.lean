import OnlyJs.Bridge.Exec.Output
import OnlyJs.Lib.StepSystem

/-!
# A spawned child and its supervisor

Everything of the host runs on one thread: the two drains, the supervisor, the reads of the
consumer and the kill requests are polled one at a time, while the child and the timer go on
by themselves. Only the input of the child is left out: whether it is taken makes no
difference here.
-/

namespace OnlyJs.Bridge.Exec.Spawn

open Lib List Option Function Lib.StepSystem

def streamChannelBound : Nat := 16

/-- What the streams of the handle ask `op_exec_read` for. -/
def readLimit : Nat := 65536

inductive Drain where
  | reading
  | sending (chunk : Bytes)
  /-- The pipe is closed for reading, the channel for sending. -/
  | stopped

def Drain.pending : Drain → Bytes
  | .sending chunk => chunk
  | _ => []

/-- One stream, from the pipe of the child to the bytes the consumer has received. -/
structure Stream where
  pipe : Pipe
  drain : Drain
  channel : List Bytes
  received : Bytes
  /-- The consumer has seen the end. -/
  finished : Bool
  /-- The receiver is dropped. -/
  closed : Bool

inductive Supervisor where
  | selecting
  /-- The group was killed, the child is waited for. -/
  | killing
  | done

structure Ending where
  status : Status
  requested : Bool
  expired : Bool

structure State where
  streams : Output → Stream
  ending : Option Ending
  total : Nat
  /-- Kill requests in their channel. -/
  kills : Nat
  /-- A kill request was ever made. -/
  requested : Bool
  supervisor : Supervisor
  code : Option Int
  expired : Bool

inductive Label where
  | write (out : Output) (bytes : Bytes)
  | close (out : Output)
  | exit (status : Status)
  | read (out : Output) (n : Nat)
  | eof (out : Output)
  | failRead (out : Output)
  | send (out : Output)
  | supervise
  | expire
  | receive (out : Output)
  | closeReader (out : Output)
  | kill

def initial : State where
  streams := fun _ => {
    pipe := .empty
    drain := .reading
    channel := []
    received := []
    finished := false
    closed := false }
  ending := none
  total := 0
  kills := 0
  requested := false
  supervisor := .selecting
  code := none
  expired := false

def State.setStream (state : State) (out : Output) (stream : Stream) : State :=
  { state with streams := Function.update state.streams out stream }

def State.request (state : State) : State :=
  { state with kills := state.kills + 1, requested := true }

def truncate (limit : Nat) (chunk : Bytes) : Bytes :=
  if 0 < limit && limit < chunk.length then chunk.take limit else chunk

def writeStep (state : State) (out : Output) (bytes : Bytes) : Option State :=
  let stream := state.streams out
  match state.ending, stream.drain with
  | some _, _ => none
  | none, .stopped => none
  | none, _ =>
    if stream.pipe.writable then
      some (state.setStream out { stream with pipe := stream.pipe.write bytes })
    else none

def exitStep (state : State) (status : Status) : Option State :=
  match state.ending with
  | some _ => none
  | none =>
    some { state with
      ending := some { status, requested := state.requested, expired := state.expired }
      streams := fun out =>
        { state.streams out with pipe := (state.streams out).pipe.close } }

/-- `drain_to_mpsc` reads and counts. -/
def readStep (state : State) (out : Output) (n : Nat) : Option State :=
  let stream := state.streams out
  match stream.drain with
  | .reading =>
    if stream.pipe.offers n then
      let state := { state with total := state.total + n }
      if outputLimit < state.total then
        some (state.request.setStream out
          { stream with pipe := stream.pipe.drop n, drain := .stopped })
      else
        some (state.setStream out { stream with
          pipe := stream.pipe.drop n
          drain := .sending (stream.pipe.unread.take n) })
    else none
  | _ => none

def stopStep (state : State) (out : Output) (stops : Stream → Bool) : Option State :=
  let stream := state.streams out
  match stream.drain with
  | .reading =>
    if stops stream then some (state.setStream out { stream with drain := .stopped }) else none
  | _ => none

def sendStep (state : State) (out : Output) : Option State :=
  let stream := state.streams out
  match stream.drain with
  | .sending chunk =>
    if stream.closed then some (state.setStream out { stream with drain := .stopped })
    else if stream.channel.length < streamChannelBound then
      some (state.setStream out
        { stream with channel := stream.channel ++ [chunk], drain := .reading })
    else none
  | _ => none

def superviseStep (state : State) : Option State :=
  match state.supervisor with
  | .selecting =>
    if 0 < state.kills then
      some { state with kills := state.kills - 1, supervisor := .killing }
    else
      match state.ending with
      | some ending =>
        some { state with supervisor := .done, code := some ending.status.exitCode }
      | none => if state.expired then some { state with supervisor := .killing } else none
  | .killing => state.ending.map fun _ => { state with supervisor := .done, code := some 137 }
  | .done => none

/-- `StreamResource::next_chunk`; it waits while there is no chunk and the sender is there. -/
def receiveStep (state : State) (out : Output) : Option State :=
  let stream := state.streams out
  if stream.closed then none
  else
    match stream.channel, stream.drain with
    | chunk :: rest, _ =>
      some (state.setStream out { stream with
        channel := rest
        received := stream.received ++ truncate readLimit chunk })
    | [], .stopped => some (state.setStream out { stream with finished := true })
    | [], _ => none

def step (state : State) : Label → Option State
  | .write out bytes => writeStep state out bytes
  | .close out =>
    let stream := state.streams out
    match state.ending with
    | some _ => none
    | none => some (state.setStream out { stream with pipe := stream.pipe.close })
  | .exit status => exitStep state status
  | .read out n => readStep state out n
  | .eof out => stopStep state out fun stream => stream.pipe.atEnd
  | .failRead out => stopStep state out fun _ => true
  | .send out => sendStep state out
  | .supervise => superviseStep state
  | .expire => some { state with expired := true }
  | .receive out => receiveStep state out
  | .closeReader out =>
    some (state.setStream out { state.streams out with channel := [], closed := true })
  | .kill => some state.request

def system : System State Label where
  init := initial
  step := step

def State.written (state : State) : Nat :=
  both (fun stream => stream.pipe.written.length) state.streams

def State.unread (state : State) : Nat :=
  both (fun stream => stream.pipe.unread.length) state.streams

/-- What the exit code says of the run: unless it is 137, nothing ended the child but the
child, within the limit, and who has read a stream to its end has all of it. -/
def Truthful (state : State) : Prop :=
  ∀ code, state.code = some code → code ≠ 137 →
    (∃ ending, state.ending = some ending ∧ code = ending.status.exitCode ∧
      ending.requested = false ∧ ending.expired = false) ∧
    state.written ≤ outputLimit ∧
    ∀ out, (state.streams out).finished = true →
      (state.streams out).received = (state.streams out).pipe.written

/-- No read fails; the child does not end between the expiry of the timer and the next poll
of the supervisor; and when the supervisor sees the end of a child that wrote more than the
limit, the drains have read all of it. -/
def Orderly (state : State) : Label → Prop
  | .exit _ => state.supervisor = .selecting → state.expired = false
  | .failRead _ => False
  | .supervise =>
    state.supervisor = .selecting → state.kills = 0 → state.ending.isSome = true →
      state.written ≤ outputLimit ∨ state.unread = 0
  | _ => True

/-- Nothing of the stream is lost: what was written is received, in the channel, in the hand
of the drain or unread. -/
structure Kept (stream : Stream) : Prop where
  whole : stream.closed = false ∨ stream.finished = true →
    stream.pipe.written =
      stream.received ++ stream.channel.flatten ++ stream.drain.pending ++ stream.pipe.unread
  ended : stream.drain = .stopped → stream.closed = false ∨ stream.finished = true →
    stream.pipe.unread = []

structure Small (stream : Stream) : Prop where
  channel : ∀ chunk ∈ stream.channel, chunk.length ≤ bufferSize
  pending : stream.drain.pending.length ≤ bufferSize

structure Invariant (state : State) : Prop where
  counted : state.total + state.unread = state.written
  small : ∀ out, Small (state.streams out)
  kept : ∀ out, outputLimit < state.total ∨ Kept (state.streams out)
  finished : ∀ out, (state.streams out).finished = true →
    (state.streams out).channel = [] ∧ (state.streams out).drain = .stopped
  ended : state.ending.isSome = true → ∀ out, (state.streams out).pipe.writable = false
  requested : state.requested = true → 0 < state.kills ∨ state.supervisor ≠ .selecting
  limited : outputLimit < state.total → state.requested = true
  before : ∀ ending, state.ending = some ending →
    (ending.requested = true → state.requested = true) ∧
      (state.supervisor = .selecting → ending.expired = false)
  reported : ∀ code, state.code = some code → code ≠ 137 →
    (∃ ending, state.ending = some ending ∧ code = ending.status.exitCode ∧
      ending.requested = false ∧ ending.expired = false) ∧ state.written ≤ outputLimit

theorem invariant_initial : Invariant initial where
  counted := rfl
  small := fun _ => ⟨fun _ mem => absurd mem not_mem_nil, Nat.zero_le _⟩
  kept := fun _ => .inr ⟨fun _ => rfl, fun stopped => by cases stopped⟩
  finished := fun _ seen => by cases seen
  ended := fun some => by cases some
  requested := fun made => by cases made
  limited := fun passed => absurd passed (Nat.not_lt_zero _)
  before := fun _ found => by cases found
  reported := fun _ found => by cases found

variable {state : State}

theorem truthful_of_invariant (inv : Invariant state) : Truthful state := by
  intro code found other
  obtain ⟨ending, within⟩ := inv.reported code found other
  refine ⟨ending, within, ?_⟩
  intro out finished
  have counted := inv.counted
  rcases inv.kept out with passed | kept
  · omega
  · obtain ⟨empty, stopped⟩ := inv.finished out finished
    have whole := kept.whole (.inr finished)
    rw [empty, stopped, kept.ended stopped (.inr finished)] at whole
    simpa [Drain.pending] using whole.symm

variable {out : Output}

/-- A step on one stream that leaves what was written and counted as it is. -/
theorem stream_step {stream : Stream} (inv : Invariant state)
    (pipe : stream.pipe = (state.streams out).pipe ∨ stream.pipe = (state.streams out).pipe.close)
    (small : Small stream) (kept : Kept (state.streams out) → Kept stream)
    (finished : stream.finished = true → stream.channel = [] ∧ stream.drain = .stopped) :
    Invariant (state.setStream out stream) := by
  have written : (state.setStream out stream).written = state.written := by
    apply both_same
    rcases pipe with same | shut
    · rw [same]
    · rw [shut, Pipe.close]
  have unread : (state.setStream out stream).unread = state.unread := by
    apply both_same
    rcases pipe with same | shut
    · rw [same]
    · rw [shut, Pipe.close]
  refine { inv with
    counted := ?_, small := ?_, kept := ?_, finished := ?_, ended := ?_, reported := ?_ }
  · rw [written, unread]
    exact inv.counted
  · intro other
    by_cases same : other = out
    · subst same
      simpa only [State.setStream, update_self] using small
    · simpa only [State.setStream, update_of_ne same] using inv.small other
  · intro other
    by_cases same : other = out
    · subst same
      simp only [State.setStream, update_self]
      exact (inv.kept other).imp_right kept
    · simpa only [State.setStream, update_of_ne same] using inv.kept other
  · intro other
    by_cases same : other = out
    · subst same
      simpa only [State.setStream, update_self] using finished
    · simpa only [State.setStream, update_of_ne same] using inv.finished other
  · intro ended other
    by_cases same : other = out
    · subst same
      simp only [State.setStream, update_self]
      rcases pipe with same | shut
      · rw [same]
        exact inv.ended ended other
      · rw [shut, Pipe.close]
    · simpa only [State.setStream, update_of_ne same] using inv.ended ended other
  · rw [written]
    exact inv.reported

theorem truncate_small {chunk : Bytes} (small : chunk.length ≤ bufferSize) :
    truncate readLimit chunk = chunk := by
  have fits : ¬readLimit < chunk.length := by
    have sizes : bufferSize < readLimit := by decide
    omega
  simp only [truncate, fits, decide_false, Bool.and_false, Bool.false_eq_true, if_false]

variable {next : State}

theorem send_step (inv : Invariant state) (fired : sendStep state out = some next) :
    Invariant next := by
  have small := inv.small out
  unfold sendStep at fired
  cases sending : (state.streams out).drain with
  | reading | stopped => simp only [sending, reduceCtorEq] at fired
  | sending chunk =>
    simp only [sending] at fired
    have unfinished : (state.streams out).finished = false := by
      cases seen : (state.streams out).finished with
      | false => rfl
      | true =>
        have stopped := (inv.finished out seen).2
        rw [sending] at stopped
        cases stopped
    split at fired
    · next closed =>
        cases fired
        apply stream_step inv
        · exact .inl rfl
        · exact ⟨small.channel, Nat.zero_le _⟩
        · intro kept
          have lost : ¬((state.streams out).closed = false ∨
              (state.streams out).finished = true) := by
            rw [closed, unfinished]
            decide
          exact ⟨fun open_ => absurd open_ lost, fun _ open_ => absurd open_ lost⟩
        · intro seen
          rw [unfinished] at seen
          cases seen
    · obtain ⟨_, same⟩ := ite_none_right_eq_some.mp fired
      cases same
      apply stream_step inv
      · exact .inl rfl
      · have pending := small.pending
        rw [sending] at pending
        refine ⟨?_, Nat.zero_le _⟩
        intro other mem
        rcases mem_append.mp mem with old | new
        · exact small.channel other old
        · rw [mem_singleton.mp new]
          exact pending
      · intro kept
        refine ⟨?_, fun stopped => by cases stopped⟩
        intro seen
        have whole := kept.whole seen
        rw [sending] at whole
        simpa [Drain.pending] using whole
      · intro seen
        rw [unfinished] at seen
        cases seen

theorem receive_step (inv : Invariant state) (fired : receiveStep state out = some next) :
    Invariant next := by
  have small := inv.small out
  obtain ⟨notClosed, fired⟩ := ite_none_left_eq_some.mp fired
  have opened : (state.streams out).closed = false := by simpa using notClosed
  split at fired
  · next _ chunk rest queued =>
      cases fired
      have fits := small.channel
      rw [queued] at fits
      rw [truncate_small (fits chunk mem_cons_self)]
      apply stream_step inv
      · exact .inl rfl
      · exact ⟨fun other mem => fits other (mem_cons_of_mem _ mem), small.pending⟩
      · intro kept
        refine ⟨?_, kept.ended⟩
        intro seen
        have whole := kept.whole seen
        rw [queued] at whole
        simpa using whole
      · intro seen
        have empty := (inv.finished out seen).1
        rw [queued] at empty
        cases empty
  · next queued stopped =>
      cases fired
      apply stream_step inv
      · exact .inl rfl
      · exact ⟨small.channel, small.pending⟩
      · intro kept
        exact ⟨fun _ => kept.whole (.inl opened), fun _ _ => kept.ended stopped (.inl opened)⟩
      · intro _
        exact ⟨queued, stopped⟩
  · cases fired

theorem close_reader_step (out : Output) (inv : Invariant state) :
    Invariant (state.setStream out { state.streams out with channel := [], closed := true }) := by
  apply stream_step inv
  · exact .inl rfl
  · exact ⟨fun _ mem => absurd mem not_mem_nil, (inv.small out).pending⟩
  · intro kept
    refine ⟨?_, ?_⟩
    · rintro (closed | seen)
      · cases closed
      · have whole := kept.whole (.inr seen)
        rw [(inv.finished out seen).1] at whole
        exact whole
    · rintro stopped (closed | seen)
      · cases closed
      · exact kept.ended stopped (.inr seen)
  · intro seen
    exact ⟨rfl, (inv.finished out seen).2⟩

theorem eof_step (inv : Invariant state)
    (fired : stopStep state out (fun stream => stream.pipe.atEnd) = some next) :
    Invariant next := by
  have small := inv.small out
  unfold stopStep at fired
  cases reading : (state.streams out).drain with
  | sending chunk | stopped => simp only [reading, reduceCtorEq] at fired
  | reading =>
    simp only [reading] at fired
    obtain ⟨atEnd, same⟩ := ite_none_right_eq_some.mp fired
    cases same
    have read := ((at_end_iff _).mp atEnd).1
    apply stream_step inv
    · exact .inl rfl
    · exact ⟨small.channel, Nat.zero_le _⟩
    · intro kept
      refine ⟨?_, fun _ _ => read⟩
      intro seen
      have whole := kept.whole seen
      rw [reading] at whole
      exact whole
    · intro seen
      have stopped := (inv.finished out seen).2
      rw [reading] at stopped
      cases stopped

theorem write_step {bytes : Bytes} (inv : Invariant state)
    (fired : writeStep state out bytes = some next) : Invariant next := by
  have small := inv.small out
  unfold writeStep at fired
  simp only at fired
  split at fired
  · cases fired
  · cases fired
  · next _ alive running =>
      obtain ⟨_, same⟩ := ite_none_right_eq_some.mp fired
      cases same
      let stream : Stream :=
        { state.streams out with pipe := (state.streams out).pipe.write bytes }
      have more := both_update (fun stream => stream.pipe.written.length) state.streams out stream
      have left := both_update (fun stream => stream.pipe.unread.length) state.streams out stream
      simp only [stream, Pipe.write, length_append] at more left
      have counted := inv.counted
      simp only [State.written, State.unread] at counted
      refine { inv with
        counted := ?_, small := ?_, kept := ?_, finished := ?_, ended := ?_, reported := ?_ }
      · simp only [State.setStream, State.written, State.unread, Pipe.write]
        omega
      · intro other
        by_cases same : other = out
        · subst same
          simp only [State.setStream, update_self]
          exact ⟨small.channel, small.pending⟩
        · simpa only [State.setStream, update_of_ne same] using inv.small other
      · intro other
        by_cases same : other = out
        · subst same
          simp only [State.setStream, update_self]
          refine (inv.kept other).imp_right ?_
          intro kept
          refine ⟨?_, fun stopped => absurd stopped running⟩
          intro seen
          have whole := kept.whole seen
          simp only [Pipe.write, whole, append_assoc]
        · simpa only [State.setStream, update_of_ne same] using inv.kept other
      · intro other seen
        by_cases same : other = out
        · subst same
          simp only [State.setStream, update_self] at seen
          exact absurd (inv.finished other seen).2 running
        · simp only [State.setStream, update_of_ne same] at seen ⊢
          exact inv.finished other seen
      · intro ended
        rw [State.setStream] at ended
        simp only [alive, isSome_none, Bool.false_eq_true] at ended
      · intro code found other
        obtain ⟨⟨ending, ended, _⟩, _⟩ := inv.reported code found other
        rw [alive] at ended
        cases ended

theorem exit_step {status : Status} (inv : Invariant state) (orderly : Orderly state (.exit status))
    (fired : exitStep state status = some next) :
    Invariant next := by
  unfold exitStep at fired
  cases alive : state.ending with
  | some ending => simp only [alive, reduceCtorEq] at fired
  | none =>
    simp only [alive] at fired
    cases fired
    refine { inv with
      small := ?_, kept := ?_, ended := fun _ _ => rfl, before := ?_, reported := ?_ }
    · intro out
      exact ⟨(inv.small out).channel, (inv.small out).pending⟩
    · intro out
      refine (inv.kept out).imp_right ?_
      intro kept
      exact ⟨kept.whole, kept.ended⟩
    · intro ending same
      cases same
      exact ⟨fun made => made, orderly⟩
    · intro code found other
      obtain ⟨⟨ending, ended, _⟩, _⟩ := inv.reported code found other
      rw [alive] at ended
      cases ended

theorem counted_read {n : Nat} (inv : Invariant state)
    (fits : n ≤ (state.streams out).pipe.unread.length) (drain : Drain) :
    let read := state.setStream out
      { state.streams out with pipe := (state.streams out).pipe.drop n, drain }
    state.total + n + read.unread = read.written ∧ read.written = state.written := by
  let stream : Stream :=
    { state.streams out with pipe := (state.streams out).pipe.drop n, drain }
  have same : both (fun stream => stream.pipe.written.length)
        (Function.update state.streams out stream) =
      both (fun stream => stream.pipe.written.length) state.streams := both_same _ _ _ rfl
  have left := both_update (fun stream => stream.pipe.unread.length) state.streams out stream
  have counted := inv.counted
  simp only [State.written, State.unread] at counted
  simp only [stream, Pipe.drop, length_drop] at same left
  simp only [State.setStream, State.written, State.unread, Pipe.drop, same]
  refine ⟨?_, trivial⟩
  omega

theorem read_step {n : Nat} (inv : Invariant state) (fired : readStep state out n = some next) :
    Invariant next := by
  have small := inv.small out
  unfold readStep at fired
  cases reading : (state.streams out).drain with
  | sending chunk | stopped => simp only [reading, reduceCtorEq] at fired
  | reading =>
    simp only [reading] at fired
    obtain ⟨offered, fired⟩ := ite_none_right_eq_some.mp fired
    obtain ⟨_, buffered, fits⟩ := (offers_iff _ _).mp offered
    have unfinished : (state.streams out).finished = false := by
      cases seen : (state.streams out).finished with
      | false => rfl
      | true =>
        have stopped := (inv.finished out seen).2
        rw [reading] at stopped
        cases stopped
    have finished : ∀ (stream : Stream) (other : Output),
        stream.finished = (state.streams out).finished →
        (Function.update state.streams out stream other).finished = true →
          (Function.update state.streams out stream other).channel = [] ∧
            (Function.update state.streams out stream other).drain = .stopped := by
      intro stream other alike seen
      by_cases same : other = out
      · subst same
        rw [update_self, alike, unfinished] at seen
        cases seen
      · rw [update_of_ne same] at seen ⊢
        exact inv.finished other seen
    have ended : state.ending.isSome = true → ∀ (stream : Stream) (other : Output),
        stream.pipe.writable = (state.streams out).pipe.writable →
        (Function.update state.streams out stream other).pipe.writable = false := by
      intro gone stream other alike
      by_cases same : other = out
      · subst same
        rw [update_self, alike]
        exact inv.ended gone other
      · rw [update_of_ne same]
        exact inv.ended gone other
    split at fired
    · next passed =>
        cases fired
        obtain ⟨counted, written⟩ := counted_read inv fits .stopped
        refine {
          counted := counted
          small := ?_
          kept := fun _ => .inl passed
          finished := fun other => finished _ other rfl
          ended := fun gone other => ended gone _ other rfl
          requested := fun _ => .inl (Nat.succ_pos _)
          limited := fun _ => rfl
          before := fun ending found => ⟨fun _ => rfl, (inv.before ending found).2⟩
          reported := ?_ }
        · intro other
          by_cases same : other = out
          · subst same
            simp only [State.setStream, update_self]
            exact ⟨small.channel, Nat.zero_le _⟩
          · simpa only [State.setStream, State.request, update_of_ne same] using
              inv.small other
        · intro code found other
          obtain ⟨ending, within⟩ := inv.reported code found other
          exact ⟨ending, Nat.le_trans (Nat.le_of_eq written) within⟩
    · next within =>
        cases fired
        obtain ⟨counted, written⟩ := counted_read inv fits
          (.sending ((state.streams out).pipe.unread.take n))
        refine {
          counted := counted
          small := ?_
          kept := ?_
          finished := fun other => finished _ other rfl
          ended := fun gone other => ended gone _ other rfl
          requested := inv.requested
          limited := fun passed => absurd passed within
          before := inv.before
          reported := ?_ }
        · intro other
          by_cases same : other = out
          · subst same
            simp only [State.setStream, update_self]
            refine ⟨small.channel, ?_⟩
            simp only [Drain.pending, length_take]
            omega
          · simpa only [State.setStream, update_of_ne same] using inv.small other
        · intro other
          by_cases same : other = out
          · subst same
            simp only [State.setStream, update_self]
            refine (inv.kept other).imp (fun passed => by omega) ?_
            intro kept
            refine ⟨?_, fun stopped => by cases stopped⟩
            intro seen
            have whole := kept.whole seen
            rw [reading] at whole
            simpa [Drain.pending, Pipe.drop] using whole
          · simp only [State.setStream, update_of_ne same]
            exact (inv.kept other).imp_left (fun passed => by omega)
        · intro code found other
          obtain ⟨ending, below⟩ := inv.reported code found other
          exact ⟨ending, Nat.le_trans (Nat.le_of_eq written) below⟩

theorem supervise_step (inv : Invariant state) (orderly : Orderly state .supervise)
    (fired : superviseStep state = some next) :
    Invariant next := by
  unfold superviseStep at fired
  split at fired
  · next selecting =>
      split at fired
      · next waiting =>
          cases fired
          refine { inv with requested := ?_, before := ?_ }
          · intro _
            exact .inr (fun same => by cases same)
          · intro ending found
            exact ⟨(inv.before ending found).1, fun same => by cases same⟩
      · next quiet =>
          have none : state.kills = 0 := by omega
          have unasked : state.requested = false := by
            cases made : state.requested with
            | false => rfl
            | true =>
              rcases inv.requested made with waiting | other
              · omega
              · exact absurd selecting other
          split at fired
          · next ending ended =>
              cases fired
              have counted := inv.counted
              have within : ¬outputLimit < state.total := by
                intro passed
                rw [inv.limited passed] at unasked
                cases unasked
              have before := inv.before ending ended
              refine { inv with requested := ?_, before := ?_, reported := ?_ }
              · intro made
                rw [made] at unasked
                cases unasked
              · intro other found
                exact ⟨(inv.before other found).1, fun same => by cases same⟩
              · intro code found _
                cases found
                refine ⟨⟨ending, ended, rfl, ?_, before.2 selecting⟩, ?_⟩
                · cases made : ending.requested with
                  | false => rfl
                  | true =>
                    rw [before.1 made] at unasked
                    cases unasked
                · have isSome : state.ending.isSome = true := by rw [ended, isSome_some]
                  rcases orderly selecting none isSome with below | read
                  · exact below
                  · change state.written ≤ outputLimit
                    omega
          · split at fired
            · cases fired
              refine { inv with requested := ?_, before := ?_ }
              · intro made
                rw [made] at unasked
                cases unasked
              · intro ending found
                exact ⟨(inv.before ending found).1, fun same => by cases same⟩
            · cases fired
  · next killing =>
      obtain ⟨ending, ended, same⟩ := map_eq_some_iff.mp fired
      cases same
      refine { inv with requested := ?_, before := ?_, reported := ?_ }
      · intro _
        exact .inr (fun same => by cases same)
      · intro ending found
        exact ⟨(inv.before ending found).1, fun same => by cases same⟩
      · intro code found other
        cases found
        exact absurd rfl other
  · cases fired

theorem preserved : Preserved system Orderly Invariant := by
  intro state label next inv orderly fired
  cases label with
  | write out bytes => exact write_step inv fired
  | close out =>
    simp only [system, step] at fired
    split at fired
    · cases fired
    · cases fired
      have small := inv.small out
      apply stream_step inv
      · exact .inr rfl
      · exact ⟨small.channel, small.pending⟩
      · intro kept
        exact ⟨kept.whole, kept.ended⟩
      · exact inv.finished out
  | exit status => exact exit_step inv orderly fired
  | read out n => exact read_step inv fired
  | eof out => exact eof_step inv fired
  | failRead out => exact orderly.elim
  | send out => exact send_step inv fired
  | supervise => exact supervise_step inv orderly fired
  | expire =>
    cases fired
    exact { inv with }
  | receive out => exact receive_step inv fired
  | closeReader out =>
    cases fired
    exact close_reader_step out inv
  | kill =>
    cases fired
    refine { inv with requested := ?_, limited := ?_, before := ?_ }
    · intro _
      exact .inl (Nat.succ_pos _)
    · intro _
      rfl
    · intro ending found
      exact ⟨fun _ => rfl, (inv.before ending found).2⟩

theorem exit_truthful {labels : List Label} (path : Path system Orderly initial labels state) :
    Truthful state :=
  truthful_of_invariant (path_preserves preserved path invariant_initial)

end OnlyJs.Bridge.Exec.Spawn
