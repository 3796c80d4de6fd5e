import OnlyJs.Plugin.Mq.Kafka
import OnlyJs.Plugin.Mq.Rabbit

/-!
# The end of a poll

A poll fetches until it has its fill or its deadline has passed. The clock gives the time at
the successive moments of one poll; the broker answers every fetch.
-/

namespace OnlyJs.Plugin.Mq

open List

set_option autoImplicit false

/-- A monotonic clock in nanoseconds. It counts from the start of the machine. -/
structure Clock where
  now : Nat → Nat
  monotone : ∀ {first second}, first ≤ second → now first ≤ now second
  advances : ∀ bound, ∃ moment, bound ≤ now moment
  young : now 0 < 2 ^ 62 * 10 ^ 9

/-- The seconds of an instant are a signed 64 bit number. -/
def deadlineOf (clock : Clock) (timeoutMs : UInt64) : Option Nat :=
  let instant := clock.now 0 + timeoutMs.toNat * 10 ^ 6
  if instant < 2 ^ 63 * 10 ^ 9 then some instant else none

inductive Reply (Message : Type) where
  | message (message : Message)
  /-- RabbitMQ has nothing in the queue, or Kafka nothing before the deadline. -/
  | none
  | failed (error : String)

/-- A poll holds the poller until it has its answer. -/
structure Polling (Message : Type) where
  moment : Nat
  messages : List Message
  /-- When each fetch was made. -/
  fetches : List Nat
  sleeps : Nat
  answer : Option (Except String (List Message))

variable {Message : Type}

namespace Polling

def finish (poll : Polling Message) : Polling Message :=
  { poll with answer := some (.ok poll.messages) }

def fail (poll : Polling Message) (error : String) : Polling Message :=
  { poll with answer := some (.error error) }

def tick (poll : Polling Message) : Polling Message := { poll with moment := poll.moment + 1 }

/-- The fetch is made after the clock was read, and takes its time. -/
def fetch (clock : Clock) (poll : Polling Message) : Polling Message :=
  { poll with
    moment := poll.moment + 2
    fetches := poll.fetches ++ [clock.now (poll.moment + 1)] }

def push (poll : Polling Message) (message : Message) : Polling Message :=
  { poll with messages := poll.messages ++ [message] }

/-- How often the poll has fetched or slept. -/
def effort (poll : Polling Message) : Nat := poll.fetches.length + poll.sleeps

def late (deadline : Nat) (poll : Polling Message) : List Nat :=
  poll.fetches.filter (deadline ≤ ·)

def rounds (round : Polling Message → Polling Message) : Nat → Polling Message → Polling Message
  | 0, poll => poll
  | count + 1, poll =>
    let before := rounds round count poll
    if before.answer.isSome then before else round before

/-- A poll after a number of rounds. `opened` says whether the channel or the consumer is there;
a round knows the deadline. -/
def run (opened : Except String Unit) (clock : Clock) (timeoutMs : UInt64)
    (round : Nat → Polling Message → Polling Message) (count : Nat) : Polling Message :=
  let start : Polling Message := ⟨1, [], [], 0, none⟩
  match opened, deadlineOf clock timeoutMs with
  | .error error, _ => start.fail error
  | .ok (), none => start.fail "overflow when adding duration to instant"
  | .ok (), some deadline => rounds (round deadline) count start

end Polling

structure Rabbit.Session (Message : Type) where
  channel : Except String Unit
  basicGet : Nat → String → Reply Message

namespace Rabbit.Session

variable (session : Session Message) (clock : Clock) (req : PollReq) (deadline : Nat)

def ask (queue : String) (poll : Polling Message) : Polling Message :=
  if deadline ≤ clock.now poll.moment ∨ req.max ≤ poll.messages.length then poll.tick.finish
  else
    match session.basicGet poll.fetches.length queue with
    | .message message => (poll.fetch clock).push message
    | .none => poll.fetch clock
    | .failed error => (poll.fetch clock).fail s!"rabbitmq get {queue}: {error}"

/-- One turn over the queues. -/
def turn : List String → Polling Message → Polling Message
  | [], poll => poll
  | queue :: rest, poll =>
    let asked := session.ask clock req deadline queue poll
    if asked.answer.isSome then asked else turn rest asked

/-- A turn that has found nothing is followed by a short sleep. -/
def pause (poll : Polling Message) : Polling Message :=
  if poll.messages ≠ [] then poll
  else if clock.now poll.moment < deadline then
    { poll.tick.tick with sleeps := poll.sleeps + 1 }
  else poll.tick

def round (poll : Polling Message) : Polling Message :=
  if req.max ≤ poll.messages.length then poll.finish
  else
    let asked := session.turn clock req deadline req.queues poll
    if asked.answer.isSome then asked else pause clock deadline asked

def poll (timeoutMs : UInt64) : Nat → Polling Message :=
  Polling.run session.channel clock timeoutMs (session.round clock req)

end Rabbit.Session

structure Kafka.Consumer (Message : Type) where
  session : Except String Unit
  recv : Nat → Reply Message

namespace Kafka.Consumer

variable (consumer : Consumer Message) (clock : Clock) (req : PollReq) (deadline : Nat)

def round (poll : Polling Message) : Polling Message :=
  if req.max ≤ poll.messages.length then poll.finish
  else if deadline - clock.now poll.moment = 0 then poll.tick.finish
  else
    match consumer.recv poll.fetches.length with
    | .message message => (poll.fetch clock).push message
    | .none => (poll.fetch clock).finish
    | .failed error => (poll.fetch clock).fail s!"kafka poll: {error}"

def poll (timeoutMs : UInt64) : Nat → Polling Message :=
  Polling.run consumer.session clock timeoutMs (consumer.round clock req)

end Kafka.Consumer

/-- A poll, given by its state after each number of rounds, ends; each round before that fetches
or sleeps, and one fetch at most comes after the deadline. -/
structure Ends (clock : Clock) (timeoutMs : UInt64) (poll : Nat → Polling Message) : Prop where
  released : ∃ count, (poll count).answer.isSome
  busy : ∀ count, (poll (count + 1)).answer.isSome ∨
    (poll count).effort < (poll (count + 1)).effort
  timely : ∃ deadline, deadlineOf clock timeoutMs = some deadline ∧
    ∀ count, ((poll count).late deadline).length ≤ 1

section Rounds

variable {clock : Clock} {deadline : Nat} {poll next : Polling Message}
  {round : Polling Message → Polling Message}

theorem deadline_of_some (clock : Clock) (timeoutMs : UInt64) :
    ∃ deadline, deadlineOf clock timeoutMs = some deadline := by
  have young := clock.young
  have bound := timeoutMs.toNat_lt
  refine ⟨_, if_pos ?_⟩
  omega

/-- A late fetch has moved the clock behind the deadline. -/
structure Timely (clock : Clock) (deadline : Nat) (poll : Polling Message) : Prop where
  once : (poll.late deadline).length ≤ 1
  passed : poll.late deadline ≠ [] → deadline ≤ clock.now poll.moment

/-- What a poll does in time: nothing goes back, and no second fetch is late. -/
structure Advances (clock : Clock) (deadline : Nat) (poll next : Polling Message) : Prop where
  moment : poll.moment ≤ next.moment
  effort : poll.effort ≤ next.effort
  timely : Timely clock deadline poll → Timely clock deadline next

theorem Advances.trans {last : Polling Message} (first : Advances clock deadline poll next)
    (second : Advances clock deadline next last) : Advances clock deadline poll last :=
  ⟨Nat.le_trans first.moment second.moment, Nat.le_trans first.effort second.effort,
    fun timely => second.timely (first.timely timely)⟩

theorem advances_same (fetches : next.fetches = poll.fetches) (sleeps : poll.sleeps ≤ next.sleeps)
    (moment : poll.moment ≤ next.moment) : Advances clock deadline poll next := by
  have late : next.late deadline = poll.late deadline :=
    congrArg (filter (deadline ≤ ·)) fetches
  refine ⟨moment, ?_, fun timely => ⟨late ▸ timely.once, fun nonempty => ?_⟩⟩
  · rw [Polling.effort, Polling.effort, fetches]
    exact Nat.add_le_add_left sleeps _
  · exact Nat.le_trans (timely.passed (late ▸ nonempty)) (clock.monotone moment)

theorem advances_still (same : (poll.fetches, poll.sleeps, poll.moment) =
    (next.fetches, next.sleeps, next.moment)) : Advances clock deadline poll next := by
  obtain ⟨fetches, rest⟩ := Prod.mk.inj same
  obtain ⟨sleeps, moment⟩ := Prod.mk.inj rest
  exact advances_same fetches.symm (Nat.le_of_eq sleeps) (Nat.le_of_eq moment)

theorem effort_fetch : (poll.fetch clock).effort = poll.effort + 1 := by
  rw [Polling.effort, Polling.fetch, length_append, length_singleton, Nat.add_right_comm]
  rfl

theorem advances_fetch (early : clock.now poll.moment < deadline) :
    Advances clock deadline poll (poll.fetch clock) := by
  refine ⟨Nat.le_add_right _ 2, effort_fetch ▸ Nat.le_succ _, fun timely => ?_⟩
  have none : poll.late deadline = [] := by
    by_contra late
    exact Nat.not_le_of_lt early (timely.passed late)
  have late : (poll.fetch clock).late deadline =
      [clock.now (poll.moment + 1)].filter (deadline ≤ ·) := by
    rw [Polling.late, Polling.fetch, filter_append, ← Polling.late, none, nil_append]
  refine ⟨late ▸ length_filter_le _ _, fun nonempty => ?_⟩
  rw [late] at nonempty
  obtain ⟨time, member⟩ := exists_mem_of_ne_nil _ nonempty
  obtain ⟨own, reached⟩ := mem_filter.mp member
  rw [mem_singleton.mp own] at reached
  exact Nat.le_trans (of_decide_eq_true reached) (clock.monotone (Nat.le_succ _))

/-- A poll answers, or it fetches in time and goes on from there. -/
def Works (clock : Clock) (deadline : Nat) (poll next : Polling Message) : Prop :=
  next.answer.isSome ∧ Advances clock deadline poll next ∨
    clock.now poll.moment < deadline ∧ Advances clock deadline (poll.fetch clock) next

theorem Works.advances (works : Works clock deadline poll next) :
    Advances clock deadline poll next := by
  rcases works with ⟨_, advances⟩ | ⟨early, advances⟩
  · exact advances
  · exact (advances_fetch early).trans advances

theorem rounds_keep {invariant : Polling Message → Prop}
    (keeps : ∀ poll, invariant poll → invariant (round poll)) (holds : invariant poll)
    (count : Nat) : invariant (Polling.rounds round count poll) := by
  induction count with
  | zero => exact holds
  | succ count ih =>
    rw [Polling.rounds]
    split
    · exact ih
    · exact keeps _ ih

theorem rounds_moment (works : ∀ poll, Works clock deadline poll (round poll)) (count : Nat) :
    (Polling.rounds round count poll).answer.isSome ∨
      count ≤ (Polling.rounds round count poll).moment := by
  induction count with
  | zero => exact Or.inr (Nat.zero_le _)
  | succ count ih =>
    rw [Polling.rounds]
    split
    · exact Or.inl ‹_›
    · rename_i running
      have before := ih.resolve_left running
      refine (works _).imp And.left fun ⟨_, fetched⟩ => ?_
      exact Nat.le_trans (Nat.succ_le_succ before) (Nat.le_trans (Nat.le_succ _) fetched.moment)

section

variable {round : Nat → Polling Message → Polling Message} (timeoutMs : UInt64)
include timeoutMs

/-- Stated before the number of rounds is given: the matcher of an applied run is unfolded on the
bound of `deadlineOf` itself. -/
theorem run_opened {deadline : Nat} (computed : deadlineOf clock timeoutMs = some deadline) :
    Polling.run (.ok ()) clock timeoutMs round =
      fun count => Polling.rounds (round deadline) count ⟨1, [], [], 0, none⟩ := by
  unfold Polling.run
  rw [computed]

theorem run_ends (works : ∀ deadline poll, Works clock deadline poll (round deadline poll)) :
    Ends clock timeoutMs (Polling.run (.ok ()) clock timeoutMs round) := by
  obtain ⟨deadline, computed⟩ := deadline_of_some clock timeoutMs
  rw [run_opened timeoutMs computed]
  refine ⟨?_, fun count => ?_, deadline, computed, fun count => ?_⟩
  · obtain ⟨moment, passed⟩ := clock.advances deadline
    refine ⟨moment + 1, ?_⟩
    dsimp only [Polling.rounds]
    split
    · assumption
    · rename_i running
      have reached := (rounds_moment (works deadline) moment).resolve_left running
      refine (works deadline _).elim And.left fun ⟨early, _⟩ => absurd early (Nat.not_lt_of_le ?_)
      exact Nat.le_trans passed (clock.monotone reached)
  · dsimp only [Polling.rounds]
    split
    · exact Or.inl ‹_›
    · refine (works deadline _).imp And.left fun ⟨_, fetched⟩ => ?_
      exact Nat.lt_of_lt_of_le (effort_fetch ▸ Nat.lt_succ_self _) fetched.effort
  · exact (rounds_keep (fun poll => (works deadline poll).advances.timely)
      ⟨Nat.zero_le _, absurd rfl⟩ count).once

theorem failed_ends (error : String) :
    Ends clock timeoutMs (Polling.run (.error error) clock timeoutMs round) := by
  obtain ⟨deadline, computed⟩ := deadline_of_some clock timeoutMs
  exact ⟨⟨0, rfl⟩, fun _ => Or.inl rfl, deadline, computed, fun _ => Nat.zero_le 1⟩

end

end Rounds

namespace Rabbit.Session

variable (session : Session Message) (clock : Clock) {req : PollReq} (deadline : Nat)

theorem ask_works (req : PollReq) (queue : String) (poll : Polling Message) :
    Works clock deadline poll (session.ask clock req deadline queue poll) := by
  unfold ask
  split
  · exact Or.inl ⟨rfl, advances_same rfl (Nat.le_refl _) (Nat.le_succ _)⟩
  · rename_i early
    have before := Nat.lt_of_not_le (not_or.mp early).1
    split
    · exact Or.inr ⟨before, advances_still rfl⟩
    · exact Or.inr ⟨before, advances_still rfl⟩
    · exact Or.inl ⟨rfl, (advances_fetch before).trans (advances_still rfl)⟩

theorem turn_advances (req : PollReq) (queues : List String) (poll : Polling Message) :
    Advances clock deadline poll (session.turn clock req deadline queues poll) := by
  induction queues generalizing poll with
  | nil => exact advances_still rfl
  | cons queue rest ih =>
    have asked := (session.ask_works clock deadline req queue poll).advances
    rw [turn]
    split
    · exact asked
    · exact asked.trans (ih _)

theorem pause_advances (poll : Polling Message) :
    Advances clock deadline poll (pause clock deadline poll) := by
  unfold pause
  split
  · exact advances_still rfl
  · split
    · exact advances_same rfl (Nat.le_succ _) (Nat.le_add_right _ 2)
    · exact advances_same rfl (Nat.le_refl _) (Nat.le_succ _)

theorem turn_works (req : PollReq) {queues : List String} (named : queues ≠ [])
    (poll : Polling Message) :
    Works clock deadline poll (session.turn clock req deadline queues poll) := by
  cases queues with
  | nil => exact absurd rfl named
  | cons queue rest =>
    have works := session.ask_works clock deadline req queue poll
    rw [turn]
    split
    · exact works
    · rename_i running
      obtain ⟨early, asked⟩ := works.resolve_left fun ended => running ended.1
      exact Or.inr ⟨early, asked.trans (session.turn_advances clock deadline req rest _)⟩

theorem round_works (ends : req.queues ≠ [] ∨ req.max = 0) (poll : Polling Message) :
    Works clock deadline poll (session.round clock req deadline poll) := by
  rw [round]
  split
  · exact Or.inl ⟨rfl, advances_still rfl⟩
  · rename_i room
    have named := ends.resolve_right fun zero => room (zero ▸ Nat.zero_le _)
    have works := session.turn_works clock deadline req named poll
    dsimp only
    split
    · exact Or.inl ⟨‹_›, works.advances⟩
    · rename_i running
      obtain ⟨early, asked⟩ := works.resolve_left fun ended => running ended.1
      exact Or.inr ⟨early, asked.trans (pause_advances clock deadline _)⟩

/-- The poll has nothing, and nothing has ended it. -/
def Idle (poll : Polling Message) : Prop := poll.messages = [] ∧ poll.answer = none

theorem round_idle (unnamed : req.queues = []) (room : req.max ≠ 0) (poll : Polling Message)
    (idle : Idle poll) : Idle (session.round clock req deadline poll) := by
  obtain ⟨empty, running⟩ := idle
  have fits : ¬ req.max ≤ poll.messages.length := by
    rw [empty, length_nil, Nat.le_zero]
    exact room
  rw [round, if_neg fits, unnamed, turn]
  dsimp only
  rw [running, if_neg nofun, pause, empty, if_neg (not_not_intro rfl)]
  split
  · exact ⟨empty, running⟩
  · exact ⟨empty, running⟩

end Rabbit.Session

theorem Kafka.Consumer.round_works (consumer : Kafka.Consumer Message) (clock : Clock)
    (req : Kafka.PollReq) (deadline : Nat) (poll : Polling Message) :
    Works clock deadline poll (consumer.round clock req deadline poll) := by
  rw [round]
  split
  · exact Or.inl ⟨rfl, advances_still rfl⟩
  · split
    · exact Or.inl ⟨rfl, advances_same rfl (Nat.le_refl _) (Nat.le_succ _)⟩
    · rename_i remains
      have early := Nat.lt_of_sub_ne_zero remains
      split
      · exact Or.inr ⟨early, advances_still rfl⟩
      · exact Or.inl ⟨rfl, (advances_fetch early).trans (advances_still rfl)⟩
      · exact Or.inl ⟨rfl, (advances_fetch early).trans (advances_still rfl)⟩

/-- Kafka's poll always ends. RabbitMQ's ends exactly if the channel could not be opened, some
queue is named, or no message is asked for. -/
theorem polls_end (clock : Clock) (timeoutMs : UInt64) (consumer : Kafka.Consumer Message)
    (topics : Kafka.PollReq) (session : Rabbit.Session Message) (req : Rabbit.PollReq) :
    Ends clock timeoutMs (consumer.poll clock topics timeoutMs) ∧
      (Ends clock timeoutMs (session.poll clock req timeoutMs) ↔
        session.channel.toBool = false ∨ req.queues ≠ [] ∨ req.max = 0) := by
  unfold Kafka.Consumer.poll Rabbit.Session.poll
  constructor
  · cases consumer.session with
    | error error => exact failed_ends timeoutMs error
    | ok _ => exact run_ends timeoutMs (consumer.round_works clock topics)
  · cases session.channel with
    | error error => exact iff_of_true (failed_ends timeoutMs error) (Or.inl rfl)
    | ok _ =>
      refine ⟨fun ends => ?_, fun condition => ?_⟩
      · by_contra stuck
        obtain ⟨-, unnamed, room⟩ := (not_or.trans (and_congr_right' not_or)).mp stuck
        obtain ⟨count, released⟩ := ends.released
        obtain ⟨deadline, computed⟩ := deadline_of_some clock timeoutMs
        rw [run_opened timeoutMs computed] at released
        have first : Rabbit.Session.Idle (⟨1, [], [], 0, none⟩ : Polling Message) := ⟨rfl, rfl⟩
        have idle := rounds_keep
          (session.round_idle clock deadline (not_not.mp unnamed) room) first count
        exact Bool.false_ne_true ((congrArg Option.isSome idle.2).symm.trans released)
      · exact run_ends timeoutMs fun deadline =>
          session.round_works clock deadline (condition.resolve_left nofun)

/-- A clock that counts on from zero. -/
def counting : Clock := ⟨id, id, fun bound => ⟨bound, Nat.le_refl _⟩, by decide⟩

/-- No queue is named, and the time is up: the poll neither fetches nor sleeps nor ends. -/
theorem unnamed_poll_idles :
    ¬ Ends counting 0
      (Rabbit.Session.poll ⟨.ok (), fun _ _ => (Reply.none : Reply Nat)⟩ counting ⟨[], 1⟩ 0) :=
  fun ends => absurd (ends.busy 0) (by decide)

end OnlyJs.Plugin.Mq
