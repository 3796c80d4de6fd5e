import OnlyJs.Lib.Association
import OnlyJs.Lib.StepSystem

/-!
# The Kafka client

The first poll creates the consumer and subscribes it to its topics; every poll takes records
from where the consumer stands. A commit moves the group's offset behind a record, and a
consumer that joins its group again stands at the committed offsets.
-/

namespace OnlyJs.Plugin.Mq.Kafka

open Lib.Association List Option Lib.StepSystem

set_option autoImplicit false

structure Record where
  topic : String
  partition : Int
  offset : Int
deriving DecidableEq

structure PollReq where
  topics : List String
  max : Nat
deriving DecidableEq

structure Poll where
  req : PollReq
  fetched : List Record
  alive : Bool
deriving DecidableEq

abbrev Offsets := List ((String × Int) × Int)

structure Session where
  topics : List String
  positions : Offsets
deriving DecidableEq

structure Result where
  topics : List String
  messages : List Record
deriving DecidableEq

structure Client where
  session : Option Session
  committed : Offsets
  poll : Option Poll
  taken : List Record
  results : List Result
deriving DecidableEq

def Client.initial : Client := ⟨none, [], none, [], []⟩

/-- The offset at which a partition is read; `earliest` where none is known. -/
def Offsets.at (offsets : Offsets) (topic : String) (partition : Int) : Int :=
  (offsets.lookup (topic, partition)).getD 0

inductive Label where
  | poll (req : PollReq) (created : Bool)
  | recv (record : Record)
  | recvFails
  /-- The poll has its fill, or its deadline has passed. -/
  | finish
  | leave
  | commit (topic : String) (partition offset : Option Int) (fails : Bool)
  /-- The consumer joins its group again. -/
  | rejoin
deriving DecidableEq

def Client.openSession (client : Client) (topics : List String) (created : Bool) :
    Option Session :=
  match client.session with
  | some session => some session
  | none => if created then some ⟨topics, client.committed⟩ else none

def Client.startPoll (client : Client) (req : PollReq) (created : Bool) : Client :=
  match client.openSession req.topics created with
  | some session => { client with session := some session, poll := some ⟨req, [], true⟩ }
  | none => client

def Client.recv (client : Client) (session : Session) (poll : Poll) (record : Record) : Client :=
  { client with
    session := some { session with
      positions := put session.positions (record.topic, record.partition) (record.offset + 1) }
    poll := some { poll with fetched := poll.fetched ++ [record] }
    taken := client.taken ++ [record] }

def Client.finish (client : Client) (poll : Poll) : Client :=
  let results :=
    if poll.alive then client.results ++ [⟨poll.req.topics, poll.fetched⟩] else client.results
  { client with poll := none, results }

def Client.commit (client : Client) (topic : String) (partition offset : Option Int) : Client :=
  { client with
    committed := put client.committed (topic, partition.getD 0) (offset.getD 0 + 1) }

def Client.step (client : Client) : Label → Option Client
  | .poll req created =>
    if client.poll.isNone then some (client.startPoll req created) else none
  | .recv record => client.poll.bind fun poll => client.session.bind fun session =>
    if poll.fetched.length < poll.req.max ∧ record.topic ∈ session.topics ∧
        session.positions.at record.topic record.partition ≤ record.offset then
      some (client.recv session poll record)
    else none
  | .recvFails => client.poll.bind fun poll =>
    if poll.fetched.length < poll.req.max then some { client with poll := none } else none
  | .finish => client.poll.bind fun poll => some (client.finish poll)
  | .leave => client.poll.bind fun poll =>
    some { client with poll := some { poll with alive := false } }
  | .commit topic partition offset fails =>
    if client.session.isSome ∧ fails = false then some (client.commit topic partition offset)
    else some client
  | .rejoin => client.session.bind fun session =>
    some { client with session := some { session with positions := client.committed } }

def system : System Client Label where
  init := .initial
  step := Client.step

/-- A poll fails, or ends without its caller, with nothing fetched, and asks for the topics that
the session is subscribed to. -/
def Careful (client : Client) : Label → Prop
  | .poll req _ => ∀ session, client.session = some session →
      ∀ topic ∈ session.topics, topic ∈ req.topics
  | .recvFails => ∀ poll, client.poll = some poll → poll.fetched = []
  | .finish => ∀ poll, client.poll = some poll → poll.alive = true ∨ poll.fetched = []
  | _ => True

def Client.received (client : Client) : List Record := client.results.flatMap Result.messages

structure Sound (client : Client) : Prop where
  /-- Between polls, a record that was taken was received, or the consumer stands before it. -/
  kept : client.poll = none → ∀ record ∈ client.taken, record ∈ client.received ∨
    ∃ session, client.session = some session ∧
      session.positions.at record.topic record.partition ≤ record.offset
  asked : ∀ result ∈ client.results, ∀ record ∈ result.messages, record.topic ∈ result.topics

section Invariant

structure Kept (client : Client) : Prop where
  kept : ∀ record ∈ client.taken, record ∈ client.received ∨
    ∃ poll, client.poll = some poll ∧ record ∈ poll.fetched
  asked : ∀ result ∈ client.results, ∀ record ∈ result.messages, record.topic ∈ result.topics
  asking : ∀ poll, client.poll = some poll →
    (∀ record ∈ poll.fetched, record.topic ∈ poll.req.topics) ∧
      ∀ session, client.session = some session → ∀ topic ∈ session.topics,
        topic ∈ poll.req.topics

variable {client next : Client}

theorem Kept.sound (kept : Kept client) : Sound client where
  kept := by
    intro idle record taken
    rcases kept.kept record taken with received | ⟨poll, running, _⟩
    · exact Or.inl received
    · rw [idle] at running
      cases running
  asked := kept.asked

theorem kept_initial : Kept Client.initial := ⟨nofun, nofun, nofun⟩

theorem Kept.startPoll (kept : Kept client) (idle : client.poll = none) (req : PollReq)
    (created : Bool) (careful : ∀ session, client.session = some session →
      ∀ topic ∈ session.topics, topic ∈ req.topics) :
    Kept (client.startPoll req created) := by
  have before : ∀ record ∈ client.taken, record ∈ client.received := by
    intro record taken
    rcases kept.kept record taken with received | ⟨poll, running, _⟩
    · exact received
    · rw [idle] at running
      cases running
  unfold Client.startPoll
  cases opened : client.openSession req.topics created with
  | none => exact kept
  | some session =>
    refine ⟨fun record taken => Or.inl (before record taken), kept.asked, ?_⟩
    intro poll running
    cases running
    refine ⟨nofun, ?_⟩
    intro present same topic subscribed
    cases same
    unfold Client.openSession at opened
    cases there : client.session with
    | some old =>
      rw [there] at opened
      cases opened
      exact careful session there topic subscribed
    | none =>
      rw [there] at opened
      dsimp only at opened
      split at opened
      · cases opened
        exact subscribed
      · cases opened

section

variable (kept : Kept client) {poll : Poll} (running : client.poll = some poll)
include kept running

theorem Kept.recv {session : Session} (there : client.session = some session) {record : Record}
    (subscribed : record.topic ∈ session.topics) : Kept (client.recv session poll record) where
  kept := by
    intro other taken
    rcases mem_append.mp taken with before | new
    · rcases kept.kept other before with received | ⟨present, same, fetched⟩
      · exact Or.inl received
      · rw [running] at same
        cases same
        exact Or.inr ⟨_, rfl, mem_append_left _ fetched⟩
    · exact Or.inr ⟨_, rfl, mem_append_right _ new⟩
  asked := kept.asked
  asking := by
    obtain ⟨fetched, topics⟩ := kept.asking poll running
    intro present same
    cases same
    refine ⟨?_, ?_⟩
    · intro other member
      rcases mem_append.mp member with before | new
      · exact fetched other before
      · rw [mem_singleton.mp new]
        exact topics session there _ subscribed
    · intro present same
      cases same
      exact topics session there

theorem Kept.finish (careful : poll.alive = true ∨ poll.fetched = []) :
    Kept (client.finish poll) where
  kept := by
    intro record taken
    left
    have received : ∀ other ∈ client.received, other ∈ (client.finish poll).received := by
      intro other member
      unfold Client.received Client.finish
      split
      · rw [flatMap_append]
        exact mem_append_left _ member
      · exact member
    rcases kept.kept record taken with before | ⟨present, same, fetched⟩
    · exact received record before
    · rw [running] at same
      cases same
      rcases careful with alive | none
      · unfold Client.received Client.finish
        rw [if_pos alive, flatMap_append]
        apply mem_append_right
        exact mem_flatMap.mpr ⟨_, mem_singleton_self _, fetched⟩
      · rw [none] at fetched
        cases fetched
  asked := by
    have fetched := (kept.asking poll running).1
    intro result member
    unfold Client.finish at member
    split at member
    · rcases mem_append.mp member with before | new
      · exact kept.asked result before
      · rw [mem_singleton.mp new]
        exact fetched
    · exact kept.asked result member
  asking := nofun

end

theorem kept_step : Preserved system Careful Kept := by
  intro client label next kept careful fired
  change client.step label = some next at fired
  cases label with
  | poll req created =>
    obtain ⟨idle, same⟩ := ite_none_right_eq_some.mp fired
    cases Option.some.inj same
    exact kept.startPoll (isNone_iff_eq_none.mp idle) req created careful
  | recv record =>
    obtain ⟨poll, running, stepped⟩ := bind_eq_some_iff.mp fired
    obtain ⟨session, there, stepped⟩ := bind_eq_some_iff.mp stepped
    obtain ⟨enabled, same⟩ := ite_none_right_eq_some.mp stepped
    cases Option.some.inj same
    exact kept.recv running there enabled.2.1
  | recvFails =>
    obtain ⟨poll, running, stepped⟩ := bind_eq_some_iff.mp fired
    obtain ⟨_, same⟩ := ite_none_right_eq_some.mp stepped
    cases Option.some.inj same
    refine ⟨?_, kept.asked, nofun⟩
    intro record taken
    rcases kept.kept record taken with received | ⟨present, same, fetched⟩
    · exact Or.inl received
    · rw [careful present same] at fetched
      cases fetched
  | finish =>
    obtain ⟨poll, running, same⟩ := bind_eq_some_iff.mp fired
    cases Option.some.inj same
    exact kept.finish running (careful poll running)
  | leave =>
    obtain ⟨poll, running, same⟩ := bind_eq_some_iff.mp fired
    cases Option.some.inj same
    refine ⟨?_, kept.asked, ?_⟩
    · intro record taken
      rcases kept.kept record taken with received | ⟨present, same, fetched⟩
      · exact Or.inl received
      · rw [running] at same
        cases same
        exact Or.inr ⟨_, rfl, fetched⟩
    · intro present same
      cases same
      exact kept.asking poll running
  | commit topic partition offset fails =>
    unfold Client.step at fired
    dsimp only at fired
    split at fired
    · cases Option.some.inj fired
      exact ⟨kept.kept, kept.asked, kept.asking⟩
    · cases Option.some.inj fired
      exact kept
  | rejoin =>
    obtain ⟨session, there, same⟩ := bind_eq_some_iff.mp fired
    cases Option.some.inj same
    refine ⟨kept.kept, kept.asked, fun poll running => ?_⟩
    obtain ⟨fetched, topics⟩ := kept.asking poll running
    refine ⟨fetched, ?_⟩
    intro present same
    cases same
    exact topics session there

end Invariant

end OnlyJs.Plugin.Mq.Kafka
