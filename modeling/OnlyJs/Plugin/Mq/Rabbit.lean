import OnlyJs.Lib.StepSystem

/-!
# The RabbitMQ client

A poll asks its queues in turn, one message at a time, over the one channel that the instance
reuses. It keeps the acker of every delivery under its tag; an acknowledgement takes the acker
out and uses it. The broker numbers the deliveries of each channel from 1, and takes back what
was not acknowledged when the channel closes. A caller may go away while its poll runs, and the
poll runs on.
-/

namespace OnlyJs.Plugin.Mq.Rabbit

open Lib.StepSystem

set_option autoImplicit false

structure Delivery where
  channel : Nat
  tag : Nat
  queue : String
  message : Nat
deriving DecidableEq

def Delivery.source (delivery : Delivery) : String × Nat := (delivery.queue, delivery.message)

structure PollReq where
  queues : List String
  max : Nat
deriving DecidableEq

/-- `rest` are the queues that the current round has not asked; `alive` says that the caller is
still there. -/
structure Poll where
  req : PollReq
  channel : Nat
  rest : List String
  fetched : List Delivery
  alive : Bool
deriving DecidableEq

structure Result where
  queues : List String
  messages : List Delivery
deriving DecidableEq

/-- A message was passed to `ack` or `nack`, and the broker has settled a delivery. -/
structure Settled where
  passed : Delivery
  channel : Nat
  tag : Nat
deriving DecidableEq

structure Client where
  ready : List (String × Nat)
  unacked : List Delivery
  channel : Option Nat
  channels : Nat
  nextTag : Nat
  /-- For a tag, the channel of its acker. -/
  ackers : List (Nat × Nat)
  poll : Option Poll
  taken : List Delivery
  results : List Result
  settled : List Settled
  failed : List Delivery
deriving DecidableEq

def Client.initial : Client where
  ready := []
  unacked := []
  channel := none
  channels := 0
  nextTag := 1
  ackers := []
  poll := none
  taken := []
  results := []
  settled := []
  failed := []

inductive Label where
  /-- The broker gets a message. -/
  | arrive (queue : String) (message : Nat)
  | poll (req : PollReq) (created : Bool)
  | round
  | get
  | getFails (closes : Bool)
  /-- The poll has its fill, or its deadline has passed. -/
  | finish
  | leave
  /-- `send` uses the same channel. -/
  | send (created : Bool)
  | lose
  /-- `ack`, or `nack` with its `requeue`; `fails` says that the broker does not get it. -/
  | settle (delivery : Delivery) (requeue : Option Bool) (fails : Bool)
deriving DecidableEq

def Client.received (client : Client) : List Delivery := client.results.flatMap Result.messages

def Client.reuseChannel (client : Client) (created : Bool) : Option (Client × Nat) :=
  match client.channel with
  | some channel => some (client, channel)
  | none =>
    if created then
      let channel := client.channels
      some ({ client with channel := some channel, channels := channel + 1, nextTag := 1 },
        channel)
    else none

def Client.lose (client : Client) : Client :=
  { client with
    channel := none
    ready := client.unacked.map Delivery.source ++ client.ready
    unacked := [] }

def Client.startPoll (client : Client) (req : PollReq) (created : Bool) : Client :=
  match client.reuseChannel created with
  | some (opened, channel) => { opened with poll := some ⟨req, channel, req.queues, [], true⟩ }
  | none => client

/-- `basic_get` brings a message: its acker is kept, and it is among what the poll returns. -/
def Client.deliver (client : Client) (poll : Poll) (rest : List String) (source : String × Nat) :
    Client :=
  let delivery : Delivery := ⟨poll.channel, client.nextTag, source.1, source.2⟩
  { client with
    ready := client.ready.erase source
    unacked := client.unacked ++ [delivery]
    nextTag := client.nextTag + 1
    ackers := (delivery.tag, delivery.channel) ::
      client.ackers.filter fun acker => acker.1 != delivery.tag
    poll := some { poll with rest, fetched := poll.fetched ++ [delivery] }
    taken := client.taken ++ [delivery] }

def Client.get (client : Client) (poll : Poll) (queue : String) (rest : List String) : Client :=
  match client.ready.find? fun source => source.1 = queue with
  | some source => client.deliver poll rest source
  | none => { client with poll := some { poll with rest } }

def Client.fail (client : Client) (poll : Poll) (closes : Bool) : Client :=
  let failed := { client with poll := none }
  if closes ∧ client.channel = some poll.channel then failed.lose else failed

def Client.finish (client : Client) (poll : Poll) : Client :=
  let results :=
    if poll.alive then client.results ++ [⟨poll.req.queues, poll.fetched⟩] else client.results
  { client with poll := none, results }

/-- `take_acker`, and the acker's own `ack` or `nack`. -/
def Client.settle (client : Client) (delivery : Delivery) (requeue : Option Bool)
    (fails : Bool) : Client :=
  match client.ackers.lookup delivery.tag with
  | none => client
  | some channel =>
    let took := { client with
      ackers := client.ackers.filter fun acker => acker.1 != delivery.tag }
    if client.channel = some channel ∧ fails = false then
      let back := client.unacked.filter fun other => other.tag == delivery.tag
      { took with
        settled := client.settled ++ [⟨delivery, channel, delivery.tag⟩]
        unacked := client.unacked.filter fun other => other.tag != delivery.tag
        ready := if requeue = some true then client.ready ++ back.map Delivery.source
          else client.ready }
    else { took with failed := client.failed ++ [delivery] }

def Client.step (client : Client) : Label → Option Client
  | .arrive queue message => some { client with ready := client.ready ++ [(queue, message)] }
  | .poll req created =>
    if client.poll.isNone then some (client.startPoll req created) else none
  | .round => client.poll.bind fun poll =>
    if poll.rest = [] ∧ poll.fetched.length < poll.req.max then
      some { client with poll := some { poll with rest := poll.req.queues } }
    else none
  | .get => client.poll.bind fun poll =>
    match poll.rest with
    | queue :: rest =>
      if poll.fetched.length < poll.req.max ∧ client.channel = some poll.channel then
        some (client.get poll queue rest)
      else none
    | [] => none
  | .getFails closes => client.poll.bind fun poll =>
    if poll.rest ≠ [] ∧ poll.fetched.length < poll.req.max then
      some (client.fail poll closes)
    else none
  | .finish => client.poll.bind fun poll =>
    if poll.rest ≠ [] ∨ poll.req.max ≤ poll.fetched.length then some (client.finish poll)
    else none
  | .leave => client.poll.bind fun poll =>
    some { client with poll := some { poll with alive := false } }
  | .send created =>
    match client.reuseChannel created with
    | some (opened, _) => some opened
    | none => some client
  | .lose => some client.lose
  | .settle delivery requeue fails =>
    if delivery ∈ client.received then some (client.settle delivery requeue fails) else none

def system : System Client Label where
  init := .initial
  step := Client.step

/-- A poll fails, or ends without its caller, with nothing fetched or with its channel closed.
The acker under a message's tag is the message's own, and does not fail on a live channel. -/
def Careful (client : Client) : Label → Prop
  | .getFails closes => ∀ poll, client.poll = some poll →
      poll.fetched = [] ∨ closes = true ∨ client.channel ≠ some poll.channel
  | .finish => ∀ poll, client.poll = some poll →
      poll.alive = true ∨ poll.fetched = [] ∨ client.channel ≠ some poll.channel
  | .settle delivery _ fails => ∀ channel, client.ackers.lookup delivery.tag = some channel →
      channel = delivery.channel ∧ (client.channel = some channel → fails = false)
  | _ => True

structure Sound (client : Client) : Prop where
  /-- Between polls, what was taken from the broker was received, or is there for the next. -/
  kept : client.poll = none → ∀ delivery ∈ client.taken,
    (∃ other ∈ client.received, other.source = delivery.source) ∨
      delivery.source ∈ client.ready
  asked : ∀ result ∈ client.results, ∀ delivery ∈ result.messages,
    delivery.queue ∈ result.queues
  /-- What the broker has settled is the delivery that the message came from. -/
  exact : ∀ settled ∈ client.settled,
    settled.channel = settled.passed.channel ∧ settled.tag = settled.passed.tag
  /-- A message whose acknowledgement failed can be acknowledged while its delivery is open. -/
  repeatable : ∀ delivery ∈ client.failed, delivery ∈ client.unacked →
    client.ackers.lookup delivery.tag = some delivery.channel

end OnlyJs.Plugin.Mq.Rabbit
