import OnlyJs.Plugin.Mq.Kafka
import OnlyJs.Plugin.Mq.Rabbit

/-!
# Consumption of message queues

A message that was taken from the broker is received, or it is there for a later poll, if no
poll fails or loses its caller behind its first message. A RabbitMQ acknowledgement settles the
delivery of its message, if no other channel has put its acker under the tag; the acker is gone
with the first attempt.
-/

namespace OnlyJs.Plugin.Mq

open Lib.StepSystem List Option

set_option autoImplicit false

namespace Rabbit

section Invariant

/-- Deliveries are numbered within their channel, and what is not acknowledged is the live
channel's. -/
structure Numbered (channel : Option Nat) (channels nextTag : Nat)
    (unacked taken failed : List Delivery) : Prop where
  live : ∀ number, channel = some number → number < channels
  taken : ∀ delivery ∈ taken, delivery.channel < channels ∧
    (channel = some delivery.channel → delivery.tag < nextTag)
  unacked : ∀ delivery ∈ unacked, channel = some delivery.channel
  failed : ∀ delivery ∈ failed, delivery.channel < channels ∧ channel ≠ some delivery.channel

/-- What a running poll has fetched is not acknowledged, or it is back in its queue. -/
structure Running (client : Client) (poll : Poll) : Prop where
  rest : ∀ queue ∈ poll.rest, queue ∈ poll.req.queues
  asked : ∀ delivery ∈ poll.fetched, delivery.queue ∈ poll.req.queues
  taken : ∀ delivery ∈ poll.fetched, delivery ∈ client.taken ∧ delivery.channel = poll.channel
  there : ∀ delivery ∈ poll.fetched,
    (client.channel = some poll.channel → delivery ∈ client.unacked) ∧
      (client.channel ≠ some poll.channel → delivery.source ∈ client.ready)
  apart : ∀ delivery ∈ poll.fetched, ∀ other ∈ client.received,
    other.channel = delivery.channel → other.tag ≠ delivery.tag

structure Kept (client : Client) : Prop where
  numbered : Numbered client.channel client.channels client.nextTag client.unacked client.taken
    client.failed
  received : ∀ delivery ∈ client.received, delivery ∈ client.taken
  kept : ∀ delivery ∈ client.taken,
    (∃ other ∈ client.received, other.source = delivery.source) ∨
      delivery.source ∈ client.ready ∨
      ∃ poll, client.poll = some poll ∧ ∃ other ∈ poll.fetched, other.source = delivery.source
  running : ∀ poll, client.poll = some poll → Running client poll
  asked : ∀ result ∈ client.results, ∀ delivery ∈ result.messages,
    delivery.queue ∈ result.queues
  exact : ∀ settled ∈ client.settled,
    settled.channel = settled.passed.channel ∧ settled.tag = settled.passed.tag

variable {client next : Client}

theorem kept_initial : Kept Client.initial :=
  ⟨⟨nofun, nofun, nofun, nofun⟩, nofun, nofun, nofun, nofun, nofun⟩

theorem Kept.sound (kept : Kept client) : Sound client where
  kept := by
    intro idle delivery taken
    rcases kept.kept delivery taken with received | ready | ⟨poll, running, _⟩
    · exact Or.inl received
    · exact Or.inr ready
    · rw [idle] at running
      cases running
  asked := kept.asked
  exact := kept.exact
  repeatable := by
    intro delivery failed unacked
    exact absurd (kept.numbered.unacked delivery unacked)
      (kept.numbered.failed delivery failed).2

theorem Kept.arrive (kept : Kept client) (source : String × Nat) :
    Kept { client with ready := client.ready ++ [source] } where
  numbered := kept.numbered
  received := kept.received
  kept := by
    intro delivery taken
    rcases kept.kept delivery taken with received | ready | running
    · exact Or.inl received
    · exact Or.inr (Or.inl (mem_append_left _ ready))
    · exact Or.inr (Or.inr running)
  running := by
    intro poll running
    have before := kept.running poll running
    refine ⟨before.rest, before.asked, before.taken, ?_, before.apart⟩
    intro delivery fetched
    obtain ⟨unacked, ready⟩ := before.there delivery fetched
    exact ⟨unacked, fun apart => mem_append_left _ (ready apart)⟩
  asked := kept.asked
  exact := kept.exact

variable {created : Bool}

variable {channel : Nat}

theorem reuseChannel_cases (reused : client.reuseChannel created = some (next, channel)) :
    (client.channel = some channel ∧ next = client) ∨
      (client.channel = none ∧ channel = client.channels ∧
        next = { client with
          channel := some client.channels, channels := client.channels + 1, nextTag := 1 }) := by
  unfold Client.reuseChannel at reused
  split at reused
  · rename_i live
    cases reused
    exact Or.inl ⟨live, rfl⟩
  · rename_i none
    split at reused
    · cases reused
      exact Or.inr ⟨none, rfl, rfl⟩
    · cases reused

theorem Kept.create (kept : Kept client) (none : client.channel = none) :
    Kept { client with
      channel := some client.channels, channels := client.channels + 1, nextTag := 1 } where
  numbered := by
    refine ⟨?_, ?_, ?_, ?_⟩
    · intro number same
      cases same
      exact Nat.lt_succ_self _
    · intro delivery taken
      have before := (kept.numbered.taken delivery taken).1
      refine ⟨Nat.lt_succ_of_lt before, fun same => ?_⟩
      exact absurd (Option.some.inj same).symm (Nat.ne_of_lt before)
    · intro delivery unacked
      have live := kept.numbered.unacked delivery unacked
      rw [none] at live
      cases live
    · intro delivery failed
      have before := (kept.numbered.failed delivery failed).1
      refine ⟨Nat.lt_succ_of_lt before, fun same => ?_⟩
      exact absurd (Option.some.inj same).symm (Nat.ne_of_lt before)
  received := kept.received
  kept := kept.kept
  running := by
    intro poll running
    have before := kept.running poll running
    refine ⟨before.rest, before.asked, before.taken, ?_, before.apart⟩
    intro delivery fetched
    obtain ⟨taken, own⟩ := before.taken delivery fetched
    have number := (kept.numbered.taken delivery taken).1
    refine ⟨?_, ?_⟩
    · intro same
      rw [own] at number
      exact absurd (Option.some.inj same).symm (Nat.ne_of_lt number)
    · intro _
      apply (before.there delivery fetched).2
      rw [none]
      nofun
  asked := kept.asked
  exact := kept.exact

theorem Kept.reuse (kept : Kept client)
    (reused : client.reuseChannel created = some (next, channel)) : Kept next := by
  rcases reuseChannel_cases reused with ⟨_, rfl⟩ | ⟨none, _, rfl⟩
  · exact kept
  · exact kept.create none

theorem reuseChannel_poll (reused : client.reuseChannel created = some (next, channel)) :
    next.poll = client.poll := by
  rcases reuseChannel_cases reused with ⟨_, rfl⟩ | ⟨_, _, rfl⟩ <;> rfl

theorem Kept.startPoll (kept : Kept client) (idle : client.poll = none) (req : PollReq)
    (created : Bool) : Kept (client.startPoll req created) := by
  unfold Client.startPoll
  cases reused : client.reuseChannel created with
  | none => exact kept
  | some pair =>
    have reopened := kept.reuse reused
    refine ⟨reopened.numbered, reopened.received, ?_, ?_, reopened.asked, reopened.exact⟩
    · intro delivery taken
      rcases reopened.kept delivery taken with received | ready | ⟨poll, running, _⟩
      · exact Or.inl received
      · exact Or.inr (Or.inl ready)
      · rw [reuseChannel_poll reused, idle] at running
        cases running
    · intro poll running
      cases running
      exact ⟨fun _ => id, nofun, nofun, nofun, nofun⟩

variable {poll : Poll} {rest : List String}

theorem Kept.turn (kept : Kept client) (running : client.poll = some poll)
    (queues : ∀ queue ∈ rest, queue ∈ poll.req.queues) (alive : Bool) :
    Kept { client with poll := some { poll with rest, alive } } where
  numbered := kept.numbered
  received := kept.received
  kept := by
    intro delivery taken
    rcases kept.kept delivery taken with received | ready | ⟨present, same, fetched⟩
    · exact Or.inl received
    · exact Or.inr (Or.inl ready)
    · rw [running] at same
      cases same
      exact Or.inr (Or.inr ⟨_, rfl, fetched⟩)
  running := by
    intro present same
    cases same
    have before := kept.running poll running
    exact ⟨queues, before.asked, before.taken, before.there, before.apart⟩
  asked := kept.asked
  exact := kept.exact

theorem Kept.lose (kept : Kept client) : Kept client.lose where
  numbered := by
    refine ⟨nofun, ?_, nofun, ?_⟩
    · intro delivery taken
      exact ⟨(kept.numbered.taken delivery taken).1, nofun⟩
    · intro delivery failed
      exact ⟨(kept.numbered.failed delivery failed).1, nofun⟩
  received := kept.received
  kept := by
    intro delivery taken
    rcases kept.kept delivery taken with received | ready | running
    · exact Or.inl received
    · exact Or.inr (Or.inl (mem_append_right _ ready))
    · exact Or.inr (Or.inr running)
  running := by
    intro poll running
    have before := kept.running poll running
    refine ⟨before.rest, before.asked, before.taken, ?_, before.apart⟩
    intro delivery fetched
    obtain ⟨unacked, ready⟩ := before.there delivery fetched
    refine ⟨nofun, fun _ => ?_⟩
    by_cases live : client.channel = some poll.channel
    · exact mem_append_left _ (mem_map_of_mem (unacked live))
    · exact mem_append_right _ (ready live)
  asked := kept.asked
  exact := kept.exact

section

variable (kept : Kept client) (running : client.poll = some poll)
include kept running

theorem Kept.deliver (live : client.channel = some poll.channel)
    (queues : ∀ queue ∈ rest, queue ∈ poll.req.queues) {source : String × Nat}
    (asked : source.1 ∈ poll.req.queues) :
    Kept (client.deliver poll rest source) where
  numbered := by
    have own := kept.numbered.live poll.channel live
    refine ⟨kept.numbered.live, ?_, ?_, kept.numbered.failed⟩
    · intro delivery taken
      rcases mem_append.mp taken with before | new
      · obtain ⟨bound, earlier⟩ := kept.numbered.taken delivery before
        exact ⟨bound, fun same => Nat.lt_succ_of_lt (earlier same)⟩
      · rw [mem_singleton.mp new]
        exact ⟨own, fun _ => Nat.lt_succ_self _⟩
    · intro delivery unacked
      rcases mem_append.mp unacked with before | new
      · exact kept.numbered.unacked delivery before
      · rw [mem_singleton.mp new]
        exact live
  received := fun delivery received => mem_append_left _ (kept.received delivery received)
  kept := by
    intro delivery taken
    rcases mem_append.mp taken with before | new
    · rcases kept.kept delivery before with received | ready | ⟨present, same, other, fetched, own⟩
      · exact Or.inl received
      · right
        by_cases equal : delivery.source = source
        · refine Or.inr ⟨_, rfl, _, mem_append_right _ (mem_singleton_self _), ?_⟩
          exact equal.symm
        · exact Or.inl ((mem_erase_of_ne equal).mpr ready)
      · rw [running] at same
        cases same
        exact Or.inr (Or.inr ⟨_, rfl, other, mem_append_left _ fetched, own⟩)
    · exact Or.inr (Or.inr ⟨_, rfl, _, mem_append_right _ new, rfl⟩)
  running := by
    intro present same
    cases same
    have before := kept.running poll running
    refine ⟨queues, ?_, ?_, ?_, ?_⟩
    · intro delivery fetched
      rcases mem_append.mp fetched with earlier | new
      · exact before.asked delivery earlier
      · rw [mem_singleton.mp new]
        exact asked
    · intro delivery fetched
      rcases mem_append.mp fetched with earlier | new
      · obtain ⟨taken, own⟩ := before.taken delivery earlier
        exact ⟨mem_append_left _ taken, own⟩
      · rw [mem_singleton.mp new]
        exact ⟨mem_append_right _ (mem_singleton_self _), rfl⟩
    · intro delivery fetched
      refine ⟨fun _ => ?_, fun apart => absurd live apart⟩
      rcases mem_append.mp fetched with earlier | new
      · exact mem_append_left _ ((before.there delivery earlier).1 live)
      · exact mem_append_right _ new
    · intro delivery fetched other received channel
      rcases mem_append.mp fetched with earlier | new
      · exact before.apart delivery earlier other received channel
      · rw [mem_singleton.mp new] at channel ⊢
        have numbered := kept.numbered.taken other (kept.received other received)
        rw [channel] at numbered
        exact Nat.ne_of_lt (numbered.2 live)
  asked := kept.asked
  exact := kept.exact

theorem Kept.get (live : client.channel = some poll.channel) {queue : String}
    (queues : poll.rest = queue :: rest) : Kept (client.get poll queue rest) := by
  have among := (kept.running poll running).rest
  rw [queues] at among
  have later : ∀ other ∈ rest, other ∈ poll.req.queues := fun other member =>
    among other (mem_cons_of_mem queue member)
  unfold Client.get
  split
  · rename_i source found
    have own : source.1 = queue := by simpa using find?_some found
    apply kept.deliver running live later
    rw [own]
    exact among queue mem_cons_self
  · exact kept.turn running later poll.alive

theorem Kept.abandon (back : ∀ delivery ∈ poll.fetched, delivery.source ∈ client.ready) :
    Kept { client with poll := none } where
  numbered := kept.numbered
  received := kept.received
  kept := by
    intro delivery taken
    rcases kept.kept delivery taken with received | ready | ⟨present, same, other, fetched, own⟩
    · exact Or.inl received
    · exact Or.inr (Or.inl ready)
    · rw [running] at same
      cases same
      rw [← own]
      exact Or.inr (Or.inl (back other fetched))
  running := nofun
  asked := kept.asked
  exact := kept.exact

theorem Kept.fail {closes : Bool}
    (careful : poll.fetched = [] ∨ closes = true ∨ client.channel ≠ some poll.channel) :
    Kept (client.fail poll closes) := by
  unfold Client.fail
  split
  · have lost : client.lose.poll = some poll := running
    have back : ∀ delivery ∈ poll.fetched, delivery.source ∈ client.lose.ready := by
      intro delivery fetched
      exact ((kept.lose.running poll lost).there delivery fetched).2 nofun
    exact kept.lose.abandon lost back
  · rename_i stays
    apply kept.abandon running
    intro delivery fetched
    rcases careful with none | closed | apart
    · rw [none] at fetched
      cases fetched
    · exact ((kept.running poll running).there delivery fetched).2 fun live => stays ⟨closed, live⟩
    · exact ((kept.running poll running).there delivery fetched).2 apart

theorem Kept.answer :
    Kept { client with
      poll := none, results := client.results ++ [⟨poll.req.queues, poll.fetched⟩] } := by
  have before := kept.running poll running
  have now : ∀ delivery, delivery ∈
      (client.results ++ [(⟨poll.req.queues, poll.fetched⟩ : Result)]).flatMap Result.messages ↔
        delivery ∈ client.received ∨ delivery ∈ poll.fetched := by
    intro delivery
    rw [flatMap_append, mem_append, flatMap_cons, flatMap_nil,
      append_nil, Client.received]
  refine ⟨kept.numbered, ?_, ?_, nofun, ?_, kept.exact⟩
  · intro delivery received
    rcases (now delivery).mp received with earlier | fetched
    · exact kept.received delivery earlier
    · exact (before.taken delivery fetched).1
  · intro delivery taken
    rcases kept.kept delivery taken with ⟨other, received, own⟩ | ready | ⟨present, same, other,
      fetched, own⟩
    · exact Or.inl ⟨other, (now other).mpr (Or.inl received), own⟩
    · exact Or.inr (Or.inl ready)
    · rw [running] at same
      cases same
      exact Or.inl ⟨other, (now other).mpr (Or.inr fetched), own⟩
  · intro result member
    rcases mem_append.mp member with earlier | new
    · exact kept.asked result earlier
    · rw [mem_singleton.mp new]
      exact before.asked

theorem Kept.finish
    (careful : poll.alive = true ∨ poll.fetched = [] ∨ client.channel ≠ some poll.channel) :
    Kept (client.finish poll) := by
  unfold Client.finish
  split
  · exact kept.answer running
  · rename_i gone
    apply kept.abandon running
    intro delivery fetched
    rcases careful with alive | none | apart
    · exact absurd alive gone
    · rw [none] at fetched
      cases fetched
    · exact ((kept.running poll running).there delivery fetched).2 apart

end

theorem Kept.acknowledge (kept : Kept client) {delivery : Delivery}
    (received : delivery ∈ client.received) (live : client.channel = some delivery.channel)
    (ackers : List (Nat × Nat)) (back : List (String × Nat)) :
    Kept { client with
      ackers
      settled := client.settled ++ [⟨delivery, delivery.channel, delivery.tag⟩]
      unacked := client.unacked.filter fun other => other.tag != delivery.tag
      ready := client.ready ++ back } where
  numbered := by
    refine ⟨kept.numbered.live, kept.numbered.taken, ?_, kept.numbered.failed⟩
    intro other member
    exact kept.numbered.unacked other (mem_filter.mp member).1
  received := kept.received
  kept := by
    intro other taken
    rcases kept.kept other taken with received | ready | running
    · exact Or.inl received
    · exact Or.inr (Or.inl (mem_append_left _ ready))
    · exact Or.inr (Or.inr running)
  running := by
    intro poll running
    have before := kept.running poll running
    refine ⟨before.rest, before.asked, before.taken, ?_, before.apart⟩
    intro other fetched
    obtain ⟨unacked, ready⟩ := before.there other fetched
    refine ⟨fun open_ => ?_, fun apart => mem_append_left _ (ready apart)⟩
    have own : delivery.channel = other.channel := by
      rw [(before.taken other fetched).2]
      exact Option.some.inj (live.symm.trans open_)
    have apart := before.apart other fetched delivery received own
    exact mem_filter.mpr ⟨unacked open_, bne_iff_ne.mpr apart.symm⟩
  asked := kept.asked
  exact := by
    intro settled member
    rcases mem_append.mp member with earlier | new
    · exact kept.exact settled earlier
    · rw [mem_singleton.mp new]
      exact ⟨rfl, rfl⟩

theorem Kept.settle (kept : Kept client) {delivery : Delivery} {requeue : Option Bool}
    {fails : Bool} (received : delivery ∈ client.received)
    (careful : Careful client (.settle delivery requeue fails)) :
    Kept (client.settle delivery requeue fails) := by
  unfold Client.settle
  split
  · exact kept
  · rename_i channel acker
    obtain ⟨rfl, unfailing⟩ := careful channel acker
    split
    · rename_i enabled
      split
      · exact kept.acknowledge received enabled.1 _ _
      · have settled := kept.acknowledge received enabled.1
          (client.ackers.filter fun acker => acker.1 != delivery.tag) []
        rw [append_nil] at settled
        exact settled
    · rename_i disabled
      refine ⟨?_, kept.received, kept.kept, fun poll running => ?_, kept.asked, kept.exact⟩
      swap
      · have before := kept.running poll running
        exact ⟨before.rest, before.asked, before.taken, before.there, before.apart⟩
      refine ⟨kept.numbered.live, kept.numbered.taken, kept.numbered.unacked, ?_⟩
      intro other member
      rcases mem_append.mp member with earlier | new
      · exact kept.numbered.failed other earlier
      · rw [mem_singleton.mp new]
        refine ⟨(kept.numbered.taken delivery (kept.received delivery received)).1, ?_⟩
        exact fun live => disabled ⟨live, unfailing live⟩

theorem kept_step : Preserved system Careful Kept := by
  intro client label next kept careful fired
  change client.step label = some next at fired
  cases label with
  | arrive queue message =>
    cases Option.some.inj fired
    exact kept.arrive (queue, message)
  | poll req created =>
    obtain ⟨idle, same⟩ := ite_none_right_eq_some.mp fired
    cases Option.some.inj same
    exact kept.startPoll (isNone_iff_eq_none.mp idle) req created
  | round =>
    obtain ⟨poll, running, stepped⟩ := bind_eq_some_iff.mp fired
    obtain ⟨_, same⟩ := ite_none_right_eq_some.mp stepped
    cases Option.some.inj same
    exact kept.turn running (fun _ => id) poll.alive
  | get =>
    obtain ⟨poll, running, stepped⟩ := bind_eq_some_iff.mp fired
    split at stepped
    · rename_i queue rest queues
      obtain ⟨enabled, same⟩ := ite_none_right_eq_some.mp stepped
      cases Option.some.inj same
      exact kept.get running enabled.2 queues
    · cases stepped
  | getFails closes =>
    obtain ⟨poll, running, stepped⟩ := bind_eq_some_iff.mp fired
    obtain ⟨_, same⟩ := ite_none_right_eq_some.mp stepped
    cases Option.some.inj same
    exact kept.fail running (careful poll running)
  | finish =>
    obtain ⟨poll, running, stepped⟩ := bind_eq_some_iff.mp fired
    obtain ⟨_, same⟩ := ite_none_right_eq_some.mp stepped
    cases Option.some.inj same
    exact kept.finish running (careful poll running)
  | leave =>
    obtain ⟨poll, running, same⟩ := bind_eq_some_iff.mp fired
    cases Option.some.inj same
    exact kept.turn running (kept.running poll running).rest false
  | send created =>
    unfold Client.step at fired
    dsimp only at fired
    split at fired
    · rename_i opened channel reused
      cases Option.some.inj fired
      exact kept.reuse reused
    · cases Option.some.inj fired
      exact kept
  | lose =>
    cases Option.some.inj fired
    exact kept.lose
  | settle delivery requeue fails =>
    obtain ⟨received, same⟩ := ite_none_right_eq_some.mp fired
    cases Option.some.inj same
    exact kept.settle received careful

end Invariant

end Rabbit

section Runs

end Runs

end OnlyJs.Plugin.Mq
