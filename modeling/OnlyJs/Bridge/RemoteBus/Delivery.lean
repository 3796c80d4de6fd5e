import Mathlib.Data.List.Nodup
import Mathlib.Data.List.Perm.Basic
import OnlyJs.Bridge.RemoteBus.Broker

/-!
# Delivery to subscribers

A subscriber is served as long as the list of its topic says whether a loop is there. It does
not after an emptied list of a loop that still runs, after a subscription that is dropped while
its channel is on the list, and after the end of a broker whose loop served channels that it
had not registered.
-/

namespace OnlyJs.Bridge.RemoteBus

open Lib.StepSystem List Option

section Property

def onTopic (topic : String) (loop : Nat × String) : Bool := loop.2 = topic

/-- Some broker that has not been dropped has answered `Ok` to this subscription. -/
def Bus.Subscribed (bus : Bus) (handle : Nat) (topic : String) (tx : Nat) : Prop :=
  ∃ registered, bus.subs handle = some registered ∧ (topic, tx) ∈ registered

/-- A loop of the topic runs on a handle that is not closed. -/
def Bus.Running (bus : Bus) (topic : String) : Prop :=
  ∃ host, (host, topic) ∈ bus.loops ∧ (bus.subs host).isSome

/-- An open channel that has been subscribed is sent every message of its topic once, by the
one loop that runs. A subscription that would start no loop finds one running; while another
one is under way it waits. -/
structure Live (bus : Bus) : Prop where
  served : ∀ handle topic tx, bus.Subscribed handle topic tx → bus.isOpen tx = true →
    bus.loops.countP (onTopic topic) = 1 ∧ bus.Running topic ∧
      (bus.receivers topic).count tx = 1
  started : ∀ topic, bus.targets topic ≠ [] → bus.pending = none → bus.Running topic

/-- A loop or a call of the topic is never there when a subscription finds an empty list. No
subscription is dropped that has its channel on the list and no loop. A broker is dropped
whose loops serve the channels alone that are registered with it, and none of these that is
open is registered for its topic with another. -/
def Careful (bus : Bus) : Label → Prop
  | .subscribe _ topic _ => bus.targets topic = [] →
      bus.loops.countP (onTopic topic) = 0 ∧ bus.orphans.countP (onTopic topic) = 0
  | .abandon => ∀ pending, bus.pending = some pending →
      pending.result = some true ∨ bus.targets pending.topic = []
  | .drop handle =>
    (∀ topic, (handle, topic) ∈ bus.loops → ∀ tx ∈ bus.targets topic,
      bus.Subscribed handle topic tx) ∧
    ∀ topic tx other, bus.Subscribed handle topic tx → bus.isOpen tx = true →
      other ≠ handle → ¬bus.Subscribed other topic tx
  | _ => True

end Property

section Invariant

def Bus.calls (bus : Bus) (topic : String) : Nat :=
  bus.orphans.countP (onTopic topic) +
    (bus.pending.toList.countP fun pending => pending.topic = topic ∧ pending.result = none)

/-- What is known of a subscription under way: its channel is the only one on the list. -/
structure Waiting (bus : Bus) (pending : Pending) : Prop where
  handle : (bus.subs pending.handle).isSome
  inserted : pending.inserted = true
  looped : pending.result = some true → (pending.handle, pending.topic) ∈ bus.loops
  alone : ∀ tx ∈ bus.targets pending.topic, tx = pending.tx
  present : bus.isOpen pending.tx = true → pending.tx ∈ bus.targets pending.topic
  first : ∀ handle tx, bus.Subscribed handle pending.topic tx → bus.isOpen tx = false

theorem Waiting.running {bus : Bus} {pending : Pending} (waiting : Waiting bus pending)
    (done : pending.result = some true) : bus.Running pending.topic :=
  ⟨pending.handle, waiting.looped done, waiting.handle⟩

structure Kept (bus : Bus) : Prop where
  nodup : ∀ topic, (bus.targets topic).Nodup
  hosted : ∀ loop ∈ bus.loops, (bus.subs loop.1).isSome
  single : ∀ topic, bus.loops.countP (onTopic topic) + bus.calls topic ≤ 1
  started : ∀ topic, bus.targets topic ≠ [] →
    bus.Running topic ∨ ∃ pending, bus.pending = some pending ∧ pending.topic = topic
  registered : ∀ handle topic tx, bus.Subscribed handle topic tx → bus.isOpen tx = true →
    tx ∈ bus.targets topic ∧ bus.Running topic
  abandoned : ∀ call ∈ bus.orphans, bus.targets call.2 = []
  waiting : ∀ pending, bus.pending = some pending → Waiting bus pending

variable {bus : Bus}

theorem Kept.live (kept : Kept bus) : Live bus where
  served := by
    intro handle topic tx subscribed open_
    obtain ⟨listed, running⟩ := kept.registered handle topic tx subscribed open_
    have one : bus.loops.countP (onTopic topic) = 1 := by
      obtain ⟨host, member, _⟩ := running
      have positive : 0 < bus.loops.countP (onTopic topic) :=
        countP_pos_iff.mpr ⟨_, member, decide_eq_true rfl⟩
      have single := kept.single topic
      omega
    refine ⟨one, running, ?_⟩
    unfold Bus.receivers
    rw [countP_eq_length_filter] at one
    obtain ⟨loop, only⟩ := length_eq_one_iff.mp one
    have filtered : (bus.loops.filter fun loop => loop.2 = topic) = [loop] := only
    rw [filtered, flatMap_singleton]
    apply count_eq_one_of_mem
    · exact (kept.nodup topic).filter _
    · exact mem_filter.mpr ⟨listed, open_⟩
  started := by
    intro topic listed idle
    rcases kept.started topic listed with running | ⟨pending, waits, _⟩
    · exact running
    · rw [idle] at waits
      cases waits

theorem kept_empty : Kept Bus.empty where
  nodup := fun _ => nodup_nil
  hosted := nofun
  single := fun _ => Nat.zero_le _
  started := fun _ listed => absurd rfl listed
  registered := by
    rintro handle topic tx ⟨_, absent, _⟩
    cases absent
  abandoned := nofun
  waiting := nofun

variable {next : Bus}

/-- A step that leaves loops, calls and the subscription under way, drops no broker, registers
nothing, and takes closed channels from lists at most. -/
theorem Kept.shrink (kept : Kept bus) (loops : next.loops = bus.loops)
    (pending : next.pending = bus.pending) (orphans : next.orphans = bus.orphans)
    (hosts : ∀ handle, (bus.subs handle).isSome → (next.subs handle).isSome)
    (fewer : ∀ handle topic tx, next.Subscribed handle topic tx → bus.Subscribed handle topic tx)
    (sublist : ∀ topic, (next.targets topic).Sublist (bus.targets topic))
    (opened : ∀ tx, next.isOpen tx = true → bus.isOpen tx = true)
    (stays : ∀ topic tx, next.isOpen tx = true → tx ∈ bus.targets topic → tx ∈ next.targets topic) :
    Kept next := by
  have running : ∀ topic, bus.Running topic → next.Running topic := by
    rintro topic ⟨host, member, there⟩
    exact ⟨host, loops ▸ member, hosts host there⟩
  refine ⟨fun topic => (kept.nodup topic).sublist (sublist topic), ?_, ?_, ?_, ?_, ?_, ?_⟩
  · intro loop member
    rw [loops] at member
    exact hosts loop.1 (kept.hosted loop member)
  · intro topic
    rw [loops, Bus.calls, pending, orphans]
    exact kept.single topic
  · intro topic listed
    rw [pending]
    apply (kept.started topic ?_).imp_left (running topic)
    intro empty
    exact listed (sublist_nil.mp (empty ▸ sublist topic))
  · intro handle topic tx held open_
    obtain ⟨listed, runs⟩ := kept.registered handle topic tx (fewer handle topic tx held)
      (opened tx open_)
    exact ⟨stays topic tx open_ listed, running topic runs⟩
  · intro call member
    rw [orphans] at member
    exact sublist_nil.mp (kept.abandoned call member ▸ sublist call.2)
  · intro waits same
    rw [pending] at same
    have waiting := kept.waiting waits same
    refine ⟨hosts _ waiting.handle, waiting.inserted, ?_, ?_, ?_, ?_⟩
    · rw [loops]
      exact waiting.looped
    · intro tx member
      exact waiting.alone tx ((sublist _).mem member)
    · intro open_
      exact stays _ _ open_ (waiting.present (opened _ open_))
    · intro handle tx held
      have closed := waiting.first handle tx (fewer _ _ _ held)
      by_contra open_
      rw [opened tx (Bool.of_not_eq_false open_)] at closed
      cases closed

theorem kept_close (kept : Kept bus) (tx : Nat) : Kept { bus with closed := tx :: bus.closed } := by
  apply kept.shrink
  · rfl
  · rfl
  · rfl
  · exact fun _ there => there
  · exact fun _ _ _ held => held
  · exact fun _ => List.Sublist.refl _
  · intro other open_
    unfold Bus.isOpen at open_ ⊢
    simp only [contains_cons, Bool.not_or, Bool.and_eq_true] at open_
    exact open_.2
  · exact fun _ _ _ listed => listed

theorem kept_fanout (kept : Kept bus) (topic : String) : Kept (bus.fanout topic) := by
  apply kept.shrink
  · rfl
  · rfl
  · rfl
  · exact fun _ there => there
  · exact fun _ _ _ held => held
  · intro other
    unfold Bus.fanout Bus.setTargets
    dsimp only
    split
    · rename_i same
      rw [same]
      exact filter_sublist
    · exact List.Sublist.refl _
  · exact fun _ open_ => open_
  · intro other tx open_ listed
    unfold Bus.fanout Bus.setTargets
    dsimp only
    split
    · rename_i same
      rw [same] at listed
      exact mem_filter.mpr ⟨listed, open_⟩
    · exact listed

theorem set_subs_self (bus : Bus) (handle : Nat) (subs : Option (List (String × Nat))) :
    (bus.setSubs handle subs).subs handle = subs := if_pos rfl

theorem set_subs_other (bus : Bus) {handle other : Nat} (subs : Option (List (String × Nat)))
    (apart : other ≠ handle) : (bus.setSubs handle subs).subs other = bus.subs other :=
  if_neg apart

theorem kept_connect (kept : Kept bus) (handle next : Nat) :
    Kept { bus.setSubs handle (some []) with nextHandle := next } := by
  apply kept.shrink
  · rfl
  · rfl
  · rfl
  · intro other there
    by_cases same : other = handle
    · rw [same]
      rw [set_subs_self]
      rfl
    · change ((bus.setSubs handle (some [])).subs other).isSome
      rw [set_subs_other bus _ same]
      exact there
  · rintro other topic tx ⟨registered, found, member⟩
    by_cases same : other = handle
    · rw [same, set_subs_self] at found
      cases found
      cases member
    · rw [set_subs_other bus _ same] at found
      exact ⟨registered, found, member⟩
  · exact fun _ => List.Sublist.refl _
  · exact fun _ open_ => open_
  · exact fun _ _ _ listed => listed

/-- What a subscription answered `Ok` adds: a channel that is on the list of a loop. -/
theorem Kept.register (kept : Kept bus) (handle : Nat) (topic : String) (tx : Nat)
    (idle : bus.pending = none)
    (listed : bus.isOpen tx = true → tx ∈ bus.targets topic) (running : bus.Running topic) :
    Kept (bus.register handle topic tx) := by
  have there : ∀ host, ((bus.register handle topic tx).subs host).isSome =
      (bus.subs host).isSome := by
    intro host
    unfold Bus.register
    by_cases same : host = handle
    · rw [same, set_subs_self, isSome_map]
    · rw [set_subs_other bus _ same]
  have runs : ∀ other, (bus.register handle topic tx).Running other ↔ bus.Running other := by
    intro other
    simp only [Bus.Running, there]
    rfl
  refine ⟨kept.nodup, ?_, kept.single, ?_, ?_, kept.abandoned, ?_⟩
  · intro loop member
    rw [there]
    exact kept.hosted loop member
  · intro other nonempty
    rw [runs]
    exact kept.started other nonempty
  · rintro host other channel ⟨registered, found, member⟩ open_
    rw [runs]
    by_cases old : bus.Subscribed host other channel
    · exact kept.registered host other channel old open_
    · unfold Bus.register at found
      by_cases same : host = handle
      · rw [same, set_subs_self] at found
        obtain ⟨before, stood, rfl⟩ := map_eq_some_iff.mp found
        rcases mem_append.mp member with earlier | last
        · exact absurd ⟨before, same ▸ stood, earlier⟩ old
        · cases mem_singleton.mp last
          exact ⟨listed open_, running⟩
      · rw [set_subs_other bus _ same] at found
        exact absurd ⟨registered, found, member⟩ old
  · intro pending waits
    have waits : bus.pending = some pending := waits
    rw [idle] at waits
    cases waits

theorem set_targets_self (bus : Bus) (topic : String) (list : List Nat) :
    (bus.setTargets topic list).targets topic = list := if_pos rfl

theorem set_targets_other (bus : Bus) {topic other : String} (list : List Nat)
    (apart : other ≠ topic) : (bus.setTargets topic list).targets other = bus.targets other :=
  if_neg apart

theorem Kept.enlist (kept : Kept bus) (topic : String) (list : List Nat)
    (idle : bus.pending = none) (served : bus.targets topic ≠ []) (nodup : list.Nodup)
    (more : ∀ tx ∈ bus.targets topic, tx ∈ list) : Kept (bus.setTargets topic list) := by
  have running : bus.Running topic := by
    rcases kept.started topic served with running | ⟨pending, waits, _⟩
    · exact running
    · rw [idle] at waits
      cases waits
  refine ⟨?_, kept.hosted, kept.single, ?_, ?_, ?_, ?_⟩
  · intro other
    by_cases same : other = topic
    · rw [same, set_targets_self]
      exact nodup
    · rw [set_targets_other bus list same]
      exact kept.nodup other
  · intro other listed
    by_cases same : other = topic
    · exact .inl (same ▸ running)
    · rw [set_targets_other bus list same] at listed
      exact kept.started other listed
  · intro handle other tx held open_
    obtain ⟨listed, runs⟩ := kept.registered handle other tx held open_
    refine ⟨?_, runs⟩
    by_cases same : other = topic
    · rw [same, set_targets_self]
      exact more tx (same ▸ listed)
    · rw [set_targets_other bus list same]
      exact listed
  · intro call member
    have empty := kept.abandoned call member
    by_cases same : call.2 = topic
    · exact absurd (same ▸ empty) served
    · rw [set_targets_other bus list same]
      exact empty
  · intro pending waits
    have waits : bus.pending = some pending := waits
    rw [idle] at waits
    cases waits

/-- The first channel of a list waits for a loop. -/
theorem Kept.await (kept : Kept bus) (handle : Nat) (topic : String) (tx : Nat)
    (idle : bus.pending = none) (there : (bus.subs handle).isSome)
    (empty : bus.targets topic = []) (unserved : bus.loops.countP (onTopic topic) = 0)
    (uncalled : bus.orphans.countP (onTopic topic) = 0) :
    Kept { bus.setTargets topic [tx] with pending := some ⟨handle, topic, tx, true, none⟩ } := by
  refine ⟨?_, kept.hosted, ?_, ?_, ?_, ?_, ?_⟩
  · intro other
    by_cases same : other = topic
    · rw [same]
      rw [set_targets_self]
      exact nodup_singleton tx
    · change ((bus.setTargets topic [tx]).targets other).Nodup
      rw [set_targets_other bus _ same]
      exact kept.nodup other
  · intro other
    have single := kept.single other
    unfold Bus.calls at single ⊢
    rw [idle] at single
    by_cases same : topic = other
    · rw [← same] at single ⊢
      simp [Bus.setTargets, unserved, uncalled]
    · simpa [Bus.setTargets, same] using single
  · intro other listed
    by_cases same : other = topic
    · exact .inr ⟨_, rfl, same.symm⟩
    · have listed : (bus.setTargets topic [tx]).targets other ≠ [] := listed
      rw [set_targets_other bus _ same] at listed
      rcases kept.started other listed with running | ⟨pending, waits, _⟩
      · exact .inl running
      · rw [idle] at waits
        cases waits
  · intro host other channel held open_
    obtain ⟨listed, running⟩ := kept.registered host other channel held open_
    refine ⟨?_, running⟩
    by_cases same : other = topic
    · rw [same, empty] at listed
      cases listed
    · rw [set_targets_other bus _ same]
      exact listed
  · intro call member
    rw [set_targets_other bus]
    · exact kept.abandoned call member
    · intro same
      have none := countP_eq_zero.mp uncalled call member
      exact none (decide_eq_true same)
  · intro pending waits
    cases waits
    refine ⟨there, rfl, nofun, ?_, ?_, ?_⟩
    · intro channel member
      rw [set_targets_self] at member
      exact mem_singleton.mp member
    · intro _
      rw [set_targets_self]
      exact mem_singleton_self tx
    · intro host channel held
      by_contra open_
      obtain ⟨listed, _⟩ := kept.registered host topic channel held (Bool.of_not_eq_false open_)
      rw [empty] at listed
      cases listed

theorem kept_subscribe (kept : Kept bus) (handle : Nat) (topic : String) (tx : Nat)
    (idle : bus.pending = none) (there : (bus.subs handle).isSome)
    (careful : Careful bus (.subscribe handle topic tx)) :
    Kept (bus.subscribe handle topic tx) := by
  unfold Bus.subscribe
  by_cases empty : bus.targets topic = []
  · obtain ⟨unserved, uncalled⟩ := careful empty
    rw [empty]
    exact kept.await handle topic tx idle there empty unserved uncalled
  · rw [if_neg (by rwa [List.isEmpty_iff])]
    have running : bus.Running topic := by
      rcases kept.started topic empty with running | ⟨pending, waits, _⟩
      · exact running
      · rw [idle] at waits
        cases waits
    by_cases old : tx ∈ bus.targets topic
    · have present : (!(bus.targets topic).contains tx) = false := by simpa using old
      rw [present]
      have entered := kept.enlist topic _ idle empty (kept.nodup topic) fun _ member => member
      apply entered.register handle topic tx idle _ running
      intro _
      rw [set_targets_self]
      exact old
    · have absent : (!(bus.targets topic).contains tx) = true := by simpa using old
      rw [absent]
      have nodup : (bus.targets topic ++ [tx]).Nodup := by
        apply List.Nodup.append (kept.nodup topic) (nodup_singleton tx)
        intro channel member last
        exact old (mem_singleton.mp last ▸ member)
      have entered := kept.enlist topic _ idle empty nodup fun _ member =>
        mem_append_left _ member
      apply entered.register handle topic tx idle _ running
      intro _
      rw [set_targets_self]
      exact mem_append_right _ (mem_singleton_self tx)

/-- A call of a topic has ended, and has become a loop or nothing. -/
structure Ended (bus next : Bus) (handle : Nat) (topic : String) (succeeded : Bool) : Prop where
  subs : next.subs = bus.subs
  targets : next.targets = bus.targets
  closed : next.closed = bus.closed
  loops : next.loops = bus.loops ++
    if succeeded && (bus.subs handle).isSome then [(handle, topic)] else []
  orphans : ∀ call ∈ next.orphans, call ∈ bus.orphans
  calls : ∀ other, next.calls other + (if other = topic then 1 else 0) = bus.calls other
  still : ∀ pending, bus.pending = some pending →
    ∃ result, next.pending = some { pending with result }
  waits : ∀ pending, next.pending = some pending →
    ∃ result, bus.pending = some { pending with result } ∧
      (pending.result = some true →
        result = some true ∨ (pending.handle, pending.topic) ∈ next.loops)

theorem Kept.ended (kept : Kept bus) {handle : Nat} {topic : String} {succeeded : Bool}
    (ended : Ended bus next handle topic succeeded) : Kept next := by
  have subscribed : ∀ host other tx, next.Subscribed host other tx ↔
      bus.Subscribed host other tx := by
    intro host other tx
    rw [Bus.Subscribed, Bus.Subscribed, ended.subs]
  have running : ∀ other, bus.Running other → next.Running other := by
    rintro other ⟨host, member, there⟩
    refine ⟨host, ?_, ended.subs ▸ there⟩
    rw [ended.loops]
    exact mem_append_left _ member
  have opened : ∀ tx, next.isOpen tx = bus.isOpen tx := by
    intro tx
    rw [Bus.isOpen, Bus.isOpen, ended.closed]
  refine ⟨?_, ?_, ?_, ?_, ?_, ?_, ?_⟩
  · rw [ended.targets]
    exact kept.nodup
  · intro loop member
    rw [ended.subs]
    rw [ended.loops] at member
    rcases mem_append.mp member with before | started
    · exact kept.hosted loop before
    · split at started
      · rename_i there
        cases mem_singleton.mp started
        exact (Bool.and_eq_true_iff.mp there).2
      · cases started
  · intro other
    have single := kept.single other
    have less := ended.calls other
    rw [ended.loops, countP_append]
    have one : (if succeeded && (bus.subs handle).isSome then [(handle, topic)]
        else []).countP (onTopic other) ≤ if other = topic then 1 else 0 := by
      split
      · rw [countP_singleton]
        unfold onTopic
        by_cases same : other = topic
        · simp [same]
        · simp [Ne.symm same]
      · exact Nat.zero_le _
    omega
  · intro other listed
    rw [ended.targets] at listed
    rcases kept.started other listed with runs | ⟨pending, waiting, same⟩
    · exact .inl (running other runs)
    · obtain ⟨result, there⟩ := ended.still pending waiting
      exact .inr ⟨_, there, same⟩
  · intro host other tx held open_
    rw [ended.targets]
    obtain ⟨listed, runs⟩ := kept.registered host other tx ((subscribed _ _ _).mp held)
      (opened tx ▸ open_)
    exact ⟨listed, running other runs⟩
  · intro call member
    rw [ended.targets]
    exact kept.abandoned call (ended.orphans call member)
  · intro pending there
    obtain ⟨result, waiting, done⟩ := ended.waits pending there
    have held := kept.waiting _ waiting
    refine ⟨?_, held.inserted, ?_, ?_, ?_, ?_⟩
    · rw [ended.subs]
      exact held.handle
    · intro returned
      rcases done returned with old | started
      · rw [ended.loops]
        exact mem_append_left _ (held.looped old)
      · exact started
    · rw [ended.targets]
      exact held.alone
    · rw [ended.targets, opened]
      exact held.present
    · intro other tx registered
      rw [opened]
      exact held.first other tx ((subscribed _ _ _).mp registered)

theorem start_loop (bus : Bus) (handle : Nat) (topic : String) :
    bus.startLoop handle topic = { bus with
      loops := bus.loops ++ if (bus.subs handle).isSome then [(handle, topic)] else [] } := by
  unfold Bus.startLoop
  split
  · rfl
  · rw [append_nil]

section

variable (kept : Kept bus)
include kept

theorem kept_called (succeeded : Bool) (stepped : bus.step (.called succeeded) = some next) :
    Kept next := by
  unfold Bus.step at stepped
  dsimp only at stepped
  split at stepped
  · rename_i handle topic tx inserted waits
    have waiting := kept.waiting _ waits
    cases Option.some.inj stepped
    have fields : (if succeeded then
        Bus.startLoop { bus with pending := some ⟨handle, topic, tx, inserted, some succeeded⟩ }
          handle topic
        else { bus with pending := some ⟨handle, topic, tx, inserted, some succeeded⟩ }) =
        { bus with
          pending := some ⟨handle, topic, tx, inserted, some succeeded⟩
          loops := bus.loops ++
            if succeeded && (bus.subs handle).isSome then [(handle, topic)] else [] } := by
      cases succeeded with
      | true => rw [if_pos rfl, start_loop, Bool.true_and]
      | false => simp
    rw [fields]
    refine kept.ended (?_ : Ended bus _ handle topic succeeded)
    refine ⟨rfl, rfl, rfl, rfl, fun _ member => member, ?_, ?_, ?_⟩
    · intro other
      unfold Bus.calls
      rw [waits]
      by_cases same : other = topic
      · simp [same]
      · simp [same, Ne.symm same]
    · intro pending there
      rw [waits] at there
      cases there
      exact ⟨some succeeded, rfl⟩
    · intro pending there
      cases there
      refine ⟨none, waits, ?_⟩
      intro done
      cases done
      refine .inr ?_
      rw [Bool.true_and, if_pos waiting.handle]
      exact mem_append_right _ (mem_singleton_self _)
  · cases stepped

theorem kept_called_late (index : Nat) (succeeded : Bool)
    (stepped : bus.step (.calledLate index succeeded) = some next) : Kept next := by
  unfold Bus.step at stepped
  dsimp only at stepped
  split at stepped
  · rename_i handle topic found
    cases Option.some.inj stepped
    have fields : (if succeeded then
        Bus.startLoop { bus with orphans := bus.orphans.eraseIdx index } handle topic
        else { bus with orphans := bus.orphans.eraseIdx index }) =
        { bus with
          orphans := bus.orphans.eraseIdx index
          loops := bus.loops ++
            if succeeded && (bus.subs handle).isSome then [(handle, topic)] else [] } := by
      cases succeeded with
      | true => rw [if_pos rfl, start_loop, Bool.true_and]
      | false => simp
    rw [fields]
    obtain ⟨bound, read⟩ := List.getElem?_eq_some_iff.mp found
    have perm := getElem_cons_eraseIdx_perm bound
    rw [read] at perm
    refine kept.ended (?_ : Ended bus _ handle topic succeeded)
    refine ⟨rfl, rfl, rfl, rfl, ?_, ?_, ?_, ?_⟩
    · exact fun _ member => mem_of_mem_eraseIdx member
    · intro other
      have counted := perm.countP_eq (onTopic other)
      unfold Bus.calls
      by_cases same : other = topic
      · simp [onTopic, same] at counted ⊢
        omega
      · simp [onTopic, same, Ne.symm same] at counted ⊢
        omega
    · exact fun pending there => ⟨pending.result, there⟩
    · exact fun pending there => ⟨pending.result, there, .inl⟩
  · cases stepped

/-- A subscription is no longer under way: its list is empty or has a loop. -/
theorem Kept.retire {pending : Pending} (waits : bus.pending = some pending)
    (idle : next.pending = none) (subs : next.subs = bus.subs) (loops : next.loops = bus.loops)
    (closed : next.closed = bus.closed)
    (others : ∀ topic, topic ≠ pending.topic → next.targets topic = bus.targets topic)
    (own : next.targets pending.topic = [] ∨
      next.targets pending.topic = bus.targets pending.topic ∧ bus.Running pending.topic)
    (calls : ∀ topic, next.calls topic ≤ bus.calls topic)
    (orphans : ∀ call ∈ next.orphans, call ∈ bus.orphans ∨ call.2 = pending.topic ∧
      next.targets pending.topic = []) :
    Kept next := by
  have waiting := kept.waiting pending waits
  have running : ∀ topic, next.Running topic ↔ bus.Running topic := by
    intro topic
    rw [Bus.Running, Bus.Running, subs, loops]
  refine ⟨?_, ?_, ?_, ?_, ?_, ?_, ?_⟩
  · intro topic
    by_cases same : topic = pending.topic
    · rw [same]
      rcases own with empty | ⟨whole, _⟩
      · rw [empty]
        exact nodup_nil
      · rw [whole]
        exact kept.nodup _
    · rw [others topic same]
      exact kept.nodup topic
  · rw [subs, loops]
    exact kept.hosted
  · intro topic
    have single := kept.single topic
    have less := calls topic
    rw [loops]
    omega
  · intro topic listed
    rw [running]
    by_cases same : topic = pending.topic
    · rw [same] at listed ⊢
      rcases own with empty | ⟨_, runs⟩
      · exact absurd empty listed
      · exact .inl runs
    · rw [others topic same] at listed
      rcases kept.started topic listed with runs | ⟨other, held, kind⟩
      · exact .inl runs
      · rw [waits] at held
        cases held
        exact absurd kind.symm same
  · intro handle topic tx held open_
    have held : bus.Subscribed handle topic tx := by
      rwa [Bus.Subscribed, subs] at held
    have open_ : bus.isOpen tx = true := by
      rwa [Bus.isOpen, closed] at open_
    rw [running]
    by_cases same : topic = pending.topic
    · rw [waiting.first handle tx (same ▸ held)] at open_
      cases open_
    · rw [others topic same]
      exact kept.registered handle topic tx held open_
  · intro call member
    rcases orphans call member with old | ⟨same, empty⟩
    · by_cases same : call.2 = pending.topic
      · have empty := kept.abandoned call old
        rw [same] at empty ⊢
        rcases own with own | ⟨whole, _⟩
        · exact own
        · rw [whole, empty]
      · rw [others _ same]
        exact kept.abandoned call old
    · rw [same]
      exact empty
  · intro other there
    rw [idle] at there
    cases there

theorem kept_resume (stepped : bus.step .resume = some next) : Kept next := by
  unfold Bus.step at stepped
  dsimp only at stepped
  split at stepped
  · rename_i pending waits
    obtain ⟨succeeded, returned, rfl⟩ := map_eq_some_iff.mp stepped
    have waiting := kept.waiting pending waits
    have calls : ∀ topic, bus.orphans.countP (onTopic topic) ≤ bus.calls topic := fun _ =>
      Nat.le_add_right _ _
    cases succeeded with
    | true =>
      have running := waiting.running returned
      have idle : Kept { bus with pending := none } := by
        apply kept.retire waits
        · rfl
        · rfl
        · rfl
        · rfl
        · exact fun _ _ => rfl
        · exact .inr ⟨rfl, running⟩
        · exact calls
        · exact fun _ member => .inl member
      exact idle.register _ _ _ rfl waiting.present running
    | false =>
      -- the list holds the channel of this subscription at most
      unfold Bus.resume
      rw [if_neg Bool.false_ne_true, if_pos waiting.inserted]
      apply kept.retire waits
      · rfl
      · rfl
      · rfl
      · rfl
      · intro topic apart
        rw [set_targets_other _ _ apart]
      · rw [set_targets_self]
        refine .inl (filter_eq_nil_iff.mpr ?_)
        intro tx member
        simpa using waiting.alone tx member
      · exact calls
      · exact fun _ member => .inl member
  · cases stepped

theorem kept_abandon (careful : Careful bus .abandon) (stepped : bus.step .abandon = some next) :
    Kept next := by
  unfold Bus.step at stepped
  dsimp only at stepped
  split at stepped
  · rename_i pending waits
    cases Option.some.inj stepped
    have waiting := kept.waiting pending waits
    have careful := careful pending waits
    apply kept.retire waits
    · rfl
    · rfl
    · rfl
    · rfl
    · exact fun _ _ => rfl
    · rcases careful with done | empty
      · exact .inr ⟨rfl, waiting.running done⟩
      · exact .inl empty
    · intro topic
      unfold Bus.calls
      rw [waits]
      cases result : pending.result with
      | none => simp [onTopic, result]
      | some _ => simp
    · intro call member
      split at member
      · rename_i unanswered
        rcases mem_append.mp member with old | added
        · exact .inl old
        · cases mem_singleton.mp added
          refine .inr ⟨rfl, ?_⟩
          rcases careful with done | empty
          · rw [done] at unanswered
            cases unanswered
          · exact empty
      · exact .inl member
  · cases stepped

/-- The loops that end with a broker serve no channel that another has registered. -/
theorem kept_drop (handle : Nat) (careful : Careful bus (.drop handle))
    (stepped : bus.step (.drop handle) = some next) : Kept next := by
  unfold Bus.step at stepped
  dsimp only at stepped
  split at stepped
  · rename_i registered found
    obtain ⟨loops, shared⟩ := careful
    split at stepped
    · cases stepped
    · rename_i elsewhere
      cases Option.some.inj stepped
      have hosts : ∀ host, host ≠ handle → (bus.drop handle registered).subs host =
          bus.subs host := fun host apart => if_neg apart
      have gone : (bus.drop handle registered).subs handle = none := if_pos rfl
      have held : ∀ host topic tx, (bus.drop handle registered).Subscribed host topic tx →
          host ≠ handle ∧ bus.Subscribed host topic tx := by
        rintro host topic tx ⟨registered', there, member⟩
        by_cases same : host = handle
        · rw [same, gone] at there
          cases there
        · rw [hosts host same] at there
          exact ⟨same, registered', there, member⟩
      -- a list with a channel that is not registered here has its loop elsewhere
      have running : ∀ topic tx, tx ∈ bus.targets topic → (topic, tx) ∉ registered →
          bus.Running topic → (bus.drop handle registered).Running topic := by
        rintro topic tx listed foreign ⟨host, member, there⟩
        have apart : host ≠ handle := by
          rintro rfl
          obtain ⟨registered', same, own⟩ := loops topic member tx listed
          rw [found] at same
          cases same
          exact foreign own
        refine ⟨host, mem_filter.mpr ⟨member, decide_eq_true apart⟩, ?_⟩
        rw [hosts host apart]
        exact there
      refine ⟨fun topic => (kept.nodup topic).filter _, ?_, ?_, ?_, ?_, ?_, ?_⟩
      · intro loop member
        obtain ⟨old, apart⟩ := mem_filter.mp member
        rw [hosts loop.1 (of_decide_eq_true apart)]
        exact kept.hosted loop old
      · intro topic
        have fewer : (bus.drop handle registered).loops.countP (onTopic topic) ≤
            bus.loops.countP (onTopic topic) := filter_sublist.countP_le
        exact Nat.le_trans (Nat.add_le_add_right fewer _) (kept.single topic)
      · intro topic listed
        obtain ⟨tx, member⟩ := exists_mem_of_ne_nil _ listed
        obtain ⟨old, foreign⟩ := mem_filter.mp member
        apply (kept.started topic (ne_nil_of_mem old)).imp_left
        exact running topic tx old (of_decide_eq_true foreign)
      · intro host topic tx subscribed open_
        obtain ⟨apart, old⟩ := held host topic tx subscribed
        obtain ⟨listed, runs⟩ := kept.registered host topic tx old open_
        have foreign : (topic, tx) ∉ registered := fun own =>
          shared topic tx host ⟨registered, found, own⟩ open_ apart old
        exact ⟨mem_filter.mpr ⟨listed, decide_eq_true foreign⟩,
          running topic tx listed foreign runs⟩
      · intro call member
        have empty := kept.abandoned call member
        change (bus.targets call.2).filter _ = []
        rw [empty]
        rfl
      · intro pending there
        have there : bus.pending = some pending := there
        have waiting := kept.waiting pending there
        have apart : pending.handle ≠ handle := by
          intro same
          rw [there] at elsewhere
          exact elsewhere (decide_eq_true same)
        refine ⟨?_, waiting.inserted, ?_, ?_, ?_, ?_⟩
        · rw [hosts pending.handle apart]
          exact waiting.handle
        · intro done
          exact mem_filter.mpr ⟨waiting.looped done, decide_eq_true apart⟩
        · intro tx member
          exact waiting.alone tx (mem_filter.mp member).1
        · intro open_
          refine mem_filter.mpr ⟨waiting.present open_, decide_eq_true ?_⟩
          intro own
          have closed := waiting.first handle pending.tx ⟨registered, found, own⟩
          have open_ : bus.isOpen pending.tx = true := open_
          rw [closed] at open_
          cases open_
        · intro host tx subscribed
          exact waiting.first host tx (held host pending.topic tx subscribed).2
  · cases stepped

end

theorem kept_preserved : Preserved system Careful Kept := by
  intro bus label next kept careful stepped
  cases label with
  | connect =>
    cases Option.some.inj stepped
    exact kept_connect kept _ _
  | subscribe handle topic tx =>
    obtain ⟨⟨idle, there⟩, same⟩ := ite_none_right_eq_some.mp stepped
    cases same
    exact kept_subscribe kept handle topic tx (isNone_iff_eq_none.mp idle) there careful
  | called succeeded => exact kept_called kept succeeded stepped
  | resume => exact kept_resume kept stepped
  | abandon => exact kept_abandon kept careful stepped
  | calledLate index succeeded => exact kept_called_late kept index succeeded stepped
  | deliver handle topic =>
    obtain ⟨_, same⟩ := ite_none_right_eq_some.mp stepped
    cases same
    exact kept_fanout kept topic
  | publishLocal topic =>
    cases Option.some.inj stepped
    exact kept_fanout kept topic
  | close tx =>
    cases Option.some.inj stepped
    exact kept_close kept tx
  | drop handle => exact kept_drop kept handle careful stepped

end Invariant

section Runs

/-- In every run of careful steps, every state reached is live. -/
theorem careful_live (bus : Bus) (reached : Reachable system Careful bus) : Live bus :=
  (invariant_of_step kept_empty kept_preserved reached).live

theorem careful_live_subscribed :
    Live ((system.run Bus.empty
      [.connect, .subscribe 1 "news" 7, .called true, .resume]).getD Bus.empty) := by
  apply careful_live
  refine ⟨[.connect, .subscribe 1 "news" 7, .called true, .resume], trivial, _, rfl, ?_, _, rfl,
    trivial, _, rfl, trivial, _, rfl, rfl⟩
  intro _
  decide

/-- A second broker relies on the loop of the first, which ends with it. A list that has been
emptied starts a second loop. A call that fails after its subscription was dropped leaves a
channel behind, and the next subscription starts no loop. -/
theorem subscribers_not_live :
    (∃ bus, Reachable system Unrestricted bus ∧ bus.Subscribed 2 "news" 8 ∧
      bus.isOpen 8 = true ∧ bus.loops = []) ∧
    (∃ bus, Reachable system Unrestricted bus ∧ bus.Subscribed 1 "news" 8 ∧
      bus.isOpen 8 = true ∧ (bus.receivers "news").count 8 = 2) ∧
    (∃ bus, Reachable system Unrestricted bus ∧ bus.Subscribed 1 "news" 8 ∧
      bus.isOpen 8 = true ∧ bus.loops = []) := by
  refine ⟨?_, ?_, ?_⟩
  · let labels : List Label := [.connect, .subscribe 1 "news" 7, .called true, .resume, .connect,
      .subscribe 2 "news" 8, .drop 1]
    let bus := (system.run Bus.empty labels).getD Bus.empty
    refine ⟨bus, ⟨labels, path_of_run _ _ labels rfl⟩, ⟨[("news", 8)], rfl, ?_⟩, rfl, rfl⟩
    decide
  · let labels : List Label := [.connect, .subscribe 1 "news" 7, .called true, .resume, .close 7,
      .deliver 1 "news", .subscribe 1 "news" 8, .called true, .resume]
    let bus := (system.run Bus.empty labels).getD Bus.empty
    refine ⟨bus, ⟨labels, path_of_run _ _ labels rfl⟩, ⟨[("news", 7), ("news", 8)], rfl, ?_⟩,
      rfl, rfl⟩
    decide
  · let labels : List Label := [.connect, .subscribe 1 "news" 7, .abandon, .calledLate 0 false,
      .subscribe 1 "news" 8]
    let bus := (system.run Bus.empty labels).getD Bus.empty
    refine ⟨bus, ⟨labels, path_of_run _ _ labels rfl⟩, ⟨[("news", 8)], rfl, ?_⟩, rfl, rfl⟩
    decide

end Runs

end OnlyJs.Bridge.RemoteBus
