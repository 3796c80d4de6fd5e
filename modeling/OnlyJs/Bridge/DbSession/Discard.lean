import OnlyJs.Bridge.DbSession.System

/-!
# Discarded sessions

A call passes its checks before it waits for the connection and acts after it.
A kill that lands in between takes the entry out of the table but leaves the
call with a live connection. The history says what went wrong: a commit or a
statement recorded after the kill that told callers of a roll back.
-/

namespace OnlyJs.Bridge.DbSession

open Finmap Option Function Bridge.HandleCore Lib.FiniteMap Lib.StepSystem

/-- The kills after which callers are told that the transaction was rolled back. -/
def Doomed (events : List TxEvent) (arc : Nat) : Prop :=
  ∃ end_, end_ ≠ KillState.closed ∧ .killed arc end_ ∈ events

def TxEvent.actsOn (event : TxEvent) (arc : Nat) : Prop :=
  event = .executed arc ∨ event = .committed arc

/-- No statement and no commit is recorded after such a kill of its entry. -/
def DiscardIsFinal (events : List TxEvent) : Prop :=
  events.Pairwise fun later earlier =>
    ∀ arc end_, end_ ≠ KillState.closed → earlier = .killed arc end_ → ¬later.actsOn arc

/-- A call past its checks that can still run a statement or commit. -/
def SessionCall.mayAct (value : SessionCall) : Prop :=
  (value.kind = .statement ∧ value.phase ≠ .released) ∨
    (value.kind = .commit ∧ (value.phase = .waiting ∨ value.phase = .holding))

def doomedBy (state : HostState) : SessionStep → Option TxSessionEntry
  | .issue _ _ caller id =>
    match requireGate state.registry caller, lookupEntry state.registry state.epochs caller id with
    | .ok (), .killed entry _ _ _ => some entry
    | _, _ => none
  | .finish call _ =>
    (state.calls.lookup call).bind fun value =>
      match value.kind with
      | .reap _ | .discardAlias => some value.entry
      | _ => none
  | .timeout _ attached _ => attached.bind fun id => state.registry.inner.sessions.lookup id
  | _ => none

/-- An entry is killed as expired or discarded only when its transaction is
already consumed or when no other call that passed its checks can still act. -/
def QuietKill (state : HostState) (label : SessionStep) : Prop :=
  ∀ entry, doomedBy state label = some entry →
    (state.registry.cells entry.arc).session = .consumed ∨
      ∀ call value, state.calls.lookup call = some value → value.entry.arc = entry.arc →
        value.mayAct → ∃ attached now, label = .timeout call attached now

structure DiscardView where
  sessions : Finmap fun _ : String => TxSessionEntry
  nextArc : Nat
  session : Nat → TxSession
  calls : Finmap fun _ : Nat => SessionCall
  events : List TxEvent

def HostState.discard (state : HostState) : DiscardView where
  sessions := state.registry.inner.sessions
  nextArc := state.registry.nextArc
  session := fun arc => (state.registry.cells arc).session
  calls := state.calls
  events := state.events

/-- Entries that the table or a call refers to. -/
def DiscardView.Known (view : DiscardView) (entry : TxSessionEntry) : Prop :=
  (∃ id, view.sessions.lookup id = some entry) ∨
    ∃ call value, view.calls.lookup call = some value ∧ value.entry = entry

/-- Calls only end or move on: each one left was there before, and can act only
if it could. -/
def CallsProceed (before after : Finmap fun _ : Nat => SessionCall) : Prop :=
  ∀ call value, after.lookup call = some value →
    ∃ old, before.lookup call = some old ∧ old.entry = value.entry ∧
      (value.mayAct → old.mayAct)

def sessionsWithout (sessions : Finmap fun _ : String => TxSessionEntry)
    (entry : TxSessionEntry) : Finmap fun _ : String => TxSessionEntry :=
  match sessions.lookup entry.id with
  | some held => if held.arc = entry.arc then sessions.erase entry.id else sessions
  | none => sessions

/-- The ways in which one step reaches the sessions and their connections. -/
inductive DiscardEffect (view : DiscardView) : DiscardView → Prop where
  | quiet (calls : Finmap fun _ : Nat => SessionCall) (proceed : CallsProceed view.calls calls) :
      DiscardEffect view { view with calls }
  | issued (call : Nat) (value : SessionCall) (id : String)
      (listed : view.sessions.lookup id = some value.entry) :
      DiscardEffect view { view with calls := view.calls.insert call value }
  | inserted (entry : TxSessionEntry) (fresh : entry.arc = view.nextArc) :
      DiscardEffect view { view with
        sessions := view.sessions.insert entry.id entry
        nextArc := view.nextArc + 1
        session := Function.update view.session entry.arc .active }
  | executed (call : Nat) (value : SessionCall) (found : view.calls.lookup call = some value)
      (acts : value.mayAct) (live : view.session value.entry.arc = .active)
      (calls : Finmap fun _ : Nat => SessionCall) (proceed : CallsProceed view.calls calls) :
      DiscardEffect view { view with
        calls, events := .executed value.entry.arc :: view.events }
  | consumed (call : Nat) (value : SessionCall) (found : view.calls.lookup call = some value)
      (event : TxEvent) (acts : event = .committed value.entry.arc ∧ value.mayAct ∨
        event = .rolledBack value.entry.arc)
      (live : view.session value.entry.arc = .active)
      (calls : Finmap fun _ : Nat => SessionCall) (proceed : CallsProceed view.calls calls) :
      DiscardEffect view { view with
        calls
        session := Function.update view.session value.entry.arc .consumed
        events := event :: view.events }
  | killed (entry : TxSessionEntry) (known : view.Known entry) (end_ : KillState)
      (calls : Finmap fun _ : Nat => SessionCall) (proceed : CallsProceed view.calls calls)
      (final : end_ ≠ .closed → view.session entry.arc = .consumed ∨
        ∀ call value, calls.lookup call = some value → value.entry.arc = entry.arc →
          ¬value.mayAct) :
      DiscardEffect view { view with
        sessions := sessionsWithout view.sessions entry
        calls
        events := .killed entry.arc end_ :: view.events }

/-- The invariant: references by one allocation agree, a doomed entry has left
the table, and its transaction is consumed or nobody is left to act on it. -/
structure Discarded (view : DiscardView) : Prop where
  listedId : ∀ id entry, view.sessions.lookup id = some entry → entry.id = id
  allocated : ∀ entry, view.Known entry → entry.arc < view.nextArc
  coherent : ∀ entry other, view.Known entry → view.Known other → entry.arc = other.arc →
    entry = other
  doomedAllocated : ∀ arc, Doomed view.events arc → arc < view.nextArc
  doomedUnlisted : ∀ arc, Doomed view.events arc →
    ∀ id entry, view.sessions.lookup id = some entry → entry.arc ≠ arc
  doomedQuiet : ∀ arc, Doomed view.events arc → view.session arc = .consumed ∨
    ∀ call value, view.calls.lookup call = some value → value.entry.arc = arc → ¬value.mayAct
  final : DiscardIsFinal view.events

variable (calls : Finmap fun _ : Nat => SessionCall) (state : HostState) (event : TxEvent)

variable (events : List TxEvent) (arc : Nat)

theorem doomed_cons (doomed : Doomed (event :: events) arc) :
    (∃ end_, end_ ≠ KillState.closed ∧ event = .killed arc end_) ∨ Doomed events arc := by
  obtain ⟨end_, ends, member⟩ := doomed
  rcases List.mem_cons.mp member with same | member
  · exact .inl ⟨end_, ends, same.symm⟩
  · exact .inr ⟨end_, ends, member⟩

theorem final_cons (final : DiscardIsFinal events)
    (free : ∀ arc, event.actsOn arc → ¬Doomed events arc) :
    DiscardIsFinal (event :: events) := by
  refine List.pairwise_cons.mpr ⟨?_, final⟩
  rintro earlier member arc end_ ends rfl acts
  exact free arc acts ⟨end_, ends, member⟩

variable {next view : DiscardView}

theorem known_proceed (proceed : CallsProceed view.calls next.calls)
    (listed : ∀ id entry, next.sessions.lookup id = some entry →
      view.sessions.lookup id = some entry)
    (entry : TxSessionEntry) (known : next.Known entry) : view.Known entry := by
  rcases known with ⟨id, found⟩ | ⟨call, value, found, own⟩
  · exact .inl ⟨id, listed id entry found⟩
  · obtain ⟨old, foundOld, sameEntry, _⟩ := proceed call value found
    exact .inr ⟨call, old, foundOld, sameEntry.trans own⟩

theorem calls_proceed_refl :
    CallsProceed calls calls :=
  fun _ value found => ⟨value, found, rfl, id⟩

variable (call : Nat)

theorem calls_proceed_erase :
    CallsProceed calls (calls.erase call) := by
  intro other value found
  by_cases same : other = call
  · subst same
    rw [lookup_erase] at found
    cases found
  · rw [lookup_erase_ne same] at found
    exact ⟨value, found, rfl, id⟩

theorem calls_proceed_insert (old value : SessionCall) (found : calls.lookup call = some old)
    (entry : old.entry = value.entry) (acts : value.mayAct → old.mayAct) :
    CallsProceed calls (calls.insert call value) := by
  intro other present lookup
  by_cases same : other = call
  · subst same
    rw [lookup_insert] at lookup
    cases lookup
    exact ⟨old, found, entry, acts⟩
  · rw [lookup_insert_of_ne _ same] at lookup
    exact ⟨present, lookup, rfl, id⟩

theorem listed_of_without (sessions : Finmap fun _ : String => TxSessionEntry)
    (gone : TxSessionEntry) (id : String) (entry : TxSessionEntry)
    (found : (sessionsWithout sessions gone).lookup id = some entry) :
    sessions.lookup id = some entry := by
  unfold sessionsWithout at found
  split at found
  · split at found
    · by_cases same : id = gone.id
      · subst same
        rw [lookup_erase] at found
        cases found
      · rwa [lookup_erase_ne same] at found
    · exact found
  · exact found

theorem quiet_of_proceed {before after : Finmap fun _ : Nat => SessionCall} (arc : Nat)
    (proceed : CallsProceed before after)
    (quiet : ∀ call value, before.lookup call = some value → value.entry.arc = arc →
      ¬value.mayAct) :
    ∀ call value, after.lookup call = some value → value.entry.arc = arc → ¬value.mayAct := by
  intro call value found own acts
  obtain ⟨old, foundOld, sameEntry, mayAct⟩ := proceed call value found
  rw [← sameEntry] at own
  exact quiet call old foundOld own (mayAct acts)

section

variable (invariant : Discarded view)
include invariant

theorem not_doomed_of_acting (call : Nat) (value : SessionCall)
    (found : view.calls.lookup call = some value) (acts : value.mayAct)
    (live : view.session value.entry.arc = .active) :
    ¬Doomed view.events value.entry.arc := by
  intro doomed
  rcases invariant.doomedQuiet _ doomed with consumed | quiet
  · rw [live] at consumed
    cases consumed
  · exact quiet call value found rfl acts

theorem discarded_shrink (proceed : CallsProceed view.calls next.calls)
    (listed : ∀ id entry, next.sessions.lookup id = some entry →
      view.sessions.lookup id = some entry)
    (nextArc : next.nextArc = view.nextArc)
    (doomed : ∀ arc, Doomed next.events arc → arc < view.nextArc)
    (unlisted : ∀ arc, Doomed next.events arc → ∀ id entry, next.sessions.lookup id = some entry →
      entry.arc ≠ arc)
    (quiet : ∀ arc, Doomed next.events arc →
      next.session arc = .consumed ∨ ∀ call value, next.calls.lookup call = some value →
      value.entry.arc = arc → ¬value.mayAct)
    (final : DiscardIsFinal next.events) : Discarded next := by
  have known := known_proceed proceed listed
  refine ⟨fun id entry found => invariant.listedId id entry (listed id entry found),
    ?_, ?_, ?_, unlisted, quiet, final⟩
  · intro entry held
    rw [nextArc]
    exact invariant.allocated entry (known entry held)
  · intro entry other held heldOther same
    exact invariant.coherent entry other (known entry held) (known other heldOther) same
  · intro arc lost
    rw [nextArc]
    exact doomed arc lost

theorem discarded_quiet (calls : Finmap fun _ : Nat => SessionCall)
    (proceed : CallsProceed view.calls calls) :
    Discarded { view with calls } :=
  discarded_shrink invariant proceed (fun _ _ found => found) rfl invariant.doomedAllocated
    invariant.doomedUnlisted
    (fun arc doomed => (invariant.doomedQuiet arc doomed).imp_right (quiet_of_proceed arc proceed))
    invariant.final

theorem discarded_executed (call : Nat) (value : SessionCall)
    (found : view.calls.lookup call = some value) (acts : value.mayAct)
    (live : view.session value.entry.arc = .active) (calls : Finmap fun _ : Nat => SessionCall)
    (proceed : CallsProceed view.calls calls) :
    Discarded { view with calls, events := .executed value.entry.arc :: view.events } := by
  have doomed : ∀ arc, Doomed (.executed value.entry.arc :: view.events) arc →
      Doomed view.events arc := by
    intro arc lost
    rcases doomed_cons _ _ arc lost with ⟨_, _, same⟩ | lost
    · cases same
    · exact lost
  refine discarded_shrink invariant proceed (fun _ _ found => found) rfl
    (fun arc lost => invariant.doomedAllocated arc (doomed arc lost))
    (fun arc lost => invariant.doomedUnlisted arc (doomed arc lost)) ?_ ?_
  · intro arc lost
    exact (invariant.doomedQuiet arc (doomed arc lost)).imp_right (quiet_of_proceed arc proceed)
  · apply final_cons _ _ invariant.final
    intro arc reached
    rcases reached with same | same
    · cases same
      exact not_doomed_of_acting invariant call value found acts live
    · cases same

theorem discarded_consumed (call : Nat) (value : SessionCall)
    (found : view.calls.lookup call = some value) (event : TxEvent)
    (acts : event = .committed value.entry.arc ∧ value.mayAct ∨ event = .rolledBack value.entry.arc)
    (live : view.session value.entry.arc = .active) (calls : Finmap fun _ : Nat => SessionCall)
    (proceed : CallsProceed view.calls calls) :
    Discarded { view with
      calls
      session := Function.update view.session value.entry.arc .consumed
      events := event :: view.events } := by
  have doomed : ∀ arc, Doomed (event :: view.events) arc → Doomed view.events arc := by
    intro arc lost
    rcases doomed_cons _ _ arc lost with ⟨_, _, same⟩ | lost
    · rcases acts with ⟨kind, _⟩ | kind
      · rw [kind] at same
        cases same
      · rw [kind] at same
        cases same
    · exact lost
  refine discarded_shrink invariant proceed (fun _ _ found => found) rfl
    (fun arc lost => invariant.doomedAllocated arc (doomed arc lost))
    (fun arc lost => invariant.doomedUnlisted arc (doomed arc lost)) ?_ ?_
  · intro arc lost
    by_cases own : arc = value.entry.arc
    · subst own
      exact .inl (update_self _ _ _)
    · have same := update_of_ne own TxSession.consumed view.session
      simp only [same]
      exact (invariant.doomedQuiet arc (doomed arc lost)).imp_right (quiet_of_proceed arc proceed)
  · apply final_cons _ _ invariant.final
    intro arc reached
    rcases acts with ⟨rfl, mayAct⟩ | rfl
    · rcases reached with same | same
      · cases same
      · cases same
        exact not_doomed_of_acting invariant call value found mayAct live
    · rcases reached with same | same
      · cases same
      · cases same

variable (entry : TxSessionEntry)

theorem unlisted_of_without (known : view.Known entry) (id : String) (other : TxSessionEntry)
    (found : (sessionsWithout view.sessions entry).lookup id = some other) :
    other.arc ≠ entry.arc := by
  intro same
  have listed := listed_of_without view.sessions entry id other found
  have equal := invariant.coherent other entry (.inl ⟨id, listed⟩) known same
  subst equal
  have own := invariant.listedId id other listed
  subst own
  unfold sessionsWithout at found
  rw [listed] at found
  simp only [if_true] at found
  rw [lookup_erase] at found
  cases found

theorem discarded_killed (known : view.Known entry) (end_ : KillState)
    (calls : Finmap fun _ : Nat => SessionCall) (proceed : CallsProceed view.calls calls)
    (final : end_ ≠ .closed → view.session entry.arc = .consumed ∨
      ∀ call value, calls.lookup call = some value → value.entry.arc = entry.arc → ¬value.mayAct) :
    Discarded { view with
      sessions := sessionsWithout view.sessions entry
      calls
      events := .killed entry.arc end_ :: view.events } := by
  have doomed : ∀ arc, Doomed (.killed entry.arc end_ :: view.events) arc →
      (end_ ≠ .closed ∧ arc = entry.arc) ∨ Doomed view.events arc := by
    intro arc lost
    rcases doomed_cons _ _ arc lost with ⟨_, ends, same⟩ | lost
    · cases same
      exact .inl ⟨ends, rfl⟩
    · exact .inr lost
  refine discarded_shrink invariant proceed (listed_of_without view.sessions entry) rfl ?_ ?_ ?_ ?_
  · intro arc lost
    rcases doomed arc lost with ⟨_, rfl⟩ | lost
    · exact invariant.allocated entry known
    · exact invariant.doomedAllocated arc lost
  · intro arc lost id other found
    rcases doomed arc lost with ⟨_, rfl⟩ | lost
    · exact unlisted_of_without invariant entry known id other found
    · exact invariant.doomedUnlisted arc lost id other
        (listed_of_without view.sessions entry id other found)
  · intro arc lost
    rcases doomed arc lost with ⟨ends, rfl⟩ | lost
    · exact final ends
    · exact (invariant.doomedQuiet arc lost).imp_right (quiet_of_proceed arc proceed)
  · apply final_cons _ _ invariant.final
    intro arc reached
    rcases reached with same | same <;> cases same

theorem discarded_issued (call : Nat) (value : SessionCall) (id : String)
    (listed : view.sessions.lookup id = some value.entry) :
    Discarded { view with calls := view.calls.insert call value } := by
  have known : ∀ entry,
      DiscardView.Known { view with calls := view.calls.insert call value } entry →
        view.Known entry := by
    rintro entry (found | ⟨other, present, found, own⟩)
    · exact .inl found
    · by_cases same : other = call
      · subst same
        rw [lookup_insert] at found
        cases found
        exact .inl ⟨id, own ▸ listed⟩
      · rw [lookup_insert_of_ne _ same] at found
        exact .inr ⟨other, present, found, own⟩
  refine ⟨invariant.listedId, fun entry held => invariant.allocated entry (known entry held),
    ?_, invariant.doomedAllocated, invariant.doomedUnlisted, ?_, invariant.final⟩
  · intro entry other held heldOther same
    exact invariant.coherent entry other (known entry held) (known other heldOther) same
  · intro arc doomed
    rcases invariant.doomedQuiet arc doomed with consumed | quiet
    · exact .inl consumed
    · refine .inr fun other present found own => ?_
      by_cases same : other = call
      · subst same
        rw [lookup_insert] at found
        cases found
        exact absurd own (invariant.doomedUnlisted arc doomed id value.entry listed)
      · rw [lookup_insert_of_ne _ same] at found
        exact quiet other present found own

theorem discarded_inserted (fresh : entry.arc = view.nextArc) :
    Discarded { view with
      sessions := view.sessions.insert entry.id entry
      nextArc := view.nextArc + 1
      session := Function.update view.session entry.arc .active } := by
  have listed : ∀ id other, (view.sessions.insert entry.id entry).lookup id = some other →
      (id = entry.id ∧ other = entry) ∨ view.sessions.lookup id = some other := by
    intro id other found
    by_cases same : id = entry.id
    · subst same
      rw [lookup_insert] at found
      cases found
      exact .inl ⟨rfl, rfl⟩
    · rw [lookup_insert_of_ne _ same] at found
      exact .inr found
  have known : ∀ other, DiscardView.Known { view with
      sessions := view.sessions.insert entry.id entry
      nextArc := view.nextArc + 1
      session := Function.update view.session entry.arc .active } other →
        other = entry ∨ view.Known other := by
    rintro other (⟨id, found⟩ | held)
    · rcases listed id other found with ⟨_, same⟩ | found
      · exact .inl same
      · exact .inr (.inl ⟨id, found⟩)
    · exact .inr (.inr held)
  have old : ∀ other, view.Known other → other.arc ≠ entry.arc := by
    intro other held
    have bound := invariant.allocated other held
    omega
  have doomedOld : ∀ arc, Doomed view.events arc → arc ≠ entry.arc := by
    intro arc doomed
    have bound := invariant.doomedAllocated arc doomed
    omega
  refine ⟨?_, ?_, ?_, ?_, ?_, ?_, invariant.final⟩
  · intro id other found
    rcases listed id other found with ⟨same, rfl⟩ | found
    · exact same.symm
    · exact invariant.listedId id other found
  · intro other held
    rcases known other held with rfl | held
    · exact fresh ▸ Nat.lt_succ_self _
    · exact Nat.lt_succ_of_lt (invariant.allocated other held)
  · intro first second heldFirst heldSecond same
    rcases known first heldFirst with isNew | wasFirst
    · rcases known second heldSecond with alsoNew | wasSecond
      · exact isNew.trans alsoNew.symm
      · exact absurd (same.symm.trans (congrArg TxSessionEntry.arc isNew)) (old second wasSecond)
    · rcases known second heldSecond with isNew | wasSecond
      · exact absurd (same.trans (congrArg TxSessionEntry.arc isNew)) (old first wasFirst)
      · exact invariant.coherent first second wasFirst wasSecond same
  · intro arc doomed
    exact Nat.lt_succ_of_lt (invariant.doomedAllocated arc doomed)
  · intro arc doomed id other found
    rcases listed id other found with ⟨_, rfl⟩ | found
    · exact (doomedOld arc doomed).symm
    · exact invariant.doomedUnlisted arc doomed id other found
  · intro arc doomed
    have same := update_of_ne (doomedOld arc doomed) TxSession.active view.session
    simp only [same]
    exact invariant.doomedQuiet arc doomed

end

theorem discarded_effect (effect : DiscardEffect view next) (invariant : Discarded view) :
    Discarded next := by
  cases effect with
  | quiet calls proceed => exact discarded_quiet invariant calls proceed
  | issued call value id listed => exact discarded_issued invariant call value id listed
  | inserted entry fresh => exact discarded_inserted invariant entry fresh
  | executed call value found acts live calls proceed =>
    exact discarded_executed invariant call value found acts live calls proceed
  | consumed call value found event acts live calls proceed =>
    exact discarded_consumed invariant call value found event acts live calls proceed
  | killed entry known end_ calls proceed final =>
    exact discarded_killed invariant entry known end_ calls proceed final

@[simp] theorem discard_update_cell (change : EntryCell → EntryCell)
    (kept : ∀ cell, (change cell).session = cell.session) :
    (state.updateCell arc change).discard = state.discard := by
  unfold HostState.updateCell HostState.discard updateCell
  simp only [DiscardView.mk.injEq, true_and, and_true]
  funext other
  split
  · exact kept _
  · rfl

theorem discard_consume :
    (state.updateCell arc EntryCell.consume).discard =
      { state.discard with session := Function.update state.discard.session arc .consumed } := by
  unfold HostState.updateCell HostState.discard updateCell
  simp only [DiscardView.mk.injEq, true_and, and_true]
  funext other
  by_cases same : other = arc
  · subst same
    rw [if_pos rfl, update_self]
    rfl
  · rw [if_neg same, update_of_ne same]

theorem discard_record :
    (state.record event).discard =
      { state.discard with events := event :: state.discard.events } := rfl

theorem detach_sessions (inner : Inner) (entry : TxSessionEntry) :
    (inner.detach entry).sessions = sessionsWithout inner.sessions entry := by
  unfold Inner.detach sessionsWithout
  cases inner.sessions.lookup entry.id with
  | none => rfl
  | some held =>
    simp only
    split <;> rfl

variable (value : SessionCall)

theorem discard_set_call :
    (state.setCall call value).discard =
      { state.discard with calls := state.discard.calls.insert call value } := rfl

theorem discard_kill (entry : TxSessionEntry) (end_ : KillState) (reason : String) (now : Nat) :
    (state.kill entry end_ reason now).discard = { state.discard with
      sessions := sessionsWithout state.discard.sessions entry
      events := .killed entry.arc end_ :: state.discard.events } := by
  have cells : ∀ registry : TxSessionRegistry,
      (fun arc => ((kill registry entry end_ reason now).cells arc).session) =
        fun arc => (registry.cells arc).session := by
    intro registry
    funext arc
    simp only [kill, noteTombstone, updateCell]
    split <;> split <;> rfl
  have sessions : (kill state.registry entry end_ reason now).inner.sessions =
      sessionsWithout state.registry.inner.sessions entry := by
    simp only [kill]
    split <;> exact detach_sessions _ entry
  have nextArc : (kill state.registry entry end_ reason now).nextArc =
      state.registry.nextArc := by
    simp only [kill]
    split <;> rfl
  simp only [HostState.kill, HostState.record, HostState.discard, cells, sessions, nextArc]

theorem discard_end_call :
    (state.endCall call value).discard =
      { state.discard with calls := state.calls.erase call } := by
  have same := discard_update_cell state value.entry.arc
    (fun cell => if cell.holder = some call then cell.unlock else cell)
    (fun cell => by split <;> rfl)
  unfold HostState.endCall
  unfold HostState.discard at same ⊢
  simp only [DiscardView.mk.injEq] at same ⊢
  exact ⟨same.1, same.2.1, same.2.2.1, trivial, same.2.2.2.2⟩

theorem issue_discard_effect (kind : CallKind) (caller : Caller) (id : String)
    (quietKill : QuietKill state (.issue call kind caller id)) :
    DiscardEffect state.discard (issue state call kind caller id).discard := by
  unfold issue
  cases gate : requireGate state.registry caller with
  | error message => exact .quiet _ (calls_proceed_refl _)
  | ok _ =>
    cases verdict : lookupEntry state.registry state.epochs caller id with
    | refused message => exact .quiet _ (calls_proceed_refl _)
    | killed entry end_ reason message =>
      have listed := lookup_entry_killed _ _ _ _ _ _ _ _ verdict
      have doomed : doomedBy state (.issue call kind caller id) = some entry := by
        simp only [doomedBy, gate, verdict]
      simp only [discard_kill]
      refine .killed entry (.inl ⟨id, listed⟩) end_ _ (calls_proceed_refl _) fun _ => ?_
      refine (quietKill entry doomed).imp_right fun quiet other value found own acts => ?_
      obtain ⟨_, _, same⟩ := quiet other value found own acts
      cases same
    | found entry =>
      have listed := lookup_entry_found _ _ _ _ _ verdict
      simp only
      have effect : DiscardEffect state.discard _ :=
        .issued call { entry, kind, phase := .waiting } id listed
      split
      · have used := discard_update_cell state entry.arc (EntryCell.noteUse caller.now)
          (fun _ => rfl)
        rw [discard_set_call, used]
        exact effect
      · exact effect

theorem act_discard_effect (found : state.calls.lookup call = some value)
    (ready : value.phase = .holding ∨ (value.phase = .acted ∧ value.kind = .statement)) :
    DiscardEffect state.discard (act state call value).discard := by
  have statementActs : value.kind = .statement → value.mayAct := by
    intro kind
    refine .inl ⟨kind, ?_⟩
    rcases ready with phase | ⟨phase, _⟩ <;> rw [phase] <;> decide
  have commitActs : value.kind = .commit → value.mayAct := by
    intro kind
    rcases ready with phase | ⟨_, other⟩
    · exact .inr ⟨kind, .inr phase⟩
    · rw [kind] at other
      cases other
  have proceed : CallsProceed state.calls
      (state.calls.insert call { value with phase := .acted }) := by
    refine calls_proceed_insert _ call value _ found rfl fun acts => ?_
    rcases acts with ⟨kind, _⟩ | ⟨kind, phase⟩
    · exact statementActs kind
    · exact commitActs kind
  have consume : ∀ event, event = .committed value.entry.arc ∧ value.mayAct ∨
      event = .rolledBack value.entry.arc →
      (state.registry.cells value.entry.arc).session = .active →
      DiscardEffect state.discard
        (((state.setCall call { value with phase := .acted }).updateCell value.entry.arc
          EntryCell.consume).record event).discard := by
    intro event acts live
    rw [discard_record, discard_consume]
    exact .consumed call value found event acts live _ proceed
  simp only [act]
  by_cases live : (state.registry.cells value.entry.arc).session = .active
  · rw [if_pos live]
    split
    · rename_i kind
      exact .executed call value found (statementActs kind) live _ proceed
    · rename_i kind
      exact consume _ (.inl ⟨rfl, commitActs kind⟩) live
    · exact consume _ (.inr rfl) live
  · rw [if_neg live]
    exact .quiet _ proceed

theorem finish_discard_effect (now : Nat) (found : state.calls.lookup call = some value)
    (quietKill : QuietKill state (.finish call now)) :
    DiscardEffect state.discard (finish state call value now).discard := by
  have proceed := calls_proceed_erase state.calls call
  have known : state.discard.Known value.entry := .inr ⟨call, value, found, rfl⟩
  have closed : ∀ reason, DiscardEffect state.discard
      ({ state with calls := state.calls.erase call }.kill value.entry .closed reason
        now).discard := by
    intro reason
    rw [discard_kill]
    exact .killed value.entry known .closed _ proceed fun ends => absurd rfl ends
  have doomed : ∀ end_ reason, doomedBy state (.finish call now) = some value.entry →
      DiscardEffect state.discard
        ({ state with calls := state.calls.erase call }.kill value.entry end_ reason
          now).discard := by
    intro end_ reason kills
    rw [discard_kill]
    refine .killed value.entry known end_ _ proceed fun _ => ?_
    refine (quietKill value.entry kills).imp_right fun quiet => ?_
    refine quiet_of_proceed value.entry.arc proceed fun other present held own acts => ?_
    obtain ⟨_, _, same⟩ := quiet other present held own acts
    cases same
  unfold finish
  cases kind : value.kind with
  | statement => exact .quiet _ proceed
  | commit | rollback | close | closeAll => exact closed _
  | reap reason | discardAlias => exact doomed _ _ (by simp only [doomedBy, found, bind_some, kind])

theorem timeout_discard_effect (attached : Option String) (now : Nat)
    (quietKill : QuietKill state (.timeout call attached now)) :
    DiscardEffect state.discard (timeout state call value attached now).discard := by
  have proceed := calls_proceed_erase state.calls call
  have sameSessions : (state.endCall call value).registry.inner.sessions =
      state.registry.inner.sessions := rfl
  simp only [timeout, sameSessions]
  cases target : attached.bind fun id => state.registry.inner.sessions.lookup id with
  | none =>
    simp only [discard_end_call]
    exact .quiet _ proceed
  | some entry =>
    obtain ⟨id, _, listed⟩ := bind_eq_some_iff.mp target
    simp only [discard_kill, discard_end_call]
    refine .killed entry (.inl ⟨id, listed⟩) .discarded _ proceed fun _ => ?_
    refine (quietKill entry target).imp_right fun quiet other present held own acts => ?_
    by_cases same : other = call
    · subst same
      rw [lookup_erase] at held
      cases held
    · rw [lookup_erase_ne same] at held
      obtain ⟨_, _, label⟩ := quiet other present held own acts
      cases label
      exact same rfl

theorem insert_discard_effect (begun : BeginCall) (id : String) (now : Nat) :
    DiscardEffect state.discard (HostState.discard { state with
      registry := insert (allocate state.registry now) (newEntry state.registry begun id now)
        begun.owner
      begins := state.begins.erase call }) := by
  have sessions : (settlePending state.registry.inner begun.owner).sessions =
      state.registry.inner.sessions := by
    simp only [settlePending]
    split <;> rfl
  have cells : (fun arc => (if arc = state.registry.nextArc then EntryCell.fresh now
      else state.registry.cells arc).session) =
      Function.update (fun arc => (state.registry.cells arc).session) state.registry.nextArc
        .active := by
    funext arc
    by_cases same : arc = state.registry.nextArc
    · subst same
      rw [if_pos rfl, update_self]
      rfl
    · rw [if_neg same, update_of_ne same]
  simp only [HostState.discard, insert, allocate, updateCell, sessions]
  rw [cells]
  have effect : DiscardEffect state.discard _ :=
    .inserted (newEntry state.registry begun id now) rfl
  exact effect

/-- Every step that kills quietly reaches the sessions in one of the listed ways. -/
theorem step_discard_effect (next : HostState) (label : SessionStep)
    (quietKill : QuietKill state label) (fired : step state label = some next) :
    DiscardEffect state.discard next.discard := by
  have unchanged : DiscardEffect state.discard state.discard :=
    .quiet state.calls (calls_proceed_refl _)
  cases label with
  | beginReserve call caller request =>
    simp only [step, ite_none_left_eq_some, Option.some.injEq] at fired
    obtain ⟨_, rfl⟩ := fired
    unfold beginReserve
    split
    · exact unchanged
    · split
      · rename_i reserved
        simp only [reserve] at reserved
        split at reserved
        · cases reserved
          exact unchanged
        · split at reserved
          · cases reserved
            exact unchanged
          · cases reserved
      · rename_i reserved
        simp only [reserve] at reserved
        split at reserved
        · cases reserved
        · split at reserved
          · cases reserved
          · cases reserved
            exact unchanged
  | beginAccessorFailed call =>
    obtain ⟨begun, _, rfl⟩ := map_eq_some_iff.mp fired
    have sessions : (settlePending state.registry.inner begun.owner).sessions =
        state.registry.inner.sessions := by
      simp only [settlePending]
      split <;> rfl
    simp only [HostState.discard, cancelReservation, sessions]
    exact unchanged
  | beginIdFailed call | beginDropped call =>
    obtain ⟨begun, _, rfl⟩ := map_eq_some_iff.mp fired
    exact unchanged
  | beginInserted call bytes now =>
    obtain ⟨begun, _, fired⟩ := bind_eq_some_iff.mp fired
    simp only [beginInserted, newId, Option.some.injEq] at fired
    subst fired
    exact insert_discard_effect state call begun _ now
  | issue call kind caller id =>
    simp only [step, ite_none_left_eq_some, Option.some.injEq] at fired
    obtain ⟨_, rfl⟩ := fired
    exact issue_discard_effect state call kind caller id quietKill
  | closeAllCandidate call caller id =>
    simp only [step, ite_none_left_eq_some] at fired
    obtain ⟨_, fired⟩ := fired
    split at fired
    · rename_i listed
      obtain ⟨_, fired⟩ := ite_none_right_eq_some.mp fired
      cases fired
      exact .issued call _ id listed
    · cases fired
  | reapCandidate call id now =>
    simp only [step, ite_none_left_eq_some] at fired
    obtain ⟨_, fired⟩ := fired
    obtain ⟨entry, listed, fired⟩ := bind_eq_some_iff.mp fired
    obtain ⟨_, fired⟩ := ite_none_left_eq_some.mp fired
    obtain ⟨reason, _, rfl⟩ := map_eq_some_iff.mp fired
    exact .issued call _ id listed
  | bumpEpoch aliasName =>
    cases fired
    exact unchanged
  | discardCandidate call aliasName id =>
    simp only [step, ite_none_left_eq_some] at fired
    obtain ⟨_, fired⟩ := fired
    obtain ⟨entry, listed, fired⟩ := bind_eq_some_iff.mp fired
    obtain ⟨_, fired⟩ := ite_none_right_eq_some.mp fired
    cases fired
    exact .issued call _ id listed
  | acquire call =>
    obtain ⟨value, found, fired⟩ := bind_eq_some_iff.mp fired
    obtain ⟨⟨waiting, _⟩, fired⟩ := ite_none_right_eq_some.mp fired
    cases fired
    rw [discard_set_call, discard_update_cell _ _ (EntryCell.lock call) fun _ => rfl]
    refine .quiet _ (calls_proceed_insert _ call value _ found rfl fun acts => ?_)
    rcases acts with ⟨kind, _⟩ | ⟨kind, _⟩
    · exact .inl ⟨kind, by rw [waiting]; decide⟩
    · exact .inr ⟨kind, .inl waiting⟩
  | act call =>
    obtain ⟨value, found, fired⟩ := bind_eq_some_iff.mp fired
    obtain ⟨ready, fired⟩ := ite_none_right_eq_some.mp fired
    cases fired
    exact act_discard_effect state call value found ready
  | release call =>
    obtain ⟨value, found, fired⟩ := bind_eq_some_iff.mp fired
    obtain ⟨_, fired⟩ := ite_none_right_eq_some.mp fired
    cases fired
    rw [discard_set_call, discard_update_cell _ _ EntryCell.unlock fun _ => rfl]
    refine .quiet _ (calls_proceed_insert _ call value _ found rfl fun acts => ?_)
    rcases acts with ⟨_, phase⟩ | ⟨_, phase⟩
    · exact absurd rfl phase
    · rcases phase with phase | phase <;> cases phase
  | finish call now =>
    obtain ⟨value, found, fired⟩ := bind_eq_some_iff.mp fired
    obtain ⟨_, fired⟩ := ite_none_right_eq_some.mp fired
    cases fired
    exact finish_discard_effect state call value now found quietKill
  | timeout call attached now =>
    obtain ⟨value, _, fired⟩ := bind_eq_some_iff.mp fired
    obtain ⟨_, fired⟩ := ite_none_right_eq_some.mp fired
    cases fired
    exact timeout_discard_effect state call value attached now quietKill
  | drop call =>
    obtain ⟨value, _, rfl⟩ := map_eq_some_iff.mp fired
    rw [discard_end_call]
    exact .quiet _ (calls_proceed_erase _ call)

theorem discarded_initial (config : DbSessionSection) (boot : BootTag) :
    Discarded (HostState.initial config boot).discard := by
  have noSession : ∀ id entry, (∅ : Finmap fun _ : String => TxSessionEntry).lookup id =
      some entry → False := by
    intro id entry found
    cases found
  have unknown : ∀ entry, ¬(HostState.initial config boot).discard.Known entry := by
    rintro entry (⟨id, found⟩ | ⟨call, value, found, _⟩)
    · exact noSession id entry found
    · have empty : (∅ : Finmap fun _ : Nat => SessionCall).lookup call = none := lookup_empty call
      exact absurd (empty.symm.trans found) (by simp)
  have undoomed : ∀ arc, ¬Doomed (HostState.initial config boot).discard.events arc := by
    rintro arc ⟨_, _, member⟩
    cases member
  exact ⟨fun id entry found => absurd found (noSession id entry),
    fun entry known => absurd known (unknown entry),
    fun entry _ known => absurd known (unknown entry),
    fun arc doomed => absurd doomed (undoomed arc),
    fun arc doomed => absurd doomed (undoomed arc),
    fun arc doomed => absurd doomed (undoomed arc), List.Pairwise.nil⟩

/-- A discarded session is never committed and never runs a statement, in every
run whose kills find no other call that can still act. -/
theorem discarded_session_is_final (config : DbSessionSection) (boot : BootTag)
    (state : HostState) (reached : Reachable (sessionSystem config boot) QuietKill state) :
    DiscardIsFinal state.events := by
  have step_keeps : Preserved (sessionSystem config boot) QuietKill
      (fun state => Discarded state.discard) := by
    intro before label next invariant quietKill fired
    exact discarded_effect (step_discard_effect before next label quietKill fired) invariant
  have invariant := invariant_of_step (discarded_initial config boot) step_keeps reached
  exact invariant.final

def sampleOpening : List SessionStep :=
  [.beginReserve 0 sampleCaller sampleRequest, .beginInserted 0 (sampleBytes 0) 0]

/-- The decidable half of `QuietKill`: what the step kills is already consumed. -/
def killsConsumed (state : HostState) (label : SessionStep) : Bool :=
  match doomedBy state label with
  | none => true
  | some entry => (state.registry.cells entry.arc).session = .consumed

theorem quiet_of_kills_consumed (label : SessionStep)
    (consumed : killsConsumed state label = true) :
    QuietKill state label := by
  intro entry doomed
  simp only [killsConsumed, doomed, decide_eq_true_eq] at consumed
  exact .inl consumed

/-- A session that the reaper rolled back is killed with nothing left to act on. -/
theorem discarded_session_is_final_reaped :
    ∃ state : HostState, state.events = [.killed 0 .expired, .rolledBack 0] ∧
      DiscardIsFinal state.events := by
  have ran : ((sessionSystem enabledSection sampleBoot).runWhere killsConsumed
      (.initial enabledSection sampleBoot) (sampleOpening ++ [.reapCandidate 1 sampleId 400000,
        .acquire 1, .act 1, .release 1, .finish 1 400000])).map HostState.events =
          some [.killed 0 .expired, .rolledBack 0] := by
    decide +kernel
  obtain ⟨state, ran, events⟩ := map_eq_some_iff.mp ran
  have path := path_of_run_where killsConsumed quiet_of_kills_consumed _ _ _ ran
  exact ⟨state, events, discarded_session_is_final enabledSection sampleBoot state ⟨_, path⟩⟩

/-- A commit that passed its lookup before the alias was re-registered commits
the discarded session. -/
theorem discarded_session_commits :
    ¬∀ state, Reachable (sessionSystem enabledSection sampleBoot) Unrestricted state →
      DiscardIsFinal state.events := by
  intro claimed
  have ran : ((sessionSystem enabledSection sampleBoot).run (.initial enabledSection sampleBoot)
      (sampleOpening ++ [.issue 1 .commit sampleCaller sampleId,
        .discardCandidate 2 "default" sampleId, .finish 2 0, .acquire 1, .act 1])).map
          HostState.events = some [.committed 0, .killed 0 .discarded] := by
    decide +kernel
  obtain ⟨state, ran, events⟩ := map_eq_some_iff.mp ran
  have final := claimed state ⟨_, path_of_run _ _ _ ran⟩
  rw [events] at final
  have ordered := List.rel_of_pairwise_cons final (List.mem_singleton_self _)
  exact ordered 0 .discarded (by decide) rfl (.inr rfl)

end OnlyJs.Bridge.DbSession
