import OnlyJs.Bridge.DbSession.Discard

/-!
# Whose handle an id is

As long as the random source repeats no id that is still in use, everything that is
kept under an id (a session, the entry of a call, a tombstone) belongs to one owner,
and an allocation belongs to one entry.
-/

namespace OnlyJs.Bridge.DbSession

open Finmap Option Bridge.HandleCore Lib.FiniteMap Lib.StepSystem

/-- The table or a call refers to the entry. -/
def HostState.Known (state : HostState) (entry : TxSessionEntry) : Prop :=
  state.discard.Known entry

def HostState.handles (state : HostState) : Multiset String :=
  state.registry.inner.sessions.entries.map (fun item => item.2.id) +
    state.calls.entries.map (fun item => item.2.entry.id) + state.registry.tombstones.map Prod.fst

/-- The random source gives no id that is in use. -/
def drawsUnused (state : HostState) : SessionStep → Bool
  | .beginInserted _ bytes _ =>
    match newId handlePrefix state.registry.boot (.ok bytes) with
    | .error _ => true
    | .ok id => decide (id ∉ state.handles)
  | _ => true

def DrawsUnused (state : HostState) (label : SessionStep) : Prop := drawsUnused state label = true

/-- What is kept under one id has one owner, and an allocation belongs to one entry. -/
structure Distinct (state : HostState) : Prop where
  keyed : ∀ id entry, state.registry.inner.sessions.lookup id = some entry → entry.id = id
  allocated : ∀ entry, state.Known entry → entry.arc < state.registry.nextArc
  coherent : ∀ entry other, state.Known entry → state.Known other → entry.arc = other.arc →
    entry = other
  owned : ∀ entry other, state.Known entry → state.Known other → entry.id = other.id →
    entry.owner = other.owner
  buried : ∀ entry item, state.Known entry → item ∈ state.registry.tombstones →
    item.1 = entry.id → item.2.owner = entry.owner

/-- A step that brings in no entry; its tombstones are old ones or those of entries
that were known. -/
structure Carries (state next : HostState) : Prop where
  listed : ∀ id entry, next.registry.inner.sessions.lookup id = some entry →
    state.registry.inner.sessions.lookup id = some entry
  called : ∀ call value, next.calls.lookup call = some value → state.Known value.entry
  arcs : next.registry.nextArc = state.registry.nextArc
  tombstones : ∀ item ∈ next.registry.tombstones, item ∈ state.registry.tombstones ∨
    ∃ entry, state.Known entry ∧ item.1 = entry.id ∧ item.2.owner = entry.owner

variable {next state : HostState}

theorem known_carries (carries : Carries state next) (entry : TxSessionEntry)
    (known : next.Known entry) : state.Known entry := by
  rcases known with ⟨id, found⟩ | ⟨call, value, found, rfl⟩
  · exact .inl ⟨id, carries.listed id entry found⟩
  · exact carries.called call value found

theorem carries_same (state next : HostState)
    (sessions : next.registry.inner.sessions = state.registry.inner.sessions)
    (calls : next.calls = state.calls)
    (arcs : next.registry.nextArc = state.registry.nextArc)
    (tombstones : next.registry.tombstones = state.registry.tombstones) : Carries state next := by
  refine ⟨?_, ?_, arcs, ?_⟩
  · intro id entry found
    rw [← sessions]
    exact found
  · intro call value found
    rw [calls] at found
    exact .inr ⟨call, value, found, rfl⟩
  · intro item member
    rw [tombstones] at member
    exact .inl member

section

variable (carries : Carries state next)
include carries

theorem carries_updateCell (arc : Nat) (change : EntryCell → EntryCell) :
    Carries state (next.updateCell arc change) :=
  ⟨carries.listed, carries.called, carries.arcs, carries.tombstones⟩

theorem carries_record (event : TxEvent) :
    Carries state (next.record event) :=
  ⟨carries.listed, carries.called, carries.arcs, carries.tombstones⟩

theorem carries_setCall (call : Nat) (value : SessionCall) (known : state.Known value.entry) :
    Carries state (next.setCall call value) := by
  refine ⟨carries.listed, ?_, carries.arcs, carries.tombstones⟩
  intro other present found
  by_cases same : other = call
  · subst same
    rw [HostState.setCall, lookup_insert] at found
    cases found
    exact known
  · rw [HostState.setCall, lookup_insert_of_ne _ same] at found
    exact carries.called other present found

theorem carries_eraseCall (call : Nat) :
    Carries state { next with calls := next.calls.erase call } := by
  refine ⟨carries.listed, ?_, carries.arcs, carries.tombstones⟩
  intro other value found
  by_cases same : other = call
  · subst same
    rw [lookup_erase] at found
    cases found
  · rw [lookup_erase_ne same] at found
    exact carries.called other value found

end

theorem kill_tombstones (state : HostState) (entry : TxSessionEntry) (end_ : KillState)
    (reason : String) (now : Nat) :
    (state.kill entry end_ reason now).registry.tombstones =
      ((entry.id, { owner := entry.owner, state := end_, reason, noted := now }) ::
        state.registry.tombstones).take tombstoneCap := by
  simp only [HostState.kill, kill]
  split <;> rfl

theorem carries_kill (carries : Carries state next) (entry : TxSessionEntry) (end_ : KillState)
    (reason : String) (now : Nat) (known : state.Known entry) :
    Carries state (next.kill entry end_ reason now) := by
  have view := discard_kill next entry end_ reason now
  refine ⟨?_, ?_, ?_, ?_⟩
  · intro id other found
    have sessions : (next.kill entry end_ reason now).registry.inner.sessions =
        sessionsWithout next.registry.inner.sessions entry := congrArg DiscardView.sessions view
    rw [sessions] at found
    exact carries.listed id other (listed_of_without _ entry id other found)
  · exact carries.called
  · exact (congrArg DiscardView.nextArc view).trans carries.arcs
  · intro item member
    rw [kill_tombstones] at member
    rcases List.mem_cons.mp (List.mem_of_mem_take member) with rfl | old
    · exact .inr ⟨entry, known, rfl, rfl⟩
    · exact carries.tombstones item old

theorem carries_refl (state : HostState) : Carries state state :=
  carries_same state state rfl rfl rfl rfl

theorem carries_endCall (state : HostState) (call : Nat) (value : SessionCall) :
    Carries state (state.endCall call value) :=
  carries_eraseCall (carries_updateCell (carries_refl state) _ _) call

/-- A begin enters one entry with a new allocation. -/
structure Enters (state next : HostState) (entry : TxSessionEntry) : Prop where
  sessions : next.registry.inner.sessions = state.registry.inner.sessions.insert entry.id entry
  calls : next.calls = state.calls
  arc : entry.arc = state.registry.nextArc
  arcs : next.registry.nextArc = state.registry.nextArc + 1
  tombstones : next.registry.tombstones = state.registry.tombstones
  unused : entry.id ∉ state.handles

theorem reserve_kept (registry next : TxSessionRegistry) (owner : Owner)
    (result : Except String Unit) (reserved : reserve registry owner = (result, next)) :
    next.inner.sessions = registry.inner.sessions ∧ next.nextArc = registry.nextArc ∧
      next.tombstones = registry.tombstones := by
  simp only [reserve] at reserved
  split at reserved
  · cases reserved
    exact ⟨rfl, rfl, rfl⟩
  split at reserved
  · cases reserved
    exact ⟨rfl, rfl, rfl⟩
  · cases reserved
    exact ⟨rfl, rfl, rfl⟩

theorem issue_carries (state : HostState) (call : Nat) (kind : CallKind) (caller : Caller)
    (id : String) : Carries state (issue state call kind caller id) := by
  unfold issue
  split
  · exact carries_refl state
  split
  · exact carries_refl state
  · rename_i verdict
    have listed := lookup_entry_killed _ _ _ _ _ _ _ _ verdict
    exact carries_kill (carries_refl state) _ _ _ _ (.inl ⟨id, listed⟩)
  · rename_i verdict
    have listed := lookup_entry_found _ _ _ _ _ verdict
    split
    · exact carries_setCall (carries_updateCell (carries_refl state) _ _) call _ (.inl ⟨id, listed⟩)
    · exact carries_setCall (carries_refl state) call _ (.inl ⟨id, listed⟩)

theorem act_carries (state : HostState) (call : Nat) (value : SessionCall)
    (known : state.Known value.entry) : Carries state (act state call value) := by
  have acted : Carries state (state.setCall call { value with phase := .acted }) :=
    carries_setCall (carries_refl state) call _ known
  unfold act
  dsimp only
  split
  · split
    · exact carries_record acted _
    · exact carries_record (carries_updateCell acted _ _) _
    · exact carries_record (carries_updateCell acted _ _) _
  · exact acted

theorem finish_carries (state : HostState) (call : Nat) (value : SessionCall) (now : Nat)
    (known : state.Known value.entry) : Carries state (finish state call value now) := by
  have ended := carries_eraseCall (carries_refl state) call
  unfold finish
  cases value.kind with
  | statement => exact ended
  | commit | rollback | close | closeAll | reap reason | discardAlias =>
    exact carries_kill ended _ _ _ _ known

theorem timeout_carries (state : HostState) (call : Nat) (value : SessionCall)
    (attached : Option String) (now : Nat) :
    Carries state (timeout state call value attached now) := by
  have dropped := carries_endCall state call value
  unfold timeout
  dsimp only
  split
  · exact dropped
  · rename_i entry target
    obtain ⟨id, -, listed⟩ := bind_eq_some_iff.mp target
    exact carries_kill dropped _ _ _ _ (.inl ⟨id, listed⟩)

/-- A step brings in no entry, or it is the end of a begin. -/
theorem step_carries (state next : HostState) (label : SessionStep)
    (unused : DrawsUnused state label) (fired : step state label = some next) :
    Carries state next ∨ ∃ entry, Enters state next entry := by
  have called : ∀ call value, state.calls.lookup call = some value → state.Known value.entry :=
    fun call value found => .inr ⟨call, value, found, rfl⟩
  cases label with
  | beginReserve call caller request =>
    simp only [step, ite_none_left_eq_some, Option.some.injEq] at fired
    obtain ⟨-, rfl⟩ := fired
    refine .inl ?_
    unfold beginReserve
    split
    · exact carries_refl state
    split
    · rename_i reserved
      obtain ⟨sessions, arcs, tombstones⟩ := reserve_kept _ _ _ _ reserved
      exact carries_same state _ sessions rfl arcs tombstones
    · rename_i reserved
      obtain ⟨sessions, arcs, tombstones⟩ := reserve_kept _ _ _ _ reserved
      exact carries_same state _ sessions rfl arcs tombstones
  | beginAccessorFailed call =>
    obtain ⟨begun, -, rfl⟩ := map_eq_some_iff.mp fired
    exact .inl (carries_same state _ (settle_pending_sessions _ _) rfl rfl rfl)
  | beginIdFailed call | beginDropped call =>
    obtain ⟨begun, -, rfl⟩ := map_eq_some_iff.mp fired
    exact .inl (carries_same state _ rfl rfl rfl rfl)
  | beginInserted call bytes now =>
    obtain ⟨begun, -, fired⟩ := bind_eq_some_iff.mp fired
    simp only [beginInserted, newId, Option.some.injEq] at fired
    simp only [DrawsUnused, drawsUnused, newId, decide_eq_true_eq] at unused
    subst fired
    refine .inr ⟨newEntry state.registry begun _ now, ?_, rfl, rfl, rfl, rfl, unused⟩
    simp only [insert, allocate, updateCell, settle_pending_sessions]
  | issue call kind caller id =>
    simp only [step, ite_none_left_eq_some, Option.some.injEq] at fired
    obtain ⟨-, rfl⟩ := fired
    exact .inl (issue_carries state call kind caller id)
  | closeAllCandidate call caller id =>
    simp only [step, ite_none_left_eq_some] at fired
    obtain ⟨-, fired⟩ := fired
    split at fired
    · rename_i listed
      obtain ⟨-, fired⟩ := ite_none_right_eq_some.mp fired
      cases fired
      exact .inl (carries_setCall (carries_refl state) call _ (.inl ⟨id, listed⟩))
    · cases fired
  | reapCandidate call id now =>
    simp only [step, ite_none_left_eq_some] at fired
    obtain ⟨-, fired⟩ := fired
    obtain ⟨entry, listed, fired⟩ := bind_eq_some_iff.mp fired
    obtain ⟨-, fired⟩ := ite_none_left_eq_some.mp fired
    obtain ⟨reason, -, rfl⟩ := map_eq_some_iff.mp fired
    exact .inl (carries_setCall (carries_refl state) call _ (.inl ⟨id, listed⟩))
  | bumpEpoch aliasName =>
    cases fired
    exact .inl (carries_same state _ rfl rfl rfl rfl)
  | discardCandidate call aliasName id =>
    simp only [step, ite_none_left_eq_some] at fired
    obtain ⟨-, fired⟩ := fired
    obtain ⟨entry, listed, fired⟩ := bind_eq_some_iff.mp fired
    obtain ⟨-, fired⟩ := ite_none_right_eq_some.mp fired
    cases fired
    exact .inl (carries_setCall (carries_refl state) call _ (.inl ⟨id, listed⟩))
  | acquire call =>
    obtain ⟨value, found, fired⟩ := bind_eq_some_iff.mp fired
    obtain ⟨-, fired⟩ := ite_none_right_eq_some.mp fired
    cases fired
    exact .inl (carries_setCall (carries_updateCell (carries_refl state) _ _) call _
      (called call value found))
  | act call =>
    obtain ⟨value, found, fired⟩ := bind_eq_some_iff.mp fired
    obtain ⟨-, fired⟩ := ite_none_right_eq_some.mp fired
    cases fired
    exact .inl (act_carries state call value (called call value found))
  | release call =>
    obtain ⟨value, found, fired⟩ := bind_eq_some_iff.mp fired
    obtain ⟨-, fired⟩ := ite_none_right_eq_some.mp fired
    cases fired
    exact .inl (carries_setCall (carries_updateCell (carries_refl state) _ _) call _
      (called call value found))
  | finish call now =>
    obtain ⟨value, found, fired⟩ := bind_eq_some_iff.mp fired
    obtain ⟨-, fired⟩ := ite_none_right_eq_some.mp fired
    cases fired
    exact .inl (finish_carries state call value now (called call value found))
  | timeout call attached now =>
    obtain ⟨value, -, fired⟩ := bind_eq_some_iff.mp fired
    obtain ⟨-, fired⟩ := ite_none_right_eq_some.mp fired
    cases fired
    exact .inl (timeout_carries state call value attached now)
  | drop call =>
    obtain ⟨value, -, rfl⟩ := map_eq_some_iff.mp fired
    exact .inl (carries_endCall state call value)

theorem id_mem_handles (state : HostState) (entry : TxSessionEntry) (known : state.Known entry) :
    entry.id ∈ state.handles := by
  rw [HostState.handles, Multiset.mem_add, Multiset.mem_add]
  rcases known with ⟨id, found⟩ | ⟨call, value, found, rfl⟩
  · refine .inl (.inl (Multiset.mem_map.mpr ⟨⟨id, entry⟩, ?_, rfl⟩))
    exact (lookup_eq_some_iff _ id entry).mp found
  · refine .inl (.inr (Multiset.mem_map.mpr ⟨⟨call, value⟩, ?_, rfl⟩))
    exact (lookup_eq_some_iff _ call value).mp found

theorem tombstone_mem_handles (state : HostState) (item : String × Tombstone)
    (member : item ∈ state.registry.tombstones) : item.1 ∈ state.handles := by
  rw [HostState.handles, Multiset.mem_add]
  exact .inr (List.mem_map_of_mem member)

theorem distinct_carries (state next : HostState) (carries : Carries state next)
    (distinct : Distinct state) : Distinct next := by
  have known := known_carries carries
  constructor
  · intro id entry found
    exact distinct.keyed id entry (carries.listed id entry found)
  · intro entry held
    rw [carries.arcs]
    exact distinct.allocated entry (known entry held)
  · intro entry other held heldOther same
    exact distinct.coherent entry other (known entry held) (known other heldOther) same
  · intro entry other held heldOther same
    exact distinct.owned entry other (known entry held) (known other heldOther) same
  · intro entry item held member same
    rcases carries.tombstones item member with old | ⟨other, heldOther, id, owner⟩
    · exact distinct.buried entry item (known entry held) old same
    · rw [owner]
      exact distinct.owned other entry heldOther (known entry held) (id.symm.trans same)

section

variable (state next : HostState) (entry : TxSessionEntry) (enters : Enters state next entry)
include entry enters

theorem known_enters (other : TxSessionEntry) (known : next.Known other) :
    other = entry ∨ state.Known other := by
  rcases known with ⟨id, found⟩ | ⟨call, value, found, rfl⟩
  · have found : next.registry.inner.sessions.lookup id = some other := found
    rw [enters.sessions] at found
    by_cases same : id = entry.id
    · subst same
      rw [lookup_insert] at found
      exact .inl (Option.some.inj found).symm
    · rw [lookup_insert_of_ne _ same] at found
      exact .inr (.inl ⟨id, found⟩)
  · have found : next.calls.lookup call = some value := found
    rw [enters.calls] at found
    exact .inr (.inr ⟨call, value, found, rfl⟩)

theorem distinct_enters (distinct : Distinct state) : Distinct next := by
  have known := known_enters state next entry enters
  have apart : ∀ other, state.Known other → other.arc ≠ entry.arc ∧ other.id ≠ entry.id := by
    intro other held
    constructor
    · rw [enters.arc]
      exact Nat.ne_of_lt (distinct.allocated other held)
    · intro same
      exact enters.unused (same ▸ id_mem_handles state other held)
  constructor
  · intro id other found
    rw [enters.sessions] at found
    by_cases same : id = entry.id
    · subst same
      rw [lookup_insert] at found
      cases found
      rfl
    · rw [lookup_insert_of_ne _ same] at found
      exact distinct.keyed id other found
  · intro other held
    rw [enters.arcs]
    rcases known other held with rfl | old
    · rw [enters.arc]
      exact Nat.lt_succ_self _
    · exact Nat.lt_succ_of_lt (distinct.allocated other old)
  · intro first second heldFirst heldSecond same
    rcases known first heldFirst with rfl | oldFirst
    · rcases known second heldSecond with rfl | oldSecond
      · rfl
      · exact absurd same.symm (apart second oldSecond).1
    · rcases known second heldSecond with rfl | oldSecond
      · exact absurd same (apart first oldFirst).1
      · exact distinct.coherent first second oldFirst oldSecond same
  · intro first second heldFirst heldSecond same
    rcases known first heldFirst with rfl | oldFirst
    · rcases known second heldSecond with rfl | oldSecond
      · rfl
      · exact absurd same.symm (apart second oldSecond).2
    · rcases known second heldSecond with rfl | oldSecond
      · exact absurd same (apart first oldFirst).2
      · exact distinct.owned first second oldFirst oldSecond same
  · intro other item held member same
    rw [enters.tombstones] at member
    rcases known other held with rfl | old
    · exact absurd (same ▸ tombstone_mem_handles state item member) enters.unused
    · exact distinct.buried other item old member same

end

variable (config : DbSessionSection) (boot : BootTag)

theorem distinct_initial :
    Distinct (.initial config boot) := by
  have unknown : ∀ entry, ¬ (HostState.initial config boot).Known entry := by
    rintro entry (⟨id, found⟩ | ⟨call, value, found, -⟩)
    · cases found
    · cases found
  constructor
  · intro id entry found
    cases found
  · exact fun entry known => absurd known (unknown entry)
  · exact fun entry _ known => absurd known (unknown entry)
  · exact fun entry _ known => absurd known (unknown entry)
  · exact fun entry _ known => absurd known (unknown entry)

theorem distinct_reachable (state : HostState)
    (reached : Reachable (sessionSystem config boot) DrawsUnused state) : Distinct state := by
  apply invariant_of_step (distinct_initial config boot) ?_ reached
  intro before label next distinct unused fired
  rcases step_carries before next label unused fired with carries | ⟨entry, enters⟩
  · exact distinct_carries before next carries distinct
  · exact distinct_enters before next entry enters distinct

end OnlyJs.Bridge.DbSession
