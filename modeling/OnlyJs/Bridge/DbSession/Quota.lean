import OnlyJs.Bridge.DbSession.System

/-!
# Session quotas

Slots are counted in two places: sessions in the table and reservations of
begins that are still opening. A step reaches the counters in one of few ways;
they are classified once, and the accounting invariant is proved per effect.
-/

namespace OnlyJs.Bridge.DbSession

open Finmap Option Bridge.HandleCore Lib.FiniteMap Lib.StepSystem

/-- What the limits depend on. -/
structure QuotaView where
  inner : Inner
  begins : Finmap fun _ : Nat => BeginCall
  config : DbSessionSection

def HostState.quota (state : HostState) : QuotaView where
  inner := state.registry.inner
  begins := state.begins
  config := state.registry.config

def QuotaView.opening (view : QuotaView) (key : OwnerKey) : Nat :=
  weight (fun _ (begun : BeginCall) => if OwnerKey.of begun.owner = key then 1 else 0)
    view.begins

def Inner.reserved (inner : Inner) (owner : Owner) : Inner :=
  { inner with
    pending := inner.pending.insert (OwnerKey.of owner) (inner.pendingOf (OwnerKey.of owner) + 1)
    pendingTotal := inner.pendingTotal + 1 }

def Inner.setSessions (inner : Inner) (sessions : Finmap fun _ : String => TxSessionEntry) :
    Inner :=
  { inner with sessions }

/-- The ways in which one step reaches the counters. `leaked` is a begin that
ends without giving its reservation back. -/
inductive QuotaEffect (view : QuotaView) : SessionStep → QuotaView → Prop where
  | unchanged (label : SessionStep) : QuotaEffect view label view
  | detached (label : SessionStep) (entry : TxSessionEntry) :
      QuotaEffect view label { view with inner := view.inner.detach entry }
  | reserved (call : Nat) (caller : Caller) (request : BeginRequest) (begun : BeginCall)
      (fresh : call ∉ view.begins) (owner : begun.owner = caller.owner)
      (roomTotal : size view.inner.sessions + view.inner.pendingTotal < view.config.maxSessions)
      (roomOwner : view.inner.owned caller.owner +
        view.inner.pendingOf (OwnerKey.of caller.owner) < view.config.maxPerOwner) :
      QuotaEffect view (.beginReserve call caller request)
        { view with
          inner := view.inner.reserved caller.owner
          begins := view.begins.insert call begun }
  | cancelled (call : Nat) (begun : BeginCall) (found : view.begins.lookup call = some begun) :
      QuotaEffect view (.beginAccessorFailed call)
        { view with
          inner := settlePending view.inner begun.owner
          begins := view.begins.erase call }
  | inserted (call : Nat) (bytes : RandomBytes) (now : Nat) (begun : BeginCall)
      (entry : TxSessionEntry) (found : view.begins.lookup call = some begun)
      (owner : entry.owner = begun.owner) :
      QuotaEffect view (.beginInserted call bytes now)
        { view with
          inner := (settlePending view.inner begun.owner).setSessions
            (view.inner.sessions.insert entry.id entry)
          begins := view.begins.erase call }
  | leaked (label : SessionStep) (call : Nat)
      (kind : label = .beginIdFailed call ∨ label = .beginDropped call)
      (begun : BeginCall) (found : view.begins.lookup call = some begun) :
      QuotaEffect view label { view with begins := view.begins.erase call }

variable (inner : Inner) (owner : Owner) (state : HostState) (label : SessionStep) (call : Nat)
  (value : SessionCall) (entry : TxSessionEntry)

@[simp] theorem quota_kill (end_ : KillState) (reason : String) (now : Nat) :
    (state.kill entry end_ reason now).quota =
      { state.quota with inner := state.quota.inner.detach entry } := by
  unfold HostState.kill HostState.quota kill noteTombstone updateCell
  split <;> rfl

@[simp] theorem quota_update_cell (arc : Nat) (change : EntryCell → EntryCell) :
    (state.updateCell arc change).quota = state.quota := rfl

@[simp] theorem quota_set_call :
    (state.setCall call value).quota = state.quota := rfl

@[simp] theorem quota_end_call :
    (state.endCall call value).quota = state.quota := rfl

theorem reserve_quota_effect (caller : Caller) (request : BeginRequest)
    (fresh : call ∉ state.begins) :
    QuotaEffect state.quota (.beginReserve call caller request)
      (beginReserve state call caller request).quota := by
  unfold beginReserve
  cases checked : beginChecks state.registry caller request with
  | error message => exact .unchanged _
  | ok _ =>
    simp only [reserve]
    by_cases full : state.registry.config.maxSessions ≤
        size state.registry.inner.sessions + state.registry.inner.pendingTotal
    · simp only [if_pos full]
      exact .unchanged _
    · simp only [if_neg full]
      by_cases crowded : state.registry.config.maxPerOwner ≤
          state.registry.inner.owned caller.owner +
            state.registry.inner.pendingOf (OwnerKey.of caller.owner)
      · simp only [if_pos crowded]
        exact .unchanged _
      · simp only [if_neg crowded]
        exact .reserved call caller request _ fresh rfl (not_le.mp full) (not_le.mp crowded)

theorem act_quota :
    (act state call value).quota = state.quota := by
  simp only [act]
  split
  · split <;> rfl
  · rfl

theorem issue_quota_effect (kind : CallKind) (caller : Caller) (id : String) :
    QuotaEffect state.quota label (issue state call kind caller id).quota := by
  unfold issue
  cases requireGate state.registry caller with
  | error message => exact .unchanged _
  | ok _ =>
    cases lookupEntry state.registry state.epochs caller id with
    | refused message => exact .unchanged _
    | killed entry end_ reason message =>
      simp only [quota_kill]
      exact .detached label entry
    | found entry =>
      simp only [quota_set_call]
      split
      · exact .unchanged _
      · exact .unchanged _

theorem finish_quota_effect (now : Nat) :
    QuotaEffect state.quota label (finish state call value now).quota := by
  unfold finish
  cases value.kind with
  | statement => exact .unchanged _
  | _ =>
    simp only [quota_kill]
    exact .detached label value.entry

theorem timeout_quota_effect (attached : Option String) (now : Nat) :
    QuotaEffect state.quota label (timeout state call value attached now).quota := by
  simp only [timeout]
  split
  · exact .unchanged _
  · rename_i entry _
    simp only [quota_kill]
    exact .detached label entry

/-- Every step reaches the counters in one of the listed ways. -/
theorem step_quota_effect (next : HostState) (label : SessionStep)
    (fired : step state label = some next) : QuotaEffect state.quota label next.quota := by
  cases label with
  | beginReserve call caller request =>
    simp only [step, ite_none_left_eq_some, Option.some.injEq] at fired
    obtain ⟨fresh, rfl⟩ := fired
    exact reserve_quota_effect state call caller request fresh
  | beginAccessorFailed call =>
    obtain ⟨begun, found, rfl⟩ := map_eq_some_iff.mp fired
    exact .cancelled call begun found
  | beginIdFailed call =>
    obtain ⟨begun, found, rfl⟩ := map_eq_some_iff.mp fired
    exact .leaked _ call (.inl rfl) begun found
  | beginDropped call =>
    obtain ⟨begun, found, rfl⟩ := map_eq_some_iff.mp fired
    exact .leaked _ call (.inr rfl) begun found
  | beginInserted call bytes now =>
    obtain ⟨begun, found, fired⟩ := bind_eq_some_iff.mp fired
    simp only [beginInserted, newId, Option.some.injEq] at fired
    subst fired
    have effect : QuotaEffect state.quota (.beginInserted call bytes now) _ :=
      .inserted call bytes now begun (newEntry state.registry begun
        (handlePrefix ++ state.registry.boot.text ++ "_" ++ hex bytes.bytes) now) found rfl
    rw [← settle_pending_sessions state.quota.inner begun.owner] at effect
    exact effect
  | issue call kind caller id =>
    simp only [step, ite_none_left_eq_some, Option.some.injEq] at fired
    obtain ⟨_, rfl⟩ := fired
    exact issue_quota_effect state _ call kind caller id
  | closeAllCandidate call caller id =>
    simp only [step, ite_none_left_eq_some] at fired
    obtain ⟨_, fired⟩ := fired
    split at fired
    · obtain ⟨_, fired⟩ := ite_none_right_eq_some.mp fired
      cases fired
      exact .unchanged _
    · cases fired
  | reapCandidate call id now =>
    simp only [step, ite_none_left_eq_some] at fired
    obtain ⟨_, fired⟩ := fired
    obtain ⟨entry, _, fired⟩ := bind_eq_some_iff.mp fired
    obtain ⟨_, fired⟩ := ite_none_left_eq_some.mp fired
    obtain ⟨reason, _, rfl⟩ := map_eq_some_iff.mp fired
    exact .unchanged _
  | bumpEpoch aliasName =>
    cases fired
    exact .unchanged _
  | discardCandidate call aliasName id =>
    simp only [step, ite_none_left_eq_some] at fired
    obtain ⟨_, fired⟩ := fired
    obtain ⟨entry, _, fired⟩ := bind_eq_some_iff.mp fired
    obtain ⟨_, fired⟩ := ite_none_right_eq_some.mp fired
    cases fired
    exact .unchanged _
  | acquire call =>
    obtain ⟨value, _, fired⟩ := bind_eq_some_iff.mp fired
    obtain ⟨_, fired⟩ := ite_none_right_eq_some.mp fired
    cases fired
    exact .unchanged _
  | act call =>
    obtain ⟨value, _, fired⟩ := bind_eq_some_iff.mp fired
    obtain ⟨_, fired⟩ := ite_none_right_eq_some.mp fired
    cases fired
    rw [act_quota]
    exact .unchanged _
  | release call =>
    obtain ⟨value, _, fired⟩ := bind_eq_some_iff.mp fired
    obtain ⟨_, fired⟩ := ite_none_right_eq_some.mp fired
    cases fired
    exact .unchanged _
  | finish call now =>
    obtain ⟨value, _, fired⟩ := bind_eq_some_iff.mp fired
    obtain ⟨_, fired⟩ := ite_none_right_eq_some.mp fired
    cases fired
    exact finish_quota_effect state _ call value now
  | timeout call attached now =>
    obtain ⟨value, _, fired⟩ := bind_eq_some_iff.mp fired
    obtain ⟨_, fired⟩ := ite_none_right_eq_some.mp fired
    cases fired
    exact timeout_quota_effect state _ call value attached now
  | drop call =>
    obtain ⟨value, _, rfl⟩ := map_eq_some_iff.mp fired
    exact .unchanged _

theorem same_subject_iff (other : Owner) :
    owner.sameSubject other = true ↔ OwnerKey.of owner = OwnerKey.of other := by
  simp [Owner.sameSubject, OwnerKey.of]

variable (key : OwnerKey)

theorem pendingOf_reserved :
    (inner.reserved owner).pendingOf key =
      (if OwnerKey.of owner = key then 1 else 0) + inner.pendingOf key := by
  unfold Inner.reserved Inner.pendingOf
  by_cases same : OwnerKey.of owner = key
  · subst same
    rw [lookup_insert, if_pos rfl]
    exact Nat.add_comm _ _
  · have other : key ≠ OwnerKey.of owner := fun eq => same eq.symm
    rw [lookup_insert_of_ne _ other, if_neg same]
    exact (Nat.zero_add _).symm

theorem pending_sum_split :
    weight (fun _ n => n) inner.pending =
      inner.pendingOf key + weight (fun _ n => n) (inner.pending.erase key) := by
  unfold Inner.pendingOf
  cases found : inner.pending.lookup key with
  | none =>
    rw [erase_of_notMem key inner.pending (lookup_eq_none.mp found)]
    exact (Nat.zero_add _).symm
  | some n => exact weight_erase_of_lookup _ key n inner.pending found

theorem pending_sum_reserved :
    weight (fun _ n => n) (inner.reserved owner).pending =
      1 + weight (fun _ n => n) inner.pending := by
  rw [pending_sum_split inner (OwnerKey.of owner)]
  simp only [Inner.reserved]
  rw [weight_insert]
  omega

theorem settle_pending_of_lookup (n : Nat)
    (found : inner.pending.lookup (OwnerKey.of owner) = some (n + 1)) :
    settlePending inner owner =
      { inner with
        pending :=
          if n = 0 then inner.pending.erase (OwnerKey.of owner)
          else inner.pending.insert (OwnerKey.of owner) n
        pendingTotal := inner.pendingTotal - 1 } := by
  simp only [settlePending, found, Nat.add_sub_cancel]

theorem settle_reserved (positive : ∀ key n, inner.pending.lookup key = some n → 0 < n) :
    settlePending (inner.reserved owner) owner = inner := by
  have found : (inner.reserved owner).pending.lookup (OwnerKey.of owner) =
      some (inner.pendingOf (OwnerKey.of owner) + 1) := lookup_insert _
  rw [settle_pending_of_lookup _ owner _ found]
  have table : (if inner.pendingOf (OwnerKey.of owner) = 0
      then (inner.reserved owner).pending.erase (OwnerKey.of owner)
      else (inner.reserved owner).pending.insert (OwnerKey.of owner)
        (inner.pendingOf (OwnerKey.of owner))) = inner.pending := by
    apply ext_lookup
    intro key
    unfold Inner.reserved Inner.pendingOf
    by_cases same : key = OwnerKey.of owner
    · subst same
      cases held : inner.pending.lookup (OwnerKey.of owner) with
      | none => simp
      | some n =>
        have counted : n ≠ 0 := Nat.ne_of_gt (positive _ n held)
        simp [counted]
    · split
      · rw [lookup_erase_ne same, lookup_insert_of_ne _ same]
      · rw [lookup_insert_of_ne _ same, lookup_insert_of_ne _ same]
  rw [table]
  rfl

/-- The accounting invariant: the table of reservations is exactly the table of
begins in flight, and both limits hold. -/
structure Accounted (view : QuotaView) : Prop where
  pendingTable : ∀ key, view.inner.pending.lookup key =
    if view.opening key = 0 then none else some (view.opening key)
  pendingSum : view.inner.pendingTotal = weight (fun _ n => n) view.inner.pending
  pendingBegins : view.inner.pendingTotal = size view.begins
  withinTotal : size view.inner.sessions + view.inner.pendingTotal ≤ view.config.maxSessions
  withinOwner : ∀ owner, view.inner.owned owner + view.inner.pendingOf (OwnerKey.of owner) ≤
    view.config.maxPerOwner

variable {view : QuotaView}

theorem Accounted.pendingOf_eq (accounted : Accounted view) (key : OwnerKey) :
    view.inner.pendingOf key = view.opening key := by
  unfold Inner.pendingOf
  rw [accounted.pendingTable key]
  split
  · rename_i none
    rw [none]
    rfl
  · rfl

theorem Accounted.positive (accounted : Accounted view) (key : OwnerKey) (n : Nat)
    (found : view.inner.pending.lookup key = some n) : 0 < n := by
  rw [accounted.pendingTable key] at found
  split at found
  · cases found
  · cases found
    omega

theorem opening_of_lookup (view : QuotaView) (call : Nat) (begun : BeginCall)
    (found : view.begins.lookup call = some begun) (key : OwnerKey) :
    view.opening key = (if OwnerKey.of begun.owner = key then 1 else 0) +
      { view with begins := view.begins.erase call }.opening key :=
  weight_erase_of_lookup _ call begun view.begins found

/-- A begin in flight is counted, so settling it is an exact decrement. -/
theorem accounted_settle (accounted : Accounted view) (call : Nat) (begun : BeginCall)
    (found : view.begins.lookup call = some begun)
    (sessions : Finmap fun _ : String => TxSessionEntry)
    (grown : size sessions ≤ 1 + size view.inner.sessions)
    (grownOwner : ∀ owner, (view.inner.setSessions sessions).owned owner ≤
      (if OwnerKey.of begun.owner = OwnerKey.of owner then 1 else 0) + view.inner.owned owner) :
    Accounted { view with
      inner := (settlePending view.inner begun.owner).setSessions sessions
      begins := view.begins.erase call } := by
  have opened := opening_of_lookup view call begun found
  obtain ⟨n, count⟩ : ∃ n, view.opening (OwnerKey.of begun.owner) = n + 1 := by
    have own := opened (OwnerKey.of begun.owner)
    rw [if_pos rfl] at own
    exact ⟨_, by rw [own]; exact Nat.add_comm _ _⟩
  have held : view.inner.pending.lookup (OwnerKey.of begun.owner) = some (n + 1) := by
    rw [accounted.pendingTable, count, if_neg (Nat.succ_ne_zero n)]
  have sizes : size view.begins = 1 + size (view.begins.erase call) := by
    rw [size_eq_weight, size_eq_weight]
    exact weight_erase_of_lookup _ call begun view.begins found
  have table : ∀ key, (settlePending view.inner begun.owner).pending.lookup key =
      if { view with begins := view.begins.erase call }.opening key = 0 then none
      else some ({ view with begins := view.begins.erase call }.opening key) := by
    intro key
    rw [settle_pending_of_lookup _ _ n held]
    by_cases same : key = OwnerKey.of begun.owner
    · subst same
      have left : { view with begins := view.begins.erase call }.opening
          (OwnerKey.of begun.owner) = n := by
        have own := opened (OwnerKey.of begun.owner)
        rw [if_pos rfl] at own
        omega
      rw [left]
      by_cases last : n = 0
      · simp [last]
      · simp [last]
    · have other : OwnerKey.of begun.owner ≠ key := fun eq => same eq.symm
      have kept := opened key
      rw [if_neg other, Nat.zero_add] at kept
      rw [← kept, ← accounted.pendingTable key]
      split
      · exact lookup_erase_ne same
      · exact lookup_insert_of_ne _ same
  have sum : weight (fun _ k => k) view.inner.pending =
      1 + weight (fun _ k => k) (settlePending view.inner begun.owner).pending := by
    rw [settle_pending_of_lookup _ _ n held,
      weight_erase_of_lookup _ (OwnerKey.of begun.owner) (n + 1) view.inner.pending held]
    by_cases last : n = 0
    · simp only [if_pos last]
      omega
    · simp only [if_neg last, weight_insert]
      omega
  have total : (settlePending view.inner begun.owner).pendingTotal =
      view.inner.pendingTotal - 1 := by
    rw [settle_pending_of_lookup _ _ n held]
  have beginsCount := accounted.pendingBegins
  have sumCount := accounted.pendingSum
  have limit := accounted.withinTotal
  refine ⟨table, ?_, ?_, ?_, ?_⟩
  · simp only [Inner.setSessions]
    omega
  · simp only [Inner.setSessions]
    omega
  · simp only [Inner.setSessions]
    omega
  · intro owner
    have ownerLimit := accounted.withinOwner owner
    have ownerGrown := grownOwner owner
    have before := accounted.pendingOf_eq (OwnerKey.of owner)
    have split := opened (OwnerKey.of owner)
    have after : ((settlePending view.inner begun.owner).setSessions sessions).pendingOf
        (OwnerKey.of owner) =
          { view with begins := view.begins.erase call }.opening (OwnerKey.of owner) := by
      simp only [Inner.pendingOf, Inner.setSessions, table]
      split
      · rename_i none
        rw [none]
        rfl
      · rfl
    have sameOwned : ((settlePending view.inner begun.owner).setSessions sessions).owned owner =
        (view.inner.setSessions sessions).owned owner := rfl
    simp only [after]
    omega

theorem size_detach_le :
    size (inner.detach entry).sessions ≤ size inner.sessions := by
  rw [size_eq_weight, size_eq_weight]
  unfold Inner.detach
  split
  · split
    · exact weight_erase_le _ entry.id inner.sessions
    · exact Nat.le_refl _
  · exact Nat.le_refl _

theorem owned_detach_le (owner : Owner) :
    (inner.detach entry).owned owner ≤ inner.owned owner := by
  unfold Inner.detach
  split
  · split
    · exact weight_erase_le _ entry.id inner.sessions
    · exact Nat.le_refl _
  · exact Nat.le_refl _

theorem detach_pending :
    (inner.detach entry).pending = inner.pending ∧
      (inner.detach entry).pendingTotal = inner.pendingTotal := by
  unfold Inner.detach
  split
  · split
    · exact ⟨rfl, rfl⟩
    · exact ⟨rfl, rfl⟩
  · exact ⟨rfl, rfl⟩

theorem accounted_detach (accounted : Accounted view) (entry : TxSessionEntry) :
    Accounted { view with inner := view.inner.detach entry } := by
  obtain ⟨pending, pendingTotal⟩ := detach_pending view.inner entry
  refine ⟨?_, ?_, ?_, ?_, ?_⟩
  · intro key
    simp only [pending]
    exact accounted.pendingTable key
  · simp only [pending, pendingTotal]
    exact accounted.pendingSum
  · simp only [pendingTotal]
    exact accounted.pendingBegins
  · simp only [pendingTotal]
    have smaller := size_detach_le view.inner entry
    have limit := accounted.withinTotal
    omega
  · intro owner
    have smaller := owned_detach_le view.inner entry owner
    have limit := accounted.withinOwner owner
    simp only [Inner.pendingOf, pending] at limit ⊢
    omega

theorem accounted_reserve (accounted : Accounted view) (call : Nat) (owner : Owner)
    (begun : BeginCall) (fresh : call ∉ view.begins) (beginOwner : begun.owner = owner)
    (roomTotal : size view.inner.sessions + view.inner.pendingTotal < view.config.maxSessions)
    (roomOwner : view.inner.owned owner + view.inner.pendingOf
      (OwnerKey.of owner) < view.config.maxPerOwner) :
    Accounted { view with
      inner := view.inner.reserved owner
      begins := view.begins.insert call begun } := by
  have opened : ∀ key, { view with
      inner := view.inner.reserved owner
      begins := view.begins.insert call begun }.opening key =
        (if OwnerKey.of owner = key then 1 else 0) + view.opening key := by
    intro key
    rw [← beginOwner]
    exact weight_insert_fresh _ call begun view.begins fresh
  refine ⟨?_, ?_, ?_, ?_, ?_⟩
  · intro key
    rw [opened key]
    have counted := accounted.pendingTable key
    by_cases same : OwnerKey.of owner = key
    · subst same
      have count := accounted.pendingOf_eq (OwnerKey.of owner)
      simp only [Inner.reserved, lookup_insert, if_true, count]
      rw [if_neg (by omega), Nat.add_comm]
    · have other : key ≠ OwnerKey.of owner := fun eq => same eq.symm
      simp only [Inner.reserved, lookup_insert_of_ne _ other, if_neg same, Nat.zero_add]
      exact counted
  · have sum := accounted.pendingSum
    have grown := pending_sum_reserved view.inner owner
    simp only [grown]
    simp only [Inner.reserved]
    omega
  · have beginsCount := accounted.pendingBegins
    have grown : size (view.begins.insert call begun) = 1 + size view.begins := by
      rw [size_eq_weight, size_eq_weight]
      exact weight_insert_fresh _ call begun view.begins fresh
    simp only [Inner.reserved]
    omega
  · simp only [Inner.reserved]
    omega
  · intro other
    have limit := accounted.withinOwner other
    have sameOwned : (view.inner.reserved owner).owned other = view.inner.owned other := rfl
    simp only [pendingOf_reserved]
    by_cases same : OwnerKey.of owner = OwnerKey.of other
    · have sameSubjects : view.inner.owned other = view.inner.owned owner := by
        unfold Inner.owned
        congr 1
        funext _ entry
        have left := same_subject_iff entry.owner other
        have right := same_subject_iff entry.owner owner
        rw [← same, ← right] at left
        by_cases own : entry.owner.sameSubject owner = true
        · rw [if_pos own, if_pos (left.mpr own)]
        · rw [if_neg own, if_neg fun eq => own (left.mp eq)]
      rw [if_pos same, ← same]
      omega
    · rw [if_neg same]
      omega

/-- No begin of the run leaves without settling its reservation: none fails to
generate its id and none is dropped while it waits for its connection. -/
def NoLeak (_ : HostState) (label : SessionStep) : Prop :=
  ∀ call, label ≠ .beginIdFailed call ∧ label ≠ .beginDropped call

section

variable {next : QuotaView} {label : SessionStep} (effect : QuotaEffect view label next)
include effect

theorem accounted_effect (accounted : Accounted view)
    (noLeak : ∀ call, label ≠ .beginIdFailed call ∧ label ≠ .beginDropped call) :
    Accounted next := by
  cases effect with
  | unchanged => exact accounted
  | detached _ entry => exact accounted_detach accounted entry
  | reserved call caller request begun fresh owner roomTotal roomOwner =>
    exact accounted_reserve accounted call caller.owner begun fresh owner roomTotal roomOwner
  | cancelled call begun found =>
    have settled := accounted_settle accounted call begun found view.inner.sessions (by omega)
      (fun _ => Nat.le_add_left _ _)
    rw [← settle_pending_sessions view.inner begun.owner] at settled
    exact settled
  | inserted call bytes now begun entry found owner =>
    refine accounted_settle accounted call begun found _ ?_ ?_
    · rw [size_eq_weight, size_eq_weight]
      exact weight_insert_le _ entry.id entry view.inner.sessions
    · intro other
      have grown := weight_insert_le
        (fun _ (held : TxSessionEntry) => if held.owner.sameSubject other then 1 else 0)
        entry.id entry view.inner.sessions
      simp only [owner, same_subject_iff begun.owner other] at grown
      exact grown
  | leaked _ call kind begun found =>
    rcases kind with kind | kind
    · exact absurd kind (noLeak call).1
    · exact absurd kind (noLeak call).2

theorem effect_config : next.config = view.config := by
  cases effect <;> rfl

end

variable (config : DbSessionSection) (boot : BootTag)

theorem accounted_initial :
    Accounted (HostState.initial config boot).quota := by
  refine ⟨fun key => ?_, rfl, rfl, Nat.zero_le _, fun owner => Nat.zero_le _⟩
  exact (lookup_empty key).trans rfl

theorem accounted_reachable (state : HostState)
    (reached : Reachable (sessionSystem config boot) NoLeak state) :
    Accounted state.quota ∧ state.quota.config = config := by
  have step_keeps : Preserved (sessionSystem config boot) NoLeak
      (fun state => Accounted state.quota ∧ state.quota.config = config) := by
    rintro before label next ⟨accounted, configured⟩ noLeak fired
    have effect := step_quota_effect before next label fired
    exact ⟨accounted_effect effect accounted noLeak, (effect_config effect).trans configured⟩
  exact invariant_of_step ⟨accounted_initial config boot, rfl⟩ step_keeps reached

/-- The ends of a begin that report an error after its reservation. -/
def EndsInError (call : Nat) (label : SessionStep) : Prop :=
  label = .beginAccessorFailed call ∨ label = .beginIdFailed call

/-- What the limits promise of one state: both bounds, the two totals of the
reservations, and that a begin which ends in an error leaves no trace. The last
two fields say the latter for a failure right after the reservation and for one
after any other steps. -/
structure QuotasHold (config : DbSessionSection) (allowed : HostState → SessionStep → Prop)
    (state : HostState) : Prop where
  total : size state.registry.inner.sessions + state.registry.inner.pendingTotal ≤
    config.maxSessions
  owner : ∀ owner, state.registry.inner.owned owner +
    state.registry.inner.pendingOf (OwnerKey.of owner) ≤ config.maxPerOwner
  pendingSum : state.registry.inner.pendingTotal =
    weight (fun _ n => n) state.registry.inner.pending
  inFlight : state.registry.inner.pendingTotal = size state.begins
  restored : ∀ call caller request reserved failure failed,
    step state (.beginReserve call caller request) = some reserved → call ∈ reserved.begins →
    EndsInError call failure → allowed reserved failure → step reserved failure = some failed →
    failed.registry.inner = state.registry.inner
  untraced : ∀ call failure failed, EndsInError call failure → allowed state failure →
    step state failure = some failed →
    failed.registry.inner.sessions = state.registry.inner.sessions ∧
      failed.begins = state.begins.erase call ∧
      ∀ key, failed.registry.inner.pendingOf key = failed.quota.opening key

theorem begin_restored (reserved failed : HostState) (call : Nat) (caller : Caller)
    (request : BeginRequest) (accounted : Accounted state.quota)
    (first : step state (.beginReserve call caller request) = some reserved)
    (opened : call ∈ reserved.begins)
    (second : step reserved (.beginAccessorFailed call) = some failed) :
    failed.registry.inner = state.registry.inner := by
  simp only [step, ite_none_left_eq_some, Option.some.injEq] at first
  obtain ⟨fresh, rfl⟩ := first
  obtain ⟨begun, found, rfl⟩ := map_eq_some_iff.mp second
  have effect := reserve_quota_effect state call caller request fresh
  generalize beginReserve state call caller request = reserved at *
  have settled : ∀ view next : QuotaView, Accounted view → call ∉ view.begins →
      call ∈ next.begins → next.begins.lookup call = some begun →
      QuotaEffect view (.beginReserve call caller request) next →
      settlePending next.inner begun.owner = view.inner := by
    intro view next counted absent present held reach
    cases reach with
    | unchanged | detached _ entry => exact absurd present absent
    | reserved _ _ _ begun' _ owner _ _ =>
      rw [lookup_insert] at held
      cases held
      rw [owner]
      exact settle_reserved view.inner caller.owner counted.positive
    | leaked _ _ kind => rcases kind with kind | kind <;> cases kind
  exact settled state.quota reserved.quota accounted fresh opened found effect

/-- The session quotas hold in every state of every run in which no begin fails
to generate its id or is dropped while opening. -/
theorem session_quotas_hold (config : DbSessionSection) (boot : BootTag) (state : HostState)
    (reached : Reachable (sessionSystem config boot) NoLeak state) :
    QuotasHold config NoLeak state := by
  obtain ⟨accounted, configured⟩ := accounted_reachable config boot state reached
  refine ⟨?_, ?_, accounted.pendingSum, accounted.pendingBegins, ?_, ?_⟩
  · rw [← configured]
    exact accounted.withinTotal
  · rw [← configured]
    exact accounted.withinOwner
  · intro call caller request reserved failure failed first opened ends noLeak second
    rcases ends with rfl | rfl
    · exact begin_restored state reserved failed call caller request accounted first opened second
    · exact absurd rfl (noLeak call).1
  · intro call failure failed ends noLeak fired
    have after := accounted_reachable config boot failed (reachable_step reached noLeak fired)
    rcases ends with rfl | rfl
    · obtain ⟨begun, found, rfl⟩ := map_eq_some_iff.mp fired
      exact ⟨settle_pending_sessions _ _, rfl, after.1.pendingOf_eq⟩
    · exact absurd rfl (noLeak call).1

theorem session_quotas_hold_opening :
    QuotasHold enabledSection NoLeak
      (beginReserve (.initial enabledSection sampleBoot) 0 sampleCaller sampleRequest) :=
  session_quotas_hold enabledSection sampleBoot _
    ⟨[.beginReserve 0 sampleCaller sampleRequest],
      fun _ => ⟨SessionStep.noConfusion, SessionStep.noConfusion⟩, _, rfl, rfl⟩

/-- A begin that fails to generate its id keeps its reservation for good. -/
theorem session_quota_leaks :
    ¬∀ state, Reachable (sessionSystem enabledSection sampleBoot) Unrestricted state →
      QuotasHold enabledSection Unrestricted state := by
  intro claimed
  have ran : Path (sessionSystem enabledSection sampleBoot) Unrestricted
      (.initial enabledSection sampleBoot)
      [.beginReserve 0 sampleCaller sampleRequest, .beginIdFailed 0]
      { beginReserve (.initial enabledSection sampleBoot) 0 sampleCaller sampleRequest with
        begins := (beginReserve (.initial enabledSection sampleBoot) 0 sampleCaller
          sampleRequest).begins.erase 0 } :=
    path_of_run _ _ _ rfl
  have inFlight := (claimed _ ⟨_, ran⟩).inFlight
  exact absurd inFlight (by decide)

end OnlyJs.Bridge.DbSession
