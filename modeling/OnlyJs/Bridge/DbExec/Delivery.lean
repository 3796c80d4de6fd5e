import OnlyJs.Bridge.DbExec.Registry

/-!
# Delivery of begun executions

Callers begin executions, poll them and take their result; runners settle them;
streams and ordinary statements register in the same table in between. The
history keeps which execution each begin started, what its runner settled and
which ids have been taken.
-/

namespace OnlyJs.Bridge.DbExec

open Finmap List Bridge.DbError Bridge.HandleCore Lib.FiniteMap Lib.StepSystem

universe u

inductive ExecKind where
  | query
  | exec
deriving DecidableEq

/-- An execution started by `op_db_query_begin` or `op_db_exec_begin`. -/
structure Begun where
  id : String
  owner : Owner
  arc : Nat
  kind : ExecKind
deriving DecidableEq

structure ExecState (Row : Type u) where
  registry : ExecRegistry Row
  issued : List String
  begun : List Begun
  settled : List (Nat × PoolOutcome Row)
  taken : List String

inductive ExecStep (Row : Type u) where
  | openStream (owner : Owner) (aliasName : String) (bytes : RandomBytes) (now : Nat)
  | runPool (owner : Owner) (aliasName : String) (token : Option Nat) (bytes : RandomBytes)
      (now : Nat)
  | begin (kind : ExecKind) (owner : Owner) (aliasName : String) (token : Option Nat)
      (ctx : QueryTakeCtx) (bytes : RandomBytes) (now : Nat)
  | settle (arc : Nat) (kind : ExecKind) (outcome : PoolOutcome Row)
  | abandon (arc : Nat)
  | streamDone (arc : Nat)
  | pushEvent (arc : Nat) (event : CallEvent)
  | cancel (id : String) (owner : Owner)
  | cancelByToken (token : Nat)
  | poll (id : String) (owner : Owner)
  | pollResume (arc : Nat)
  | take (kind : ExecKind) (id : String) (owner : Owner)
  | close (id : String)

variable {Row : Type u}

def allocate (registry : ExecRegistry Row) :
    Option (PoolExecShared Row) → ExecHandle × ExecRegistry Row
  | none =>
    (.stream registry.nextArc,
      { registry.updateStream registry.nextArc
          (fun _ => { done := false, cancelled := false }) with
        nextArc := registry.nextArc + 1 })
  | some shared =>
    (.pool registry.nextArc,
      { registry.updatePool registry.nextArc (fun _ => shared) with
        nextArc := registry.nextArc + 1 })

def register (state : ExecState Row) (owner : Owner) (aliasName : String)
    (shared : Option (PoolExecShared Row)) (bytes : RandomBytes) (now : Nat) :
    Option (String × ExecState Row) :=
  let (handle, allocated) := allocate state.registry shared
  match insert allocated owner aliasName handle (.ok bytes) now with
  | .error _ => none
  | .ok (id, registry) =>
    some (id, { state with registry, issued := id :: state.issued })

def PoolOutcome.fits : ExecKind → PoolOutcome Row → Bool
  | _, .err _ _ _ => true
  | .query, .rows _ => true
  | .exec, .affected _ => true
  | _, _ => false

def ExecKind.taken (kind : ExecKind) (registry : ExecRegistry Row) (id : String) (owner : Owner) :
    ExecRegistry Row :=
  match kind with
  | .query => (queryTake registry id owner).2
  | .exec => (execTake registry id owner).2

def ExecState.holdsBegun (state : ExecState Row) (id : String) : Bool :=
  state.begun.any fun begun => begun.id = id

def step (state : ExecState Row) : ExecStep Row → Option (ExecState Row)
  | .openStream owner aliasName bytes now =>
    (register state owner aliasName none bytes now).map Prod.snd
  | .runPool owner aliasName token bytes now =>
    (register state owner aliasName (some (.fresh Row owner aliasName token none)) bytes now).map
      Prod.snd
  | .begin kind owner aliasName token ctx bytes now =>
    (register state owner aliasName (some (.fresh Row owner aliasName token (some ctx))) bytes
      now).map fun (id, next) =>
        { next with begun := { id, owner, arc := state.registry.nextArc, kind } :: next.begun }
  | .settle arc kind outcome =>
    if arc < state.registry.nextArc ∧ (state.registry.pools arc).done = false ∧
        outcome.fits kind ∧ ∀ begun ∈ state.begun, begun.arc = arc → begun.kind = kind then
      some { state with
        registry := settlePool state.registry arc (kind = .query) outcome
        settled := (arc, outcome) :: state.settled }
    else none
  -- `db.query` on the pool marks its own execution done without an outcome.
  | .abandon arc =>
    if ∀ begun ∈ state.begun, begun.arc ≠ arc then
      some { state with
        registry := state.registry.updatePool arc fun shared => { shared with done := true } }
    else none
  | .streamDone arc =>
    some { state with
      registry := state.registry.updateStream arc fun shared => { shared with done := true } }
  | .pushEvent arc event =>
    some { state with
      registry := state.registry.updatePool arc fun shared =>
        { shared with events := shared.events ++ [event] } }
  | .cancel id owner => some { state with registry := (DbExec.cancel state.registry id owner).2 }
  | .cancelByToken token =>
    some { state with registry := DbExec.cancelByToken state.registry token }
  | .poll id owner => some { state with registry := (callPoll state.registry id owner).2 }
  | .pollResume arc => some { state with registry := (drain state.registry arc).2 }
  | .take kind id owner =>
    some { state with
      registry := kind.taken state.registry id owner
      taken :=
        match (takeShared state.registry id owner).1 with
        | .ok _ => id :: state.taken
        | .error _ => state.taken }
  -- Closing a stream and the end of an ordinary statement remove their own entry.
  | .close id =>
    if state.holdsBegun id then none
    else some { state with registry := remove state.registry id }

def ExecState.initial (Row : Type u) (boot : BootTag) : ExecState Row where
  registry :=
    { inner := ∅
      boot := boot
      pools := fun _ => .fresh Row { tenant := none, user := none, moduleName := none, source := "" }
        "" none none
      streams := fun _ => { done := false, cancelled := false }
      nextArc := 0 }
  issued := []
  begun := []
  settled := []
  taken := []

def execSystem (Row : Type u) (boot : BootTag) : System (ExecState Row) (ExecStep Row) where
  init := .initial Row boot
  step := step

/-- The random bytes and the clock of a step that registers. -/
def ExecStep.registers : ExecStep Row → Option (RandomBytes × Nat)
  | .openStream _ _ bytes now => some (bytes, now)
  | .runPool _ _ _ bytes now => some (bytes, now)
  | .begin _ _ _ _ _ bytes now => some (bytes, now)
  | _ => none

/-- The random source repeats no id, and nothing registers so late that a begun
execution in the table has outlived its entry. -/
def Ordinary (state : ExecState Row) (label : ExecStep Row) : Prop :=
  ∀ bytes now, label.registers = some (bytes, now) →
    (∀ id, newId execPrefix state.registry.boot (.ok bytes) = .ok id → id ∉ state.issued) ∧
      ∀ begun ∈ state.begun, ∀ entry, state.registry.inner.lookup begun.id = some entry →
        now - entry.created < execTtl

/-- Nothing registers while a settled result waits in the table to be taken. -/
def NoneWaiting (state : ExecState Row) (label : ExecStep Row) : Prop :=
  ∀ bytes now, label.registers = some (bytes, now) →
    ∀ begun ∈ state.begun, begun.id ∉ state.taken → (state.registry.pools begun.arc).done = false

/-- A take by the owner returns a settled outcome, exactly once. -/
def Delivers (state : ExecState Row) (begun : Begun) (outcome : PoolOutcome Row) : Prop :=
  ∀ owner, begun.owner.sameSubject owner = true →
    if begun.id ∈ state.taken then
      (queryTake state.registry begun.id owner).1 = .error (execNotFound begun.id) ∧
        (execTake state.registry begun.id owner).1 = .error (execNotFound begun.id)
    else
      match begun.kind with
      | .query => (queryTake state.registry begun.id owner).1 = .ok (queryResult outcome)
      | .exec => (execTake state.registry begun.id owner).1 = .ok (execResult outcome)

/-- Every settled execution is delivered. -/
def DeliversAll (state : ExecState Row) : Prop :=
  ∀ begun ∈ state.begun, ∀ outcome, (begun.arc, outcome) ∈ state.settled →
    Delivers state begun outcome

/-- What a take reads of the shared state of a pool execution. -/
structure SameResult (before after : PoolExecShared Row) : Prop where
  queryCtx : after.queryCtx = before.queryCtx
  outcome : after.outcome = before.outcome
  meterFinal : after.meterFinal = before.meterFinal
  done : after.done = before.done

theorem SameResult.refl (shared : PoolExecShared Row) : SameResult shared shared :=
  ⟨rfl, rfl, rfl, rfl⟩

/-- A begun execution stays listed under its own id until it is taken, and once
settled its shared state holds exactly what a take needs. -/
structure Delivering (state : ExecState Row) : Prop where
  begunArc : ∀ begun ∈ state.begun, begun.arc < state.registry.nextArc
  begunIssued : ∀ begun ∈ state.begun, begun.id ∈ state.issued
  wellformed : ∀ begun ∈ state.begun, idIsWellformed execPrefix begun.id = true
  distinct : ∀ begun ∈ state.begun, ∀ other ∈ state.begun,
    begun.arc = other.arc ∨ begun.id = other.id → begun = other
  listedIssued : ∀ id entry, state.registry.inner.lookup id = some entry → id ∈ state.issued
  listedArc : ∀ id entry arc, state.registry.inner.lookup id = some entry →
    entry.handle = .pool arc → arc < state.registry.nextArc
  listed : ∀ begun ∈ state.begun, begun.id ∉ state.taken →
    ∃ entry, state.registry.inner.lookup begun.id = some entry ∧ entry.owner = begun.owner ∧
      entry.handle = .pool begun.arc
  sole : ∀ begun ∈ state.begun, ∀ id entry, state.registry.inner.lookup id = some entry →
    entry.handle = .pool begun.arc → id = begun.id
  gone : ∀ id ∈ state.taken, id ∈ state.issued ∧ state.registry.inner.lookup id = none
  context : ∀ begun ∈ state.begun, begun.id ∉ state.taken →
    (state.registry.pools begun.arc).queryCtx.isSome
  settledArc : ∀ arc outcome, (arc, outcome) ∈ state.settled → arc < state.registry.nextArc
  settledDone : ∀ begun ∈ state.begun, ∀ outcome, (begun.arc, outcome) ∈ state.settled →
    (state.registry.pools begun.arc).done = true
  result : ∀ begun ∈ state.begun, begun.id ∉ state.taken →
    ∀ outcome, (begun.arc, outcome) ∈ state.settled →
      (state.registry.pools begun.arc).outcome = some outcome ∧
        (begun.kind = .query → (state.registry.pools begun.arc).meterFinal = true)

variable (state next : ExecState Row) (registry : ExecRegistry Row) (id : String) (owner : Owner)

theorem pool_of_listed (entry : ExecEntry) (arc : Nat) (shape : idIsWellformed execPrefix id = true)
    (found : registry.inner.lookup id = some entry) (own : entry.owner.sameSubject owner = true)
    (handle : entry.handle = .pool arc) :
    pool registry id owner = some arc := by
  simp only [pool, shape, found, own, handle, if_true]

theorem pool_absent (absent : registry.inner.lookup id = none) : pool registry id owner = none := by
  simp only [pool, absent]
  split <;> rfl

variable (kind : ExecKind) (label : ExecStep Row) (arc : Nat)

theorem listed_of_pool (found : pool registry id owner = some arc) :
    ∃ entry, registry.inner.lookup id = some entry ∧ entry.handle = .pool arc := by
  simp only [pool] at found
  split at found
  · split at found
    · cases found
    · rename_i entry listed
      split at found
      · split at found
        · rename_i handle
          cases found
          exact ⟨entry, listed, handle⟩
        · cases found
      · cases found
  · cases found

theorem delivers_of_delivering (invariant : Delivering state) :
    DeliversAll state := by
  intro begun member outcome settled owner own
  by_cases taken : begun.id ∈ state.taken
  · rw [if_pos taken]
    have absent := pool_absent state.registry begun.id owner (invariant.gone _ taken).2
    simp only [queryTake, execTake, takeShared, absent, and_self]
  · rw [if_neg taken]
    obtain ⟨entry, found, entryOwner, handle⟩ := invariant.listed begun member taken
    have shared := pool_of_listed state.registry begun.id owner entry begun.arc
      (invariant.wellformed begun member) found (entryOwner ▸ own) handle
    have done := invariant.settledDone begun member outcome settled
    obtain ⟨held, meter⟩ := invariant.result begun member taken outcome settled
    obtain ⟨ctx, context⟩ := Option.isSome_iff_exists.mp (invariant.context begun member taken)
    cases kind : begun.kind with
    | query =>
      simp only [queryTake, takeShared, shared, done, remove, held,
        context, meter kind, if_true]
    | exec =>
      simp only [execTake, takeShared, shared, done, remove, held, context, if_true]

/-- Steps that change neither the table nor what a take reads keep the invariant. -/
theorem delivering_quiet (invariant : Delivering state)
    (inner : next.registry.inner = state.registry.inner)
    (nextArc : next.registry.nextArc = state.registry.nextArc) (issued : next.issued = state.issued)
    (begun : next.begun = state.begun) (settled : next.settled = state.settled)
    (taken : next.taken = state.taken)
    (same : ∀ begun ∈ state.begun, SameResult (state.registry.pools begun.arc)
      (next.registry.pools begun.arc)) :
    Delivering next := by
  refine ⟨?_, ?_, ?_, ?_, ?_, ?_, ?_, ?_, ?_, ?_, ?_, ?_, ?_⟩
  · simpa only [begun, nextArc] using invariant.begunArc
  · simpa only [begun, issued] using invariant.begunIssued
  · simpa only [begun] using invariant.wellformed
  · simpa only [begun] using invariant.distinct
  · simpa only [inner, issued] using invariant.listedIssued
  · simpa only [inner, nextArc] using invariant.listedArc
  · simpa only [begun, taken, inner] using invariant.listed
  · simpa only [begun, inner] using invariant.sole
  · simpa only [taken, issued, inner] using invariant.gone
  · intro item member waiting
    rw [begun] at member
    rw [taken] at waiting
    rw [(same item member).queryCtx]
    exact invariant.context item member waiting
  · simpa only [settled, nextArc] using invariant.settledArc
  · intro item member outcome recorded
    rw [begun] at member
    rw [settled] at recorded
    rw [(same item member).done]
    exact invariant.settledDone item member outcome recorded
  · intro item member waiting outcome recorded
    rw [begun] at member
    rw [taken] at waiting
    rw [settled] at recorded
    rw [(same item member).outcome, (same item member).meterFinal]
    exact invariant.result item member waiting outcome recorded

variable (other : Nat)

theorem same_result_update (change : PoolExecShared Row → PoolExecShared Row)
    (kept : other = arc → SameResult (registry.pools other) (change (registry.pools other))) :
    SameResult (registry.pools other) ((registry.updatePool arc change).pools other) := by
  simp only [ExecRegistry.updatePool]
  split
  · rename_i same
    exact kept same
  · exact .refl _

theorem fire_cancel_frame (handle : ExecHandle) :
    (fireCancel registry handle).inner = registry.inner ∧
      (fireCancel registry handle).nextArc = registry.nextArc ∧
      ∀ arc, SameResult (registry.pools arc) ((fireCancel registry handle).pools arc) := by
  cases handle with
  | stream arc => exact ⟨rfl, rfl, fun _ => .refl _⟩
  | pool arc =>
    exact ⟨rfl, rfl, fun other => same_result_update registry arc other
      (fun shared => { shared with cancelRequested := true }) fun _ => ⟨rfl, rfl, rfl, rfl⟩⟩

theorem cancel_frame :
    (cancel registry id owner).2.inner = registry.inner ∧
      (cancel registry id owner).2.nextArc = registry.nextArc ∧
      ∀ arc, SameResult (registry.pools arc) ((cancel registry id owner).2.pools arc) := by
  have unchanged : registry.inner = registry.inner ∧ registry.nextArc = registry.nextArc ∧
      ∀ arc, SameResult (registry.pools arc) (registry.pools arc) :=
    ⟨rfl, rfl, fun _ => .refl _⟩
  unfold cancel
  split
  · split
    · exact unchanged
    · split
      · exact fire_cancel_frame registry _
      · exact unchanged
  · exact unchanged

theorem drain_frame :
    SameResult (registry.pools other) ((drain registry arc).2.pools other) :=
  same_result_update registry arc other (fun shared => { shared with events := [] })
    fun _ => ⟨rfl, rfl, rfl, rfl⟩

/-- What a take does to the registry: nothing when it is refused, else the entry
leaves the table and only the shared state of its execution changes. -/
theorem take_frame (id : String) (owner : Owner) :
    (∃ e, (takeShared registry id owner).1 = .error e ∧
        kind.taken registry id owner = registry) ∨
      ∃ entry arc, (takeShared registry id owner).1 = .ok arc ∧
        registry.inner.lookup id = some entry ∧ entry.handle = .pool arc ∧
        (kind.taken registry id owner).inner = registry.inner.erase id ∧
        (kind.taken registry id owner).nextArc = registry.nextArc ∧
        (∀ other, other ≠ arc →
          (kind.taken registry id owner).pools other = registry.pools other) ∧
        ((kind.taken registry id owner).pools arc).done = (registry.pools arc).done := by
  cases found : pool registry id owner with
  | none =>
    have refused : takeShared registry id owner = (.error (execNotFound id), registry) := by
      simp only [takeShared, found]
    refine .inl ⟨execNotFound id, by rw [refused], ?_⟩
    cases kind <;> simp only [ExecKind.taken, queryTake, execTake, refused]
  | some arc =>
    by_cases done : (registry.pools arc).done = true
    · obtain ⟨entry, listed, handle⟩ := listed_of_pool registry id owner arc found
      have passed : takeShared registry id owner = (.ok arc, remove registry id) := by
        simp only [takeShared, found, done, if_true]
      refine .inr ⟨entry, arc, by rw [passed], listed, handle, ?_⟩
      cases kind with
      | query =>
        simp only [ExecKind.taken, queryTake, passed]
        split
        · exact ⟨rfl, rfl, fun _ _ => rfl, rfl⟩
        · split
          · refine ⟨rfl, rfl, fun other different => ?_, ?_⟩ <;>
              simp [ExecRegistry.updatePool, remove, *]
          · split
            · refine ⟨rfl, rfl, fun other different => ?_, ?_⟩ <;>
                simp [ExecRegistry.updatePool, remove, *]
            · refine ⟨rfl, rfl, fun other different => ?_, ?_⟩ <;>
                simp [ExecRegistry.updatePool, remove, *]
      | exec =>
        simp only [ExecKind.taken, execTake, passed]
        split
        · exact ⟨rfl, rfl, fun _ _ => rfl, rfl⟩
        · split
          · refine ⟨rfl, rfl, fun other different => ?_, ?_⟩ <;>
              simp [ExecRegistry.updatePool, remove, *]
          · refine ⟨rfl, rfl, fun other different => ?_, ?_⟩ <;>
              simp [ExecRegistry.updatePool, remove, *]
    · have refused : takeShared registry id owner = (.error (execNotDone id), registry) := by
        simp only [takeShared, found, done, if_false, Bool.false_eq_true]
      refine .inl ⟨execNotDone id, by rw [refused], ?_⟩
      cases kind <;> simp only [ExecKind.taken, queryTake, execTake, refused]

theorem delivering_take (invariant : Delivering state) (kind : ExecKind) (id : String)
    (owner : Owner) (next : ExecState Row) (fired : step state (.take kind id owner) = some next) :
    Delivering next := by
  simp only [step, Option.some.injEq] at fired
  subst fired
  rcases take_frame state.registry kind id owner with
    ⟨e, refused, same⟩ | ⟨entry, arc, passed, found, handle, inner, nextArc, others, done⟩
  · rw [refused, same]
    exact invariant
  · rw [passed]
    have stillListed : ∀ other value, (kind.taken state.registry id owner).inner.lookup other =
        some value → state.registry.inner.lookup other = some value ∧ other ≠ id := by
      intro other value present
      rw [inner] at present
      by_cases same : other = id
      · subst same
        rw [lookup_erase] at present
        cases present
      · rw [lookup_erase_ne same] at present
        exact ⟨present, same⟩
    have untouched : ∀ begun ∈ state.begun, begun.id ∉ id :: state.taken →
        begun.id ∉ state.taken ∧
          (kind.taken state.registry id owner).pools begun.arc =
            state.registry.pools begun.arc := by
      intro begun member waiting
      rw [mem_cons, not_or] at waiting
      refine ⟨waiting.2, others _ fun same => waiting.1 ?_⟩
      exact (invariant.sole begun member id entry found (same ▸ handle)).symm
    refine ⟨?_, invariant.begunIssued, invariant.wellformed, invariant.distinct, ?_, ?_, ?_, ?_,
      ?_, ?_, ?_, ?_, ?_⟩
    · simpa only [nextArc] using invariant.begunArc
    · intro other value present
      exact invariant.listedIssued other value (stillListed other value present).1
    · intro other value target present
      rw [nextArc]
      exact invariant.listedArc other value target (stillListed other value present).1
    · intro begun member waiting
      obtain ⟨held, present, own⟩ := invariant.listed begun member
        (untouched begun member waiting).1
      rw [mem_cons, not_or] at waiting
      refine ⟨held, ?_, own⟩
      rw [inner, lookup_erase_ne waiting.1]
      exact present
    · intro begun member other value present
      exact invariant.sole begun member other value (stillListed other value present).1
    · intro other gone
      rw [inner]
      rcases mem_cons.mp gone with rfl | gone
      · exact ⟨invariant.listedIssued other entry found, lookup_erase _ _⟩
      · obtain ⟨issued, absent⟩ := invariant.gone other gone
        refine ⟨issued, ?_⟩
        by_cases same : other = id
        · subst same
          exact lookup_erase _ _
        · rw [lookup_erase_ne same]
          exact absent
    · intro begun member waiting
      obtain ⟨wasWaiting, same⟩ := untouched begun member waiting
      rw [same]
      exact invariant.context begun member wasWaiting
    · simpa only [nextArc] using invariant.settledArc
    · intro begun member outcome recorded
      have settled := invariant.settledDone begun member outcome recorded
      by_cases same : begun.arc = arc
      · rw [same] at settled ⊢
        exact done.trans settled
      · rw [others _ same]
        exact settled
    · intro begun member waiting outcome recorded
      obtain ⟨wasWaiting, same⟩ := untouched begun member waiting
      rw [same]
      exact invariant.result begun member wasWaiting outcome recorded

theorem delivering_settle (invariant : Delivering state) (arc : Nat) (kind : ExecKind)
    (outcome : PoolOutcome Row) (next : ExecState Row)
    (fired : step state (.settle arc kind outcome) = some next) : Delivering next := by
  simp only [step, Option.ite_none_right_eq_some, Option.some.injEq] at fired
  obtain ⟨⟨allocated, undone, _, kinds⟩, rfl⟩ := fired
  have others : ∀ other, other ≠ arc →
      (settlePool state.registry arc (kind = .query) outcome).pools other =
        state.registry.pools other := by
    intro other different
    simp only [settlePool, ExecRegistry.updatePool, if_neg different]
  have own : (settlePool state.registry arc (kind = .query) outcome).pools arc =
      { state.registry.pools arc with
        meterFinal := (state.registry.pools arc).meterFinal || decide (kind = .query)
        outcome := some outcome
        done := true } := by
    simp only [settlePool, ExecRegistry.updatePool, if_true]
  have unsettled : ∀ begun ∈ state.begun, begun.arc = arc → ∀ earlier,
      (begun.arc, earlier) ∉ state.settled := by
    intro begun member same earlier recorded
    have done := invariant.settledDone begun member earlier recorded
    rw [same, undone] at done
    cases done
  refine ⟨invariant.begunArc, invariant.begunIssued, invariant.wellformed, invariant.distinct,
    invariant.listedIssued, invariant.listedArc, invariant.listed, invariant.sole,
    invariant.gone, ?_, ?_, ?_, ?_⟩
  · intro begun member waiting
    have context := invariant.context begun member waiting
    by_cases same : begun.arc = arc
    · rw [same] at context ⊢
      rw [own]
      exact context
    · rw [others _ same]
      exact context
  · intro target earlier recorded
    rcases mem_cons.mp recorded with same | recorded
    · cases same
      exact allocated
    · exact invariant.settledArc target earlier recorded
  · intro begun member earlier recorded
    by_cases same : begun.arc = arc
    · rw [same, own]
    · rw [others _ same]
      rcases mem_cons.mp recorded with equal | recorded
      · exact absurd (congrArg Prod.fst equal) same
      · exact invariant.settledDone begun member earlier recorded
  · intro begun member waiting earlier recorded
    by_cases same : begun.arc = arc
    · rcases mem_cons.mp recorded with equal | recorded
      · have outcomes : earlier = outcome := congrArg Prod.snd equal
        rw [same, own, outcomes]
        refine ⟨rfl, fun query => ?_⟩
        have sameKind := kinds begun member same
        simp only [← sameKind, query, decide_true, Bool.or_true]
      · exact absurd recorded (unsettled begun member same earlier)
    · rw [others _ same]
      rcases mem_cons.mp recorded with equal | recorded
      · exact absurd (congrArg Prod.fst equal) same
      · exact invariant.result begun member waiting earlier recorded

theorem delivering_close (invariant : Delivering state) (id : String) (next : ExecState Row)
    (fired : step state (.close id) = some next) : Delivering next := by
  simp only [step, Option.ite_none_left_eq_some, Option.some.injEq] at fired
  obtain ⟨foreign, rfl⟩ := fired
  have notBegun : ∀ begun ∈ state.begun, begun.id ≠ id := by
    intro begun member same
    apply foreign
    exact any_eq_true.mpr ⟨begun, member, decide_eq_true same⟩
  have stillListed : ∀ other value, (state.registry.inner.erase id).lookup other = some value →
      state.registry.inner.lookup other = some value := by
    intro other value present
    by_cases same : other = id
    · subst same
      rw [lookup_erase] at present
      cases present
    · rwa [lookup_erase_ne same] at present
  refine ⟨invariant.begunArc, invariant.begunIssued, invariant.wellformed, invariant.distinct,
    fun other value present => invariant.listedIssued other value (stillListed other value present),
    fun other value arc present =>
      invariant.listedArc other value arc (stillListed other value present), ?_,
    fun begun member other value present =>
      invariant.sole begun member other value (stillListed other value present), ?_,
    invariant.context, invariant.settledArc, invariant.settledDone, invariant.result⟩
  · intro begun member waiting
    obtain ⟨entry, present, own⟩ := invariant.listed begun member waiting
    refine ⟨entry, ?_, own⟩
    simp only [remove]
    rw [lookup_erase_ne (notBegun begun member)]
    exact present
  · intro other gone
    obtain ⟨issued, absent⟩ := invariant.gone other gone
    refine ⟨issued, ?_⟩
    simp only [remove]
    by_cases same : other = id
    · subst same
      exact lookup_erase _ _
    · rw [lookup_erase_ne same]
      exact absent

/-- What a registration does: the new entry enters, the others stay or are swept. -/
structure Registered (state next : ExecState Row) (owner : Owner)
    (shared : Option (PoolExecShared Row)) (bytes : RandomBytes) (now : Nat) (id : String) :
    Prop where
  made : newId execPrefix state.registry.boot (.ok bytes) = .ok id
  issued : next.issued = id :: state.issued
  begun : next.begun = state.begun
  settled : next.settled = state.settled
  taken : next.taken = state.taken
  nextArc : next.registry.nextArc = state.registry.nextArc + 1
  entry : ∃ value, next.registry.inner.lookup id = some value ∧ value.owner = owner ∧
    (∀ arc, value.handle = .pool arc → arc = state.registry.nextArc) ∧
    (shared.isSome → value.handle = .pool state.registry.nextArc)
  kept : ∀ other value, other ≠ id → state.registry.inner.lookup other = some value →
    (∀ arc, value.handle = .pool arc → arc ≠ state.registry.nextArc ∧
      (state.registry.pools arc).done = false) →
    (∃ arc, value.handle = .pool arc) → now - value.created < execTtl →
    next.registry.inner.lookup other = some value
  old : ∀ other value, other ≠ id → next.registry.inner.lookup other = some value →
    state.registry.inner.lookup other = some value
  pools : ∀ arc, arc ≠ state.registry.nextArc →
    next.registry.pools arc = state.registry.pools arc
  fresh : ∀ value, shared = some value → next.registry.pools state.registry.nextArc = value

/-- What an allocation leaves alone, and the handle it makes. -/
structure Allocated (registry : ExecRegistry Row) (shared : Option (PoolExecShared Row))
    (handle : ExecHandle) (next : ExecRegistry Row) : Prop where
  inner : next.inner = registry.inner
  boot : next.boot = registry.boot
  nextArc : next.nextArc = registry.nextArc + 1
  pools : ∀ arc, arc ≠ registry.nextArc → next.pools arc = registry.pools arc
  fresh : ∀ value, shared = some value → next.pools registry.nextArc = value
  handleArc : ∀ arc, handle = .pool arc → arc = registry.nextArc
  handlePool : shared.isSome → handle = .pool registry.nextArc

theorem allocated (shared : Option (PoolExecShared Row)) :
    Allocated registry shared (allocate registry shared).1 (allocate registry shared).2 := by
  cases shared with
  | none =>
    refine ⟨rfl, rfl, rfl, fun _ _ => rfl, ?_, ?_, ?_⟩
    · intro held same
      cases same
    · intro arc handle
      cases handle
    · intro isSome
      cases isSome
  | some value =>
    refine ⟨rfl, rfl, rfl, ?_, ?_, ?_, fun _ => rfl⟩
    · intro arc different
      simp only [allocate, ExecRegistry.updatePool, if_neg different]
    · intro held same
      cases same
      simp only [allocate, ExecRegistry.updatePool, if_true]
    · intro arc handle
      cases handle
      rfl

theorem insert_spec (next : ExecRegistry Row) (owner : Owner) (aliasName : String)
    (handle : ExecHandle) (bytes : RandomBytes) (now : Nat) (id : String)
    (made : insert registry owner aliasName handle (.ok bytes) now = .ok (id, next)) :
    newId execPrefix registry.boot (.ok bytes) = .ok id ∧
      next = { registry with
        inner := (retain (registry.keeps now) registry.inner).insert id
          { owner, aliasName, handle, created := now } } := by
  unfold insert at made
  split at made
  · cases made
  · rename_i issued made'
    cases made
    exact ⟨made', rfl⟩

theorem registered (aliasName : String) (shared : Option (PoolExecShared Row)) (bytes : RandomBytes)
    (now : Nat) (id : String)
    (fired : register state owner aliasName shared bytes now = some (id, next)) :
    Registered state next owner shared bytes now id := by
  have frame := allocated state.registry shared
  simp only [register] at fired
  generalize (allocate state.registry shared).1 = handle at *
  generalize (allocate state.registry shared).2 = registry at *
  split at fired
  · cases fired
  · rename_i issued after inserted
    cases fired
    obtain ⟨made, rfl⟩ := insert_spec _ _ _ _ _ _ _ _ inserted
    refine ⟨frame.boot ▸ made, rfl, rfl, rfl, rfl, frame.nextArc,
      ⟨{ owner, aliasName, handle, created := now }, lookup_insert _, rfl, frame.handleArc,
        frame.handlePool⟩, ?_, ?_, frame.pools, frame.fresh⟩
    · intro other value different present undone isPool recent
      obtain ⟨arc, pool⟩ := isPool
      obtain ⟨otherArc, notDone⟩ := undone arc pool
      have keeps : registry.keeps now other value = true := by
        simp only [ExecRegistry.keeps, ExecRegistry.handleDone, pool, frame.pools arc otherArc,
          notDone, recent, decide_true, Bool.not_false, Bool.and_true]
      rw [lookup_insert_of_ne _ different, lookup_retain, Option.filter_eq_some_iff, frame.inner]
      exact ⟨present, keeps⟩
    · intro other value different present
      rw [lookup_insert_of_ne _ different, lookup_retain, Option.filter_eq_some_iff,
        frame.inner] at present
      exact present.1

theorem delivering_register (invariant : Delivering state) (owner : Owner)
    (shared : Option (PoolExecShared Row)) (bytes : RandomBytes) (now : Nat) (id : String)
    (reach : Registered state next owner shared bytes now id) (fresh : id ∉ state.issued)
    (recent : ∀ begun ∈ state.begun, ∀ entry, state.registry.inner.lookup begun.id = some entry →
      now - entry.created < execTtl)
    (waiting : ∀ begun ∈ state.begun, begun.id ∉ state.taken →
      (state.registry.pools begun.arc).done = false) :
    Delivering next := by
  have otherId : ∀ begun ∈ state.begun, begun.id ≠ id := by
    rintro begun member rfl
    exact fresh (invariant.begunIssued begun member)
  have samePool : ∀ begun ∈ state.begun,
      next.registry.pools begun.arc = state.registry.pools begun.arc := by
    intro begun member
    exact reach.pools begun.arc (Nat.ne_of_lt (invariant.begunArc begun member))
  obtain ⟨entry, entered, _, entryArc, _⟩ := reach.entry
  refine ⟨?_, ?_, ?_, ?_, ?_, ?_, ?_, ?_, ?_, ?_, ?_, ?_, ?_⟩
  · intro begun member
    rw [reach.begun] at member
    rw [reach.nextArc]
    exact Nat.lt_succ_of_lt (invariant.begunArc begun member)
  · intro begun member
    rw [reach.begun] at member
    rw [reach.issued]
    exact mem_cons_of_mem _ (invariant.begunIssued begun member)
  · simpa only [reach.begun] using invariant.wellformed
  · simpa only [reach.begun] using invariant.distinct
  · intro other value present
    rw [reach.issued]
    by_cases same : other = id
    · rw [same]
      exact mem_cons_self
    · exact mem_cons_of_mem _
        (invariant.listedIssued other value (reach.old other value same present))
  · intro other value arc present handle
    rw [reach.nextArc]
    by_cases same : other = id
    · rw [same, entered] at present
      cases present
      rw [entryArc arc handle]
      exact Nat.lt_succ_self _
    · exact Nat.lt_succ_of_lt
        (invariant.listedArc other value arc (reach.old other value same present) handle)
  · intro begun member untaken
    rw [reach.begun] at member
    rw [reach.taken] at untaken
    obtain ⟨held, present, own, handle⟩ := invariant.listed begun member untaken
    refine ⟨held, ?_, own, handle⟩
    apply reach.kept _ _ (otherId begun member) present
    · intro arc pool
      rw [handle] at pool
      cases pool
      exact ⟨Nat.ne_of_lt (invariant.begunArc begun member), waiting begun member untaken⟩
    · exact ⟨begun.arc, handle⟩
    · exact recent begun member held present
  · intro begun member other value present handle
    rw [reach.begun] at member
    by_cases same : other = id
    · rw [same, entered] at present
      cases present
      have arc := entryArc begun.arc handle
      have bound := invariant.begunArc begun member
      omega
    · exact invariant.sole begun member other value (reach.old other value same present) handle
  · intro other gone
    rw [reach.taken] at gone
    obtain ⟨wasIssued, absent⟩ := invariant.gone other gone
    have different : other ≠ id := by
      rintro rfl
      exact fresh wasIssued
    rw [reach.issued]
    refine ⟨mem_cons_of_mem _ wasIssued, ?_⟩
    cases present : next.registry.inner.lookup other with
    | none => rfl
    | some value =>
      have before := reach.old other value different present
      rw [absent] at before
      cases before
  · intro begun member untaken
    rw [reach.begun] at member
    rw [reach.taken] at untaken
    rw [samePool begun member]
    exact invariant.context begun member untaken
  · intro arc outcome recorded
    rw [reach.settled] at recorded
    rw [reach.nextArc]
    exact Nat.lt_succ_of_lt (invariant.settledArc arc outcome recorded)
  · intro begun member outcome recorded
    rw [reach.begun] at member
    rw [reach.settled] at recorded
    rw [samePool begun member]
    exact invariant.settledDone begun member outcome recorded
  · intro begun member untaken outcome recorded
    rw [reach.begun] at member
    rw [reach.taken] at untaken
    rw [reach.settled] at recorded
    rw [samePool begun member]
    exact invariant.result begun member untaken outcome recorded

/-- A begin adds its execution to a registration whose shared state has a context. -/
theorem delivering_begin (owner : Owner) (shared : PoolExecShared Row) (bytes : RandomBytes)
    (now : Nat) (id : String) (before : Delivering state) (invariant : Delivering next)
    (reach : Registered state next owner (some shared) bytes now id) (fresh : id ∉ state.issued)
    (context : shared.queryCtx.isSome) :
    Delivering { next with
      begun := { id, owner, arc := state.registry.nextArc, kind } :: next.begun } := by
  obtain ⟨entry, entered, entryOwner, _, handle⟩ := reach.entry
  have oldArc : ∀ begun ∈ next.begun, begun.arc ≠ state.registry.nextArc := by
    intro begun member
    rw [reach.begun] at member
    exact Nat.ne_of_lt (before.begunArc begun member)
  have oldId : ∀ begun ∈ next.begun, begun.id ≠ id := by
    rintro begun member rfl
    rw [reach.begun] at member
    exact fresh (before.begunIssued begun member)
  have unsettled : ∀ outcome, (state.registry.nextArc, outcome) ∉ next.settled := by
    intro outcome recorded
    rw [reach.settled] at recorded
    exact Nat.lt_irrefl _ (before.settledArc _ outcome recorded)
  refine ⟨?_, ?_, ?_, ?_, invariant.listedIssued, invariant.listedArc, ?_, ?_, invariant.gone,
    ?_, invariant.settledArc, ?_, ?_⟩
  · rintro begun (_ | ⟨_, member⟩)
    · rw [reach.nextArc]
      exact Nat.lt_succ_self _
    · exact invariant.begunArc begun member
  · rintro begun (_ | ⟨_, member⟩)
    · rw [reach.issued]
      exact mem_cons_self
    · exact invariant.begunIssued begun member
  · rintro begun (_ | ⟨_, member⟩)
    · exact new_id_wellformed execPrefix state.registry.boot bytes id reach.made
    · exact invariant.wellformed begun member
  · rintro first (_ | ⟨_, memberFirst⟩) second (_ | ⟨_, memberSecond⟩) same
    · rfl
    · rcases same with arc | sameId
      · exact absurd arc.symm (oldArc second memberSecond)
      · exact absurd sameId.symm (oldId second memberSecond)
    · rcases same with arc | sameId
      · exact absurd arc (oldArc first memberFirst)
      · exact absurd sameId (oldId first memberFirst)
    · exact invariant.distinct first memberFirst second memberSecond same
  · rintro begun (_ | ⟨_, member⟩) untaken
    · exact ⟨entry, entered, entryOwner, handle rfl⟩
    · exact invariant.listed begun member untaken
  · rintro begun (_ | ⟨_, member⟩) other value present pool
    · by_contra different
      have old := reach.old other value different present
      exact Nat.lt_irrefl _ (before.listedArc other value _ old pool)
    · exact invariant.sole begun member other value present pool
  · rintro begun (_ | ⟨_, member⟩) untaken
    · rw [reach.fresh shared rfl]
      exact context
    · exact invariant.context begun member untaken
  · rintro begun (_ | ⟨_, member⟩) outcome recorded
    · exact absurd recorded (unsettled outcome)
    · exact invariant.settledDone begun member outcome recorded
  · rintro begun (_ | ⟨_, member⟩) untaken outcome recorded
    · exact absurd recorded (unsettled outcome)
    · exact invariant.result begun member untaken outcome recorded

/-- One step: nothing that callers or runners do loses a waiting result, as long
as nothing registers while one waits. -/
theorem delivering_step (invariant : Delivering state) (ordinary : Ordinary state label)
    (noneWaiting : NoneWaiting state label) (fired : step state label = some next) :
    Delivering next := by
  cases label with
  | openStream owner aliasName bytes now =>
    simp only [step, Option.map_eq_some_iff] at fired
    obtain ⟨⟨id, after⟩, registration, rfl⟩ := fired
    have reach := registered _ _ _ _ _ _ _ _ registration
    obtain ⟨fresh, recent⟩ := ordinary bytes now rfl
    exact delivering_register state _ invariant owner none bytes now id reach
      (fresh id reach.made) recent (noneWaiting bytes now rfl)
  | runPool owner aliasName token bytes now =>
    simp only [step, Option.map_eq_some_iff] at fired
    obtain ⟨⟨id, after⟩, registration, rfl⟩ := fired
    have reach := registered _ _ _ _ _ _ _ _ registration
    obtain ⟨fresh, recent⟩ := ordinary bytes now rfl
    exact delivering_register state _ invariant owner _ bytes now id reach
      (fresh id reach.made) recent (noneWaiting bytes now rfl)
  | begin kind owner aliasName token ctx bytes now =>
    simp only [step, Option.map_eq_some_iff] at fired
    obtain ⟨⟨id, after⟩, registration, rfl⟩ := fired
    have reach := registered _ _ _ _ _ _ _ _ registration
    obtain ⟨fresh, recent⟩ := ordinary bytes now rfl
    have kept := delivering_register state _ invariant owner _ bytes now id reach
      (fresh id reach.made) recent (noneWaiting bytes now rfl)
    exact delivering_begin state after kind owner _ bytes now id invariant kept reach
      (fresh id reach.made) rfl
  | settle arc kind outcome => exact delivering_settle state invariant arc kind outcome next fired
  | abandon arc =>
    obtain ⟨foreign, fired⟩ := Option.ite_none_right_eq_some.mp fired
    cases fired
    refine delivering_quiet state _ invariant rfl rfl rfl rfl rfl rfl fun begun member => ?_
    exact same_result_update state.registry arc begun.arc
      (fun shared => { shared with done := true })
      fun same => absurd same (foreign begun member)
  | streamDone arc =>
    cases fired
    exact delivering_quiet state _ invariant rfl rfl rfl rfl rfl rfl fun _ _ => .refl _
  | pushEvent arc event =>
    cases fired
    refine delivering_quiet state _ invariant rfl rfl rfl rfl rfl rfl fun begun member => ?_
    exact same_result_update state.registry arc begun.arc
      (fun shared => { shared with events := shared.events ++ [event] })
      fun _ => ⟨rfl, rfl, rfl, rfl⟩
  | cancel id owner =>
    cases fired
    obtain ⟨inner, nextArc, same⟩ := cancel_frame state.registry id owner
    exact delivering_quiet state _ invariant inner nextArc rfl rfl rfl rfl fun _ _ => same _
  | cancelByToken token =>
    cases fired
    refine delivering_quiet state _ invariant rfl rfl rfl rfl rfl rfl fun begun member => ?_
    simp only [cancelByToken]
    split
    · exact ⟨rfl, rfl, rfl, rfl⟩
    · exact .refl _
  | poll id owner =>
    cases fired
    simp only [callPoll]
    cases pool state.registry id owner with
    | none => exact invariant
    | some arc =>
      exact delivering_quiet state _ invariant rfl rfl rfl rfl rfl rfl
        fun begun _ => drain_frame state.registry arc begun.arc
  | pollResume arc =>
    cases fired
    exact delivering_quiet state _ invariant rfl rfl rfl rfl rfl rfl
      fun begun _ => drain_frame state.registry arc begun.arc
  | take kind id owner => exact delivering_take state invariant kind id owner next fired
  | close id => exact delivering_close state invariant id next fired

theorem delivering_initial (boot : BootTag) : Delivering (ExecState.initial Row boot) := by
  have empty : ∀ id entry, (ExecState.initial Row boot).registry.inner.lookup id ≠ some entry := by
    intro id entry found
    have absent : (∅ : Finmap fun _ : String => ExecEntry).lookup id = none := lookup_empty id
    exact absurd (absent.symm.trans found) nofun
  exact ⟨nofun, nofun, nofun, nofun, fun id entry found => absurd found (empty id entry),
    fun id entry _ found => absurd found (empty id entry), nofun, nofun, nofun, nofun, nofun,
    nofun, nofun⟩

/-- `Ordinary` as a check. -/
def ordinaryCheck (state : ExecState Row) (label : ExecStep Row) : Bool :=
  match label.registers with
  | none => true
  | some (bytes, now) =>
    (match newId execPrefix state.registry.boot (.ok bytes) with
      | .error _ => true
      | .ok id => !state.issued.contains id) &&
      state.begun.all fun begun =>
        (state.registry.inner.lookup begun.id).all fun entry => now - entry.created < execTtl

theorem ordinary_of_check (passed : ordinaryCheck state label = true) :
    Ordinary state label := by
  intro bytes now registers
  simp only [ordinaryCheck, registers, Bool.and_eq_true, all_eq_true] at passed
  refine ⟨fun id made => ?_, fun begun member entry found => ?_⟩
  · have fresh := passed.1
    simp only [made, Bool.not_eq_true', contains_eq_mem, decide_eq_false_iff_not] at fresh
    exact fresh
  · have recent := passed.2 begun member
    simp only [found, Option.all_some, decide_eq_true_eq] at recent
    exact recent

/-- Every settled execution is delivered exactly once, in every run in which
nothing registers while a settled result waits to be taken. -/
theorem executions_are_delivered (boot : BootTag) (state : ExecState Row)
    (reached : Reachable (execSystem Row boot)
      (fun state label => Ordinary state label ∧ NoneWaiting state label) state) :
    DeliversAll state := by
  have step_keeps : Preserved (execSystem Row boot)
      (fun state label => Ordinary state label ∧ NoneWaiting state label) Delivering := by
    rintro before label next invariant ⟨ordinary, noneWaiting⟩ fired
    exact delivering_step before next label invariant ordinary noneWaiting fired
  exact delivers_of_delivering state
    (invariant_of_step (delivering_initial boot) step_keeps reached)

def sampleContext : QueryTakeCtx where
  sql := "SELECT 1"
  rowCap := none
  inTx := false

def sampleBegun : Begun where
  id := "exec_0000_00000000000000000000000000000000"
  owner := sampleOwner
  arc := 0
  kind := .query

def sampleSettled : List (ExecStep Nat) :=
  [.begin .query sampleOwner "default" none sampleContext (sampleBytes 0) 0,
    .settle 0 .query (.rows [7])]

/-- A settled query is delivered when nothing else registers in between. -/
theorem executions_are_delivered_settled :
    ∃ state : ExecState Nat, state.settled = [(0, .rows [7])] ∧ DeliversAll state := by
  have ran : ((execSystem Nat sampleBoot).runWhere
      (fun state label => ordinaryCheck state label && state.settled.isEmpty)
      (.initial Nat sampleBoot) sampleSettled).map ExecState.settled = some [(0, .rows [7])] := by
    decide +kernel
  obtain ⟨state, ran, settled⟩ := Option.map_eq_some_iff.mp ran
  have path : Path (execSystem Nat sampleBoot)
      (fun state label => Ordinary state label ∧ NoneWaiting state label)
      (.initial Nat sampleBoot) sampleSettled state := by
    refine ⟨⟨ordinary_of_check _ _ (by decide +kernel), nofun⟩, _, rfl, ⟨nofun, nofun⟩, _, rfl, ?_⟩
    exact Option.some.inj (by rw [← ran]; rfl)
  exact ⟨state, settled, executions_are_delivered sampleBoot state ⟨_, path⟩⟩

/-- A stream that opens after a query has settled sweeps the result away. -/
theorem settled_execution_is_swept :
    ¬∀ state, Reachable (execSystem Nat sampleBoot) Ordinary state → DeliversAll state := by
  intro claimed
  have ran : ((execSystem Nat sampleBoot).runWhere ordinaryCheck (.initial Nat sampleBoot)
      (sampleSettled ++ [.openStream sampleOwner "default" (sampleBytes 1) 1])).map
        (fun state => (state.begun, state.settled, state.taken,
          pool state.registry sampleBegun.id sampleOwner)) =
      some ([sampleBegun], [(0, .rows [7])], [], none) := by
    decide +kernel
  obtain ⟨state, ran, view⟩ := Option.map_eq_some_iff.mp ran
  simp only [Prod.mk.injEq] at view
  obtain ⟨begun, settled, taken, swept⟩ := view
  have reached : Reachable (execSystem Nat sampleBoot) Ordinary state :=
    ⟨_, path_of_run_where ordinaryCheck ordinary_of_check _ _ _ ran⟩
  have delivered := claimed state reached sampleBegun (by rw [begun]; exact mem_singleton_self _)
    (.rows [7]) (by rw [settled]; exact mem_singleton_self _) sampleOwner (by decide)
  rw [taken] at delivered
  simp only [sampleBegun, queryTake, takeShared] at delivered
  rw [show pool state.registry "exec_0000_00000000000000000000000000000000" sampleOwner = none
    from swept] at delivered
  cases delivered

end OnlyJs.Bridge.DbExec
