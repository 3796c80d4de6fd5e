import OnlyJs.Bridge.DbSession.Handles
import OnlyJs.Bridge.DbSession.ReadOnly

/-!
# What an id tells another subject

The operations that take a session id all rest on `lookup_entry`. Here two states of
the host are compared that look the same to one subject. An operation is taken from
its gates to its answer in one piece; what the awaited connection said is given.
-/

namespace OnlyJs.Bridge.DbSession

open Finmap Option Bridge.DbPolicy Bridge.HandleCore Lib.FiniteMap Lib.StepSystem

section Operations

/-- Errors of a session operation; `keep` is the envelope of `keep_err`. -/
inductive OpError where
  | keep (text : String)
  | call (error : CallError)

structure Summary where
  id : String
  aliasName : String
  discarded : Bool
  readOnly : Bool
  ageMs : Nat
  idleMs : Nat
  expiresInMs : Nat
  ops : Nat
  createdBy : Option String
deriving DecidableEq

inductive OpValue where
  | flag (value : Bool)
  | remaining (millis : Nat)
  | summary (value : Summary)
  | connection (id : String) (deadline : Option Nat)
  | elsewhere
deriving DecidableEq

/-- What the request itself holds: its attached session and its `db.tx`. -/
structure RequestState where
  bound : Option String
  txActive : Bool

inductive SessionOp where
  | attach
  | statement (guards : String → CallGuards) (sql : List Char)
  | commit (outcome : Except String Unit)
  | rollback (outcome : Except String Unit)
  | close
  | touch
  | info
  | target (physical : String)

def refusal {α : Type} (text : String) : Except OpError α := .error (.call (.message text))

def withEntry (host : HostState) (caller : Caller) (id : String)
    (use : TxSessionEntry → Except OpError OpValue × HostState) :
    Except OpError OpValue × HostState :=
  match lookupEntry host.registry host.epochs caller id with
  | .refused message => (refusal message, host)
  | .killed entry end_ reason message => (refusal message, host.kill entry end_ reason caller.now)
  | .found entry => use entry

def withGate (host : HostState) (caller : Caller)
    (use : Except OpError OpValue × HostState) : Except OpError OpValue × HostState :=
  match requireGate host.registry caller with
  | .error text => (refusal text, host)
  | .ok () => use

def attachedDeadline (host : HostState) (bound : Option String) (now : Nat) : Option Nat :=
  bound.bind fun id => (host.registry.inner.sessions.lookup id).map fun entry =>
    expiresIn entry.created (host.registry.cells entry.arc).lastUsed
      host.registry.config.idleTimeout host.registry.config.maxLifetime now

def TxSessionEntry.summary (entry : TxSessionEntry) (cell : EntryCell) (now : Nat)
    (config : DbSessionSection) : Summary where
  id := entry.id
  aliasName := entry.aliasName
  discarded := cell.dead
  readOnly := entry.readOnly
  ageMs := now - entry.created
  idleMs := now - cell.lastUsed
  expiresInMs := expiresIn entry.created cell.lastUsed config.idleTimeout config.maxLifetime now
  ops := cell.ops
  createdBy := entry.owner.user

def opAttach (host : HostState) (caller : Caller) (request : RequestState) (id : String) :
    Except OpError OpValue × HostState :=
  withEntry host caller id fun entry =>
    if request.txActive then
      (refusal ("per-request transaction active on this request; " ++
        "finish db.tx before attaching a session"), host)
    else
      match request.bound with
      | some previous =>
        if previous ≠ entry.id then
          (refusal s!"db session {idPrefix handlePrefix previous} is already attached (detach first)",
            host)
        else (.ok (.flag true), host)
      | none => (.ok (.flag true), host)

/-- The connection for a bound request, with the checks of `resolve_target`. -/
def opTarget (host : HostState) (bound : Option String) (caller : Caller) (physical : String)
    (normalized : Except String Unit) : Except OpError OpValue × HostState :=
  match attachedTarget host bound caller physical with
  | .refused after message => (refusal message, after)
  | .other => (.ok .elsewhere, host)
  | .session after entry =>
    match normalized with
    | .error text => (refusal text, after)
    | .ok () => (.ok (.connection entry.id (attachedDeadline after bound caller.now)), after)

/-- `db.session.query` and `db.session.exec`. The read-only gate stands before the
lookup, and it finds the session of whoever owns it. -/
def opStatement (host : HostState) (caller : Caller) (guards : String → CallGuards) (id : String)
    (sql : List Char) : Except OpError OpValue × HostState :=
  match gateSessionSql host.registry id sql with
  | .error text => (.error (.keep text), host)
  | .ok () =>
    withGate host caller <| withEntry host caller id fun entry =>
      match preludeGates host.registry (some entry.id) (guards entry.aliasName) sql with
      | .error error => (.error (.call error), host)
      | .ok () =>
        opTarget host (some entry.id) caller (guards entry.aliasName).physical
          (guards entry.aliasName).normalized

/-- `commit` and `rollback` end the session whatever the connection answers. -/
def opEnd (host : HostState) (caller : Caller) (id reason : String)
    (outcome : Except String Unit) : Except OpError OpValue × HostState :=
  withGate host caller <| withEntry host caller id fun entry =>
    (match outcome with
      | .error text => refusal text
      | .ok () => .ok (.flag true),
      host.kill entry .closed reason caller.now)

def opClose (host : HostState) (caller : Caller) (id : String) :
    Except OpError OpValue × HostState :=
  if host.registry.config.enabled then
    (.ok (.flag true), (withEntry host caller id fun entry =>
      (.ok (.flag true), host.kill entry .closed "close" caller.now)).2)
  else (.ok (.flag true), host)

def opTouch (host : HostState) (caller : Caller) (id : String) :
    Except OpError OpValue × HostState :=
  withGate host caller <| withEntry host caller id fun entry =>
    let config := host.registry.config
    (.ok (.remaining
        (expiresIn entry.created caller.now config.idleTimeout config.maxLifetime caller.now)),
      host.updateCell entry.arc (EntryCell.noteUse caller.now))

def opInfo (host : HostState) (caller : Caller) (id : String) :
    Except OpError OpValue × HostState :=
  withEntry host caller id fun entry =>
    (.ok (.summary (entry.summary (host.registry.cells entry.arc) caller.now host.registry.config)),
      host)

/-- One operation of the caller on an id; `target` is that of a request bound to it. -/
def runOp (host : HostState) (caller : Caller) (request : RequestState) (op : SessionOp)
    (id : String) : Except OpError OpValue × HostState :=
  match op with
  | .attach => opAttach host caller request id
  | .statement guards sql => opStatement host caller guards id sql
  | .commit outcome => opEnd host caller id "commit" outcome
  | .rollback outcome => opEnd host caller id "rollback" outcome
  | .close => opClose host caller id
  | .touch => opTouch host caller id
  | .info => opInfo host caller id
  | .target physical => opTarget host (some id) caller physical (.ok ())

end Operations

section Views

def TxSessionEntry.facts (entry : TxSessionEntry) : TxSessionEntry := { entry with arc := 0 }

def HostState.own (host : HostState) (owner : Owner) (id : String) :
    Option (TxSessionEntry × EntryCell) :=
  ((host.registry.inner.sessions.lookup id).filter fun entry =>
    entry.owner.sameSubject owner).map fun entry => (entry.facts, host.registry.cells entry.arc)

/-- Two states that differ only in sessions and tombstones of other subjects. -/
structure SameFor (owner : Owner) (left right : HostState) : Prop where
  sessions : ∀ id, left.own owner id = right.own owner id
  tombstones :
    left.registry.tombstones.filter (fun item => item.2.owner.sameSubject owner) =
      right.registry.tombstones.filter (fun item => item.2.owner.sameSubject owner)
  config : left.registry.config = right.registry.config
  epochs : left.epochs = right.epochs

/-- Other subjects' sessions are those of before, with their cells. -/
structure Spares (owner : Owner) (state next : HostState) : Prop where
  sessions : ∀ id entry, entry.owner.sameSubject owner = false →
    (next.registry.inner.sessions.lookup id = some entry ↔
      state.registry.inner.sessions.lookup id = some entry)
  cells : ∀ id entry, entry.owner.sameSubject owner = false →
    state.registry.inner.sessions.lookup id = some entry →
      next.registry.cells entry.arc = state.registry.cells entry.arc

def foreignReadOnly (host : HostState) (owner : Owner) (id : String) : Option String :=
  ((host.registry.inner.sessions.lookup id).filter fun entry =>
    !entry.owner.sameSubject owner && entry.readOnly).map TxSessionEntry.aliasName

/-- The operation answers alike in both states and touches no session of another
subject in either. -/
def Unrevealing (caller : Caller) (request : RequestState) (op : SessionOp) (id : String)
    (left right : HostState) : Prop :=
  (runOp left caller request op id).1 = (runOp right caller request op id).1 ∧
    Spares caller.owner left (runOp left caller request op id).2 ∧
    Spares caller.owner right (runOp right caller request op id).2

inductive Verdict where
  | found (entry : TxSessionEntry) (cell : EntryCell)
  | refused (message : String)

def Lookup.verdict (cells : Nat → EntryCell) : Lookup → Verdict
  | .found entry => .found entry.facts (cells entry.arc)
  | .refused message => .refused message
  | .killed _ _ _ message => .refused message

def judge (config : DbSessionSection) (epochs : String → Nat) (now : Nat) (id : String)
    (entry : TxSessionEntry) (cell : EntryCell) : Verdict :=
  match expiredReason entry.created cell.lastUsed config.idleTimeout config.maxLifetime now with
  | some reason =>
    .refused s!"tx session {idPrefix handlePrefix id} expired ({reason}); it was rolled back"
  | none =>
    if epochs entry.aliasName = entry.epoch then .found entry cell
    else
      .refused (s!"tx session {idPrefix handlePrefix id} refers to db alias " ++
        s!"'{entry.aliasName}' whose registration changed; session discarded")

def ownVerdict (host : HostState) (caller : Caller) (id : String) : Verdict :=
  if idIsWellformed handlePrefix id then
    match host.own caller.owner id with
    | some (entry, cell) => judge host.registry.config host.epochs caller.now id entry cell
    | none =>
      match tombstoneFor host.registry id caller.owner caller.now with
      | some tombstone => .refused (tombstone.message id)
      | none => .refused (notFound id)
  else .refused (notFound id)

end Views

variable (host : HostState)

section

variable (owner : Owner) (id : String) (entry : TxSessionEntry)
  (listed : host.registry.inner.sessions.lookup id = some entry)
include owner id entry listed

theorem own_of_listed (mine : entry.owner.sameSubject owner = true) :
    host.own owner id = some (entry.facts, host.registry.cells entry.arc) := by
  rw [HostState.own, listed, filter_some, if_pos mine]
  rfl

theorem own_of_foreign (foreign : entry.owner.sameSubject owner = false) :
    host.own owner id = none := by
  rw [HostState.own, listed, filter_some, foreign]
  rfl

end

theorem own_of_unlisted (owner : Owner) (id : String)
    (unlisted : host.registry.inner.sessions.lookup id = none) : host.own owner id = none := by
  rw [HostState.own, unlisted]
  rfl

theorem own_listed (owner : Owner) (id : String) (facts : TxSessionEntry) (cell : EntryCell)
    (mine : host.own owner id = some (facts, cell)) :
    ∃ entry, host.registry.inner.sessions.lookup id = some entry ∧
      entry.owner.sameSubject owner = true ∧ entry.facts = facts ∧
      host.registry.cells entry.arc = cell := by
  obtain ⟨entry, listed, same⟩ := map_eq_some_iff.mp mine
  obtain ⟨listed, subject⟩ := filter_eq_some_iff.mp listed
  cases same
  exact ⟨entry, listed, subject, rfl, rfl⟩

theorem tombstone_for_foreign (distinct : Distinct host) (owner : Owner) (id : String) (now : Nat)
    (entry : TxSessionEntry) (listed : host.registry.inner.sessions.lookup id = some entry)
    (foreign : entry.owner.sameSubject owner = false) :
    tombstoneFor host.registry id owner now = none := by
  rw [tombstoneFor, List.find?_eq_none.mpr]
  · rfl
  · intro item member matched
    rw [Bool.and_eq_true, beq_iff_eq] at matched
    obtain ⟨same, mine⟩ := matched
    have sameId : item.1 = entry.id := same.trans (distinct.keyed id entry listed).symm
    have sameOwner := distinct.buried entry item (.inl ⟨id, listed⟩) member sameId
    rw [sameOwner, foreign] at mine
    cases mine

variable (registry : TxSessionRegistry)

theorem tombstone_for_own (id : String) (owner : Owner) (now : Nat) :
    tombstoneFor registry id owner now =
      (((registry.tombstones.filter fun item => item.2.owner.sameSubject owner).find?
        fun item => item.1 == id).filter
          fun item => now - item.2.noted < tombstoneTtl).map Prod.snd := by
  rw [tombstoneFor, List.find?_filter]
  simp only [Bool.decide_and, Bool.decide_eq_true, Bool.and_comm]

theorem lookup_verdict (distinct : Distinct host) (caller : Caller) (id : String) :
    (lookupEntry host.registry host.epochs caller id).verdict host.registry.cells =
      ownVerdict host caller id := by
  unfold lookupEntry ownVerdict
  split
  · split
    · rename_i unlisted
      rw [own_of_unlisted host caller.owner id unlisted]
      cases tombstoneFor host.registry id caller.owner caller.now with
      | none => rfl
      | some tombstone => rfl
    · rename_i entry listed
      cases mine : entry.owner.sameSubject caller.owner with
      | true =>
        rw [own_of_listed host caller.owner id entry listed mine, if_pos rfl]
        dsimp only [judge, TxSessionEntry.facts]
        cases expiredReason entry.created (host.registry.cells entry.arc).lastUsed
          host.registry.config.idleTimeout host.registry.config.maxLifetime caller.now with
        | some reason => rfl
        | none =>
          dsimp only
          split
          · rfl
          · rfl
      | false =>
        rw [own_of_foreign host caller.owner id entry listed mine,
          tombstone_for_foreign host distinct caller.owner id caller.now entry listed mine]
        rfl
  · rfl

theorem own_verdict_same (caller : Caller) (left right : HostState)
    (same : SameFor caller.owner left right) (id : String) :
    ownVerdict left caller id = ownVerdict right caller id := by
  rw [ownVerdict, ownVerdict, same.sessions, same.config, same.epochs, tombstone_for_own,
    tombstone_for_own, same.tombstones]

theorem lookup_entry_own (epochs : String → Nat) (caller : Caller) (id : String)
    (entry : TxSessionEntry)
    (found : lookupEntry registry epochs caller id = .found entry ∨
      ∃ end_ reason message, lookupEntry registry epochs caller id =
      .killed entry end_ reason message) :
    registry.inner.sessions.lookup id = some entry ∧
      entry.owner.sameSubject caller.owner = true := by
  unfold lookupEntry at found
  split at found
  · split at found
    · split at found
      · rcases found with found | ⟨_, _, _, found⟩ <;> cases found
      · rcases found with found | ⟨_, _, _, found⟩ <;> cases found
    · rename_i held listed
      split at found
      · rename_i mine
        have same : held = entry := by
          split at found
          · rcases found with found | ⟨_, _, _, found⟩ <;> cases found
            rfl
          · split at found
            · rcases found with found | ⟨_, _, _, found⟩ <;> cases found
              rfl
            · rcases found with found | ⟨_, _, _, found⟩ <;> cases found
              rfl
        exact ⟨same ▸ listed, same ▸ mine⟩
      · rcases found with found | ⟨_, _, _, found⟩ <;> cases found
  · rcases found with found | ⟨_, _, _, found⟩ <;> cases found

theorem spares_refl (owner : Owner) (state : HostState) : Spares owner state state :=
  ⟨fun _ _ _ => Iff.rfl, fun _ _ _ _ => rfl⟩

section

variable (distinct : Distinct host) (owner : Owner) (entry : TxSessionEntry)
  (known : host.Known entry)
include distinct owner entry known

theorem foreign_arc (mine : entry.owner.sameSubject owner = true) (id : String)
    (other : TxSessionEntry) (foreign : other.owner.sameSubject owner = false)
    (listed : host.registry.inner.sessions.lookup id = some other) : other.arc ≠ entry.arc := by
  intro same
  have equal := distinct.coherent other entry (.inl ⟨id, listed⟩) known same
  rw [equal, mine] at foreign
  cases foreign

theorem spares_updateCell (mine : entry.owner.sameSubject owner = true)
    (change : EntryCell → EntryCell) :
    Spares owner host (host.updateCell entry.arc change) := by
  constructor
  · intro id other _
    exact Iff.rfl
  · intro id other foreign listed
    have apart := foreign_arc host distinct owner entry known mine id other foreign listed
    exact if_neg apart

end

theorem kill_sessions (entry : TxSessionEntry) (end_ : KillState) (reason : String) (now : Nat) :
    (host.kill entry end_ reason now).registry.inner.sessions =
      sessionsWithout host.registry.inner.sessions entry :=
  congrArg DiscardView.sessions (discard_kill host entry end_ reason now)

theorem kill_cells (entry : TxSessionEntry) (end_ : KillState) (reason : String) (now arc : Nat)
    (apart : arc ≠ entry.arc) :
    (host.kill entry end_ reason now).registry.cells arc = host.registry.cells arc := by
  simp only [HostState.kill, HostState.record, kill, noteTombstone, updateCell, if_neg apart]
  split
  · rfl
  · rfl

theorem spares_kill (distinct : Distinct host) (owner : Owner) (id : String)
    (entry : TxSessionEntry) (listed : host.registry.inner.sessions.lookup id = some entry)
    (mine : entry.owner.sameSubject owner = true) (end_ : KillState) (reason : String) (now : Nat) :
    Spares owner host (host.kill entry end_ reason now) := by
  constructor
  · intro other held foreign
    rw [kill_sessions]
    constructor
    · exact listed_of_without _ entry other held
    · intro found
      have apart : other ≠ entry.id := by
        rintro rfl
        rw [distinct.keyed id entry listed, listed] at found
        cases found
        rw [mine] at foreign
        cases foreign
      unfold sessionsWithout
      split
      · split
        · rw [lookup_erase_ne apart]
          exact found
        · exact found
      · exact found
  · intro other held foreign found
    apply kill_cells
    exact foreign_arc host distinct owner entry (.inl ⟨id, listed⟩) mine other held foreign found

theorem with_entry_spares (distinct : Distinct host) (caller : Caller) (id : String)
    (use : TxSessionEntry → Except OpError OpValue × HostState)
    (spares : ∀ entry, host.registry.inner.sessions.lookup id = some entry →
      entry.owner.sameSubject caller.owner = true → Spares caller.owner host (use entry).2) :
    Spares caller.owner host (withEntry host caller id use).2 := by
  unfold withEntry
  split
  · exact spares_refl caller.owner host
  · rename_i killed
    obtain ⟨listed, mine⟩ := lookup_entry_own _ _ _ _ _ (.inr ⟨_, _, _, killed⟩)
    exact spares_kill host distinct caller.owner id _ listed mine _ _ _
  · rename_i found
    obtain ⟨listed, mine⟩ := lookup_entry_own _ _ _ _ _ (.inl found)
    exact spares _ listed mine

theorem with_gate_spares (caller : Caller) (use : Except OpError OpValue × HostState)
    (spares : Spares caller.owner host use.2) :
    Spares caller.owner host (withGate host caller use).2 := by
  unfold withGate
  split
  · exact spares_refl caller.owner host
  · exact spares

theorem op_target_spares (distinct : Distinct host) (caller : Caller) (bound : Option String)
    (physical : String) (normalized : Except String Unit) :
    Spares caller.owner host (opTarget host bound caller physical normalized).2 := by
  have target : ∀ after, (∃ message, attachedTarget host bound caller physical =
      .refused after message) ∨ (∃ entry, attachedTarget host bound caller physical =
        .session after entry) → Spares caller.owner host after := by
    intro after reached
    unfold attachedTarget at reached
    split at reached
    · rcases reached with ⟨_, absurd⟩ | ⟨_, absurd⟩ <;> cases absurd
    · rename_i id
      split at reached
      · rcases reached with ⟨_, same⟩ | ⟨_, same⟩ <;> cases same
        exact spares_refl caller.owner host
      · rename_i killed
        obtain ⟨listed, mine⟩ := lookup_entry_own _ _ _ _ _ (.inr ⟨_, _, _, killed⟩)
        rcases reached with ⟨_, same⟩ | ⟨_, same⟩ <;> cases same
        exact spares_kill host distinct caller.owner id _ listed mine _ _ _
      · rename_i entry found
        obtain ⟨listed, mine⟩ := lookup_entry_own _ _ _ _ _ (.inl found)
        split at reached
        · rcases reached with ⟨_, same⟩ | ⟨_, same⟩ <;> cases same
          exact spares_updateCell host distinct caller.owner entry (.inl ⟨id, listed⟩) mine _
        · rcases reached with ⟨_, same⟩ | ⟨_, same⟩ <;> cases same
          exact spares_refl caller.owner host
  unfold opTarget
  split
  · rename_i after message refused
    exact target after (.inl ⟨message, refused⟩)
  · exact spares_refl caller.owner host
  · rename_i after entry reached
    split
    · exact target after (.inr ⟨entry, reached⟩)
    · exact target after (.inr ⟨entry, reached⟩)

/-- No operation touches a session of another subject. -/
theorem run_op_spares (distinct : Distinct host) (caller : Caller) (request : RequestState)
    (op : SessionOp) (id : String) :
    Spares caller.owner host (runOp host caller request op id).2 := by
  have ends : ∀ reason (outcome : Except String Unit),
      Spares caller.owner host (opEnd host caller id reason outcome).2 := by
    intro reason outcome
    apply with_gate_spares
    apply with_entry_spares host distinct
    intro entry listed mine
    exact spares_kill host distinct caller.owner id entry listed mine _ _ _
  cases op with
  | attach =>
    apply with_entry_spares host distinct
    intro entry _ _
    split
    · exact spares_refl caller.owner host
    · split
      · split
        · exact spares_refl caller.owner host
        · exact spares_refl caller.owner host
      · exact spares_refl caller.owner host
  | statement guards sql =>
    dsimp only [runOp]
    unfold opStatement
    split
    · exact spares_refl caller.owner host
    · apply with_gate_spares
      apply with_entry_spares host distinct
      intro entry _ _
      split
      · exact spares_refl caller.owner host
      · exact op_target_spares host distinct caller _ _ _
  | commit outcome => exact ends "commit" outcome
  | rollback outcome => exact ends "rollback" outcome
  | close =>
    dsimp only [runOp, opClose]
    split
    · apply with_entry_spares host distinct
      intro entry listed mine
      exact spares_kill host distinct caller.owner id entry listed mine _ _ _
    · exact spares_refl caller.owner host
  | touch =>
    apply with_gate_spares
    apply with_entry_spares host distinct
    intro entry listed mine
    exact spares_updateCell host distinct caller.owner entry (.inl ⟨id, listed⟩) mine _
  | info =>
    apply with_entry_spares host distinct
    intro entry _ _
    exact spares_refl caller.owner host
  | target physical => exact op_target_spares host distinct caller _ _ _

/-- Two entries that a caller cannot tell apart, each in its own state. -/
structure Twin (owner : Owner) (left right : HostState) (id : String)
    (first second : TxSessionEntry) : Prop where
  listedLeft : left.registry.inner.sessions.lookup id = some first
  listedRight : right.registry.inner.sessions.lookup id = some second
  mine : first.owner.sameSubject owner = true
  facts : first.facts = second.facts
  cells : left.registry.cells first.arc = right.registry.cells second.arc

section Comparison

variable {caller : Caller} {left right : HostState}

variable {id : String} {first second : TxSessionEntry}

variable {owner : Owner}

section

variable (twin : Twin owner left right id first second)
include twin

theorem twin_id :
    first.id = second.id := by
  have facts := congrArg TxSessionEntry.id twin.facts
  exact facts

theorem twin_alias :
    first.aliasName = second.aliasName := by
  have facts := congrArg TxSessionEntry.aliasName twin.facts
  exact facts

theorem twin_created :
    first.created = second.created := by
  have facts := congrArg TxSessionEntry.created twin.facts
  exact facts

end

theorem lookups_agree (distinctLeft : Distinct left) (distinctRight : Distinct right)
    (same : SameFor caller.owner left right) (id : String) :
    (∃ message, (lookupEntry left.registry left.epochs caller id).verdict left.registry.cells =
        .refused message ∧
      (lookupEntry right.registry right.epochs caller id).verdict right.registry.cells =
        .refused message) ∨
      ∃ first second, lookupEntry left.registry left.epochs caller id = .found first ∧
        lookupEntry right.registry right.epochs caller id = .found second ∧
        Twin caller.owner left right id first second := by
  have agree : (lookupEntry left.registry left.epochs caller id).verdict left.registry.cells =
      (lookupEntry right.registry right.epochs caller id).verdict right.registry.cells := by
    rw [lookup_verdict left distinctLeft, lookup_verdict right distinctRight]
    exact own_verdict_same caller left right same id
  cases first : lookupEntry left.registry left.epochs caller id with
  | refused message | killed entry end_ reason message =>
    rw [first] at agree
    exact .inl ⟨message, rfl, agree.symm⟩
  | found entry =>
    cases second : lookupEntry right.registry right.epochs caller id with
    | refused message | killed other end_ reason message =>
      rw [first, second] at agree
      cases agree
    | found other =>
      rw [first, second] at agree
      obtain ⟨facts, cells⟩ := Verdict.found.inj agree
      obtain ⟨listedLeft, mine⟩ := lookup_entry_own _ _ _ _ _ (.inl first)
      obtain ⟨listedRight, -⟩ := lookup_entry_own _ _ _ _ _ (.inl second)
      exact .inr ⟨entry, other, rfl, rfl, listedLeft, listedRight, mine, facts, cells⟩

variable (host : HostState)

theorem with_entry_refused (id : String) (message : String)
    (use : TxSessionEntry → Except OpError OpValue × HostState)
    (refused : (lookupEntry host.registry host.epochs caller id).verdict host.registry.cells =
      .refused message) :
    (withEntry host caller id use).1 = refusal message := by
  unfold withEntry
  split
  · rename_i same
    rw [same] at refused
    cases refused
    rfl
  · rename_i same
    rw [same] at refused
    cases refused
    rfl
  · rename_i same
    rw [same] at refused
    cases refused

theorem with_entry_same (distinctLeft : Distinct left) (distinctRight : Distinct right)
    (same : SameFor caller.owner left right) (id : String)
    (useLeft useRight : TxSessionEntry → Except OpError OpValue × HostState)
    (used : ∀ first second, Twin caller.owner left right id first second →
      (useLeft first).1 = (useRight second).1) :
    (withEntry left caller id useLeft).1 = (withEntry right caller id useRight).1 := by
  rcases lookups_agree distinctLeft distinctRight same id with
    ⟨message, refusedLeft, refusedRight⟩ | ⟨first, second, foundLeft, foundRight, twin⟩
  · rw [with_entry_refused left id message useLeft refusedLeft,
      with_entry_refused right id message useRight refusedRight]
  · rw [withEntry, withEntry, foundLeft, foundRight]
    exact used first second twin

theorem with_gate_same (same : SameFor caller.owner left right)
    (useLeft useRight : Except OpError OpValue × HostState) (used : useLeft.1 = useRight.1) :
    (withGate left caller useLeft).1 = (withGate right caller useRight).1 := by
  have gates : requireGate left.registry caller = requireGate right.registry caller := by
    rw [requireGate, requireGate, same.config]
  rw [withGate, withGate, gates]
  split
  · rfl
  · exact used

theorem op_target_same (distinctLeft : Distinct left) (distinctRight : Distinct right)
    (same : SameFor caller.owner left right) (id : String) (physical : String)
    (normalized : Except String Unit) :
    (opTarget left (some id) caller physical normalized).1 =
      (opTarget right (some id) caller physical normalized).1 := by
  have refused : ∀ (host : HostState) message,
      (lookupEntry host.registry host.epochs caller id).verdict host.registry.cells =
        .refused message →
      (opTarget host (some id) caller physical normalized).1 = refusal message := by
    intro host message verdict
    unfold opTarget attachedTarget
    dsimp only
    cases looked : lookupEntry host.registry host.epochs caller id with
    | refused text | killed entry end_ reason text =>
      rw [looked] at verdict
      cases verdict
      rfl
    | found entry =>
      rw [looked] at verdict
      cases verdict
  rcases lookups_agree distinctLeft distinctRight same id with
    ⟨message, refusedLeft, refusedRight⟩ | ⟨first, second, foundLeft, foundRight, twin⟩
  · rw [refused left message refusedLeft, refused right message refusedRight]
  · have deadline : ∀ (host : HostState) (entry : TxSessionEntry),
        host.registry.inner.sessions.lookup id = some entry →
        attachedDeadline (host.updateCell entry.arc (EntryCell.noteUse caller.now)) (some id)
            caller.now =
          some (expiresIn entry.created caller.now host.registry.config.idleTimeout
            host.registry.config.maxLifetime caller.now) := by
      intro host entry listed
      simp only [attachedDeadline, HostState.updateCell, updateCell, bind_some, listed,
        map_some, if_pos, EntryCell.noteUse]
    unfold opTarget attachedTarget
    dsimp only
    rw [foundLeft, foundRight]
    dsimp only
    rw [twin_alias twin]
    by_cases bound : second.aliasName = physical
    · rw [if_pos bound, if_pos bound]
      dsimp only
      rw [deadline left first twin.listedLeft, deadline right second twin.listedRight,
        twin_id twin, twin_created twin, same.config]
      cases normalized with
      | error text => rfl
      | ok done => rfl
    · rw [if_neg bound, if_neg bound]

theorem gate_entry_own (owner : Owner) (id : String) (sql : List Char) (facts : TxSessionEntry)
    (cell : EntryCell) (mine : host.own owner id = some (facts, cell)) :
    gateEntry host.registry id sql =
      if facts.readOnly then rejectReadonly facts.aliasName sql else .ok () := by
  obtain ⟨entry, listed, -, rfl, -⟩ := own_listed host owner id facts cell mine
  rw [gateEntry, listed]
  rfl

theorem gate_entry_other (owner : Owner) (id : String) (sql : List Char)
    (other : host.own owner id = none) :
    gateEntry host.registry id sql =
      match foreignReadOnly host owner id with
      | some aliasName => rejectReadonly aliasName sql
      | none => .ok () := by
  rw [gateEntry, foreignReadOnly]
  cases listed : host.registry.inner.sessions.lookup id with
  | none => rfl
  | some entry =>
    cases mine : entry.owner.sameSubject owner with
    | true =>
      rw [own_of_listed host owner id entry listed mine] at other
      cases other
    | false =>
      rw [filter_some, mine]
      cases readOnly : entry.readOnly with
      | true => simp only [readOnly, Bool.not_false, Bool.and_true, if_true, map_some]
      | false => simp only [readOnly, Bool.and_false, Bool.false_eq_true, if_false,
          map_none]

theorem foreign_read_only_own (owner : Owner) (id : String) (facts : TxSessionEntry)
    (cell : EntryCell) (mine : host.own owner id = some (facts, cell)) :
    foreignReadOnly host owner id = none := by
  obtain ⟨entry, listed, subject, -⟩ := own_listed host owner id facts cell mine
  rw [foreignReadOnly, listed, filter_some, subject]
  rfl

theorem reject_readonly_calm (aliasName : String) (sql : List Char)
    (calm : ¬ IsWrite (classify sql).risk) : rejectReadonly aliasName sql = .ok () :=
  if_neg calm

theorem reject_readonly_write (sql : List Char)
    (writes : IsWrite (classify sql).risk) : ∃ rest,
    ∀ name, rejectReadonly name sql = .error ("db session on alias '" ++ name ++ rest) := by
  refine ⟨"' is read-only; statement classified " ++ (classify sql).risk.text ++
    " was rejected (begin a session without readOnly, or use a writable alias)", ?_⟩
  intro name
  have rejected : rejectReadonly name sql = .error _ := if_pos writes
  rw [rejected]
  simp only [String.append_assoc]

theorem gate_same (same : SameFor caller.owner left right) (id : String) (sql : List Char)
    (hidden : IsWrite (classify sql).risk →
      foreignReadOnly left caller.owner id = foreignReadOnly right caller.owner id) :
    gateEntry left.registry id sql = gateEntry right.registry id sql := by
  cases mine : left.own caller.owner id with
  | some own =>
    obtain ⟨facts, cell⟩ := own
    rw [gate_entry_own left caller.owner id sql facts cell mine,
      gate_entry_own right caller.owner id sql facts cell ((same.sessions id).symm.trans mine)]
  | none =>
    rw [gate_entry_other left caller.owner id sql mine,
      gate_entry_other right caller.owner id sql ((same.sessions id).symm.trans mine)]
    by_cases writes : IsWrite (classify sql).risk
    · rw [hidden writes]
    · have open_ : ∀ foreign : Option String, (match foreign with
          | some aliasName => rejectReadonly aliasName sql
          | none => .ok ()) = Except.ok () := by
        intro foreign
        cases foreign with
        | none => rfl
        | some aliasName => exact reject_readonly_calm aliasName sql writes
      rw [open_, open_]

theorem prelude_same (same : SameFor caller.owner left right)
    (twin : Twin caller.owner left right id first second) (keyed : first.id = id)
    (guards : CallGuards) (sql : List Char) :
    preludeGates left.registry (some first.id) guards sql =
      preludeGates right.registry (some second.id) guards sql := by
  have mine := own_of_listed left caller.owner id first twin.listedLeft twin.mine
  have gates := gate_same same id sql fun _ => by
    rw [foreign_read_only_own left caller.owner id _ _ mine,
      foreign_read_only_own right caller.owner id _ _ ((same.sessions id).symm.trans mine)]
  rw [← twin_id twin, keyed]
  unfold preludeGates readonlyGate
  dsimp only
  rw [gates]

theorem op_statement_same (distinctLeft : Distinct left) (distinctRight : Distinct right)
    (same : SameFor caller.owner left right) (guards : String → CallGuards) (id : String)
    (sql : List Char)
    (hidden : IsWrite (classify sql).risk →
      foreignReadOnly left caller.owner id = foreignReadOnly right caller.owner id) :
    (opStatement left caller guards id sql).1 = (opStatement right caller guards id sql).1 := by
  unfold opStatement gateSessionSql
  rw [gate_same same id sql hidden]
  split
  · rfl
  · apply with_gate_same same
    apply with_entry_same distinctLeft distinctRight same
    intro first second twin
    have keyed := distinctLeft.keyed id first twin.listedLeft
    rw [prelude_same same twin keyed, twin_alias twin]
    split
    · rfl
    · rw [twin_id twin]
      exact op_target_same distinctLeft distinctRight same second.id _ _

theorem op_statement_unknown (distinct : Distinct host) (guards : String → CallGuards) (id : String)
    (sql : List Char) (unknown : host.own caller.owner id = none)
    (passed : gateEntry host.registry id sql = .ok ()) (text : String) :
    (opStatement host caller guards id sql).1 ≠ .error (.keep text) := by
  have verdict := lookup_verdict host distinct caller id
  have refused : ∃ message, ownVerdict host caller id = .refused message := by
    unfold ownVerdict
    rw [unknown]
    dsimp only
    split
    · split
      · exact ⟨_, rfl⟩
      · exact ⟨_, rfl⟩
    · exact ⟨_, rfl⟩
  obtain ⟨message, same⟩ := refused
  unfold opStatement gateSessionSql withGate
  rw [passed]
  dsimp only
  split
  · intro kept
    cases kept
  · rw [with_entry_refused host id message _ (verdict.trans same)]
    intro kept
    cases kept

section

variable (distinctLeft : Distinct left) (distinctRight : Distinct right)
  (same : SameFor caller.owner left right)
include distinctLeft distinctRight same

/-- A write against foreign read-only sessions is answered alike only when what the
gate says of them is the same. -/
theorem op_statement_apart (guards : String → CallGuards) (id : String) (sql : List Char)
    (writes : IsWrite (classify sql).risk)
    (answers : (opStatement left caller guards id sql).1 =
      (opStatement right caller guards id sql).1) :
    foreignReadOnly left caller.owner id = foreignReadOnly right caller.owner id := by
  obtain ⟨rest, rejected⟩ := reject_readonly_write sql writes
  have kept : ∀ (host : HostState) aliasName, host.own caller.owner id = none →
      foreignReadOnly host caller.owner id = some aliasName →
      (opStatement host caller guards id sql).1 =
        .error (.keep ("db session on alias '" ++ aliasName ++ rest)) := by
    intro host aliasName other foreign
    unfold opStatement gateSessionSql
    rw [gate_entry_other host caller.owner id sql other, foreign]
    dsimp only
    rw [rejected]
  have passed : ∀ host : HostState, host.own caller.owner id = none →
      foreignReadOnly host caller.owner id = none → gateEntry host.registry id sql = .ok () := by
    intro host other foreign
    rw [gate_entry_other host caller.owner id sql other, foreign]
  cases mine : left.own caller.owner id with
  | some own =>
    obtain ⟨facts, cell⟩ := own
    rw [foreign_read_only_own left caller.owner id facts cell mine,
      foreign_read_only_own right caller.owner id facts cell
        ((same.sessions id).symm.trans mine)]
  | none =>
    have unknown : right.own caller.owner id = none := (same.sessions id).symm.trans mine
    cases first : foreignReadOnly left caller.owner id with
    | none =>
      cases second : foreignReadOnly right caller.owner id with
      | none => rfl
      | some aliasName =>
        rw [kept right aliasName unknown second] at answers
        exact absurd answers (op_statement_unknown left distinctLeft guards id sql mine
          (passed left mine first) _)
    | some aliasName =>
      rw [kept left aliasName mine first] at answers
      cases second : foreignReadOnly right caller.owner id with
      | none =>
        exact absurd answers.symm (op_statement_unknown right distinctRight guards id sql
          unknown (passed right unknown second) _)
      | some other =>
        rw [kept right other unknown second] at answers
        have texts := OpError.keep.inj (Except.error.inj answers)
        rw [String.append_left_inj, String.append_right_inj] at texts
        rw [texts]

/-- Every operation but a statement answers alike. -/
theorem run_op_same (request : RequestState) (op : SessionOp) (id : String)
    (hidden : ∀ guards sql, op = .statement guards sql → IsWrite (classify sql).risk →
      foreignReadOnly left caller.owner id = foreignReadOnly right caller.owner id) :
    (runOp left caller request op id).1 = (runOp right caller request op id).1 := by
  have ends : ∀ reason (outcome : Except String Unit),
      (opEnd left caller id reason outcome).1 = (opEnd right caller id reason outcome).1 := by
    intro reason outcome
    apply with_gate_same same
    apply with_entry_same distinctLeft distinctRight same
    intro first second twin
    rfl
  cases op with
  | attach =>
    apply with_entry_same distinctLeft distinctRight same
    intro first second twin
    rw [twin_id twin]
    split
    · rfl
    · split
      · split
        · rfl
        · rfl
      · rfl
  | statement guards sql =>
    exact op_statement_same distinctLeft distinctRight same guards id sql
      (hidden guards sql rfl)
  | commit outcome => exact ends "commit" outcome
  | rollback outcome => exact ends "rollback" outcome
  | close =>
    dsimp only [runOp, opClose]
    rw [same.config]
    split
    · rfl
    · rfl
  | touch =>
    apply with_gate_same same
    apply with_entry_same distinctLeft distinctRight same
    intro first second twin
    rw [twin_created twin, same.config]
  | info =>
    apply with_entry_same distinctLeft distinctRight same
    intro first second twin
    have shown : first.facts.summary (left.registry.cells first.arc) caller.now
        left.registry.config = second.facts.summary (right.registry.cells second.arc)
        caller.now right.registry.config := by
      rw [twin.facts, twin.cells, same.config]
    exact congrArg (fun summary => Except.ok (OpValue.summary summary)) shown
  | target physical => exact op_target_same distinctLeft distinctRight same id physical _

end

end Comparison

/-- An id tells its caller nothing of other subjects, except that a write sent to it
shows whether another subject has a read-only session there, and on which alias. -/
theorem sessions_unrevealed_iff (config : DbSessionSection) (leftBoot rightBoot : BootTag)
    (left right : HostState)
    (reachedLeft : Reachable (sessionSystem config leftBoot) DrawsUnused left)
    (reachedRight : Reachable (sessionSystem config rightBoot) DrawsUnused right)
    (caller : Caller) (same : SameFor caller.owner left right) (request : RequestState)
    (op : SessionOp) (id : String) :
    Unrevealing caller request op id left right ↔
      ∀ guards sql, op = .statement guards sql → IsWrite (classify sql).risk →
        foreignReadOnly left caller.owner id = foreignReadOnly right caller.owner id := by
  have distinctLeft := distinct_reachable config leftBoot left reachedLeft
  have distinctRight := distinct_reachable config rightBoot right reachedRight
  constructor
  · rintro ⟨answers, -, -⟩ guards sql rfl writes
    exact op_statement_apart distinctLeft distinctRight same guards id sql writes answers
  · intro hidden
    refine ⟨?_, ?_, ?_⟩
    · exact run_op_same distinctLeft distinctRight same request op id hidden
    · exact run_op_spares left distinctLeft caller request op id
    · exact run_op_spares right distinctRight caller request op id

section Samples

def foreignOpening : List SessionStep :=
  [.beginReserve 0 { sampleCaller with owner := { sampleOwner with user := some "u2" } }
      { sampleRequest with readOnly := true },
    .beginInserted 0 (sampleBytes 0) 0]

def sampleRequestState : RequestState where
  bound := none
  txActive := false

theorem foreign_host : ∃ host, Reachable (sessionSystem enabledSection sampleBoot)
    DrawsUnused host ∧
    SameFor sampleOwner host (.initial enabledSection sampleBoot) ∧
    foreignReadOnly host sampleOwner sampleId = some "default" := by
  obtain ⟨host, entry, ran, epochs, config, tombstones, sessions, foreign, readOnly, aliasName⟩ :
      ∃ (host : HostState) (entry : TxSessionEntry),
        (sessionSystem enabledSection sampleBoot).runWhere drawsUnused
          (.initial enabledSection sampleBoot) foreignOpening = some host ∧
        host.epochs = (HostState.initial enabledSection sampleBoot).epochs ∧
        host.registry.config = enabledSection ∧ host.registry.tombstones = [] ∧
        host.registry.inner.sessions = (∅ : Finmap fun _ => TxSessionEntry).insert sampleId entry ∧
        entry.owner.sameSubject sampleOwner = false ∧ entry.readOnly = true ∧
        entry.aliasName = "default" :=
    ⟨_, _, rfl, rfl, rfl, rfl, rfl, rfl, rfl, rfl⟩
  refine ⟨host, ⟨_, path_of_run_where drawsUnused (fun _ _ passed => passed) _ _ _ ran⟩,
    ⟨?_, ?_, config, epochs⟩, ?_⟩
  · intro id
    by_cases same : id = sampleId
    · apply own_of_foreign host sampleOwner id entry ?_ foreign
      rw [sessions, same]
      exact lookup_insert _
    · apply own_of_unlisted host sampleOwner id
      rw [sessions, lookup_insert_of_ne _ same]
      rfl
  · rw [tombstones]
    rfl
  · rw [foreignReadOnly, sessions, lookup_insert, filter_some, foreign, readOnly]
    exact congrArg some aliasName

/-- Asking about the id answers the same as if nobody had a session there. -/
theorem sessions_unrevealed_iff_info : ∃ host,
    foreignReadOnly host sampleOwner sampleId = some "default" ∧
      Unrevealing sampleCaller sampleRequestState .info sampleId host
        (.initial enabledSection sampleBoot) := by
  obtain ⟨host, reached, same, foreign⟩ := foreign_host
  refine ⟨host, foreign, ?_⟩
  apply (sessions_unrevealed_iff enabledSection sampleBoot sampleBoot host _ reached
    reachable_init sampleCaller same sampleRequestState .info sampleId).mpr
  intro guards sql statement
  cases statement

/-- Sending a `DELETE` to the id shows that somebody has a read-only session there. -/
theorem write_reveals_foreign_session : ¬ ∀ left right,
    Reachable (sessionSystem enabledSection sampleBoot) DrawsUnused left →
    Reachable (sessionSystem enabledSection sampleBoot) DrawsUnused right →
    SameFor sampleCaller.owner left right → ∀ op,
      Unrevealing sampleCaller sampleRequestState op sampleId left right := by
  intro unrevealed
  obtain ⟨host, reached, same, foreign⟩ := foreign_host
  have writes : IsWrite (classify "DELETE FROM t".toList).risk := by
    have risk : (classify "DELETE FROM t".toList).risk = .write := by decide +kernel
    exact .inl risk
  have answers := (unrevealed host _ reached reachable_init same
    (.statement (fun _ => sampleGuards) "DELETE FROM t".toList)).1
  have equal := op_statement_apart
    (distinct_reachable enabledSection sampleBoot host reached)
    (distinct_reachable enabledSection sampleBoot _ reachable_init) same
    (fun _ => sampleGuards) sampleId "DELETE FROM t".toList writes answers
  have absent : foreignReadOnly (sessionSystem enabledSection sampleBoot).init
    sampleCaller.owner sampleId = none := rfl
  cases foreign.symm.trans (equal.trans absent)

end Samples

end OnlyJs.Bridge.DbSession
