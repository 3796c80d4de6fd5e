import OnlyJs.Bridge.DbSession.Quota
import OnlyJs.Bridge.DbSession.SessionOps
import OnlyJs.Lib.Fallible

/-!
# Read-only sessions

The gate of a read-only session turns away what is classified as a write or a
schema change. A text is classified by its riskiest statement, and a statement
that cannot be classified is riskier than a write, so it hides one; the builder
does not pass the gate at all.
-/

namespace OnlyJs.Bridge.DbSession

open Finmap Option Bridge.DbPolicy Bridge.HandleCore Lib.Fallible Lib.StepSystem

def IsWrite (risk : Risk) : Prop := risk = .write ∨ risk = .ddl

/-- Work that writes nothing: SQL not classified as a write, with no statement
that is, or a builder select. -/
def Harmless : Work → Prop
  | .sql text => ¬ IsWrite (classify text).risk ∧
      ∀ stmts, statements text = some stmts → ∀ words ∈ stmts, ¬ IsWrite (stmtRisk words)
  | .build verb => verb = .select

/-- No write was admitted to the connection of a read-only session. -/
def ReadOnlyKept (state : RequestHost) : Prop :=
  ∀ admitted ∈ state.admitted, admitted.entry.readOnly = true → Harmless admitted.work

/-- A write that a statement without a classification hides. -/
def HidesWrite (sql : List Char) : Prop :=
  ∃ stmts, statements sql = some stmts ∧ (∃ words ∈ stmts, IsWrite (stmtRisk words)) ∧
    ∃ words ∈ stmts, stmtRisk words = .unknown

/-- The request is bound to a read-only session. -/
def BoundReadOnly (state : RequestHost) (bound : Option String) : Prop :=
  ∃ id entry, bound = some id ∧ state.host.registry.inner.sessions.lookup id = some entry ∧
    entry.readOnly = true

def AccessRefused (guards : CallGuards) (sql : List Char) : Prop :=
  ∃ error, checkAccess guards.physical guards.policy guards.ctx guards.confirm sql =
    .error error

def IntentRefused (guards : CallGuards) (verb : Verb) (unfiltered : Bool) : Prop :=
  (∃ error, dangerousConfirmGate guards.physical guards.policy guards.confirm
      (buildIntent verb unfiltered) = .error error) ∨
    ∃ error, checkAccessIntent guards.physical guards.policy guards.ctx
      (buildIntent verb unfiltered) = .error error

/-- The operations that the gate of a read-only session judges rightly: no hidden
write and no builder write reaches it, unless the access policy refuses it. -/
def OpenWrite (state : RequestHost) : RequestStep → Prop
  | .raw request _ guards sql =>
    BoundReadOnly state (state.bound request) → HidesWrite sql → AccessRefused guards sql
  | .session _ _ _ guards id sql =>
    BoundReadOnly state (some id) → HidesWrite sql → AccessRefused guards sql
  | .build request _ guards verb unfiltered =>
    BoundReadOnly state (state.bound request) → verb ≠ .select →
      IntentRefused guards verb unfiltered
  | _ => True

/-- Every entry of the table is listed under its own id. -/
def Keyed (host : HostState) : Prop :=
  ∀ id entry, host.registry.inner.sessions.lookup id = some entry → entry.id = id

section Gate

theorem harmless_iff_of_not_write (sql : List Char) (calm : ¬ IsWrite (classify sql).risk) :
    Harmless (.sql sql) ↔ ¬ HidesWrite sql := by
  constructor
  · rintro ⟨_, harmless⟩ ⟨stmts, scanned, ⟨words, member, writes⟩, _⟩
    exact harmless stmts scanned words member writes
  · intro visible
    refine ⟨calm, fun stmts scanned words member writes => ?_⟩
    have above := (severity_classify_le sql stmts scanned (severity (classify sql).risk)).mp
      (Nat.le_refl _) words member
    have hidden : (classify sql).risk = .unknown := by
      rcases writes with same | same <;> rw [same] at above <;>
        cases risk : (classify sql).risk <;> rw [risk] at above calm <;>
        simp [severity, IsWrite] at above calm ⊢
    have risky : (classify sql).risk ≠ .readOnly := by
      rw [hidden]
      decide
    obtain ⟨other, listed, same⟩ := classify_risk_mem sql stmts scanned risky
    exact visible ⟨stmts, scanned, ⟨words, member, writes⟩, other, listed, same.trans hidden⟩

theorem reject_readonly_ok (aliasName : String) (sql : List Char)
    (passed : rejectReadonly aliasName sql = .ok ()) : ¬ IsWrite (classify sql).risk := by
  unfold rejectReadonly at passed
  simp only at passed
  split at passed
  · cases passed
  · rename_i calm
    exact calm

variable (registry : TxSessionRegistry)

theorem gate_entry_ok (id : String) (sql : List Char) (entry : TxSessionEntry)
    (listed : registry.inner.sessions.lookup id = some entry) (guarded : entry.readOnly = true)
    (passed : gateEntry registry id sql = .ok ()) :
    ¬ IsWrite (classify sql).risk := by
  simp only [gateEntry, listed, guarded, if_true] at passed
  exact reject_readonly_ok entry.aliasName sql passed

theorem prelude_gates_ok (bound : Option String) (guards : CallGuards) (sql : List Char)
    (passed : preludeGates registry bound guards sql = .ok ()) :
    readonlyGate registry bound sql = .ok () ∧ ¬ AccessRefused guards sql := by
  obtain ⟨_, _, passed⟩ := bind_ok.mp passed
  obtain ⟨_, gate, passed⟩ := bind_ok.mp passed
  obtain ⟨_, _, passed⟩ := bind_ok.mp passed
  obtain ⟨_, _, passed⟩ := bind_ok.mp passed
  obtain ⟨cap, access, _⟩ := bind_ok.mp passed
  refine ⟨map_error_ok.mp gate, ?_⟩
  rintro ⟨error, refused⟩
  cases (map_error_ok.mp access).symm.trans refused

theorem build_gates_ok (guards : CallGuards) (verb : Verb) (unfiltered : Bool)
    (passed : buildGates guards verb unfiltered = .ok ()) :
    ¬ IntentRefused guards verb unfiltered := by
  obtain ⟨_, _, passed⟩ := bind_ok.mp passed
  obtain ⟨_, confirmed, passed⟩ := bind_ok.mp passed
  obtain ⟨cap, access, _⟩ := bind_ok.mp passed
  rintro (⟨error, refused⟩ | ⟨error, refused⟩)
  · cases (map_error_ok.mp confirmed).symm.trans refused
  · cases (map_error_ok.mp access).symm.trans refused

end Gate

section KeyedTable

theorem keyed_detach (inner : Inner) (gone : TxSessionEntry)
    (keyed : ∀ id entry, inner.sessions.lookup id = some entry → entry.id = id) :
    ∀ id entry, (inner.detach gone).sessions.lookup id = some entry → entry.id = id := by
  intro id entry listed
  unfold Inner.detach at listed
  split at listed
  · split at listed
    · by_cases same : id = gone.id
      · rw [same] at listed
        simp only [lookup_erase] at listed
        cases listed
      · simp only [lookup_erase_ne same] at listed
        exact keyed id entry listed
    · exact keyed id entry listed
  · exact keyed id entry listed

variable (host : HostState)

theorem keyed_kill (gone : TxSessionEntry) (end_ : KillState) (reason : String) (now : Nat)
    (keyed : Keyed host) :
    Keyed (host.kill gone end_ reason now) := by
  have view := congrArg QuotaView.inner (quota_kill host gone end_ reason now)
  have sessions : (host.kill gone end_ reason now).registry.inner =
      host.registry.inner.detach gone := view
  intro id entry listed
  rw [sessions] at listed
  exact keyed_detach host.registry.inner gone keyed id entry listed

theorem keyed_step (next : HostState) (label : SessionStep) (keyed : Keyed host)
    (fired : step host label = some next) : Keyed next := by
  have effect := step_quota_effect host next label fired
  generalize viewed : next.quota = view at effect
  have inner : next.registry.inner = view.inner := congrArg QuotaView.inner viewed
  intro id entry listed
  rw [inner] at listed
  cases effect with
  | unchanged => exact keyed id entry listed
  | detached _ gone => exact keyed_detach host.registry.inner gone keyed id entry listed
  | reserved => exact keyed id entry listed
  | cancelled call begun found =>
    simp only [settle_pending_sessions] at listed
    exact keyed id entry listed
  | inserted call bytes now begun added found owner =>
    by_cases same : id = added.id
    · rw [same] at listed ⊢
      simp only [Inner.setSessions, lookup_insert, Option.some.injEq] at listed
      rw [listed]
    · simp only [Inner.setSessions, lookup_insert_of_ne _ same] at listed
      exact keyed id entry listed
  | leaked => exact keyed id entry listed

variable (state : RequestHost) (bound : Option String) (caller : Caller) (guards : CallGuards)

theorem keyed_dispatch (work : Work) (keyed : Keyed state.host) :
    Keyed (dispatch state bound caller guards work).host := by
  cases bound with
  | none => exact keyed
  | some id =>
    cases found : lookupEntry state.host.registry state.host.epochs caller id with
    | refused message =>
      simp only [dispatch, attachedTarget, found]
      exact keyed
    | killed entry end_ reason message =>
      simp only [dispatch, attachedTarget, found]
      exact keyed_kill state.host entry end_ reason caller.now keyed
    | found entry =>
      simp only [dispatch, attachedTarget, found]
      by_cases physical : entry.aliasName = guards.physical
      · rw [if_pos physical]
        cases guards.normalized with
        | error message | ok _ => exact keyed
      · rw [if_neg physical]
        exact keyed

theorem keyed_raw (sql : List Char) (keyed : Keyed state.host) :
    Keyed (rawCall state bound caller guards sql).host := by
  unfold rawCall
  split
  · exact keyed
  · exact keyed_dispatch state bound caller guards (.sql sql) keyed

theorem keyed_build (verb : Verb) (unfiltered : Bool) (keyed : Keyed state.host) :
    Keyed (buildCall state bound caller guards verb unfiltered).host := by
  unfold buildCall
  split
  · exact keyed
  · exact keyed_dispatch state bound caller guards (.build verb) keyed

variable (request : Nat)

theorem keyed_session (call : Nat) (caller : Caller) (guards : CallGuards) (id : String)
    (sql : List Char) (keyed : Keyed state.host) :
    Keyed (sessionCall state request call caller guards id sql).host := by
  unfold sessionCall
  split
  · split
    · exact keyed
    · exact keyed_kill state.host _ _ _ caller.now keyed
    · exact keyed_raw _ _ caller guards sql keyed
  · exact keyed

theorem attach_effect (caller : Caller) (txActive : Bool) (id : String) (keyed : Keyed state.host) :
    Keyed (attach state request caller txActive id).host ∧
      (attach state request caller txActive id).admitted = state.admitted := by
  unfold attach
  split
  · exact ⟨keyed, rfl⟩
  · exact ⟨keyed_kill state.host _ _ _ caller.now keyed, rfl⟩
  · split <;> exact ⟨keyed, rfl⟩

end KeyedTable

section Runs

variable (state : RequestHost) (bound : Option String) (caller : Caller) (guards : CallGuards)

variable (work : Work)

theorem dispatch_admitted :
    (dispatch state bound caller guards work).admitted = state.admitted ∨
      ∃ id entry, bound = some id ∧
        state.host.registry.inner.sessions.lookup id = some entry ∧
        (dispatch state bound caller guards work).admitted = ⟨entry, work⟩ :: state.admitted := by
  cases bound with
  | none => exact .inl rfl
  | some id =>
    cases found : lookupEntry state.host.registry state.host.epochs caller id with
    | refused message | killed entry end_ reason message =>
      left
      simp only [dispatch, attachedTarget, found]
    | found entry =>
      have listed := lookup_entry_found state.host.registry state.host.epochs caller id
        entry found
      simp only [dispatch, attachedTarget, found]
      by_cases physical : entry.aliasName = guards.physical
      · rw [if_pos physical]
        cases guards.normalized with
        | error message => exact .inl rfl
        | ok _ => exact .inr ⟨id, entry, rfl, listed, rfl⟩
      · rw [if_neg physical]
        exact .inl rfl

theorem read_only_kept_dispatch (kept : ReadOnlyKept state)
    (harmless : BoundReadOnly state bound → Harmless work) :
    ReadOnlyKept (dispatch state bound caller guards work) := by
  intro admitted member guarded
  rcases dispatch_admitted state bound caller guards work with
    same | ⟨id, entry, attached, listed, more⟩
  · rw [same] at member
    exact kept admitted member guarded
  · rw [more] at member
    rcases List.mem_cons.mp member with rfl | old
    · exact harmless ⟨id, entry, attached, listed, guarded⟩
    · exact kept admitted old guarded

theorem read_only_kept_raw (sql : List Char) (kept : ReadOnlyKept state)
    (open_ : BoundReadOnly state bound → HidesWrite sql → AccessRefused guards sql) :
    ReadOnlyKept (rawCall state bound caller guards sql) := by
  unfold rawCall
  split
  · exact kept
  · rename_i passed
    obtain ⟨gate, granted⟩ := prelude_gates_ok _ bound guards sql passed
    refine read_only_kept_dispatch state bound caller guards (.sql sql) kept ?_
    intro attached
    obtain ⟨id, entry, rfl, listed, guarded⟩ := attached
    have calm := gate_entry_ok _ id sql entry listed guarded gate
    apply (harmless_iff_of_not_write sql calm).mpr
    intro hidden
    exact granted (open_ ⟨id, entry, rfl, listed, guarded⟩ hidden)

theorem read_only_kept_build (verb : Verb) (unfiltered : Bool) (kept : ReadOnlyKept state)
    (open_ : BoundReadOnly state bound → verb ≠ .select → IntentRefused guards verb unfiltered) :
    ReadOnlyKept (buildCall state bound caller guards verb unfiltered) := by
  unfold buildCall
  split
  · exact kept
  · rename_i passed
    refine read_only_kept_dispatch state bound caller guards (.build verb) kept ?_
    intro attached
    by_contra writes
    exact build_gates_ok guards verb unfiltered passed (open_ attached writes)

theorem read_only_kept_session (request call : Nat) (caller : Caller) (guards : CallGuards)
    (id : String) (sql : List Char) (kept : ReadOnlyKept state) (keyed : Keyed state.host)
    (open_ : BoundReadOnly state (some id) → HidesWrite sql → AccessRefused guards sql) :
    ReadOnlyKept (sessionCall state request call caller guards id sql) := by
  unfold sessionCall
  split
  · split
    · exact kept
    · exact kept
    · rename_i entry found
      have listed := lookup_entry_found _ _ caller id entry found
      refine read_only_kept_raw _ (some entry.id) caller guards sql kept ?_
      rw [keyed id entry listed]
      exact open_
  · exact kept

variable (config : DbSessionSection) (boot : BootTag)

theorem read_only_kept_step :
    Preserved (requestSystem config boot) OpenWrite
      fun state => ReadOnlyKept state ∧ Keyed state.host := by
  rintro state label next ⟨kept, keyed⟩ open_ fired
  cases label with
  | registry label =>
    obtain ⟨host, stepped, rfl⟩ := map_eq_some_iff.mp fired
    exact ⟨kept, keyed_step state.host host label keyed stepped⟩
  | attach request caller txActive id =>
    cases fired
    obtain ⟨keyedNext, same⟩ := attach_effect state request caller txActive id keyed
    refine ⟨?_, keyedNext⟩
    intro admitted member
    rw [same] at member
    exact kept admitted member
  | detach request =>
    cases fired
    exact ⟨kept, keyed⟩
  | raw request caller guards sql =>
    cases fired
    exact ⟨read_only_kept_raw state (state.bound request) caller guards sql kept open_,
      keyed_raw state (state.bound request) caller guards sql keyed⟩
  | build request caller guards verb unfiltered =>
    cases fired
    exact ⟨read_only_kept_build state (state.bound request) caller guards verb unfiltered kept
      open_, keyed_build state (state.bound request) caller guards verb unfiltered keyed⟩
  | session request call caller guards id sql =>
    obtain ⟨_, same⟩ := ite_none_left_eq_some.mp fired
    cases same
    exact ⟨read_only_kept_session state request call caller guards id sql kept keyed open_,
      keyed_session state request call caller guards id sql keyed⟩
  | sessionDone call =>
    obtain ⟨_, _, rfl⟩ := map_eq_some_iff.mp fired
    exact ⟨kept, keyed⟩

theorem read_only_kept_initial :
    ReadOnlyKept (.initial config boot) ∧ Keyed (RequestHost.initial config boot).host := by
  constructor
  · intro admitted member
    cases member
  · intro id entry listed
    cases listed

/-- No write reaches a read-only session, in any run in which none is hidden from
its gate. -/
theorem read_only_session_performs_no_write (config : DbSessionSection) (boot : BootTag)
    (state : RequestHost) (reached : Reachable (requestSystem config boot) OpenWrite state) :
    ReadOnlyKept state :=
  (invariant_of_step (read_only_kept_initial config boot) (read_only_kept_step config boot)
    reached).1

end Runs

section Samples

def sampleGuards : CallGuards where
  physical := "default"
  tables := .ok ()
  tenant := .ok ()
  policy := .default
  ctx := ⟨none, [], none, "http"⟩
  confirm := none
  quota := .ok ()
  normalized := .ok ()

def readOnlyOpening : List RequestStep :=
  [.registry (.beginReserve 0 sampleCaller { sampleRequest with readOnly := true }),
    .registry (.beginInserted 0 (sampleBytes 0) 0), .attach 0 sampleCaller false sampleId]

/-- A test for the condition: the text has a classification, the verb is a select. -/
def nothingHidden (_ : RequestHost) : RequestStep → Bool
  | .raw _ _ _ sql => (classify sql).risk != .unknown
  | .session _ _ _ _ _ sql => (classify sql).risk != .unknown
  | .build _ _ _ verb _ => verb == .select
  | _ => true

theorem hidden_write_unknown (sql : List Char) (hidden : HidesWrite sql) :
    (classify sql).risk = .unknown := by
  obtain ⟨stmts, scanned, _, words, member, unknown⟩ := hidden
  have above := (severity_classify_le sql stmts scanned (severity (classify sql).risk)).mp
    (Nat.le_refl _) words member
  rw [unknown] at above
  cases risk : (classify sql).risk <;> rw [risk] at above <;> simp [severity] at above ⊢

theorem open_write_of_nothing_hidden (state : RequestHost) (label : RequestStep)
    (passed : nothingHidden state label = true) : OpenWrite state label := by
  cases label with
  | raw request caller guards sql | session request call caller guards id sql =>
    intro _ hidden
    simp only [nothingHidden, hidden_write_unknown sql hidden] at passed
    cases passed
  | build request caller guards verb unfiltered =>
    intro _ writes
    exact absurd (eq_of_beq passed) writes
  | _ => trivial

/-- A plain `DELETE` is turned away, a query and a builder select are admitted. -/
theorem read_only_session_performs_no_write_reading : ∃ state : RequestHost,
    state.admitted.map Admitted.work = [.build .select, .sql "SELECT 1".toList] ∧
      ReadOnlyKept state := by
  have ran : ((requestSystem enabledSection sampleBoot).runWhere nothingHidden
      (.initial enabledSection sampleBoot) (readOnlyOpening ++
        [.raw 0 sampleCaller sampleGuards "DELETE FROM t".toList,
          .raw 0 sampleCaller sampleGuards "SELECT 1".toList,
          .build 0 sampleCaller sampleGuards .select true])).map
      (fun state => state.admitted.map Admitted.work) =
        some [.build .select, .sql "SELECT 1".toList] := by
    decide +kernel
  obtain ⟨state, ran, works⟩ := map_eq_some_iff.mp ran
  have path := path_of_run_where nothingHidden open_write_of_nothing_hidden _ _ _ ran
  exact ⟨state, works,
    read_only_session_performs_no_write enabledSection sampleBoot state ⟨_, path⟩⟩

/-- With a trailing semicolon the same `DELETE` passes. -/
theorem read_only_session_deletes :
    ¬ ∀ state, Reachable (requestSystem enabledSection sampleBoot) Unrestricted state →
      ReadOnlyKept state := by
  intro kept
  have ran : ((requestSystem enabledSection sampleBoot).run (.initial enabledSection sampleBoot)
      (readOnlyOpening ++ [.raw 0 sampleCaller sampleGuards "DELETE FROM t;".toList])).map
      (fun state => state.admitted.map fun admitted =>
        (admitted.entry.readOnly, admitted.work)) =
        some [(true, .sql "DELETE FROM t;".toList)] := by
    decide +kernel
  obtain ⟨state, ran, works⟩ := map_eq_some_iff.mp ran
  obtain ⟨admitted, admittedOnly, same⟩ := List.map_eq_singleton_iff.mp works
  obtain ⟨guarded, work⟩ := Prod.mk.inj same
  have harmless := kept state ⟨_, path_of_run _ _ _ ran⟩ admitted
    (admittedOnly ▸ List.mem_singleton_self admitted) guarded
  rw [work] at harmless
  have scanned : statements "DELETE FROM t;".toList = some [["DELETE", "FROM", "T"], []] := by
    decide +kernel
  have writes : stmtRisk ["DELETE", "FROM", "T"] = .write := by decide +kernel
  exact harmless.2 _ scanned _ List.mem_cons_self (.inl writes)

end Samples

end OnlyJs.Bridge.DbSession
