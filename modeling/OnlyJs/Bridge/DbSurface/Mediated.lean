import OnlyJs.Bridge.DbPolicy.Leading
import OnlyJs.Bridge.DbSurface.Surface
import OnlyJs.Lib.Fallible

/-!
# Mediation of the database surface

On an alias at level `deny` a statement should be sent only after the check of the alias in
the same operation, to a caller that is granted the alias, and a write or a schema change only
where the policy and the attached session let it through.
-/

namespace OnlyJs.Bridge.DbSurface

open Bridge.DbPolicy List Option
open Bridge.DbSession (Verb buildIntent)
open Lib.Fallible Lib.Mediation Lib.StepSystem

abbrev Database := List Char → List Effect

def Effect.risk : Effect → Risk
  | .reads => .readOnly
  | .writes => .write
  | .changesSchema => .ddl

def Statement.effects (database : Database) : Statement → List Effect
  | .text sql => database sql
  | .rendered effect => [effect]

def Host.denies (host : Host) (aliasName : String) : Prop :=
  (host.policyFor aliasName).enforce = .deny

instance (host : Host) (aliasName : String) : Decidable (host.denies aliasName) :=
  inferInstanceAs (Decidable (_ = _))

/-- The policy lets a statement of this risk through. -/
def Allows (policy : DbAccess) (risk : Risk) : Prop :=
  risk ≠ .unknown ∧ (risk = .write ∨ risk = .ddl → policy.readOnly = false) ∧
    (risk = .ddl → policy.allowDdl = true)

/-- No write and no schema change runs inside a read-only session. -/
def Tolerates (session : Option Session) (risk : Risk) : Prop :=
  risk = .write ∨ risk = .ddl → ∀ own, session = some own → own.readOnly = false

def Host.Permits (host : Host) (aliasName : String) (effect : Effect) : Prop :=
  Allows (host.policyFor aliasName) effect.risk ∧ Tolerates host.request.session effect.risk

/-- What a statement sent to an alias must satisfy, apart from the check before it. -/
def Host.Fine (host : Host) (database : Database) (aliasName : String)
    (statement : Statement) : Prop :=
  granted (host.policyFor aliasName).allow host.request.ctx = true ∧
    ∀ effect ∈ statement.effects database, host.Permits aliasName effect

structure Entry where
  host : Host
  events : List (Event String Statement)

def Entry.Mediated (database : Database) (entry : Entry) : Prop :=
  ∀ earlier aliasName statement later,
    entry.events = earlier ++ .sent aliasName statement :: later →
      entry.host.denies aliasName →
        .passed aliasName ∈ earlier ∧ entry.host.Fine database aliasName statement

structure State where
  host : Host
  log : List Entry

inductive Label where
  | request (ctx : AccessCtx) (confirm moduleDb dbOverride : Option String)
  | policies (policies : PolicyState)
  | accessors (accessors : String → Option Accessor)
  /-- A session is attached, detached or bound by a call by id that is under way. -/
  | bind (session : Option Session)
  | txBegin (name : String)
  | txEnd
  | operate (operation : Operation) (others : Others)

def Operation.ensures (operation : Operation) (host : Host) (others : Others) : List String :=
  match operation with
  | .nextSeq name seq =>
    if seq ≠ "" ∧ seq.utf8ByteSize ≤ 128 ∧
        ((lookup host name).bind Accessor.dialect).isSome ∧ others .created then
      [host.request.boundDb name]
    else []
  | _ => []

def step (state : State) : Label → Option State
  | .request ctx confirm moduleDb dbOverride =>
    some { state with
      host := { state.host with
        request := { ctx, confirm, moduleDb, dbOverride, session := none, tx := none } } }
  | .policies policies => some { state with host := { state.host with policies } }
  | .accessors accessors => some { state with host := { state.host with accessors } }
  | .bind session =>
    some { state with
      host := { state.host with request := { state.host.request with session } } }
  | .txBegin name =>
    if state.host.request.tx.isNone ∧ state.host.request.session.isNone ∧
        (lookup state.host name).isSome then
      some { state with
        host := { state.host with
          request := { state.host.request with
            tx := some ⟨name, state.host.request.boundDb name⟩ } } }
    else none
  | .txEnd =>
    some { state with
      host := { state.host with request := { state.host.request with tx := none } } }
  | .operate operation others =>
    let host := operation.bind state.host
    some {
      host := { state.host with
        ensured := operation.ensures host others ++ state.host.ensured }
      log := ⟨host, perform (operation.actions host others)⟩ :: state.log }

/-- The host before its first request is under way. -/
def initial (host : Host) : State where
  host := { host with request := { host.request with session := none, tx := none } }
  log := []

def system (host : Host) : System State Label where
  init := initial host
  step := step

section Orderly

variable (database : Database) (host : Host) (others : Others)

/-- The database does no more with a text than its classification says, or what it does is
permitted all the same. -/
def Covered (aliasName : String) (sql : List Char) : Prop :=
  ∀ effect ∈ database sql,
    severity effect.risk ≤ severity (classify sql).risk ∨ host.Permits aliasName effect

/-- A text that goes through `call_prelude` is sent. -/
def CallReaches (name : String) (sql : List Char) : Prop :=
  readonlyGate host.request.session sql = true ∧
    host.access (host.request.boundDb name) sql = true ∧
      (∀ gate ∈ [Gate.sessionBan, .tableGuard, .tenantGuard, .timeout, .placeholder],
        others gate = true) ∧
        (resolveTarget host others name).isSome = true

def CursorReaches (name : String) (sql : List Char) : Prop :=
  host.access (host.request.boundDb name) sql = true ∧
    (∀ gate ∈ [Gate.tableGuard, .tenantGuard, .timeout, .arguments, .budget, .placeholder],
      others gate = true) ∧
      ∃ aliasName, resolveTarget host others name = some (.pool aliasName)

def BuildReaches (name : String) (verb : Verb) (unfiltered : Bool) : Prop :=
  host.accessIntent (host.request.boundDb name) (buildIntent verb unfiltered) = true ∧
    (∀ gate ∈ [Gate.tableGuard, .arguments, .tenantGuard, .placeholder, .sessionLive, .timeout],
      others gate = true) ∧
      ((lookup host name).bind Accessor.dialect).isSome = true ∧
        (resolveTarget host others name).isSome = true

/-- A sequence is asked for by a name of fit length on an alias of a known dialect, and its
table is not known to exist or there is a connection for the allocation. -/
def SeqReaches (name seq : String) : Prop :=
  (seq ≠ "" ∧ seq.utf8ByteSize ≤ 128) ∧
    ((lookup host name).bind Accessor.dialect).isSome = true ∧
      (host.request.boundDb name ∉ host.ensured ∨ (resolveTarget host others name).isSome = true)

/-- A text of the caller that is sent is one that the classifier does not underrate; the
builder does not write inside a read-only session; no sequence is asked for. -/
def Operation.Orderly : Operation → Prop
  | .call name sql =>
    host.denies (host.request.boundDb name) → CallReaches host others name sql →
      Covered database host (host.request.boundDb name) sql
  | .beginCall name sql =>
    host.denies (host.request.boundDb name) → CallReaches host others name sql →
      Covered database host (host.request.boundDb name) sql
  | .explain name sql =>
    ∀ start, ((lookup host name).bind Accessor.dialect).bind explainPrefix = some start →
      host.denies (host.request.boundDb name) →
        CallReaches host others name (start.toList ++ sql) →
          Covered database host (host.request.boundDb name) (start.toList ++ sql)
  | .openCursor name sql =>
    host.denies (host.request.boundDb name) → CursorReaches host others name sql →
      Covered database host (host.request.boundDb name) sql
  | .importRows .. => True
  | .queryBuild name verb unfiltered _ =>
    host.denies (host.request.boundDb name) → verb ≠ .select →
      ∀ own, host.request.session = some own → own.readOnly = true →
        ¬ BuildReaches host others name verb unfiltered
  | .nextSeq name seq =>
    host.denies (host.request.boundDb name) → ¬ SeqReaches host others name seq
  | .introspect .. => True
  | .sessionCall session sql =>
    host.denies (host.request.boundDb session.aliasName) →
      CallReaches host others session.aliasName sql →
        Covered database host (host.request.boundDb session.aliasName) sql

end Orderly

def Orderly (database : Database) (state : State) : Label → Prop
  | .operate operation others =>
    Operation.Orderly database (operation.bind state.host) others operation
  | _ => True

section Gates

variable {host : Host} {others : Others} {database : Database}

variable {policy : DbAccess}

theorem allows_of_evaluate {ctx : AccessCtx} {c : Classified}
    (allowed : evaluate policy ctx c = .allow) :
    granted policy.allow ctx = true ∧ Allows policy c.risk := by
  unfold evaluate at allowed
  split at allowed
  · rename_i admitted
    refine ⟨admitted, ?_⟩
    cases risk : c.risk with
    | readOnly | transaction => exact ⟨nofun, nofun, nofun⟩
    | unknown =>
      rw [risk] at allowed
      cases allowed
    | write =>
      simp only [risk] at allowed
      split at allowed
      · cases allowed
      · rename_i writable
        exact ⟨nofun, fun _ => Bool.not_eq_true _ |>.mp writable, nofun⟩
    | ddl =>
      simp only [risk] at allowed
      split at allowed
      · cases allowed
      · rename_i writable
        split at allowed
        · rename_i changeable
          exact ⟨nofun, fun _ => Bool.not_eq_true _ |>.mp writable, fun _ => changeable⟩
        · cases allowed
  · cases allowed

variable {aliasName : String}

theorem allows_of_intent {ctx : AccessCtx} {c : Classified} (denies : policy.enforce = .deny)
    (passed : (checkAccessIntent aliasName policy ctx c).isOk = true) :
    granted policy.allow ctx = true ∧ Allows policy c.risk := by
  apply allows_of_evaluate
  unfold checkAccessIntent at passed
  rw [denies] at passed
  cases verdict : evaluate policy ctx c with
  | allow => rfl
  | violation reason =>
    rw [verdict] at passed
    cases passed

variable {sql : List Char}

theorem allows_of_access (denies : host.denies aliasName)
    (passed : host.access aliasName sql = true) :
    granted (host.policyFor aliasName).allow host.request.ctx = true ∧
      Allows (host.policyFor aliasName) (classify sql).risk := by
  unfold Host.access checkAccess at passed
  cases confirmed : dangerousConfirmGate aliasName (host.policyFor aliasName)
      host.request.confirm (classify sql) with
  | error error =>
    rw [confirmed] at passed
    cases passed
  | ok _ =>
    rw [confirmed] at passed
    exact allows_of_intent denies passed

theorem allows_of_access_intent {intent : Classified} (denies : host.denies aliasName)
    (passed : host.accessIntent aliasName intent = true) :
    granted (host.policyFor aliasName).allow host.request.ctx = true ∧
      Allows (host.policyFor aliasName) intent.risk := by
  obtain ⟨-, admitted⟩ := Bool.and_eq_true_iff.mp passed
  exact allows_of_intent denies admitted

theorem granted_of_only (denies : host.denies aliasName)
    (passed : host.grantedOnly aliasName = true) :
    granted (host.policyFor aliasName).allow host.request.ctx = true := by
  rcases Bool.or_eq_true_iff.mp passed with apart | admitted
  · have other : (host.policyFor aliasName).enforce ≠ .deny := by simpa using apart
    exact absurd denies other
  · exact admitted

theorem allows_mono {risk : Risk} {effect : Effect} (allowed : Allows policy risk)
    (below : severity effect.risk ≤ severity risk) :
    Allows policy effect.risk := by
  obtain ⟨known, writable, changeable⟩ := allowed
  cases effect with
  | reads => exact ⟨nofun, nofun, nofun⟩
  | writes =>
    refine ⟨nofun, fun _ => writable ?_, nofun⟩
    cases risk with
    | write => exact .inl rfl
    | ddl => exact .inr rfl
    | unknown => exact absurd rfl known
    | readOnly => cases below
    | transaction => cases Nat.le_of_succ_le_succ below
  | changesSchema =>
    have same : risk = .ddl := by
      cases risk with
      | ddl => rfl
      | unknown => exact absurd rfl known
      | readOnly => cases below
      | transaction => cases Nat.le_of_succ_le_succ below
      | write => cases Nat.le_of_succ_le_succ (Nat.le_of_succ_le_succ below)
    exact ⟨nofun, fun _ => writable (.inr same), fun _ => changeable same⟩

theorem reads_permitted (aliasName : String) : host.Permits aliasName .reads :=
  ⟨⟨nofun, nofun, nofun⟩, nofun⟩

theorem tolerates_of_gate {session : Option Session} {effect : Effect}
    (passed : readonlyGate session sql = true) (allowed : Allows policy (classify sql).risk)
    (below : severity effect.risk ≤ severity (classify sql).risk) :
    Tolerates session effect.risk := by
  intro risky own bound
  cases guarded : own.readOnly with
  | false => rfl
  | true =>
    rw [bound] at passed
    simp only [readonlyGate, all_some, guarded, Bool.true_and, Bool.not_eq_true',
      Bool.or_eq_false_iff, decide_eq_false_iff_not] at passed
    obtain ⟨calm, still⟩ := passed
    have mild : severity (classify sql).risk < 2 := by
      cases risk : (classify sql).risk with
      | readOnly | transaction => decide
      | write => exact absurd risk calm
      | ddl => exact absurd risk still
      | unknown => exact absurd risk allowed.1
    have severe : 2 ≤ severity effect.risk := by
      rcases risky with same | same <;> rw [same] <;> decide
    omega

theorem text_fine (denies : host.denies aliasName) (passed : host.access aliasName sql = true)
    (gate : readonlyGate host.request.session sql = true)
    (covered : Covered database host aliasName sql) :
    host.Fine database aliasName (.text sql) := by
  obtain ⟨admitted, allowed⟩ := allows_of_access denies passed
  refine ⟨admitted, fun effect done => ?_⟩
  rcases covered effect done with below | permitted
  · exact ⟨allows_mono allowed below, tolerates_of_gate gate allowed below⟩
  · exact permitted

end Gates

/-- The transaction of a request runs on the alias that its name still means. -/
def Host.TxBound (host : Host) : Prop :=
  ∀ tx, host.request.tx = some tx → tx.aliasName = host.request.boundDb tx.name

section Targets

variable {host : Host} {others : Others} {name : String}

/-- A resolved target is on the alias of its name, and a pool is the target of a request
without a session. -/
theorem resolved_target {target : Target}
    (resolved : resolveTarget host others name = some target) :
    (host.TxBound → target.aliasName = host.request.boundDb name) ∧
      ∀ aliasName, target = .pool aliasName →
        host.request.session = none ∧ aliasName = host.request.boundDb name := by
  unfold resolveTarget at resolved
  cases session : host.request.session with
  | some own =>
    simp only [session] at resolved
    obtain ⟨⟨-, same⟩, found⟩ := ite_none_right_eq_some.mp resolved
    cases found
    exact ⟨fun _ => same, nofun⟩
  | none =>
    cases tx : host.request.tx with
    | some own =>
      simp only [session, tx] at resolved
      obtain ⟨rfl, found⟩ := ite_none_right_eq_some.mp resolved
      cases found
      exact ⟨fun bound => bound own tx, nofun⟩
    | none =>
      simp only [session, tx] at resolved
      obtain ⟨accessor, -, found⟩ := map_eq_some_iff.mp resolved
      cases found
      exact ⟨fun _ => rfl, fun _ same => ⟨rfl, (Target.pool.inj same).symm⟩⟩

theorem gate_of_pool {aliasName : String} (sql : List Char)
    (resolved : resolveTarget host others name = some (.pool aliasName)) :
    readonlyGate host.request.session sql = true := by
  rw [((resolved_target resolved).2 _ rfl).1]
  rfl

end Targets

section Operations

variable {database : Database} {host : Host} {others : Others} {name : String}

variable {sql : List Char}

theorem prelude_mediates {rest : Target → Actions}
    (continued : ∀ target, resolveTarget host others name = some target →
      CallReaches host others name sql →
      Mediates host.denies (host.Fine database) [host.request.boundDb name] (rest target)) :
    Mediates host.denies (host.Fine database) [] (callPrelude host others name sql rest) := by
  intro sessionBan gate tableGuard tenantGuard access timeout
  cases resolved : resolveTarget host others name with
  | none => trivial
  | some target =>
    intro placeholder
    refine continued target resolved ⟨gate, access, ?_, by rw [resolved]; rfl⟩
    simp only [forall_mem_cons, not_mem_nil, false_implies, implies_true, and_true]
    exact ⟨sessionBan, tableGuard, tenantGuard, timeout, placeholder⟩

theorem call_mediates (bound : host.TxBound)
    (orderly : host.denies (host.request.boundDb name) → CallReaches host others name sql →
      Covered database host (host.request.boundDb name) sql) :
    Mediates host.denies (host.Fine database) [] (call host others name sql) := by
  apply prelude_mediates
  intro target resolved reaches
  refine ⟨fun denies => ?_, trivial⟩
  rw [(resolved_target resolved).1 bound] at denies ⊢
  exact ⟨mem_singleton_self _,
    text_fine denies reaches.2.1 reaches.1 (orderly denies reaches)⟩

theorem begin_call_mediates
    (orderly : host.denies (host.request.boundDb name) → CallReaches host others name sql →
      Covered database host (host.request.boundDb name) sql) :
    Mediates host.denies (host.Fine database) [] (beginCall host others name sql) := by
  apply prelude_mediates
  intro target resolved reaches
  cases target with
  | tx aliasName => trivial
  | pool aliasName =>
    obtain ⟨-, rfl⟩ := (resolved_target resolved).2 _ rfl
    intro _
    exact ⟨fun denies => ⟨mem_singleton_self _,
      text_fine denies reaches.2.1 reaches.1 (orderly denies reaches)⟩, trivial⟩

theorem explain_mediates (bound : host.TxBound)
    (orderly : ∀ start, ((lookup host name).bind Accessor.dialect).bind explainPrefix = some start →
      host.denies (host.request.boundDb name) → CallReaches host others name (start.toList ++ sql) →
      Covered database host (host.request.boundDb name) (start.toList ++ sql)) :
    Mediates host.denies (host.Fine database) [] (explain host others name sql) := by
  intro _
  cases known : ((lookup host name).bind Accessor.dialect).bind explainPrefix with
  | none => trivial
  | some start => exact call_mediates bound (orderly start known)

theorem open_cursor_mediates
    (orderly : host.denies (host.request.boundDb name) → CursorReaches host others name sql →
      Covered database host (host.request.boundDb name) sql) :
    Mediates host.denies (host.Fine database) [] (openCursor host others name sql) := by
  intro tableGuard tenantGuard access timeout arguments
  cases resolved : resolveTarget host others name with
  | none => trivial
  | some target =>
    cases target with
    | tx aliasName => trivial
    | pool aliasName =>
      obtain ⟨-, rfl⟩ := (resolved_target resolved).2 _ rfl
      intro budget placeholder
      refine ⟨fun denies => ⟨mem_singleton_self _, ?_⟩, trivial⟩
      apply text_fine denies access (gate_of_pool sql resolved) (orderly denies _)
      refine ⟨access, ?_, _, resolved⟩
      simp only [forall_mem_cons, not_mem_nil, false_implies, implies_true, and_true]
      exact ⟨tableGuard, tenantGuard, timeout, arguments, budget, placeholder⟩

theorem insert_fronts : Fronts "insert ".toList ["INSERT"] := fun _ => rfl

theorem truncate_fronts : Fronts "truncate ".toList ["TRUNCATE"] := fun _ => rfl

theorem synthetic_writes (table : List Char) (replace : Bool) :
    severity .write ≤ severity (classify (syntheticSql table replace)).risk := by
  cases replace with
  | false =>
    have verb : ∀ more, stmtRisk ("INSERT" :: more) = .write := by
      simp [stmtRisk, classifyStmt]
    exact severity_fronts insert_fronts verb ("into ".toList ++ table ++ " values (?)".toList)
  | true =>
    have verb : ∀ more, stmtRisk ("TRUNCATE" :: more) = .ddl := by
      simp [stmtRisk, classifyStmt]
    have above := severity_fronts truncate_fronts verb ("table ".toList ++ table)
    exact Nat.le_trans (by decide) above

theorem import_rows_mediates {table : List Char} {replace : Bool} {batches : Nat} :
    Mediates host.denies (host.Fine database) []
      (importRows host others name table replace batches) := by
  intro _ _ _ access
  cases resolved : resolveTarget host others name with
  | none => trivial
  | some target =>
    cases target with
    | tx aliasName => trivial
    | pool aliasName =>
      obtain ⟨alone, rfl⟩ := (resolved_target resolved).2 _ rfl
      intro _
      apply mediates_replicate
      intro denies
      obtain ⟨admitted, allowed⟩ := allows_of_access denies access
      refine ⟨mem_singleton_self _, admitted, fun effect done => ?_⟩
      obtain rfl := mem_singleton.mp done
      have writes : Allows (host.policyFor _) Effect.writes.risk :=
        allows_mono allowed (synthetic_writes table replace)
      exact ⟨writes, fun _ own attached => by rw [alone] at attached; cases attached⟩

theorem verb_effect_risk (verb : Verb) (unfiltered : Bool) :
    (verbEffect verb).risk = (buildIntent verb unfiltered).risk := by
  unfold verbEffect buildIntent
  split <;> rfl

theorem query_build_mediates (bound : host.TxBound) {verb : Verb} {unfiltered lastId : Bool}
    (orderly : host.denies (host.request.boundDb name) → verb ≠ .select →
      ∀ own, host.request.session = some own → own.readOnly = true →
        ¬ BuildReaches host others name verb unfiltered) :
    Mediates host.denies (host.Fine database) []
      (queryBuild host others name verb unfiltered lastId) := by
  intro tableGuard arguments access tenantGuard
  cases known : (lookup host name).bind Accessor.dialect with
  | none => trivial
  | some dialect =>
    cases resolved : resolveTarget host others name with
    | none => trivial
    | some target =>
      intro placeholder sessionLive timeout
      have reaches : BuildReaches host others name verb unfiltered := by
        refine ⟨access, ?_, by rw [known]; rfl, by rw [resolved]; rfl⟩
        simp only [forall_mem_cons, not_mem_nil, false_implies, implies_true,
          and_true]
        exact ⟨tableGuard, arguments, tenantGuard, placeholder, sessionLive, timeout⟩
      have same := (resolved_target resolved).1 bound
      have sound : ∀ effect, effect = verbEffect verb ∨ effect = .reads →
          host.denies target.aliasName →
            target.aliasName ∈ [host.request.boundDb name] ∧
              host.Fine database target.aliasName (.rendered effect) := by
        intro effect either denies
        rw [same] at denies ⊢
        obtain ⟨admitted, allowed⟩ := allows_of_access_intent denies access
        refine ⟨mem_singleton_self _, admitted, fun other done => ?_⟩
        obtain rfl := mem_singleton.mp done
        rcases either with rfl | rfl
        · have risk := verb_effect_risk verb unfiltered
          refine ⟨by rw [risk]; exact allowed, fun risky own attached => ?_⟩
          by_contra guarded
          refine orderly denies ?_ own attached (Bool.not_eq_false _ |>.mp guarded) reaches
          rintro rfl
          rcases risky with same | same <;> cases same
        · exact reads_permitted _
      refine ⟨sound _ (.inl rfl), ?_⟩
      cases lastId with
      | false => trivial
      | true => exact ⟨sound _ (.inr rfl), trivial⟩

/-- Every statement of a sequence goes to the one alias that its name means. -/
theorem next_seq_alias (bound : host.TxBound) {seq aliasName : String} {statement : Statement}
    (sends : .send aliasName statement ∈ nextSeq host others name seq) :
    aliasName = host.request.boundDb name := by
  unfold nextSeq at sends
  cases known : (lookup host name).bind Accessor.dialect with
  | none => simp [known] at sends
  | some dialect =>
    have ensures : ∀ other, .send aliasName statement ∈ ensureSeqTable others other →
        aliasName = other := by
      intro other mem
      simp only [ensureSeqTable, mem_cons, not_mem_nil, or_false, reduceCtorEq,
        Action.send.injEq] at mem
      exact mem.1
    have allocates : ∀ other inserted,
        .send aliasName statement ∈ seqNext dialect other inserted → aliasName = other := by
      intro other inserted mem
      rcases mem_cons.mp mem with taken | read
      · cases taken
        rfl
      · split at read
        · cases mem_singleton.mp read
          rfl
        · cases read
    cases resolved : resolveTarget host others name with
    | none =>
      simp only [known, resolved, mem_cons, reduceCtorEq, false_or] at sends
      split at sends
      · cases sends
      · exact ensures _ sends
    | some target =>
      have same := (resolved_target resolved).1 bound
      cases target with
      | tx own =>
        simp only [known, resolved, mem_cons, reduceCtorEq, false_or,
          mem_append] at sends
        rcases sends with made | taken
        · split at made
          · cases made
          · exact ensures _ made
        · exact (allocates own _ taken).trans same
      | pool own =>
        simp only [known, resolved, mem_cons, reduceCtorEq, false_or,
          mem_append] at sends
        rcases sends with made | taken | again
        · split at made
          · cases made
          · exact ensures _ made
        · exact (allocates own _ taken).trans same
        · split at again
          · cases again
          · rcases mem_append.mp again with made | taken
            · exact (ensures own made).trans same
            · exact (allocates own _ taken).trans same

theorem next_seq_mediates {seq : String} (bound : host.TxBound)
    (orderly : host.denies (host.request.boundDb name) → ¬ SeqReaches host others name seq) :
    Mediates host.denies (host.Fine database) [] (nextSeq host others name seq) := by
  by_cases denies : host.denies (host.request.boundDb name)
  · intro fit
    have fit : seq ≠ "" ∧ seq.utf8ByteSize ≤ 128 := by simpa using fit
    cases known : (lookup host name).bind Accessor.dialect with
    | none => trivial
    | some dialect =>
      have silent := orderly denies
      simp only [SeqReaches, fit, known, isSome_some, true_and, not_or, not_not,
        Bool.not_eq_true, isSome_eq_false_iff, isNone_iff_eq_none, ne_eq,
        not_false_eq_true] at silent
      obtain ⟨ensured, unresolved⟩ := silent
      simp only [contains_iff_mem.mpr ensured, unresolved]
      trivial
  · apply mediates_of_unguarded
    intro resource message sends
    rw [next_seq_alias bound sends]
    exact denies

theorem introspect_mediates (bound : host.TxBound) {count : Nat} :
    Mediates host.denies (host.Fine database) [] (introspect host others name count) := by
  unfold introspect
  cases resolved : resolveTarget host others name with
  | none => trivial
  | some target =>
    intro _ access _
    apply mediates_replicate
    intro denies
    rw [(resolved_target resolved).1 bound] at denies ⊢
    refine ⟨mem_singleton_self _, granted_of_only denies access, fun effect done => ?_⟩
    obtain rfl := mem_singleton.mp done
    exact reads_permitted _

theorem operation_mediates (bound : host.TxBound) {operation : Operation}
    (orderly : Operation.Orderly database host others operation) :
    Mediates host.denies (host.Fine database) [] (operation.actions host others) := by
  cases operation with
  | call name sql => exact call_mediates bound orderly
  | beginCall name sql => exact begin_call_mediates orderly
  | explain name sql => exact explain_mediates bound orderly
  | openCursor name sql => exact open_cursor_mediates orderly
  | importRows name table replace batches => exact import_rows_mediates
  | queryBuild name verb unfiltered lastId => exact query_build_mediates bound orderly
  | nextSeq name seq => exact next_seq_mediates bound orderly
  | introspect name count => exact introspect_mediates bound
  | sessionCall session sql =>
    intro _ _
    exact call_mediates bound orderly

end Operations

section Runs

variable {database : Database}

structure Kept (database : Database) (state : State) : Prop where
  bound : state.host.TxBound
  log : ∀ entry ∈ state.log, entry.Mediated database

theorem kept_initial (host : Host) : Kept database (initial host) where
  bound := by
    intro tx active
    cases active
  log := by
    intro entry logged
    cases logged

theorem tx_bound_bind {host : Host} (bound : host.TxBound) (operation : Operation) :
    (operation.bind host).TxBound := by
  cases operation with
  | sessionCall session sql | _ => exact bound

theorem entry_mediated {host : Host} (bound : host.TxBound) {operation : Operation}
    {others : Others} (orderly : Operation.Orderly database host others operation) :
    Entry.Mediated database ⟨host, perform (operation.actions host others)⟩ := by
  intro earlier aliasName statement later performed denies
  obtain ⟨seen, fine⟩ := mediates_perform (operation_mediates bound orderly) performed denies
  rcases seen with known | passed
  · cases known
  · exact ⟨passed, fine⟩

theorem step_kept {state next : State} {label : Label} (kept : Kept database state)
    (orderly : Orderly database state label) (fired : step state label = some next) :
    Kept database next := by
  cases label with
  | request ctx confirm moduleDb dbOverride =>
    cases fired
    exact { kept with bound := nofun }
  | policies policies | accessors accessors | bind session =>
    cases fired
    exact { kept with bound := kept.bound }
  | txBegin name =>
    obtain ⟨-, begun⟩ := ite_none_right_eq_some.mp fired
    cases begun
    refine { kept with bound := ?_ }
    intro tx active
    cases active
    rfl
  | txEnd =>
    cases fired
    exact { kept with bound := nofun }
  | operate operation others =>
    cases fired
    have added := entry_mediated (tx_bound_bind kept.bound operation) orderly
    exact { bound := kept.bound, log := forall_mem_cons.mpr ⟨added, kept.log⟩ }

/-- In every orderly run, whatever reaches an alias at level `deny` has been checked in the
same operation and is permitted. -/
theorem surface_mediated {host : Host} {labels : List Label} {state : State}
    (path : Path (system host) (Orderly database) (initial host) labels state) :
    ∀ entry ∈ state.log, entry.Mediated database := by
  have preserved : Preserved (system host) (Orderly database) (Kept database) := by
    intro before label next kept orderly fired
    exact step_kept kept orderly fired
  exact (path_preserves preserved path (kept_initial host)).log

end Runs

/-- One database, read-only at level `deny`. -/
def readOnlyHost (allow : AllowList) : Host where
  request := {
    ctx := { moduleName := none, roles := [], tenant := none, source := "http" }
    confirm := none
    moduleDb := none
    dbOverride := none
    session := none
    tx := none }
  policies := {
    clientDbs := ∅
    dbAccess := {
      defaults := { DbAccess.default with
        enforce := .deny
        readOnly := true
        allow := allow }
      byDb := ∅ }
    dbAccessRt := ∅ }
  accessors := fun name => if name = "main" then some ⟨some .postgres⟩ else none
  ensured := []

/-- A query of a read-only database that admits everybody. -/
theorem surface_mediated_query :
    ∃ state, Reachable (system (readOnlyHost ⟨none, none, none, none⟩)) (Orderly fun _ => [.reads])
        state ∧
      ∃ entry ∈ state.log, entry.events =
          [.passed "main", .sent "main" (.text "select 1".toList)] ∧
        entry.host.Fine (fun _ => [.reads]) "main" (.text "select 1".toList) := by
  let labels : List Label := [.operate (.call "main" "select 1".toList) fun _ => true]
  let host := readOnlyHost ⟨none, none, none, none⟩
  let state := ((system host).run (initial host) labels).getD (initial host)
  have covered : ∀ (host : Host) (aliasName : String) (sql : List Char),
      Covered (fun _ => [.reads]) host aliasName sql := by
    intro host aliasName sql effect done
    obtain rfl := mem_singleton.mp done
    exact .inl (Nat.zero_le _)
  have path : Path (system host) (Orderly fun _ => [.reads]) (initial host) labels state :=
    ⟨fun _ _ => covered _ _ _, _, rfl, rfl⟩
  have mediated := surface_mediated path
  refine ⟨state, ⟨labels, path⟩, _, mem_singleton_self _, rfl, ?_⟩
  have own := mediated _ (mem_singleton_self _)
  exact (own [.passed "main"] "main" (.text "select 1".toList) [] rfl (by decide)).2

/-- A sequence number of a database that the caller must not even read creates a table there
and writes to it, and nothing was asked. -/
theorem next_seq_unchecked :
    ∃ state, Reachable (system (readOnlyHost denyAllAllow)) Unrestricted state ∧
      ∃ entry ∈ state.log, entry.host.denies "main" ∧
        granted (entry.host.policyFor "main").allow entry.host.request.ctx = false ∧
          (entry.host.policyFor "main").readOnly = true ∧
            entry.events = [.sent "main" (.rendered .changesSchema),
              .sent "main" (.rendered .writes)] ∧
              ∀ database, ¬ entry.Mediated database := by
  let labels : List Label := [.operate (.nextSeq "main" "orders") fun _ => true]
  let host := readOnlyHost denyAllAllow
  let state := ((system host).run (initial host) labels).getD (initial host)
  have path : Path (system host) Unrestricted (initial host) labels state := ⟨trivial, _, rfl, rfl⟩
  refine ⟨state, ⟨labels, path⟩, _, mem_singleton_self _, by decide, by decide, by decide,
    rfl, ?_⟩
  intro database mediated
  obtain ⟨passed, -⟩ := mediated [] "main" (.rendered .changesSchema) _ rfl (by decide)
  cases passed

end OnlyJs.Bridge.DbSurface
