import OnlyJs.Oj.Reload.Assembly

/-!
# Generations

A reload that fails should leave the running generation alone, and one that succeeds should
install a generation whose parts belong together. Whether it does is decided by what comes
after the contracts are written: a later failure, an old pool that does not stop, or a
validation that has been switched off.
-/

namespace OnlyJs.Oj.Reload

open Bridge.TaskPool Contract Lib Lib.Effects Lib.Fallible Serve

set_option autoImplicit false

variable {host : Host} {yaml : Yaml}

structure Start (yaml : Yaml) where
  schemaValidation : Bool
  router : Router
  assembly : PerGenAssembly
  tasking : Tasking
  doc : yaml.Doc
  locks : Locks

def serveHotReload (host : Host) (start : Start yaml) : Except String (Server host yaml) := do
  let sha ← (yaml.docSha start.doc).mapError ("reload baseline sha: " ++ ·)
  let contracts ← inputContracts host start.schemaValidation start.router.tables
  return {
    generation := 0
    cfgSha256 := ""
    modules := lockUnionNames start.locks
    router := start.router
    contracts := contracts.getD .new
    assembly := start.assembly
    tasking := start.tasking
    taskFlag := false
    currentDoc := start.doc
    currentSha := sha
    currentLocks := start.locks
    executor := false }

def Server.command (server : Server host yaml) (command : Command) : Server host yaml :=
  { server with tasking := { server.tasking with
    pool := server.tasking.pool.map fun pool =>
      { pool with registry := pool.registry.command command } } }

inductive Label where
  | setExecutor
  | command (command : Command)
  | trigger (attempt : Attempt)

def step (ctx : Context) (server : Server host yaml) : Label → Option (Server host yaml)
  | .setExecutor => some { server with executor := true }
  | .command command => some (server.command command)
  | .trigger attempt => some (trigger ctx attempt server).2

def system (ctx : Context) (first : Server host yaml) :
    StepSystem.System (Server host yaml) Label :=
  ⟨first, step ctx⟩

/-- Everything of the running generation is as it was. -/
structure Untouched (before after : Server host yaml) : Prop where
  generation : after.generation = before.generation
  cfgSha256 : after.cfgSha256 = before.cfgSha256
  modules : after.modules = before.modules
  router : after.router = before.router
  contracts : SameContracts after.contracts before.contracts
  assembly : after.assembly = before.assembly
  tasking : after.tasking = before.tasking
  taskFlag : before.tasking.Idle ∨ after.taskFlag = before.taskFlag
  doc : after.currentDoc = before.currentDoc
  sha : after.currentSha = before.currentSha
  locks : after.currentLocks = before.currentLocks

/-- The document and all locks that were read are the recorded ones. -/
structure Recorded (attempt : Attempt) (server : Server host yaml) : Prop where
  doc : readDoc yaml attempt = .ok server.currentDoc
  locks : ∃ locks, readLocks attempt = .ok locks ∧ SameLocks server.currentLocks locks

/-- The new generation: its contracts are those of its own routes, none while validation is
off, and all its parts come from the same reload. -/
structure Installed (ctx : Context) (attempt : Attempt) (before : Server host yaml)
    (answer : ReloadOutcome) (after : Server host yaml) : Prop where
  contracts : ∀ cfg, configOf ctx attempt = .ok cfg →
    Enforces after.contracts
      (if cfg.server.schemaValidation then rowsOf after.router.tables else [])
  grown : before.generation < after.generation
  generation : answer.generation = after.generation
  tables : attempt.tables = .ok after.router.tables
  modules : attempt.buildModules = .ok after.assembly.modules
  tasking : assembleTasking attempt = .ok after.tasking
  taskFlag : after.taskFlag = false
  doc : readDoc yaml attempt = .ok after.currentDoc
  sha : yaml.docSha after.currentDoc = .ok after.currentSha
  locks : readLocks attempt = .ok after.currentLocks

def Faithful (ctx : Context) (attempt : Attempt) (before : Server host yaml)
    (ended : Except (Nat × String) ReloadOutcome × Server host yaml) : Prop :=
  match ended.1 with
  | .error _ => Untouched before ended.2
  | .ok answer =>
    if answer.unchanged then Recorded attempt before ∧ Untouched before ended.2
    else Installed ctx attempt before answer ended.2

/-- Nothing that follows the contracts fails before the old tasks are told to stop. -/
def Finishes (ctx : Context) (attempt : Attempt) (cfg : Config) (tables : List MountTable) :
    Prop :=
  (∃ router, finishAssembly ctx attempt cfg tables = .ok router) ∧
    ∃ tasking, assembleTasking attempt = .ok tasking

/-- The contracts that are written are already in force. -/
def Settled (server : Server host yaml) (cfg : Config) (tables : List MountTable) : Prop :=
  cfg.server.schemaValidation = true → Enforces server.contracts (rowsOf tables)

/-- The condition on a reload that has come to the contracts. -/
structure SoundFrom (ctx : Context) (attempt : Attempt) (server : Server host yaml)
    (cfg : Config) (tables : List MountTable) : Prop where
  failing : ¬Finishes ctx attempt cfg tables → Settled server cfg tables
  stuck : Finishes ctx attempt cfg tables → stopResult attempt.stopOld ≠ .ok () →
    Settled server cfg tables ∧ server.tasking.Idle
  switchedOff : Finishes ctx attempt cfg tables → stopResult attempt.stopOld = .ok () →
    cfg.server.schemaValidation = false → server.contracts.isEmpty = true

/-- The condition on a reload: a digest that has not changed is that of the same document,
and what happens once the contracts are written does no harm. -/
def Sound (ctx : Context) (attempt : Attempt) (server : Server host yaml) : Prop :=
  attempt.busy = true ∨ server.executor = false ∨
    ∀ normal, normalise ctx yaml attempt = .ok normal →
      if isUnchanged server attempt normal then
        yaml.docSha normal.doc = yaml.docSha server.currentDoc → normal.doc = server.currentDoc
      else
        ∀ shadow, shadowAssembly ctx server attempt normal.cfg = .ok shadow →
          SoundFrom ctx attempt server normal.cfg shadow.tables

theorem refuse_ok {Result : Type} {status : Nat} {part : Except String Result} {result : Result} :
    refuse status part = .ok result ↔ part = .ok result :=
  map_error_ok

variable {normal : Normal yaml}

theorem normalise_ok {ctx : Context} {attempt : Attempt}
    (read : normalise ctx yaml attempt = .ok normal) :
    configOf ctx attempt = .ok normal.cfg ∧ readDoc yaml attempt = .ok normal.doc ∧
      yaml.docSha normal.doc = .ok normal.sha ∧ readLocks attempt = .ok normal.locks := by
  obtain ⟨cfg, configured, read⟩ := bind_ok.mp read
  obtain ⟨doc, parsed, read⟩ := bind_ok.mp read
  obtain ⟨sha, digested, read⟩ := bind_ok.mp read
  obtain ⟨locks, locked, read⟩ := bind_ok.mp read
  cases read
  exact ⟨configured, parsed, digested, locked⟩

/-- What the assembly up to the contracts has found. -/
structure ShadowSpec (attempt : Attempt) (cfg : Config) (shadow : Shadow host) : Prop where
  tables : attempt.tables = .ok shadow.tables
  modules : attempt.buildModules = .ok shadow.assembly.modules
  written : cfg.server.schemaValidation = true →
    ∃ registry, shadow.contracts = some registry ∧ Enforces registry (rowsOf shadow.tables)
  unwritten : cfg.server.schemaValidation = false → shadow.contracts = none

theorem shadowAssembly_ok {ctx : Context} {server : Server host yaml} {attempt : Attempt}
    {cfg : Config} {shadow : Shadow host}
    (assembled : shadowAssembly ctx server attempt cfg = .ok shadow) :
    ShadowSpec attempt cfg shadow := by
  obtain ⟨_, _, assembled⟩ := bind_ok.mp assembled
  obtain ⟨modules, built, assembled⟩ := bind_ok.mp assembled
  obtain ⟨deny, _, assembled⟩ := bind_ok.mp assembled
  iterate 6 obtain ⟨_, _, assembled⟩ := bind_ok.mp assembled
  obtain ⟨tables, routed, assembled⟩ := bind_ok.mp assembled
  obtain ⟨_, _, assembled⟩ := bind_ok.mp assembled
  obtain ⟨contracts, registered, assembled⟩ := bind_ok.mp assembled
  cases assembled
  refine ⟨routed, built, ?_, ?_⟩
  · intro validated
    rw [inputContracts, if_pos validated] at registered
    cases made : registerContracts host tables with
    | error e =>
      rw [made] at registered
      cases registered
    | ok registry =>
      rw [made] at registered
      cases registered
      exact ⟨registry, rfl, registerContracts_enforces made⟩
  · intro off
    rw [off] at registered
    cases registered
    rfl

theorem finishAssembly_ok {ctx : Context} {attempt : Attempt} {cfg : Config}
    {tables : List MountTable} {router : Router}
    (finished : finishAssembly ctx attempt cfg tables = .ok router) : router.tables = tables := by
  obtain ⟨_, _, finished⟩ := bind_ok.mp finished
  have checked := refuse_ok.mp finished
  iterate 9 obtain ⟨_, _, checked⟩ := bind_ok.mp checked
  cases checked
  rfl

variable (ctx : Context) (attempt : Attempt) (server : Server host yaml)

theorem outcome_fromConfig (cfg : Config) :
    outcome (fromConfig ctx attempt cfg) server =
      match shadowAssembly ctx server attempt cfg with
      | .error e => (.error (.refused 400 e), server)
      | .ok shadow =>
        match finishAssembly ctx attempt cfg shadow.tables with
        | .error failure => (.error failure, server.write shadow.contracts)
        | .ok router => (.ok ⟨router, shadow.assembly⟩, server.write shadow.contracts) := by
  unfold fromConfig
  rw [outcome_bind_ok (outcome_get server)]
  cases shadowAssembly ctx server attempt cfg with
  | error e => rfl
  | ok shadow =>
    change outcome (settle (finishAssembly ctx attempt cfg shadow.tables) >>= _)
      (server.write shadow.contracts) = _
    dsimp only
    cases finishAssembly ctx attempt cfg shadow.tables with
    | error failure => rfl
    | ok router => rfl

theorem outcome_handOver :
    outcome (handOver attempt) server =
      match assembleTasking attempt with
      | .error e => (.error (.refused 500 e), server)
      | .ok tasking =>
        match stopResult attempt.stopOld with
        | .error failure => (.error failure, server.stopOld)
        | .ok () => (.ok tasking, server.stopOld) := by
  unfold handOver
  cases assembleTasking attempt with
  | error e => rfl
  | ok tasking =>
    cases stopResult attempt.stopOld with
    | error failure => rfl
    | ok passed => rfl

theorem outcome_doReload :
    outcome (doReload ctx attempt) server =
      match normalise ctx yaml attempt with
      | .error e => (.error (.refused 400 e), server)
      | .ok normal =>
        if isUnchanged server attempt normal then (.ok server.unchanged, server)
        else
          match outcome (fromConfig ctx attempt normal.cfg) server with
          | (.error failure, written) => (.error failure, written)
          | (.ok app, written) =>
            match outcome (handOver attempt) written with
            | (.error failure, stopped) => (.error failure, stopped)
            | (.ok tasking, stopped) =>
              (.ok (server.reloaded normal), stopped.install app normal tasking) := by
  unfold doReload
  rw [outcome_bind]
  cases normalise ctx yaml attempt with
  | error e => rfl
  | ok normal =>
    change outcome (get >>= _) server = _
    rw [outcome_bind_ok (outcome_get server)]
    dsimp only
    cases isUnchanged server attempt normal with
    | true => rfl
    | false =>
      rw [if_neg Bool.false_ne_true, outcome_bind]
      rcases outcome (fromConfig ctx attempt normal.cfg) server with ⟨ended, written⟩
      cases ended with
      | error failure => rfl
      | ok app =>
        dsimp only
        rw [outcome_bind]
        rcases outcome (handOver attempt) written with ⟨handed, stopped⟩
        cases handed with
        | error failure => rfl
        | ok tasking => rfl

variable {server}

theorem untouched_self : Untouched server server where
  generation := rfl
  cfgSha256 := rfl
  modules := rfl
  router := rfl
  contracts := fun _ _ => rfl
  assembly := rfl
  tasking := rfl
  taskFlag := .inr rfl
  doc := rfl
  sha := rfl
  locks := rfl

theorem stop_eq_self {tasking : Tasking} : tasking.stop = tasking ↔ tasking.Idle := by
  obtain ⟨sup, pool⟩ := tasking
  constructor
  · intro same
    obtain ⟨noSup, samePool⟩ := Tasking.mk.inj same
    refine ⟨noSup.symm, fun kept found => ?_⟩
    have held : pool = some kept := found
    rw [held] at samePool
    exact (congrArg Pool.stopping (Option.some.inj samePool)).symm
  · rintro ⟨noSup, stopping⟩
    have none : sup = none := noSup
    subst none
    cases pool with
    | none => rfl
    | some kept =>
      have told : kept.stopping = true := stopping kept rfl
      obtain ⟨registry, flag⟩ := kept
      cases told
      rfl

variable {ctx attempt} {cfg : Config} {shadow : Shadow host}

section

variable (found : ShadowSpec attempt cfg shadow)
include found

theorem sameContracts_write :
    SameContracts (server.write shadow.contracts).contracts server.contracts ↔
      Settled server cfg shadow.tables := by
  unfold Settled
  cases validated : cfg.server.schemaValidation with
  | true =>
    obtain ⟨registry, written, enforced⟩ := found.written validated
    have replaced : (server.write shadow.contracts).contracts = registry := by
      rw [written]
      rfl
    rw [replaced, sameContracts_iff enforced]
    exact ⟨fun held _ => held, fun held => held rfl⟩
  | false =>
    have kept : (server.write shadow.contracts).contracts = server.contracts := by
      rw [found.unwritten validated]
      rfl
    rw [kept]
    exact ⟨fun _ absurd => (by cases absurd), fun _ _ _ => rfl⟩

theorem untouched_write :
    Untouched server (server.write shadow.contracts) ↔ Settled server cfg shadow.tables := by
  rw [← sameContracts_write found]
  constructor
  · intro untouched
    exact untouched.contracts
  · intro same
    have kept : Untouched server server := untouched_self
    exact { kept with contracts := same }

theorem untouched_stopped :
    Untouched server (server.write shadow.contracts).stopOld ↔
      Settled server cfg shadow.tables ∧ server.tasking.Idle := by
  rw [← sameContracts_write found]
  constructor
  · intro untouched
    exact ⟨untouched.contracts, stop_eq_self.mp untouched.tasking⟩
  · rintro ⟨same, idle⟩
    have kept : Untouched server server := untouched_self
    exact { kept with
      contracts := same
      tasking := stop_eq_self.mpr idle
      taskFlag := .inl idle }

end

theorem installed_iff {router : Router} {tasking : Tasking}
    (read : normalise ctx yaml attempt = .ok normal) (found : ShadowSpec attempt normal.cfg shadow)
    (finished : finishAssembly ctx attempt normal.cfg shadow.tables = .ok router)
    (handed : assembleTasking attempt = .ok tasking) :
    Installed ctx attempt server (server.reloaded normal)
        ((server.write shadow.contracts).stopOld.install ⟨router, shadow.assembly⟩ normal tasking) ↔
      (normal.cfg.server.schemaValidation = false → server.contracts.isEmpty = true) := by
  obtain ⟨configured, parsed, digested, locked⟩ := normalise_ok read
  have routes := finishAssembly_ok finished
  -- The contracts of the new generation are what the assembly has written.
  have enforced : Enforces (server.write shadow.contracts).contracts
      (if normal.cfg.server.schemaValidation then rowsOf router.tables else []) ↔
        (normal.cfg.server.schemaValidation = false → server.contracts.isEmpty = true) := by
    rw [routes]
    cases validated : normal.cfg.server.schemaValidation with
    | true =>
      obtain ⟨registry, written, held⟩ := found.written validated
      rw [written]
      exact ⟨fun _ absurd => (by cases absurd), fun _ => held⟩
    | false =>
      rw [found.unwritten validated]
      exact enforces_nil.trans ⟨fun held _ => held, fun held => held rfl⟩
  constructor
  · intro installed
    exact enforced.mp (installed.contracts normal.cfg configured)
  · intro switched
    exact {
      contracts := by
        intro cfg same
        cases configured.symm.trans same
        exact enforced.mpr switched
      grown := Nat.lt_succ_self server.generation
      generation := rfl
      tables := found.tables.trans (congrArg Except.ok routes.symm)
      modules := found.modules
      tasking := handed
      taskFlag := rfl
      doc := parsed
      sha := digested
      locks := locked }

/-- A reload that has come to the contracts. -/
theorem assembled_faithful (read : normalise ctx yaml attempt = .ok normal)
    (changed : isUnchanged server attempt normal = false)
    (assembled : shadowAssembly ctx server attempt normal.cfg = .ok shadow)
    (ended : Except Failure ReloadOutcome × Server host yaml)
    (reached : outcome (doReload ctx attempt) server = ended) :
    Faithful ctx attempt server (ended.1.mapError Failure.answer, ended.2) ↔
      SoundFrom ctx attempt server normal.cfg shadow.tables := by
  have found := shadowAssembly_ok assembled
  rw [outcome_doReload, read] at reached
  dsimp only at reached
  rw [changed, outcome_fromConfig, assembled] at reached
  dsimp only at reached
  cases finished : finishAssembly ctx attempt normal.cfg shadow.tables with
  | error failure =>
    have fails : ¬Finishes ctx attempt normal.cfg shadow.tables := by
      rintro ⟨⟨router, passed⟩, _⟩
      cases finished.symm.trans passed
    rw [finished] at reached
    subst reached
    refine (untouched_write found).trans ⟨fun settled => ?_, fun sound => sound.failing fails⟩
    exact ⟨fun _ => settled, fun passes => absurd passes fails, fun passes => absurd passes fails⟩
  | ok router =>
    rw [finished] at reached
    dsimp only at reached
    rw [outcome_handOver] at reached
    cases handed : assembleTasking attempt with
    | error e =>
      have fails : ¬Finishes ctx attempt normal.cfg shadow.tables := by
        rintro ⟨_, tasking, passed⟩
        cases handed.symm.trans passed
      rw [handed] at reached
      subst reached
      refine (untouched_write found).trans
        ⟨fun settled => ?_, fun sound => sound.failing fails⟩
      exact ⟨fun _ => settled, fun passes => absurd passes fails,
        fun passes => absurd passes fails⟩
    | ok tasking =>
      have passes : Finishes ctx attempt normal.cfg shadow.tables :=
        ⟨⟨router, finished⟩, tasking, handed⟩
      rw [handed] at reached
      cases stopped : stopResult attempt.stopOld with
      | error failure =>
        have stuck : stopResult attempt.stopOld ≠ .ok () := by
          rw [stopped]
          exact nofun
        rw [stopped] at reached
        subst reached
        refine (untouched_stopped found).trans
          ⟨fun both => ?_, fun sound => sound.stuck passes stuck⟩
        exact ⟨fun fails => absurd passes fails, fun _ _ => both,
          fun _ ended => absurd ended stuck⟩
      | ok done =>
        rw [stopped] at reached
        subst reached
        refine (installed_iff read found finished handed).trans
          ⟨fun switched => ?_, fun sound => sound.switchedOff passes stopped⟩
        exact ⟨fun fails => absurd passes fails, fun _ stuck => absurd stopped stuck,
          fun _ _ => switched⟩

/-- With the digest of its own document on record, a server is reloaded as it should be
exactly under the condition. -/
theorem faithful_iff (digest : yaml.docSha server.currentDoc = .ok server.currentSha) :
    Faithful ctx attempt server (trigger ctx attempt server) ↔ Sound ctx attempt server := by
  unfold trigger Sound
  cases attempt.busy with
  | true => exact ⟨fun _ => .inl rfl, fun _ => untouched_self⟩
  | false =>
    cases server.executor with
    | false => exact ⟨fun _ => .inr (.inl rfl), fun _ => untouched_self⟩
    | true =>
      rw [or_iff_right Bool.false_ne_true, or_iff_right Bool.false_ne_true.symm]
      cases read : normalise ctx yaml attempt with
      | error e =>
        have refused : outcome (doReload ctx attempt) server =
            (.error (.refused 400 e), server) := by
          rw [outcome_doReload, read]
        rw [refused]
        exact ⟨fun _ normal absurd => (by cases absurd), fun _ => untouched_self⟩
      | ok normal =>
        refine Iff.trans ?_ ⟨fun sound other same => (by cases same; exact sound),
          fun sound => sound normal rfl⟩
        obtain ⟨configured, parsed, digested, locked⟩ := normalise_ok read
        cases changed : isUnchanged server attempt normal with
        | true =>
          have kept : outcome (doReload ctx attempt) server =
              (.ok server.unchanged, server) := by
            rw [outcome_doReload, read]
            dsimp only
            rw [changed, if_pos rfl]
          rw [kept]
          obtain ⟨compared, sameLocks⟩ := Bool.and_eq_true_iff.mp changed
          have sameSha : server.currentSha = normal.sha :=
            of_decide_eq_true (Bool.and_eq_true_iff.mp compared).2
          have sameDigest : yaml.docSha normal.doc = yaml.docSha server.currentDoc := by
            rw [digested, digest, sameSha]
          constructor
          · rintro ⟨recorded, _⟩ _
            exact Except.ok.inj (parsed.symm.trans recorded.doc)
          · intro sound
            refine ⟨⟨?_, normal.locks, locked, ?_⟩, untouched_self⟩
            · rw [parsed, sound sameDigest]
            · exact locksChanged_eq_false.mp (Bool.not_eq_true' _ ▸ sameLocks)
        | false =>
          cases assembled : shadowAssembly ctx server attempt normal.cfg with
          | error e =>
            have refused : outcome (doReload ctx attempt) server =
                (.error (.refused 400 e), server) := by
              rw [outcome_doReload, read]
              dsimp only
              rw [changed, if_neg Bool.false_ne_true, outcome_fromConfig, assembled]
            rw [refused]
            exact ⟨fun _ shadow absurd => (by cases absurd), fun _ => untouched_self⟩
          | ok shadow =>
            refine Iff.trans (assembled_faithful read changed assembled _ rfl)
              ⟨fun sound other same => (by cases same; exact sound),
                fun sound => sound shadow rfl⟩

theorem trigger_record (ctx : Context) (attempt : Attempt) (server : Server host yaml) :
    ((trigger ctx attempt server).2.currentDoc = server.currentDoc ∧
        (trigger ctx attempt server).2.currentSha = server.currentSha) ∨
      yaml.docSha (trigger ctx attempt server).2.currentDoc =
        .ok (trigger ctx attempt server).2.currentSha := by
  unfold trigger
  split
  · exact .inl ⟨rfl, rfl⟩
  split
  · exact .inl ⟨rfl, rfl⟩
  rw [outcome_doReload]
  cases read : normalise ctx yaml attempt with
  | error e => exact .inl ⟨rfl, rfl⟩
  | ok normal =>
    dsimp only
    split
    · exact .inl ⟨rfl, rfl⟩
    rw [outcome_fromConfig]
    cases shadowAssembly ctx server attempt normal.cfg with
    | error e => exact .inl ⟨rfl, rfl⟩
    | ok shadow =>
      dsimp only
      cases finishAssembly ctx attempt normal.cfg shadow.tables with
      | error failure => exact .inl ⟨rfl, rfl⟩
      | ok router =>
        dsimp only
        rw [outcome_handOver]
        cases assembleTasking attempt with
        | error e => exact .inl ⟨rfl, rfl⟩
        | ok tasking =>
          cases stopResult attempt.stopOld with
          | error failure => exact .inl ⟨rfl, rfl⟩
          | ok done => exact .inr (normalise_ok read).2.2.1

/-- The digest on record is that of the document on record. -/
def Digested (server : Server host yaml) : Prop :=
  yaml.docSha server.currentDoc = .ok server.currentSha

theorem digested_start {start : Start yaml} {first : Server host yaml}
    (started : serveHotReload host start = .ok first) : Digested first := by
  obtain ⟨sha, digested, started⟩ := bind_ok.mp started
  obtain ⟨contracts, _, started⟩ := bind_ok.mp started
  cases started
  exact map_error_ok.mp digested

theorem digested_step (ctx : Context) (first : Server host yaml) :
    StepSystem.Preserved (system ctx first) StepSystem.Unrestricted Digested := by
  intro server label next digested _ fired
  cases label with
  | setExecutor | command command =>
    cases fired
    exact digested
  | trigger attempt =>
    cases fired
    rcases trigger_record ctx attempt server with ⟨doc, sha⟩ | recorded
    · unfold Digested
      rw [doc, sha]
      exact digested
    · exact recorded

/-- In every state that a server reaches, a reload keeps the running generation whole or
installs a whole one exactly under the condition on its inputs. -/
theorem reload_faithful (ctx : Context) (start : Start yaml) (first server : Server host yaml)
    (started : serveHotReload host start = .ok first)
    (reached : StepSystem.Reachable (system ctx first) StepSystem.Unrestricted server)
    (attempt : Attempt) :
    Faithful ctx attempt server (trigger ctx attempt server) ↔ Sound ctx attempt server :=
  faithful_iff (StepSystem.invariant_of_step (digested_start started)
    (digested_step ctx first) reached)

def sampleHost : Host where
  compile _ := .ok ()
  isMatch _ _ := true
  json _ := ""
  debug := String.quote
  float _ := ""

/-- A document that only mounts `src` at `/api`, and one that switches validation off too. -/
inductive SampleDoc where
  | mounted
  | unvalidated
deriving DecidableEq

def sampleYaml : Yaml where
  Doc := SampleDoc
  Section := String
  sections := inferInstance
  get _ _ := none
  fromSlice _ := .ok .mounted
  docSha
    | .mounted => .ok "4290c4c8d9ed12c29f9197d4e3e0dbce1c39baafc8cb4b7438324a200d4fadee"
    | .unvalidated => .ok "54e3b97154a1ca20aaf1387d7023084f3bf5e521a328c52295ac780da3b6a684"

def sampleContext : Context where
  matcher := {
    insert := fun _ _ => .ok ()
    matchAt := fun _ _ => none }
  certPath := none
  keyPath := none
  platform := none
  auth := true
  boot := false

def sampleConfig : Config where
  mounts := ["/api".toList]
  server := {
    publicKeyPath := "certs/public.pem"
    certificatePath := "certs/license.cert"
    jsHeapLimitBytes := 268435456
    ownershipGuard := none
    schemaValidation := true
    mcp := none
    rpc := defaultGate
    routeTimeouts := []
    htmlMetaHandler := none
    cors := none
    staticConf := {
      compression := true
      brotliQuality := 5
      gzipLevel := 6
      webCachePolicy := "auto" } }
  tenant := {
    enable := false
    requireSignedClaim := false
    allowAsTenant := false
    sqlGuard := .off
    anonymousPaths := [] }
  auth := none
  tasks := {
    dir := "tasks"
    crontab := "crontab.yaml" }

def sampleFile : FilePath := ["src".toList, "user".toList, "api.ts".toList]

def sampleTable : Serve.Table where
  nodes := [⟨"/api/user".toList, [("post", .file 0 "post")]⟩]
  replaced := []
  rows := [{
    method := "post"
    pattern := "/api/user".toList
    file := 0
    handler := "post"
    schema := some (.object [("body", .object [("type", .string "object")])]) }]
  files := [sampleFile]
  root := ["src".toList]
  release := false
  modules := none

def sampleStart : Start sampleYaml where
  schemaValidation := true
  router := {
    tables := [("/api".toList, Serve.Table.new ["src".toList] false none)]
    routeTimeouts := []
    tasksApi := false }
  assembly := {
    modules := []
    sqlGuard := .off
    ownershipDeny := false
    allowAsTenant := false }
  tasking := {
    sup := none
    pool := none }
  doc := .mounted
  locks := .empty

def sampleServer : Server sampleHost sampleYaml where
  generation := 0
  cfgSha256 := ""
  modules := []
  router := sampleStart.router
  contracts := .new
  assembly := sampleStart.assembly
  tasking := sampleStart.tasking
  taskFlag := false
  currentDoc := .mounted
  currentSha := "4290c4c8d9ed12c29f9197d4e3e0dbce1c39baafc8cb4b7438324a200d4fadee"
  currentLocks := .empty
  executor := false

def sampleAttempt (certificate : Certificate) : Attempt where
  force := true
  busy := false
  loadCfg := .ok sampleConfig
  foldMounts := .ok
  readConfig := .ok []
  lockMounts := .ok []
  loadLock _ := .ok ∅
  mounts := .ok []
  buildModules := .ok []
  verify := .ok ()
  prewarm := .ok ()
  tables := .ok [("/api".toList, sampleTable)]
  certificate := certificate
  parseDuration _ := .ok 30
  wsMounts := .ok ()
  scan := .ok []
  probe := .ok []
  eventLog := .ok ()
  crontab := []
  cronDriver := .ok ()
  spawnSelected := .ok ()
  stopOld := .stopped

theorem sample_reached :
    StepSystem.Reachable (system sampleContext sampleServer) StepSystem.Unrestricted
      { sampleServer with executor := true } :=
  ⟨[.setExecutor], trivial, _, rfl, rfl⟩

theorem sample_passes (attempt : Attempt) (tables : List MountTable)
    (validated : sampleConfig.server.schemaValidation = true)
    (finishes : Finishes sampleContext attempt sampleConfig tables)
    (stopped : stopResult attempt.stopOld = .ok ()) :
    SoundFrom sampleContext attempt { sampleServer with executor := true } sampleConfig tables where
  failing fails := absurd finishes fails
  stuck _ stuck := absurd stopped stuck
  switchedOff _ _ off := by cases validated.symm.trans off

/-- A forced reload of a server whose handler has got a schema. -/
theorem reload_faithful_forced :
    Faithful sampleContext (sampleAttempt .loaded) { sampleServer with executor := true }
      (trigger sampleContext (sampleAttempt .loaded)
        { sampleServer with executor := true }) := by
  apply (reload_faithful sampleContext sampleStart sampleServer
    { sampleServer with executor := true } rfl sample_reached (sampleAttempt .loaded)).mpr
  right
  right
  intro normal read
  cases read
  intro shadow assembled
  exact sample_passes _ _ rfl ⟨⟨_, rfl⟩, _, rfl⟩ rfl

/-- The certificate does not load, and the handler has the contract of a generation that
never came. -/
theorem contract_of_refused_generation :
    ∃ (first server : Server sampleHost sampleYaml) (attempt : Attempt),
      serveHotReload sampleHost sampleStart = .ok first ∧
        StepSystem.Reachable (system sampleContext first) StepSystem.Unrestricted server ∧
        ¬Faithful sampleContext attempt server (trigger sampleContext attempt server) := by
  refine ⟨sampleServer, { sampleServer with executor := true },
    sampleAttempt (.refused "certificate: bad signature"), rfl, sample_reached, ?_⟩
  intro faithful
  have untouched : Untouched { sampleServer with executor := true }
      (trigger sampleContext (sampleAttempt (.refused "certificate: bad signature"))
        { sampleServer with executor := true }).2 := faithful
  have same := congrArg Option.isSome (untouched.contracts sampleFile "post")
  exact Bool.false_ne_true same.symm

end OnlyJs.Oj.Reload
