import OnlyJs.Lib.Effects
import OnlyJs.Oj.Reload.Server

/-!
# Assembling and reloading

A reload reads the configuration, decides whether anything has changed, assembles a new
generation beside the running one, hands the tasks over and commits. The assembly shares
the contract registry with the running generation and writes it in the middle of its
checks.
-/

namespace OnlyJs.Oj.Reload

open Contract Lib.Effects Lib.Fallible Serve

set_option autoImplicit false

variable {host : Host} {yaml : Yaml}

inductive Failure where
  | refused (status : Nat) (message : String)
  | panicked
deriving DecidableEq

/-- What the caller of a reload is told. -/
def Failure.answer : Failure → Nat × String
  | .refused status message => (status, message)
  | .panicked => (500, "reload thread panicked")

structure ReloadOutcome where
  generation : Nat
  unchanged : Bool
  applied : List String
  restartPending : List String
  keptListener : List String
deriving DecidableEq

def refuse {Result : Type} (status : Nat) (step : Except String Result) : Except Failure Result :=
  step.mapError (.refused status)

/-- What the new document is compared and recorded by. -/
structure Normal (yaml : Yaml) where
  cfg : Config
  doc : yaml.Doc
  sha : String
  locks : Locks

def Context.override (ctx : Context) (cfg : Config) : Config :=
  { cfg with server := { cfg.server with
    certificatePath := ctx.certPath.getD cfg.server.certificatePath
    publicKeyPath := ctx.keyPath.getD cfg.server.publicKeyPath } }

def configOf (ctx : Context) (attempt : Attempt) : Except String Config := do
  let cfg ← attempt.loadCfg
  let cfg ← attempt.foldMounts cfg
  let cfg := ctx.override cfg
  admissionGate cfg
  return cfg

def readDoc (yaml : Yaml) (attempt : Attempt) : Except String yaml.Doc := do
  let raw ← attempt.readConfig.mapError ("read config: " ++ ·)
  (yaml.fromSlice raw).mapError ("parse config: " ++ ·)

def readLocks (attempt : Attempt) : Except String Locks :=
  (attempt.lockMounts.bind (releaseLocks attempt.loadLock .empty)).mapError ("manifests: " ++ ·)

def normalise (ctx : Context) (yaml : Yaml) (attempt : Attempt) : Except String (Normal yaml) := do
  let cfg ← configOf ctx attempt
  let doc ← readDoc yaml attempt
  let sha ← yaml.docSha doc
  let locks ← readLocks attempt
  return {
    cfg
    doc
    sha
    locks }

def isUnchanged (server : Server host yaml) (attempt : Attempt) (normal : Normal yaml) : Bool :=
  !attempt.force && server.currentSha = normal.sha &&
    !locksChanged server.currentLocks normal.locks

def knownTopLevelKeys : List String :=
  ["server", "mounts", "db", "redis", "tenant", "auth", "oidc", "blob", "fs", "smtp", "ldap",
    "es", "broker", "plugins", "plugins_dir", "kafkas", "rabbits", "vars", "db_query", "db_trace",
    "tasks", "secrets", "ws", "platform", "db_access", "db_client", "db_session", "audit", "mgmt"]

def frozenKeys : List String :=
  ["db", "redis", "blob", "es", "broker", "smtp", "ldap", "auth", "kafkas", "rabbits", "plugins",
    "plugins_dir", "secrets", "platform", "fs", "db_access", "db_client", "db_session", "audit",
    "mgmt", "vars", "oidc", "db_query", "db_trace", "ws"]

def changedKeys (yaml : Yaml) (old new : yaml.Doc) : List String :=
  knownTopLevelKeys.filter fun key =>
    match yaml.get old key, yaml.get new key with
    | some first, some second => !(yaml.sections first second).decide
    | none, none => false
    | _, _ => true

def diffConfigs (yaml : Yaml) (old new : yaml.Doc) : List String × List String × List String :=
  let changed := changedKeys yaml old new
  (changed.filter fun key => !frozenKeys.contains key && key != "server",
    changed.filter frozenKeys.contains,
    changed.filter (· == "server"))

theorem diffConfigs_reports (old new : yaml.Doc) (key : String) :
    key ∈ changedKeys yaml old new ↔
      (key ∈ (diffConfigs yaml old new).1 ∧ frozenKeys.contains key = false ∧ key ≠ "server") ∨
        (key ∈ (diffConfigs yaml old new).2.1 ∧ frozenKeys.contains key = true) ∨
          (key ∈ (diffConfigs yaml old new).2.2 ∧ key = "server") := by
  unfold diffConfigs
  simp only [List.mem_filter, beq_iff_eq]
  cases frozen : frozenKeys.contains key with
  | true =>
    simp only [Bool.true_eq_false, and_true, false_and, and_false, false_or]
    constructor
    · exact Or.inl
    · rintro (changed | ⟨⟨changed, _⟩, _⟩)
      · exact changed
      · exact changed
  | false =>
    by_cases listener : key = "server"
    · simp [listener]
    · simp [listener]

structure Shadow (host : Host) where
  assembly : PerGenAssembly
  tables : List MountTable
  contracts : Option (InputContractRegistry host)

def prewarmBoot (ctx : Context) (attempt : Attempt) : Except String Unit :=
  if ctx.boot then attempt.prewarm else .ok ()

def inputContracts (host : Host) (schemaValidation : Bool) (tables : List MountTable) :
    Except String (Option (InputContractRegistry host)) :=
  if schemaValidation then (registerContracts host tables).map some else .ok none

def shadowAssembly (ctx : Context) (server : Server host yaml) (attempt : Attempt)
    (cfg : Config) : Except String (Shadow host) := do
  let _ ← attempt.mounts
  let modules ← attempt.buildModules
  let ownershipDeny ← ownershipDenyOf cfg
  Platform.checkPlatformSquatting ctx.platform server.assembly.modules modules
  certificateGate cfg.server
  validateAnonPaths cfg
  validateServerLimits cfg
  attempt.verify
  prewarmBoot ctx attempt
  let tables ← attempt.tables
  tables.forM fun table => auditSchemas host table.2
  let contracts ← inputContracts host cfg.server.schemaValidation tables
  let assembly : PerGenAssembly := {
    modules
    sqlGuard := cfg.tenant.sqlGuard
    ownershipDeny
    allowAsTenant := cfg.tenant.allowAsTenant }
  return {
    assembly
    tables
    contracts }

def loadCertificate : Certificate → Except Failure Unit
  | .loaded => .ok ()
  | .refused e => .error (.refused 400 e)
  | .expired => .error .panicked

def validateRouter (ctx : Context) (attempt : Attempt) (cfg : Config) (tables : List MountTable) :
    Except String Router := do
  validateTenantBinding cfg.tenant ctx.auth
  validateMcpGate (cfg.server.mcp.getD defaultGate) "mcp" ctx.auth
  validateMcpGate cfg.server.rpc "rpc" ctx.auth
  let routeTimeouts ← parseTimeouts attempt.parseDuration cfg.server.routeTimeouts
  validateRouteTimeouts (routeTimeouts.map Prod.fst)
    (tables.flatMap fun table => table.2.patterns)
  attempt.wsMounts
  validateHtmlMetaHandler ctx.matcher cfg.server.htmlMetaHandler tables
  corsGate cfg.server.cors
  staticOptsOf cfg.server.staticConf
  return {
    tables
    routeTimeouts
    tasksApi := false }

def finishAssembly (ctx : Context) (attempt : Attempt) (cfg : Config)
    (tables : List MountTable) : Except Failure Router := do
  loadCertificate attempt.certificate
  refuse 400 (validateRouter ctx attempt cfg tables)

structure App where
  router : Router
  assembly : PerGenAssembly

def Server.write (server : Server host yaml) (contracts : Option (InputContractRegistry host)) :
    Server host yaml :=
  { server with contracts := contracts.getD server.contracts }

def fromConfig (ctx : Context) (attempt : Attempt) (cfg : Config) :
    Effect (Server host yaml) Failure App := do
  let server ← get
  let shadow ← settle (refuse 400 (shadowAssembly ctx server attempt cfg))
  set (server.write shadow.contracts)
  let router ← settle (finishAssembly ctx attempt cfg shadow.tables)
  return {
    router
    assembly := shadow.assembly }

def Server.stopOld (server : Server host yaml) : Server host yaml :=
  { server with
    tasking := server.tasking.stop
    taskFlag := true }

def stopResult : StopOld → Except Failure Unit
  | .stopped => .ok ()
  | .joinFailed e => .error (.refused 500 ("join old task pool: " ++ e))
  | .timedOut => .error (.refused 500 "old task pool did not stop within 10s — reload aborted")

def handOver (attempt : Attempt) : Effect (Server host yaml) Failure Tasking := do
  let tasking ← settle (refuse 500 (assembleTasking attempt))
  let server ← get
  set server.stopOld
  settle (stopResult attempt.stopOld)
  return tasking

/-- `Committer::commit`. -/
def Server.commit (server : Server host yaml) (router : Router) (sha : String)
    (modules : List String) : Server host yaml :=
  { server with
    generation := server.generation + 1
    cfgSha256 := sha
    modules := modules
    router := router }

def Server.adopt (server : Server host yaml) (assembly : PerGenAssembly) (normal : Normal yaml)
    (tasking : Tasking) : Server host yaml :=
  { server with
    assembly := assembly
    currentDoc := normal.doc
    currentSha := normal.sha
    currentLocks := normal.locks
    tasking := tasking
    taskFlag := false }

def Server.install (server : Server host yaml) (app : App) (normal : Normal yaml)
    (tasking : Tasking) : Server host yaml :=
  let router := { app.router with tasksApi := tasking.pool.isSome }
  (server.commit router normal.sha (lockUnionNames normal.locks)).adopt app.assembly normal tasking

def Server.unchanged (server : Server host yaml) : ReloadOutcome where
  generation := server.generation
  unchanged := true
  applied := []
  restartPending := []
  keptListener := []

def Server.reloaded (server : Server host yaml) (normal : Normal yaml) : ReloadOutcome :=
  let (applied, restartPending, keptListener) := diffConfigs yaml server.currentDoc normal.doc
  { generation := server.generation + 1
    unchanged := false
    applied := applied ++ lockDiff server.currentLocks.merged normal.locks.merged
    restartPending
    keptListener }

def doReload (ctx : Context) (attempt : Attempt) :
    Effect (Server host yaml) Failure ReloadOutcome := do
  let normal ← settle (refuse 400 (normalise ctx yaml attempt))
  let before ← get
  if isUnchanged before attempt normal then return before.unchanged
  else
    let app ← fromConfig ctx attempt normal.cfg
    let tasking ← handOver attempt
    let server ← get
    set (server.install app normal tasking)
    return before.reloaded normal

def trigger (ctx : Context) (attempt : Attempt) (server : Server host yaml) :
    Except (Nat × String) ReloadOutcome × Server host yaml :=
  if attempt.busy then (.error (409, "reload in progress"), server)
  else if !server.executor then (.error (503, "reload executor not ready"), server)
  else
    let (ended, next) := outcome (doReload ctx attempt) server
    (ended.mapError Failure.answer, next)

end OnlyJs.Oj.Reload
