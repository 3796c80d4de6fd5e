import OnlyJs.Bridge.Runtime.ReqState
import OnlyJs.Lib.Fallible
import OnlyJs.Serve.Table.Rows

/-!
# The gates of an assembly

What an assembly refuses in a configuration, before and after the routes are known. Every
gate reads and changes nothing.
-/

namespace OnlyJs.Oj.Reload

open Lib Lib.Fallible Serve

set_option autoImplicit false

structure AnonPath where
  path : List Char
  oneLayer : Bool

structure TenantCfg where
  enable : Bool
  requireSignedClaim : Bool
  allowAsTenant : Bool
  sqlGuard : Bridge.Runtime.SqlGuard
  anonymousPaths : List AnonPath

structure GateCfg where
  enabled : Bool
  allowAnonymous : Bool

structure CorsCfg where
  origins : List String
  credentials : Bool

structure StaticConf where
  compression : Bool
  brotliQuality : Nat
  gzipLevel : Nat
  webCachePolicy : String

structure RouteTimeout where
  pattern : List Char
  timeout : String

structure ServerCfg where
  publicKeyPath : String
  certificatePath : String
  jsHeapLimitBytes : Nat
  ownershipGuard : Option String
  schemaValidation : Bool
  mcp : Option GateCfg
  rpc : GateCfg
  routeTimeouts : List RouteTimeout
  htmlMetaHandler : Option (List Char)
  cors : Option CorsCfg
  staticConf : StaticConf

structure TasksCfg where
  dir : String
  crontab : String

structure Config where
  mounts : List (List Char)
  server : ServerCfg
  tenant : TenantCfg
  auth : Option (List AnonPath)
  tasks : TasksCfg

def admissionGate (cfg : Config) : Except String Unit :=
  reject cfg.mounts.isEmpty
    ("no mounts configured — add a top-level `mounts:` entry (one line = one URL " ++
      "prefix + one api/web directory) or pass --api-path/--app-path")

def certPathsConfigured (server : ServerCfg) : Bool :=
  !Text.isBlank server.publicKeyPath.toList && !Text.isBlank server.certificatePath.toList

def certificateGate (server : ServerCfg) : Except String Unit :=
  reject (!certPathsConfigured server)
    ("certificate is mandatory but not configured (set server.public_key_path + " ++
      "server.certificate_path; no config or flag can skip certificate validation)")

def ownershipDenyOf (cfg : Config) : Except String Bool :=
  match cfg.server.ownershipGuard with
  | none => .ok false
  | some "warn" => .ok false
  | some "deny" => .ok true
  | some other => .error s!"server.ownership_guard: illegal value {other.quote} (warn|deny)"

def misplacedLayer (entry : AnonPath) : Bool :=
  entry.oneLayer && (splitSegments entry.path).getLast? != some ['*']

def checkLayers (what : String) (list : List AnonPath) : Except String Unit :=
  list.forM fun entry =>
    reject (misplacedLayer entry) (s!"{what}: {(String.ofList entry.path).quote} 标了 one_layer，" ++
      "但末段不是 \"*\" —— 该标记只用于确认「有意的严格一层」")

def reservedAnonPrefixes : List String := ["_platform", "_system", "_lifecycle", "tasks"]

def checkReserved (list : List AnonPath) : Except String Unit :=
  list.forM fun entry =>
    let first := String.ofList ((splitSegments entry.path).headD [])
    reject (reservedAnonPrefixes.contains first)
      (s!"auth.anonymous_paths: anonymous path {(String.ofList entry.path).quote} under " ++
        s!"reserved prefix /{first} — denied")

def validateAnonPaths (cfg : Config) : Except String Unit := do
  checkLayers "tenant.anonymous_paths" cfg.tenant.anonymousPaths
  match cfg.auth with
  | none => .ok ()
  | some paths => do
      checkLayers "auth.anonymous_paths" paths
      checkReserved paths

def minHeapLimit : Nat := 32 * 1024 * 1024

def validateServerLimits (cfg : Config) : Except String Unit :=
  reject (cfg.server.jsHeapLimitBytes < minHeapLimit)
    (s!"server.js_heap_limit_bytes: {cfg.server.jsHeapLimitBytes} is below the minimum " ++
      s!"{minHeapLimit} (bytes) — configure a sane per-isolate heap limit or remove the key " ++
      "for the default")

def validateTenantBinding (tenant : TenantCfg) (auth : Bool) : Except String Unit :=
  if !tenant.requireSignedClaim then .ok ()
  else if !tenant.enable then
    .error ("tenant.require_signed_claim: needs tenant.enable=true (signed claim binding only " ++
      "applies to tenant injection)")
  else if !auth then
    .error ("tenant.require_signed_claim: needs an auth guard (auth: section) — the tenant id " ++
      "must come from a verified token claim, not the raw header")
  else .ok ()

def validateMcpGate (gate : GateCfg) (what : String) (auth : Bool) : Except String Unit :=
  reject (gate.enabled && !auth && !gate.allowAnonymous)
    (s!"server.{what}.enabled requires an auth plugin (oj-auth) — refusing to expose a " ++
      s!"machine-readable route catalog anonymously; set server.{what}.allow_anonymous: true " ++
      "to override explicitly")

def defaultGate : GateCfg where
  enabled := false
  allowAnonymous := false

def parseTimeouts (parseDuration : String → Except String Nat) (timeouts : List RouteTimeout) :
    Except String (List (List Char × Nat)) :=
  timeouts.mapM fun entry =>
    if Text.isBlank entry.pattern then .error "server.route_timeouts: empty pattern"
    else
      match parseDuration entry.timeout with
      | .ok duration => .ok (entry.pattern, duration)
      | .error e => .error s!"server.route_timeouts[{String.ofList entry.pattern}]: {e}"

def validateRouteTimeouts (patterns routeKeys : List (List Char)) : Except String Unit :=
  patterns.forM fun pattern =>
    let shown := String.ofList pattern
    if pattern.any fun c => c = '\x7b' || c = '\x7d' then
      .error (s!"server.route_timeouts: pattern '{shown}' contains a '\x7bparam\x7d' segment — " ++
        "route_timeouts matches real request paths, so such a pattern can never fire; " ++
        "use '*' (one segment) or '**' (multi-segment) instead")
    else
      reject (!routeKeys.any fun key => pathMatches [pattern] key)
        (s!"server.route_timeouts: pattern '{shown}' matches none of {routeKeys.length} " ++
          "registered routes — refusing to start with a timeout rule that can never apply " ++
          "(reserved /health, /plugins and WS mounts are not covered either)")

abbrev MountTable := List Char × Serve.Table

def underMount (norm mount : List Char) : Bool :=
  let start := trimEnd mount
  start.isEmpty || norm = start || (start ++ ['/']).isPrefixOf norm

def validateHtmlMetaHandler (matcher : Matcher) (handler : Option (List Char))
    (tables : List MountTable) : Except String Unit :=
  match handler with
  | none => .ok ()
  | some path =>
    let shown := (String.ofList path).quote
    match normalize path with
    | none => .error s!"server.html_meta_handler: {shown} 不是合法路径（须以 / 开头）"
    | some norm =>
      match tables.find? fun table => underMount norm table.1 with
      | none =>
        let mounts := ", ".intercalate (tables.map fun table => (String.ofList table.1).quote)
        .error (s!"server.html_meta_handler: {shown} 不在任何 api 挂载前缀下" ++
          s!"（挂载前缀：[{mounts}]）")
      | some table =>
        match (table.2.served matcher).lookup norm "GET" with
        | .hit _ _ _ => .ok ()
        | .conflict message => .error s!"server.html_meta_handler: {shown} 路由冲突：{message}"
        | .methodNotAllowed =>
          .error (s!"server.html_meta_handler: {shown} 未映射 GET 方法" ++
            "（meta handler 只能是 GET）")
        | .notFound => .error s!"server.html_meta_handler: {shown} 不在路由表（拼错了？）"

def corsGate (cors : Option CorsCfg) : Except String Unit :=
  match cors with
  | none => .ok ()
  | some cors =>
    reject (cors.credentials && cors.origins.isEmpty)
      ("server.cors: credentials=true 需要显式 origins（origins 为空 = 允许任意源，" ++
        "不可与 credentials 同用）")

def staticOptsOf (conf : StaticConf) : Except String Unit :=
  if conf.webCachePolicy ≠ "auto" ∧ conf.webCachePolicy ≠ "none" then
    .error s!"server.static.web_cache_policy: {conf.webCachePolicy.quote} 非法（合法 auto|none）"
  else if !conf.compression then .ok ()
  else if conf.brotliQuality < 1 ∨ 11 < conf.brotliQuality then
    .error s!"server.static.brotli_quality: {conf.brotliQuality} 越界（合法 1..=11）"
  else if conf.gzipLevel < 1 ∨ 9 < conf.gzipLevel then
    .error s!"server.static.gzip_level: {conf.gzipLevel} 越界（合法 1..=9）"
  else .ok ()

end OnlyJs.Oj.Reload
