import OnlyJs.Serve.Dispatch
import OnlyJs.Serve.Routes

/-!
# The api mount

How one request below an api mount is answered: the blob store, the route table, the dev
fallback, the paired web mount, in this order. A request leaves a trail of the admissions
asked for and of the module handlers run for it. The paired web mount gets the request as
a whole; the meta handler it may call on its own is handed a request without any caller.
-/

namespace OnlyJs.Serve

open List

structure ApiMount where
  mountPrefix : List Char
  table : RouteTable
  fallback : Option Routes
  web : Bool
  configured : ∃ cfg, resolveAppPrefix cfg = some mountPrefix
  mirrored : ∀ routes, fallback = some routes → routes.base = Routes.baseOf mountPrefix

structure Request where
  verb : String
  path : List Char
  headers : HeaderMap
  /-- What reading the body and its uploads comes to. -/
  upload : Except Rejection (List UInt8)

inductive Event where
  | admitRequest (verb : String) (path : Option (List Char))
  | runModule (file : FilePath) (handler : String) (params : Params) (verb : String)
deriving DecidableEq

inductive Reply where
  | failed (rejection : Rejection)
  /-- What the module answers, without its body for a mirrored `HEAD`. -/
  | handler (mirrorHead : Bool)
  | blob (key : List Char)
  | web (rel : List Char)

abbrev Answer := List Event × Reply

def runRoute (pipeline : Pipeline) (request : Request) (verb : String)
    (pathNoBase : Option (List Char)) (file : FilePath) (params : Params) (handler : String)
    (mirrorHead : Bool) : Answer :=
  match request.upload with
  | .error rejection => ([], .failed rejection)
  | .ok _ =>
    match admitRequest pipeline request.headers verb pathNoBase with
    | .error rejection => ([.admitRequest verb pathNoBase], .failed rejection)
    | .ok _ =>
      ([.admitRequest verb pathNoBase, .runModule file handler params verb],
        .handler mirrorHead)

def blobKeyOf (mountPrefix path : List Char) : Option (List Char) :=
  if mountPrefix = ['/'] then stripPrefix "//blob/".toList path
  else (stripPrefix mountPrefix path).bind (stripPrefix "/blob/".toList)

def validKey (key : List Char) : Bool :=
  !key.isEmpty && key.head? != some '/' && (key.splitOn '/').all isProper

def decodeBlobKey (text : List Char) : Option (List Char) :=
  (((text.splitOn '/').mapM decodeSegment).map fun segments =>
    ['/'].intercalate segments).filter validKey

def blobRequest (pipeline : Pipeline) (mount : ApiMount) (request : Request) :
    Option (List Char) :=
  if pipeline.blob && (request.verb = "GET" || request.verb = "PUT") then
    (blobKeyOf mount.mountPrefix request.path).bind decodeBlobKey
  else none

def blobLeg (pipeline : Pipeline) (request : Request) (key : List Char) : Answer :=
  if request.verb = "GET" then ([], .blob key)
  else
    let path := "/blob/".toList ++ key
    match admitRequest pipeline request.headers request.verb (some path) with
    | .error rejection => ([.admitRequest request.verb (some path)], .failed rejection)
    | .ok _ => ([.admitRequest request.verb (some path)], .blob key)

def notAllowed (verb : String) : Reply :=
  .failed { status := 405, message := "method " ++ verb ++ " not allowed" }

/-- `none` when the table does not know the path. -/
def tableLeg (pipeline : Pipeline) (mount : ApiMount) (request : Request)
    (pathNoBase : Option (List Char)) (path : List Char) : Option Answer :=
  match mount.table.lookup path request.verb with
  | .hit file params handler =>
    some (runRoute pipeline request request.verb pathNoBase file params handler false)
  | .conflict message => some ([], .failed { status := 500, message })
  | .methodNotAllowed =>
    if request.verb = "HEAD" then
      match mount.table.lookup path "GET" with
      | .hit file params handler =>
        some (runRoute pipeline request "GET" pathNoBase file params handler true)
      | .conflict message => some ([], .failed { status := 500, message })
      | _ => some ([], notAllowed request.verb)
    else some ([], notAllowed request.verb)
  | .notFound => none

/-- A `HEAD` is answered by the handler of `GET`. -/
def fallbackMethod (verb : String) : Option String :=
  if verb = "HEAD" then some "get" else methodName verb

def fallbackLeg (pipeline : Pipeline) (mount : ApiMount) (request : Request)
    (pathNoBase : Option (List Char)) : Option Answer :=
  (mount.fallback.bind fun routes => (routes.resolve request.path).map fun found =>
      ((routes.tree.canonicalize found.1).getD found.1, found.2)).bind fun (file, params) =>
    match fallbackMethod request.verb with
    | some method =>
      if mount.table.isReplaced file method then none
      else
        let verb := if request.verb = "HEAD" then "GET" else request.verb
        some (runRoute pipeline request verb pathNoBase file params method
          (request.verb = "HEAD"))
    | none =>
      some ([], .failed
        { status := 405, message := "method " ++ request.verb ++ " not mapped" })

def pathNoBase (mount : ApiMount) (path : List Char) : Option (List Char) :=
  (normalize path).bind (stripPrefix mount.mountPrefix)

def handleApi (pipeline : Pipeline) (mount : ApiMount) (rel : List Char) (request : Request) :
    Answer :=
  match blobRequest pipeline mount request with
  | some key => blobLeg pipeline request key
  | none =>
    let below := pathNoBase mount request.path
    match (normalize request.path).bind (tableLeg pipeline mount request below) with
    | some answer => answer
    | none =>
      match fallbackLeg pipeline mount request below with
      | some answer => answer
      | none =>
        if mount.web then ([], .web rel)
        else ([], .failed { status := 404, message := "no route matched" })

/-- The guard had its word on the path: it needs none, or the guard lets the request pass. -/
def Passed (pipeline : Pipeline) (guard : AuthGuard) (request : Request) (verb : String)
    (path : List Char) : Prop :=
  pathMatches pipeline.authAnon path = true ∨
    ∃ user, guard.verify path verb (headerText request.headers "authorization")
      (some (headerStrings request.headers)) = .ok user

/-- Every run of a module handler comes after an admission of the path below the mount that
the guard had its word on. -/
def Guarded (pipeline : Pipeline) (guard : AuthGuard) (mount : ApiMount) (request : Request)
    (events : List Event) : Prop :=
  ∀ before file handler params verb after,
    events = before ++ .runModule file handler params verb :: after →
      ∃ path, .admitRequest verb (some path) ∈ before ∧
        normalize request.path = some (mount.mountPrefix ++ path) ∧
        Passed pipeline guard request verb path

/-- The dev fallback is what runs for the request once nothing before it answers. -/
def FallbackRuns (pipeline : Pipeline) (mount : ApiMount) (request : Request) : Prop :=
  blobRequest pipeline mount request = none ∧
    ∃ routes file params method,
      mount.fallback = some routes ∧ routes.resolve request.path = some (file, params) ∧
        fallbackMethod request.verb = some method ∧
        mount.table.isReplaced ((routes.tree.canonicalize file).getD file) method = false ∧
        (∃ body, request.upload = .ok body) ∧
        ∃ tenant, tenantOf pipeline request.headers none none = .ok tenant

/-- The mount prefix is made of proper segments, and one slash stands behind it. -/
def ReadAlike (mount : ApiMount) (path : List Char) : Prop :=
  (∀ segment ∈ (trim mount.mountPrefix).splitOn '/', isProper segment = true) ∧
    ¬ (Routes.baseOf mount.mountPrefix ++ ['/']) <+: path

theorem isProper_iff {segment : List Char} :
    isProper segment = true ↔
      segment ≠ [] ∧ isDots segment = false ∧ hasForbidden segment = false := by
  simp [isProper, and_assoc]

theorem mem_below {below : List Char} {c : Char} (inside : c ∈ below) :
    c = '/' ∨ c ∈ trim below := by
  rw [← takeWhile_append_dropWhile (p := isSlash) (l := below), mem_append] at inside
  rcases inside with lead | behind
  · exact .inl (isSlash_iff.mp (mem_takeWhile_imp lead))
  · rw [← rdropWhile_append_rtakeWhile (p := isSlash) (l := below.dropWhile isSlash),
      mem_append] at behind
    rcases behind with kept | trail
    · exact .inr kept
    · exact .inl (isSlash_iff.mp (mem_rtakeWhile_imp trail))

theorem hasForbidden_base {start below : List Char} (clean : hasForbidden (trim below) = false) :
    hasForbidden (Routes.baseOf start ++ below) = hasForbidden (trim start) := by
  have tail : hasForbidden below = false := by
    rw [hasForbidden, any_eq_false] at clean ⊢
    intro c inside
    rcases mem_below inside with slash | kept
    · rw [slash]
      decide
    · exact clean c kept
  simp only [hasForbidden, Routes.baseOf] at tail ⊢
  simp [tail]

variable {path : List Char}

/-- A path the fallback serves is one the guard reads exactly when the mount prefix and the
slashes behind it are the usual ones. -/
theorem read_alike_of_resolve {mount : ApiMount} {routes : Routes} {found : FilePath × Params}
    (mirrors : mount.fallback = some routes) (served : routes.resolve path = some found) :
    (normalize path).isSome = true ↔ ReadAlike mount path := by
  obtain ⟨below, covered, nonempty, proper⟩ := resolve_below served
  rw [mount.mirrored routes mirrors] at covered
  have clean : hasForbidden (trim below) = false :=
    hasForbidden_eq_false.mpr fun segment member => (isProper_iff.mp (proper segment member)).2.2
  have shape : trimEnd path =
      '/' :: (trim mount.mountPrefix ++ '/' :: (below.takeWhile isSlash ++ trim below)) := by
    have split : path = (Routes.baseOf mount.mountPrefix ++ below.takeWhile isSlash) ++
        trimStart below := by
      rw [covered, trimStart, append_assoc, takeWhile_append_dropWhile]
    rw [split, trimEnd_append nonempty, Routes.baseOf, ← trim]
    simp
  have rooted : path.head? = some '/' := by
    rw [covered]
    rfl
  have doubled : (Routes.baseOf mount.mountPrefix ++ ['/']) <+: path ↔
      below.takeWhile isSlash ≠ [] := by
    rw [covered, prefix_append_right_inj]
    cases below with
    | nil => simp
    | cons c rest =>
      rw [cons_prefix_cons, and_iff_left nil_prefix, takeWhile_cons]
      by_cases slash : isSlash c = true
      · rw [if_pos slash, isSlash_iff.mp slash]
        simp
      · rw [if_neg slash]
        exact ⟨fun same => absurd (isSlash_iff.mpr same.symm) slash,
          fun absurd => (absurd rfl).elim⟩
  rw [normalize_isSome, covered, hasForbidden_base clean, ← covered, shape, rooted, ReadAlike,
    doubled, not_not, drop_succ_cons, drop_zero, splitOn_append_cons_self,
    hasForbidden_eq_false]
  simp only [isProper_iff, mem_append, reduceCtorEq, false_or, true_and]
  constructor
  · rintro ⟨harmless, each⟩
    refine ⟨fun segment member => ?_, ?_⟩
    · have solid := each segment (.inl member)
      exact ⟨solid.1, solid.2, harmless segment member⟩
    · cases lead : below.takeWhile isSlash with
      | nil => rfl
      | cons c rest =>
        have inside : c ∈ below.takeWhile isSlash := by
          rw [lead]
          exact mem_cons_self
        have slash : c = '/' := isSlash_iff.mp (mem_takeWhile_imp inside)
        rw [lead, slash, cons_append, ← nil_append ('/' :: _),
          splitOn_append_cons_self] at each
        exact absurd rfl (each [] (.inr (by simp))).1
  · rintro ⟨each, single⟩
    refine ⟨fun segment member => (each segment member).2.2, fun segment member => ?_⟩
    rw [single] at member
    rcases member with above | beneath
    · exact ⟨(each segment above).1, (each segment above).2.1⟩
    · have solid := isProper_iff.mp (proper segment beneath)
      exact ⟨solid.1, solid.2.1⟩

variable {pipeline : Pipeline} {guard : AuthGuard} {mount : ApiMount} {request : Request}

theorem guarded_of_no_run {events : List Event}
    (none : ∀ file handler params verb, .runModule file handler params verb ∉ events) :
    Guarded pipeline guard mount request events := by
  intro before file handler params verb after shape
  apply absurd _ (none file handler params verb)
  rw [shape]
  simp

theorem guarded_runRoute (configured : pipeline.auth = some guard)
    (read : normalize request.path = some (mount.mountPrefix ++ path)) (verb : String)
    (file : FilePath) (params : Params) (handler : String) (mirrorHead : Bool) :
    Guarded pipeline guard mount request
      (runRoute pipeline request verb (some path) file params handler mirrorHead).1 := by
  rw [runRoute]
  split
  · exact guarded_of_no_run (by simp)
  · split
    · exact guarded_of_no_run (by simp)
    · rename_i admitted passed
      intro before file handler params verb after shape
      have asked : before = [.admitRequest verb (some path)] := by
        cases before with
        | nil => cases shape
        | cons first rest =>
          cases rest with
          | nil =>
            cases shape
            rfl
          | cons second rest => simp at shape
      rw [asked] at shape ⊢
      cases shape
      refine ⟨path, mem_singleton_self _, read, ?_⟩
      have authenticated := (admitRequest_ok.mp passed).1
      exact (authenticate_ok configured).mp ⟨_, authenticated⟩

theorem run_iff_pathless (verb : String) (file : FilePath) (params : Params) (handler : String)
    (mirrorHead : Bool) :
    Guarded pipeline guard mount request
        (runRoute pipeline request verb none file params handler mirrorHead).1 ↔
      ¬ ((∃ body, request.upload = .ok body) ∧
        ∃ tenant, tenantOf pipeline request.headers none none = .ok tenant) := by
  rw [runRoute]
  cases request.upload with
  | error rejection => simp [guarded_of_no_run]
  | ok body =>
    cases tenant : tenantOf pipeline request.headers none none with
    | error rejection =>
      have refused : admitRequest pipeline request.headers verb none = .error rejection := by
        rw [admitRequest, authenticate_pathless]
        change (tenantOf pipeline request.headers none none >>= _) = _
        rw [tenant]
        rfl
      rw [refused]
      simp [guarded_of_no_run]
    | ok answer =>
      have passed : admitRequest pipeline request.headers verb none =
          .ok { user := none, tenantId := answer.1, anonymous := answer.2, headers := none } :=
        admitRequest_ok.mpr ⟨authenticate_pathless .., tenant⟩
      rw [passed]
      constructor
      · intro guarded
        obtain ⟨path, asked, _⟩ := guarded [_] _ _ _ _ [] rfl
        simp at asked
      · intro absurd
        exact (absurd ⟨⟨_, rfl⟩, _, rfl⟩).elim

theorem guarded_tableLeg (configured : pipeline.auth = some guard) {normal : List Char}
    (read : normalize request.path = some (mount.mountPrefix ++ path)) {answer : Answer}
    (answered : tableLeg pipeline mount request (some path) normal = some answer) :
    Guarded pipeline guard mount request answer.1 := by
  rw [tableLeg] at answered
  split at answered
  · cases answered
    exact guarded_runRoute configured read _ _ _ _ _
  · cases answered
    exact guarded_of_no_run (by simp)
  · split at answered
    · split at answered
      · cases answered
        exact guarded_runRoute configured read _ _ _ _ _
      · cases answered
        exact guarded_of_no_run (by simp)
      · cases answered
        exact guarded_of_no_run (by simp)
    · cases answered
      exact guarded_of_no_run (by simp)
  · cases answered

theorem guarded_fallbackLeg (configured : pipeline.auth = some guard)
    (read : normalize request.path = some (mount.mountPrefix ++ path)) {answer : Answer}
    (answered : fallbackLeg pipeline mount request (some path) = some answer) :
    Guarded pipeline guard mount request answer.1 := by
  obtain ⟨found, _, answered⟩ := Option.bind_eq_some_iff.mp answered
  dsimp only at answered
  split at answered
  · split at answered
    · cases answered
    · cases answered
      exact guarded_runRoute configured read _ _ _ _ _
  · cases answered
    exact guarded_of_no_run (by simp)

theorem guarded_fallbackLeg_pathless (guard : AuthGuard)
    (unblobbed : blobRequest pipeline mount request = none) :
    (∀ answer, fallbackLeg pipeline mount request none = some answer →
        Guarded pipeline guard mount request answer.1) ↔
      ¬ FallbackRuns pipeline mount request := by
  constructor
  · rintro guarded ⟨_, routes, file, params, method, mirrors, served, mapped, kept, runs⟩
    have answered : fallbackLeg pipeline mount request none =
        some (runRoute pipeline request (if request.verb = "HEAD" then "GET" else request.verb)
          none ((routes.tree.canonicalize file).getD file) params method
          (request.verb = "HEAD")) := by
      simp [fallbackLeg, mirrors, served, mapped, kept]
    exact run_iff_pathless _ _ _ _ _ |>.mp (guarded _ answered) runs
  · intro idle answer answered
    obtain ⟨found, resolved, answered⟩ := Option.bind_eq_some_iff.mp answered
    obtain ⟨routes, mirrors, resolved⟩ := Option.bind_eq_some_iff.mp resolved
    obtain ⟨raw, served, canonical⟩ := Option.map_eq_some_iff.mp resolved
    cases canonical
    dsimp only at answered
    split at answered
    · rename_i method mapped
      split at answered
      · cases answered
      · rename_i kept
        cases answered
        apply (run_iff_pathless _ _ _ _ _).mpr
        intro runs
        exact idle ⟨unblobbed, routes, raw.1, raw.2, method, mirrors, served, mapped,
          Bool.not_eq_true _ |>.mp kept, runs⟩
    · cases answered
      exact guarded_of_no_run (by simp)

/-- An api mount runs a handler unguarded exactly when the dev fallback serves a path whose
prefix, or the slashes behind it, the guard in front of the table does not read. -/
theorem guarded_iff {rel : List Char} (configured : pipeline.auth = some guard)
    (dispatched : stripAppPrefix mount.mountPrefix request.path = some rel) :
    Guarded pipeline guard mount request (handleApi pipeline mount rel request).1 ↔
      (FallbackRuns pipeline mount request → ReadAlike mount request.path) := by
  rw [handleApi]
  cases unblobbed : blobRequest pipeline mount request with
  | some key =>
    refine iff_of_true (guarded_of_no_run ?_) fun runs => ?_
    · intro file handler params verb
      simp only [blobLeg]
      split
      · simp
      · split <;> simp
    · rw [runs.1] at unblobbed
      cases unblobbed
  | none =>
    have unanswered : ∀ answer, (if mount.web then (([], .web rel) : Answer) else
        ([], .failed { status := 404, message := "no route matched" })) = answer →
        Guarded pipeline guard mount request answer.1 := by
      rintro answer rfl
      split <;> exact guarded_of_no_run (by simp)
    dsimp only
    cases read : normalize request.path with
    | none =>
      have unread : FallbackRuns pipeline mount request → ¬ ReadAlike mount request.path := by
        rintro ⟨_, routes, file, params, method, mirrors, served, _⟩ alike
        have reads := (read_alike_of_resolve mirrors served).mpr alike
        rw [read] at reads
        cases reads
      rw [pathNoBase, read, Option.bind_none, Option.bind_none]
      have exact_run := guarded_fallbackLeg_pathless guard unblobbed
      cases answered : fallbackLeg pipeline mount request none with
      | some answer =>
        rw [answered] at exact_run
        constructor
        · intro guarded runs
          exact absurd runs (exact_run.mp fun _ same => by
            cases same
            exact guarded)
        · intro alike
          exact exact_run.mpr (fun runs => unread runs (alike runs)) answer rfl
      | none =>
        rw [answered] at exact_run
        have idle := exact_run.mp fun _ absurd => by cases absurd
        exact iff_of_true (unanswered _ rfl) fun runs => absurd runs idle
    | some normal =>
      obtain ⟨cfg, resolved⟩ := mount.configured
      obtain ⟨path, shape⟩ := normalize_below resolved dispatched read
      have readPath : normalize request.path = some (mount.mountPrefix ++ path) := by
        rw [read, shape]
      have below : pathNoBase mount request.path = some path := by
        rw [pathNoBase, readPath]
        exact stripPrefix_eq_some.mpr rfl
      refine iff_of_true ?_ fun runs => ?_
      · rw [below, Option.bind_some]
        cases tabled : tableLeg pipeline mount request (some path) normal with
        | some answer => exact guarded_tableLeg configured readPath tabled
        | none =>
          cases mirrored : fallbackLeg pipeline mount request (some path) with
          | some answer => exact guarded_fallbackLeg configured readPath mirrored
          | none => exact unanswered _ rfl
      · obtain ⟨_, routes, file, params, method, mirrors, served, _⟩ := runs
        exact (read_alike_of_resolve mirrors served).mp (Option.isSome_of_eq_some read)

def userTree : FileTree :=
  { isFile := fun path => path = ["user".toList, "api.ts".toList]
    isDir := fun path => path = [] || path = ["user".toList]
    readDir := fun path => if path = [] then some ["user".toList] else none
    canonicalize := some }

def userMount : ApiMount :=
  { mountPrefix := "/api".toList
    table := { matchAt := fun _ => none, nodes := fun _ _ => none, files := [], replaced := [] }
    fallback := some (Routes.new "/api".toList userTree true)
    web := false
    configured := ⟨"/api/".toList, by decide +kernel⟩
    mirrored := by
      rintro routes ⟨⟩
      rfl }

def refusing : AuthGuard :=
  { verify := fun _ _ _ _ => .error "missing or invalid bearer token" }

def guardedPipeline : Pipeline :=
  { tenantHeader := none
    tenantRequireSignedClaim := false
    tenantAnon := []
    authAnon := []
    auth := some refusing
    blob := false }

def getRequest (path : String) : Request :=
  { verb := "GET", path := path.toList, headers := [], upload := .ok [] }

theorem guarded_iff_user :
    Guarded guardedPipeline refusing userMount (getRequest "/api/user")
        (handleApi guardedPipeline userMount "/user".toList (getRequest "/api/user")).1 ↔
      (FallbackRuns guardedPipeline userMount (getRequest "/api/user") →
        ReadAlike userMount "/api/user".toList) :=
  guarded_iff rfl (by decide +kernel)

/-- With one slash the guard answers, with two the handler runs. -/
theorem double_slash_runs_unguarded :
    stripAppPrefix userMount.mountPrefix "/api//user".toList = some "//user".toList ∧
      (handleApi guardedPipeline userMount "/user".toList (getRequest "/api/user")).1 =
        [.admitRequest "GET" (some "/user".toList)] ∧
      (handleApi guardedPipeline userMount "//user".toList (getRequest "/api//user")).1 =
        [.admitRequest "GET" none,
          .runModule ["user".toList, "api.ts".toList] "get" [] "GET"] ∧
      ¬ Guarded guardedPipeline refusing userMount (getRequest "/api//user")
        (handleApi guardedPipeline userMount "//user".toList (getRequest "/api//user")).1 := by
  have run : (handleApi guardedPipeline userMount "//user".toList (getRequest "/api//user")).1 =
      [.admitRequest "GET" none,
        .runModule ["user".toList, "api.ts".toList] "get" [] "GET"] := by
    decide +kernel
  refine ⟨by decide +kernel, by decide +kernel, run, ?_⟩
  intro guarded
  obtain ⟨path, asked, _⟩ := guarded [_] _ _ _ _ [] run
  rw [mem_singleton, Event.admitRequest.injEq] at asked
  cases asked.2

end OnlyJs.Serve
