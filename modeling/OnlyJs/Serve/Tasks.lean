import OnlyJs.Serve.SignedTenant

/-!
# The task control plane

The endpoints below `{base}/tasks` admit their requests on their own: they ask the same
guard and look for the same tenant header, with a path that is fixed for each endpoint,
and know neither the anonymous paths of the guard nor the signed claims.
-/

namespace OnlyJs.Serve

open Bridge (Value)
open Lib

structure Endpoint where
  method : String
  path : List Char
deriving DecidableEq

def taskActions : List (List Char) :=
  ["start", "stop", "reload", "run-once", "enable", "disable"].map String.toList

/-- The endpoint a request below the mount reaches; a `HEAD` is served as a `GET`. -/
def taskEndpoint (method : String) (path : List Char) : Option Endpoint :=
  let reads := method = "GET" || method = "HEAD"
  match path.splitOn '/' with
  | [[], tasks] =>
    if tasks = "tasks".toList && reads then some ⟨"GET", "/tasks".toList⟩ else none
  | [[], tasks, name] =>
    if tasks != "tasks".toList || name.isEmpty then none
    else if reads then some ⟨"GET", "/tasks/*".toList⟩
    else if method = "PATCH" || method = "DELETE" then some ⟨method, "/tasks/*".toList⟩
    else none
  | [[], tasks, name, action] =>
    if tasks != "tasks".toList || name.isEmpty then none
    else if action = "logs".toList && reads then some ⟨"GET", "/tasks/*/logs".toList⟩
    else if taskActions.contains action && method = "POST" then
      some ⟨"POST", "/tasks/*/".toList ++ action⟩
    else none
  | _ => none

structure TasksApiState where
  auth : Option AuthGuard
  tenantHeader : Option String
  tenantAnon : List (List Char)

def tasksApiState (pipeline : Pipeline) : TasksApiState :=
  { auth := pipeline.auth
    tenantHeader := pipeline.tenantHeader
    tenantAnon := pipeline.tenantAnon }

def TasksApiState.verify (state : TasksApiState) (method : String) (pathNoBase : List Char)
    (headers : HeaderMap) : Except Rejection Unit :=
  match state.auth with
  | some guard =>
    match guard.verify pathNoBase method (headerText headers "authorization")
        (some (headerStrings headers)) with
    | .ok _ => .ok ()
    | .error message => .error { status := 401, message }
  | none => .ok ()

def TasksApiState.requireTenant (state : TasksApiState) (pathNoBase : List Char)
    (headers : HeaderMap) : Except Rejection Unit :=
  match state.tenantHeader with
  | some key =>
    let exempt := pathMatches state.tenantAnon pathNoBase
    let present := (headerTenant headers key).isSome
    if !present && !exempt then
      .error { status := 400, message := "missing tenant header: " ++ key }
    else .ok ()
  | none => .ok ()

def admitted (state : TasksApiState) (method : String) (pathNoBase : List Char)
    (headers : HeaderMap) : Except Rejection Unit := do
  state.verify method pathNoBase headers
  state.requireTenant pathNoBase headers

section Admissions

variable (pipeline : Pipeline) (headers : HeaderMap)

/-- The guard, where there is one, lets the request pass under this path. -/
def GuardLets (verb : String) (path : List Char) : Prop :=
  ∀ guard, pipeline.auth = some guard → ∃ user,
    guard.verify path verb (headerText headers "authorization") (some (headerStrings headers)) =
      .ok user

/-- The guard is not asked about this path, or lets the request pass. -/
def Authenticates (verb : String) (path : List Char) : Prop :=
  pathMatches pipeline.authAnon path = true ∨ GuardLets pipeline headers verb path

/-- A tenant header is sent, or this path needs none. -/
def HeaderOrExempt (path : List Char) : Prop :=
  ∀ key, pipeline.tenantHeader = some key →
    headerTenant headers key ≠ none ∨ pathMatches pipeline.tenantAnon path = true

def requestUser (verb : String) (path : List Char) : Option Value :=
  match pipeline.auth with
  | none => none
  | some guard =>
    if pathMatches pipeline.authAnon path then none
    else
      match guard.verify path verb (headerText headers "authorization")
          (some (headerStrings headers)) with
      | .ok user => user
      | .error _ => none

/-- The user's signed tenant agrees with the header, or neither is there and this path needs
none. -/
def ClaimOrExempt (verb : String) (path : List Char) : Prop :=
  ∀ key, pipeline.tenantHeader = some key →
    match signedTenant (requestUser pipeline headers verb path) with
    | some tenant => headerTenant headers key = none ∨ headerTenant headers key = some tenant
    | none => headerTenant headers key = none ∧ pathMatches pipeline.tenantAnon path = true

/-- What a business route asks about the tenant. -/
def TenantAdmits (verb : String) (path : List Char) : Prop :=
  if pipeline.tenantRequireSignedClaim then ClaimOrExempt pipeline headers verb path
  else HeaderOrExempt pipeline headers path

/-- The four ways in which an endpoint and a business route differ over a request. -/
inductive Drift (verb : String) (path : List Char) (endpoint : Endpoint) : Prop where
  /-- The guard refuses the endpoint's path; the request's own path needs no guard, or
  passes it. -/
  | guard_refuses_endpoint (authenticated : Authenticates pipeline headers verb path)
      (tenant : TenantAdmits pipeline headers verb path)
      (refused : ¬ GuardLets pipeline headers endpoint.method endpoint.path)
  /-- The guard refuses the request's own path but lets the endpoint's pass. -/
  | guard_refuses_path (lets : GuardLets pipeline headers endpoint.method endpoint.path)
      (tenant : HeaderOrExempt pipeline headers endpoint.path)
      (refused : ¬ Authenticates pipeline headers verb path)
  /-- The endpoint misses a header that a signed claim or the request's own path makes up
  for. -/
  | header_missing (authenticated : Authenticates pipeline headers verb path)
      (lets : GuardLets pipeline headers endpoint.method endpoint.path)
      (tenant : TenantAdmits pipeline headers verb path)
      (missing : ¬ HeaderOrExempt pipeline headers endpoint.path)
  /-- A header, or the endpoint's path, makes up for a signed claim or an exemption. -/
  | claim_missing (authenticated : Authenticates pipeline headers verb path)
      (lets : GuardLets pipeline headers endpoint.method endpoint.path)
      (tenant : HeaderOrExempt pipeline headers endpoint.path)
      (missing : ¬ TenantAdmits pipeline headers verb path)

end Admissions

variable {pipeline : Pipeline} {headers : HeaderMap} {verb : String} {path : List Char}

theorem verify_ok :
    (∃ done, (tasksApiState pipeline).verify verb path headers = .ok done) ↔
      GuardLets pipeline headers verb path := by
  simp only [TasksApiState.verify, tasksApiState, GuardLets]
  cases pipeline.auth with
  | none => simp
  | some guard =>
    simp only [Option.some_inj, forall_eq']
    cases guard.verify path verb (headerText headers "authorization")
        (some (headerStrings headers)) with
    | ok user => simp
    | error message => simp

theorem requireTenant_ok :
    (tasksApiState pipeline).requireTenant path headers = .ok () ↔
      HeaderOrExempt pipeline headers path := by
  simp only [TasksApiState.requireTenant, tasksApiState, HeaderOrExempt]
  cases pipeline.tenantHeader with
  | none => simp
  | some key =>
    simp only [Option.some_inj, forall_eq']
    by_cases exempt : pathMatches pipeline.tenantAnon path = true <;>
      cases headerTenant headers key <;> simp

theorem admitted_ok :
    admitted (tasksApiState pipeline) verb path headers = .ok () ↔
      GuardLets pipeline headers verb path ∧ HeaderOrExempt pipeline headers path := by
  rw [admitted, Fallible.bind_ok, exists_and_right, verify_ok, requireTenant_ok]

theorem authenticate_user :
    (∃ strings, authenticate pipeline headers verb (some path) =
        .ok (requestUser pipeline headers verb path, strings)) ↔
      Authenticates pipeline headers verb path := by
  simp only [authenticate, requestUser, Authenticates, GuardLets]
  cases pipeline.auth with
  | none => simp
  | some guard =>
    simp only [Option.some_inj, forall_eq']
    by_cases listed : pathMatches pipeline.authAnon path = true
    · simp [listed]
    · cases guard.verify path verb (headerText headers "authorization")
          (some (headerStrings headers)) with
      | ok user | error message => simp [listed]

theorem tenantOf_ok :
    (∃ answer, tenantOf pipeline headers (requestUser pipeline headers verb path) (some path) =
        .ok answer) ↔ TenantAdmits pipeline headers verb path := by
  simp only [TenantAdmits, ClaimOrExempt, HeaderOrExempt, tenantOf]
  cases pipeline.tenantHeader with
  | none => simp
  | some key =>
    simp only [Option.some_inj, forall_eq']
    cases pipeline.tenantRequireSignedClaim with
    | false =>
      cases headerTenant headers key with
      | some tenant => simp
      | none => by_cases exempt : pathMatches pipeline.tenantAnon path = true <;> simp [exempt]
    | true =>
      cases signedTenant (requestUser pipeline headers verb path) with
      | none =>
        cases headerTenant headers key with
        | some tenant => simp
        | none =>
          by_cases exempt : pathMatches pipeline.tenantAnon path = true <;> simp [exempt]
      | some claim =>
        cases headerTenant headers key with
        | none => simp
        | some tenant => by_cases same : tenant = claim <;> simp [same]

theorem admitRequest_iff :
    (∃ outcome, admitRequest pipeline headers verb (some path) = .ok outcome) ↔
      Authenticates pipeline headers verb path ∧ TenantAdmits pipeline headers verb path := by
  rw [← authenticate_user, ← tenantOf_ok]
  constructor
  · rintro ⟨outcome, passed⟩
    obtain ⟨authenticated, tenant⟩ := admitRequest_ok.mp passed
    have named : outcome.user = requestUser pipeline headers verb path := by
      have user_of : ∀ answer, authenticate pipeline headers verb (some path) = .ok answer →
          answer.1 = requestUser pipeline headers verb path := by
        intro answer
        simp only [authenticate, requestUser]
        cases pipeline.auth with
        | none =>
          rintro ⟨⟩
          rfl
        | some guard =>
          dsimp only
          split
          · rintro ⟨⟩
            rfl
          · cases guard.verify path verb (headerText headers "authorization")
                (some (headerStrings headers)) with
            | ok user =>
              rintro ⟨⟩
              rfl
            | error message => exact nofun
      exact user_of _ authenticated
    rw [named] at authenticated tenant
    exact ⟨⟨_, authenticated⟩, _, tenant⟩
  · rintro ⟨⟨strings, authenticated⟩, answer, tenant⟩
    exact ⟨{ user := _, tenantId := answer.1, anonymous := answer.2, headers := strings },
      admitRequest_ok.mpr ⟨authenticated, tenant⟩⟩

theorem admitted_alike_iff (endpoint : Endpoint) :
    (admitted (tasksApiState pipeline) endpoint.method endpoint.path headers = .ok () ↔
        ∃ outcome, admitRequest pipeline headers verb (some path) = .ok outcome) ↔
      ¬ Drift pipeline headers verb path endpoint := by
  rw [admitted_ok, admitRequest_iff]
  constructor
  · rintro same (⟨authenticated, tenant, refused⟩ | ⟨lets, tenant, refused⟩ |
      ⟨authenticated, lets, tenant, missing⟩ | ⟨authenticated, lets, tenant, missing⟩)
    · exact refused (same.mpr ⟨authenticated, tenant⟩).1
    · exact refused (same.mp ⟨lets, tenant⟩).1
    · exact missing (same.mpr ⟨authenticated, tenant⟩).2
    · exact missing (same.mp ⟨lets, tenant⟩).2
  · intro steady
    constructor
    · rintro ⟨lets, tenant⟩
      have authenticated : Authenticates pipeline headers verb path := by
        by_contra refused
        exact steady (.guard_refuses_path lets tenant refused)
      refine ⟨authenticated, ?_⟩
      by_contra missing
      exact steady (.claim_missing authenticated lets tenant missing)
    · rintro ⟨authenticated, tenant⟩
      have lets : GuardLets pipeline headers endpoint.method endpoint.path := by
        by_contra refused
        exact steady (.guard_refuses_endpoint authenticated tenant refused)
      refine ⟨lets, ?_⟩
      by_contra missing
      exact steady (.header_missing authenticated lets tenant missing)

/-- The endpoint a request reaches admits it exactly when a business route of the same path
would. -/
def TasksAgree (pipeline : Pipeline) (headers : HeaderMap) (verb : String) (path : List Char) :
    Prop :=
  ∀ endpoint, taskEndpoint verb path = some endpoint →
    (admitted (tasksApiState pipeline) endpoint.method endpoint.path headers = .ok () ↔
      ∃ outcome, admitRequest pipeline headers verb (some path) = .ok outcome)

/-- The two admissions agree over a request exactly when none of the four differences is
there. -/
theorem tasks_agree_iff :
    TasksAgree pipeline headers verb path ↔
      ∀ endpoint, taskEndpoint verb path = some endpoint →
        ¬ Drift pipeline headers verb path endpoint :=
  forall₂_congr fun endpoint _ => admitted_alike_iff endpoint

/-- A bare tenant header opens the task list where a signed claim is required. -/
theorem bare_header_opens_tasks :
    taskEndpoint "GET" "/tasks".toList = some ⟨"GET", "/tasks".toList⟩ ∧
      admitted (tasksApiState { signedPipeline with auth := none }) "GET" "/tasks".toList
        [headerLine "x-tenant" "acme"] = .ok () ∧
      admitRequest { signedPipeline with auth := none } [headerLine "x-tenant" "acme"] "GET"
        (some "/tasks".toList) = .error claimMissing ∧
      ¬ TasksAgree { signedPipeline with auth := none } [headerLine "x-tenant" "acme"] "GET"
        "/tasks".toList := by
  have reached : taskEndpoint "GET" "/tasks".toList = some ⟨"GET", "/tasks".toList⟩ := by
    decide +kernel
  have opened : admitted (tasksApiState { signedPipeline with auth := none }) "GET"
      "/tasks".toList [headerLine "x-tenant" "acme"] = .ok () := by
    rfl
  have refused : admitRequest { signedPipeline with auth := none }
      [headerLine "x-tenant" "acme"] "GET" (some "/tasks".toList) = .error claimMissing := by
    rfl
  refine ⟨reached, opened, refused, fun agree => ?_⟩
  obtain ⟨outcome, passed⟩ := (agree _ reached).mp opened
  rw [refused] at passed
  cases passed

end OnlyJs.Serve
