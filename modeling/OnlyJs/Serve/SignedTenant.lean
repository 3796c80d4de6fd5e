import OnlyJs.Serve.OjAuth

/-!
# Signed tenants

With a tenant header configured and signed claims required, a request's tenant is the one
its user was signed for. Admission keeps this for every guard. The token guard drops the
claim from every user it returns, so with it no request has a tenant.
-/

namespace OnlyJs.Serve

open Bridge (Value)
open Lib

/-- The guard's user for the request, `none` when the guard is not asked or names nobody. -/
def GuardUser (pipeline : Pipeline) (headers : HeaderMap) (verb : String)
    (path : Option (List Char)) (user : Value) : Prop :=
  ∃ guard below, pipeline.auth = some guard ∧ path = some below ∧
    guard.verify below verb (headerText headers "authorization") (some (headerStrings headers)) =
      .ok (some user)

/-- What an admitted request's tenant comes from; a header line that is empty or no text
counts as none. -/
def SignedSound (pipeline : Pipeline) (key : String) (headers : HeaderMap) (verb : String)
    (path : Option (List Char)) : Prop :=
  ∀ admitted, admitRequest pipeline headers verb path = .ok admitted →
    match admitted.tenantId with
    | some tenant =>
      (∃ user, GuardUser pipeline headers verb path user ∧
        signedTenant (some user) = some tenant) ∧
      (headerTenant headers key = none ∨ headerTenant headers key = some tenant)
    | none => signedTenant admitted.user = none ∧
        pathMatches pipeline.tenantAnon (path.getD []) = true ∧ admitted.anonymous = true

/-- The request carries a token that verifies, as bearer or, failing this, in its session
cookie; `payload` is what was signed. -/
def OjAuth.Guard.Presents (guard : OjAuth.Guard) (headers : HeaderMap) (verb : String)
    (payload : Value) : Prop :=
  (∃ token, stripPrefix "Bearer ".toList
      ((headerText headers "authorization").getD "").toList = some token ∧
    guard.decode token = some payload ∧ (OjAuth.Claims.ofValue payload).isSome = true) ∨
  (∃ token user, guard.cookie.enabled = true ∧
    guard.verifyCookie verb (headerStrings headers) = .ok user ∧
    OjAuth.cookieValue (((headerStrings headers).lookup "cookie").getD "").toList
      guard.cookie.name = some token ∧
    guard.decode token = some payload)

/-- The token is signed for `tenant`, and the header, where one is sent, agrees. -/
def CarriesTenant (guard : OjAuth.Guard) (key : String) (headers : HeaderMap) (verb : String)
    (tenant : String) : Prop :=
  (∃ payload, guard.Presents headers verb payload ∧
    (payload.get "tenant").bind Value.asStr = some tenant) ∧
  (headerTenant headers key = none ∨ headerTenant headers key = some tenant)

/-- A request whose token is signed for a tenant is admitted with it. -/
def SignedUsable (pipeline : Pipeline) (guard : OjAuth.Guard) (key : String)
    (headers : HeaderMap) (verb : String) (path : Option (List Char)) : Prop :=
  ∀ tenant, CarriesTenant guard key headers verb tenant →
    ∃ admitted, admitRequest pipeline headers verb path = .ok admitted ∧
      admitted.tenantId = some tenant

variable {pipeline : Pipeline} {headers : HeaderMap} {verb key : String}
  {path : Option (List Char)}

theorem guardUser_of_authenticate {user : Value} {strings : Option HeaderStrings}
    (authenticated : authenticate pipeline headers verb path = .ok (some user, strings)) :
    GuardUser pipeline headers verb path user := by
  unfold authenticate at authenticated
  split at authenticated
  · rename_i guard below configured
    dsimp only at authenticated
    split at authenticated
    · cases authenticated
    · split at authenticated
      · rename_i answer verified
        cases authenticated
        exact ⟨guard, below, configured, rfl, verified⟩
      · cases authenticated
  · cases authenticated

theorem tenantOf_signed {user : Option Value} {answer : Option String × Bool}
    (headed : pipeline.tenantHeader = some key)
    (signed : pipeline.tenantRequireSignedClaim = true) :
    tenantOf pipeline headers user path = .ok answer ↔
      (∃ tenant, signedTenant user = some tenant ∧
        (headerTenant headers key = none ∨ headerTenant headers key = some tenant) ∧
        (some tenant, false) = answer) ∨
      signedTenant user = none ∧ headerTenant headers key = none ∧
        pathMatches pipeline.tenantAnon (path.getD []) = true ∧ (none, true) = answer := by
  simp only [tenantOf, headed, signed]
  cases sent : headerTenant headers key with
  | none =>
    cases claim : signedTenant user with
    | some tenant => simp
    | none =>
      by_cases exempt : pathMatches pipeline.tenantAnon (path.getD []) = true
      · simp [exempt]
      · simp [exempt]
  | some header =>
    cases claim : signedTenant user with
    | none => simp
    | some tenant =>
      by_cases same : header = tenant
      · simp [same]
      · simp [same]

/-- Admission with signed claims is sound for every guard. With the token guard a request
is served with its signed tenant exactly when it carries none. -/
theorem signed_tenant_law (headed : pipeline.tenantHeader = some key)
    (signed : pipeline.tenantRequireSignedClaim = true) :
    SignedSound pipeline key headers verb path ∧
      ∀ guard, pipeline.auth = some (OjAuth.Guard.adapter guard) →
        (SignedUsable pipeline guard key headers verb path ↔
          ∀ tenant, ¬ CarriesTenant guard key headers verb tenant) := by
  constructor
  · intro admitted passed
    obtain ⟨authenticated, tenant⟩ := admitRequest_ok.mp passed
    rcases (tenantOf_signed headed signed).mp tenant with
      ⟨claim, claimed, agrees, answer⟩ | ⟨unclaimed, _, exempt, answer⟩
    · obtain ⟨identified, _⟩ := Prod.mk.inj answer.symm
      rw [identified]
      refine ⟨?_, agrees⟩
      cases named : admitted.user with
      | none =>
        rw [named] at claimed
        cases claimed
      | some user =>
        rw [named] at authenticated claimed
        exact ⟨user, guardUser_of_authenticate authenticated, claimed⟩
    · obtain ⟨unidentified, anonymous⟩ := Prod.mk.inj answer.symm
      rw [unidentified]
      exact ⟨unclaimed, exempt, anonymous⟩
  · intro guard configured
    constructor
    · intro usable tenant carried
      obtain ⟨admitted, passed, identified⟩ := usable tenant carried
      obtain ⟨authenticated, tenanted⟩ := admitRequest_ok.mp passed
      have unclaimed : signedTenant admitted.user = none := by
        cases named : admitted.user with
        | none => rfl
        | some user =>
          rw [named] at authenticated
          obtain ⟨asked, below, same, _, verified⟩ := guardUser_of_authenticate authenticated
          rw [configured] at same
          cases same
          exact OjAuth.signedTenant_adapter verified
      rcases (tenantOf_signed headed signed).mp tenanted with
        ⟨claim, claimed, _⟩ | ⟨_, _, _, answer⟩
      · rw [unclaimed] at claimed
        cases claimed
      · rw [(Prod.mk.inj answer.symm).1] at identified
        cases identified
    · intro none_carried tenant carried
      exact absurd carried (none_carried tenant)

def acmePayload : Value :=
  .object [("sub", .string "u1"), ("roles", .array [.string "user"]), ("iat", .int 0),
    ("exp", .int 4102444800), ("tenant", .string "acme")]

def acmeGuard : OjAuth.Guard :=
  { decode := fun token => if token = "signed".toList then some acmePayload else none
    anon := []
    cookie :=
      { enabled := false
        name := "oj_sess".toList
        csrfCookie := "oj_csrf".toList
        csrfHeader := "x-csrf-token" } }

def signedPipeline : Pipeline :=
  { tenantHeader := some "x-tenant"
    tenantRequireSignedClaim := true
    tenantAnon := []
    authAnon := []
    auth := some acmeGuard.adapter
    blob := false }

def headerLine (name value : String) : String × List UInt8 :=
  (name, value.toList.map fun c => UInt8.ofNat c.toNat)

def bearer : HeaderMap := [headerLine "authorization" "Bearer signed"]

theorem signed_tenant_law_bearer :
    SignedSound signedPipeline "x-tenant" bearer "GET" (some "/orders".toList) ∧
      ∀ guard, signedPipeline.auth = some (OjAuth.Guard.adapter guard) →
        (SignedUsable signedPipeline guard "x-tenant" bearer "GET" (some "/orders".toList) ↔
          ∀ tenant, ¬ CarriesTenant guard "x-tenant" bearer "GET" tenant) :=
  signed_tenant_law rfl rfl

/-- The bearer's token verifies and is signed for a tenant, and the request is refused. -/
theorem signed_tenant_refused :
    CarriesTenant acmeGuard "x-tenant" bearer "GET" "acme" ∧
      admitRequest signedPipeline bearer "GET" (some "/orders".toList) = .error claimMissing ∧
      ¬ SignedUsable signedPipeline acmeGuard "x-tenant" bearer "GET"
        (some "/orders".toList) := by
  have carried : CarriesTenant acmeGuard "x-tenant" bearer "GET" "acme" := by
    have token : stripPrefix "Bearer ".toList
        ((headerText bearer "authorization").getD "").toList = some "signed".toList := by
      decide +kernel
    exact ⟨⟨acmePayload, .inl ⟨"signed".toList, token, rfl, rfl⟩, rfl⟩, .inl rfl⟩
  have refused : admitRequest signedPipeline bearer "GET" (some "/orders".toList) =
      .error claimMissing := by
    rfl
  refine ⟨carried, refused, fun usable => ?_⟩
  obtain ⟨admitted, passed, _⟩ := usable "acme" carried
  rw [refused] at passed
  cases passed

end OnlyJs.Serve
