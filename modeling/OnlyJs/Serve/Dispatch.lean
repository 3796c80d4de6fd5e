import OnlyJs.Bridge.Value
import OnlyJs.Lib.Fallible
import OnlyJs.Serve.Paths

/-!
# Admission

What stands in front of every handler: the guard's word on the request, then the tenant
of the request. The guard is a plugin and is given by its answers.
-/

namespace OnlyJs.Serve

open Bridge (Value)
open Lib

abbrev HeaderMap := List (String × List UInt8)

def isVisible (b : UInt8) : Bool := (0x20 ≤ b && b < 0x7f) || b = 0x09

/-- A header value as text; a value with other than visible ASCII has none. -/
def toStr (value : List UInt8) : Option String :=
  if value.all isVisible then some (String.ofList (value.map fun b => Char.ofNat b.toNat))
  else none

def lowerAscii (text : String) : String := String.ofList (text.toList.map Char.toLower)

def headerText (headers : HeaderMap) (key : String) : Option String :=
  (headers.find? fun line => line.1 = lowerAscii key).bind fun line => toStr line.2

abbrev HeaderStrings := List (String × String)

def HeaderStrings.set (strings : HeaderStrings) (name value : String) : HeaderStrings :=
  strings.filter (fun entry => entry.1 != name) ++ [(name, value)]

def headerStrings (headers : HeaderMap) : HeaderStrings :=
  headers.foldl (fun strings line =>
    match toStr line.2 with
    | some value => strings.set line.1 value
    | none => strings) []

/-- `none` stands for a request the guard lets pass without a user. -/
structure AuthGuard where
  verify : List Char → String → Option String → Option HeaderStrings →
    Except String (Option Value)

structure Pipeline where
  tenantHeader : Option String
  tenantRequireSignedClaim : Bool
  tenantAnon : List (List Char)
  authAnon : List (List Char)
  auth : Option AuthGuard
  blob : Bool

structure Rejection where
  status : Nat
  message : String
deriving DecidableEq

structure Admitted where
  user : Option Value
  tenantId : Option String
  anonymous : Bool
  headers : Option HeaderStrings

def authenticate (pipeline : Pipeline) (headers : HeaderMap) (verb : String)
    (pathNoBase : Option (List Char)) :
    Except Rejection (Option Value × Option HeaderStrings) :=
  match pipeline.auth, pathNoBase with
  | some guard, some path =>
    let strings := headerStrings headers
    if pathMatches pipeline.authAnon path then .ok (none, some strings)
    else
      match guard.verify path verb (headerText headers "authorization") (some strings) with
      | .ok user => .ok (user, some strings)
      | .error message => .error { status := 401, message }
  | _, _ => .ok (none, none)

def signedTenant (user : Option Value) : Option String :=
  ((user.bind fun user => user.get "claims").bind fun claims => claims.get "tenant").bind
    Value.asStr

def headerTenant (headers : HeaderMap) (key : String) : Option String :=
  (headerText headers key).filter fun tenant => tenant ≠ ""

def claimMissing : Rejection :=
  { status := 403, message := "tenant requires a signed claim (user.claims.tenant missing)" }

def tenantOf (pipeline : Pipeline) (headers : HeaderMap) (user : Option Value)
    (pathNoBase : Option (List Char)) : Except Rejection (Option String × Bool) :=
  match pipeline.tenantHeader with
  | none => .ok (none, false)
  | some key =>
    let exempt := pathMatches pipeline.tenantAnon (pathNoBase.getD [])
    let sent := headerTenant headers key
    if pipeline.tenantRequireSignedClaim then
      match sent, signedTenant user with
      | some tenant, some claim =>
        if tenant ≠ claim then
          .error { status := 403, message := "tenant header does not match signed claim" }
        else .ok (some claim, false)
      | none, some claim => .ok (some claim, false)
      | some _, none => .error claimMissing
      | none, none => if exempt then .ok (none, true) else .error claimMissing
    else
      match sent with
      | some tenant => .ok (some tenant, false)
      | none =>
        if exempt then .ok (none, true)
        else .error { status := 400, message := "missing tenant header: " ++ key }

def admitRequest (pipeline : Pipeline) (headers : HeaderMap) (verb : String)
    (pathNoBase : Option (List Char)) : Except Rejection Admitted := do
  let (user, strings) ← authenticate pipeline headers verb pathNoBase
  let (tenantId, anonymous) ← tenantOf pipeline headers user pathNoBase
  .ok { user, tenantId, anonymous, headers := strings }

theorem admitRequest_ok {pipeline : Pipeline} {headers : HeaderMap} {verb : String}
    {pathNoBase : Option (List Char)} {admitted : Admitted} :
    admitRequest pipeline headers verb pathNoBase = .ok admitted ↔
      authenticate pipeline headers verb pathNoBase = .ok (admitted.user, admitted.headers) ∧
        tenantOf pipeline headers admitted.user pathNoBase =
          .ok (admitted.tenantId, admitted.anonymous) := by
  rw [admitRequest, Fallible.bind_ok]
  constructor
  · rintro ⟨⟨user, strings⟩, authenticated, continued⟩
    obtain ⟨⟨tenantId, anonymous⟩, tenant, finished⟩ := Fallible.bind_ok.mp continued
    cases finished
    exact ⟨authenticated, tenant⟩
  · rintro ⟨authenticated, tenant⟩
    exact ⟨_, authenticated, Fallible.bind_ok.mpr ⟨_, tenant, rfl⟩⟩

theorem authenticate_pathless (pipeline : Pipeline) (headers : HeaderMap) (verb : String) :
    authenticate pipeline headers verb none = .ok (none, none) := by
  unfold authenticate
  cases pipeline.auth <;> rfl

theorem authenticate_ok {pipeline : Pipeline} {guard : AuthGuard} {headers : HeaderMap}
    {verb : String} {path : List Char} (configured : pipeline.auth = some guard) :
    (∃ outcome, authenticate pipeline headers verb (some path) = .ok outcome) ↔
      pathMatches pipeline.authAnon path = true ∨
        ∃ user, guard.verify path verb (headerText headers "authorization")
          (some (headerStrings headers)) = .ok user := by
  simp only [authenticate, configured]
  by_cases anonymous : pathMatches pipeline.authAnon path = true
  · rw [if_pos anonymous]
    exact ⟨fun _ => .inl anonymous, fun _ => ⟨_, rfl⟩⟩
  · rw [if_neg anonymous]
    constructor
    · rintro ⟨outcome, passed⟩
      right
      cases answer : guard.verify path verb (headerText headers "authorization")
          (some (headerStrings headers)) with
      | ok user => exact ⟨user, rfl⟩
      | error message =>
        rw [answer] at passed
        cases passed
    · rintro (listed | ⟨user, passed⟩)
      · exact absurd listed anonymous
      · rw [passed]
        exact ⟨_, rfl⟩

end OnlyJs.Serve
