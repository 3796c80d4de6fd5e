import OnlyJs.Lib.Text
import OnlyJs.Serve.Dispatch

/-!
# The token guard

The guard plugin that checks a signed token, from the `Authorization` header or from the
session cookie, and the adapter the host calls it through. Which payload a token is signed
for, and that it has not expired, is the token library's word.
-/

namespace OnlyJs.Serve.OjAuth

open Bridge (Value)
open Lib

structure Claims where
  sub : String
  roles : List String
  iat : Nat
  exp : Nat
deriving DecidableEq

def asU64 : Value → Option Nat
  | .int number => if 0 ≤ number ∧ number < 2 ^ 64 then some number.toNat else none
  | _ => none

def asStrings : Value → Option (List String)
  | .array items => items.mapM Value.asStr
  | _ => none

def Claims.ofValue (payload : Value) : Option Claims := do
  let sub ← (payload.get "sub").bind Value.asStr
  let roles ← (payload.get "roles").bind asStrings
  let iat ← (payload.get "iat").bind asU64
  let exp ← (payload.get "exp").bind asU64
  return { sub, roles, iat, exp }

def strings (texts : List String) : Value := .array (texts.map Value.string)

def Claims.toValue (claims : Claims) : Value :=
  .object [("sub", .string claims.sub), ("roles", strings claims.roles),
    ("iat", .int claims.iat), ("exp", .int claims.exp)]

structure CookieCfg where
  enabled : Bool
  name : List Char
  csrfCookie : List Char
  csrfHeader : String

structure Guard where
  /-- The payload of a token whose signature and expiry check. -/
  decode : List Char → Option Value
  anon : List (List Char)
  cookie : CookieCfg

inductive CookieErr where
  | session
  | csrf (message : String)

def badToken : String := "missing or invalid bearer token"

def badCsrf : CookieErr := .csrf "missing or invalid csrf token"

def userOf (claims : Claims) : Value :=
  .object [("id", .string claims.sub), ("roles", strings claims.roles), ("claims", claims.toValue)]

def Guard.verifyJwt (guard : Guard) (token : List Char) : Except String Value :=
  match (guard.decode token).bind Claims.ofValue with
  | some claims => .ok (userOf claims)
  | none => .error badToken

def Guard.verifyBearer (guard : Guard) (authorization : String) : Except String Value :=
  match stripPrefix "Bearer ".toList authorization.toList with
  | some token => guard.verifyJwt token
  | none => .error badToken

def trimSpace (text : List Char) : List Char :=
  (Text.trimStart text).rdropWhile Text.isWhitespace

def cookieValue (cookies name : List Char) : Option (List Char) :=
  (cookies.splitOn ';').findSome? fun pair =>
    match pair.dropWhile (· != '=') with
    | [] => none
    | _ :: value =>
      if trimSpace (pair.takeWhile (· != '=')) = name then some (trimSpace value) else none

def isSafe (method : String) : Bool := method = "GET" || method = "HEAD" || method = "OPTIONS"

def Guard.verifyCookie (guard : Guard) (method : String) (headers : HeaderStrings) :
    Except CookieErr Value := do
  let cookies := ((headers.lookup "cookie").getD "").toList
  let session ← (cookieValue cookies guard.cookie.name).elim (.error .session) .ok
  let user ← (guard.verifyJwt session).mapError fun _ => .session
  if isSafe method then return user
  else
    let want ← (cookieValue cookies guard.cookie.csrfCookie).elim (.error badCsrf) .ok
    let got ← (headers.find? fun entry =>
      lowerAscii entry.1 = lowerAscii guard.cookie.csrfHeader).elim (.error badCsrf) .ok
    if want = got.2.toList then return user else throw badCsrf

def Guard.isAnonymous (guard : Guard) (path : List Char) : Bool := pathMatches guard.anon path

def Guard.verify (guard : Guard) (path : List Char) (method authorization : String)
    (headers : HeaderStrings) : Except String Value :=
  if guard.isAnonymous path then .ok .null
  else
    match guard.verifyBearer authorization with
    | .ok user => .ok user
    | .error _ =>
      if guard.cookie.enabled then
        match guard.verifyCookie method headers with
        | .ok user => .ok user
        | .error (.csrf message) => .error message
        | .error .session => .error badToken
      else .error badToken

/-- The guard as the host calls it: `null` lets the request pass without a user. -/
def Guard.adapter (guard : Guard) : AuthGuard where
  verify path method authorization headers :=
    match guard.verify path method (authorization.getD "") (headers.getD []) with
    | .ok .null => .ok none
    | .ok (.object fields) => .ok (some (.object fields))
    | .ok _ => .error "auth plugin returned non-object user"
    | .error message => .error message

variable {guard : Guard}

variable {user : Value}

theorem user_of_verifyJwt {token : List Char} (verified : guard.verifyJwt token = .ok user) :
    ∃ claims, user = userOf claims := by
  rw [Guard.verifyJwt] at verified
  split at verified
  · exact ⟨_, (Except.ok.inj verified).symm⟩
  · cases verified

variable {method : String}

variable {headers : HeaderStrings}

theorem user_of_verifyCookie (verified : guard.verifyCookie method headers = .ok user) :
    ∃ claims, user = userOf claims := by
  obtain ⟨session, _, verified⟩ := Fallible.bind_ok.mp verified
  obtain ⟨signed, decoded, verified⟩ := Fallible.bind_ok.mp verified
  have shape := user_of_verifyJwt (Fallible.map_error_ok.mp decoded)
  split at verified
  · cases verified
    exact shape
  · obtain ⟨want, _, verified⟩ := Fallible.bind_ok.mp verified
    obtain ⟨got, _, verified⟩ := Fallible.bind_ok.mp verified
    split at verified
    · cases verified
      exact shape
    · cases verified

theorem user_of_verify {path : List Char} {authorization : String}
    (verified : guard.verify path method authorization headers = .ok user) :
    user = .null ∨ ∃ claims, user = userOf claims := by
  rw [Guard.verify] at verified
  split at verified
  · exact .inl (Except.ok.inj verified).symm
  · right
    split at verified
    · rename_i signed bearer
      rw [← Except.ok.inj verified]
      rw [Guard.verifyBearer] at bearer
      split at bearer
      · exact user_of_verifyJwt bearer
      · cases bearer
    · split at verified
      · split at verified
        · rename_i signed cookie
          rw [← Except.ok.inj verified]
          exact user_of_verifyCookie cookie
        · cases verified
        · cases verified
      · cases verified

theorem signedTenant_adapter {path : List Char} {authorization : Option String}
    {headers : Option HeaderStrings} {user : Option Value}
    (verified : guard.adapter.verify path method authorization headers = .ok user) :
    signedTenant user = none := by
  simp only [Guard.adapter] at verified
  split at verified
  · cases verified
    rfl
  · rename_i fields passed
    cases verified
    rcases user_of_verify passed with absurd | ⟨claims, shape⟩
    · cases absurd
    · rw [shape]
      rfl
  · cases verified
  · cases verified

end OnlyJs.Serve.OjAuth
