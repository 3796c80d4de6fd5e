import OnlyJs.Bridge.DbPolicy.Classify

/-!
# Access control of a database alias

A caller is granted an alias by any one declared dimension of its allow list.
A granted call is then judged by its risk. The verdict binds at level `deny`, is
only logged at `warn`, and is not taken at all at `off`; the confirmation of
dangerous statements is asked for at every level.
-/

namespace OnlyJs.Bridge.DbPolicy

inductive Enforce where
  | off
  | warn
  | deny
deriving DecidableEq

inductive Reason where
  | notGranted
  | readOnly
  | ddlDenied
  | dangerousWrite
  | unknownRisk
deriving DecidableEq

def Reason.text : Reason → String
  | notGranted => "db_not_granted"
  | readOnly => "db_read_only"
  | ddlDenied => "db_ddl_denied"
  | dangerousWrite => "db_dangerous_write"
  | unknownRisk => "db_unknown_risk"

/-- An undeclared dimension is `none`; a declared empty one admits nobody. -/
structure AllowList where
  modules : Option (List String)
  roles : Option (List String)
  tenants : Option (List String)
  sources : Option (List String)
deriving DecidableEq

def AllowList.isUnrestricted (allow : AllowList) : Bool :=
  allow.modules.isNone && allow.roles.isNone && allow.tenants.isNone && allow.sources.isNone

inductive OnExceed where
  | fail
  | truncate
deriving DecidableEq

structure DbAccess where
  enforce : Enforce
  readOnly : Bool
  allowDdl : Bool
  allowDangerous : Bool
  maxRows : Option Nat
  statementTimeoutMs : Option Nat
  maxResultBytes : Option Nat
  onExceed : Option OnExceed
  dangerousConfirmToken : Option String
  allow : AllowList
deriving DecidableEq

def DbAccess.default : DbAccess where
  enforce := .off
  readOnly := false
  allowDdl := false
  allowDangerous := false
  maxRows := none
  statementTimeoutMs := none
  maxResultBytes := none
  onExceed := none
  dangerousConfirmToken := none
  allow := ⟨none, none, none, none⟩

structure AccessCtx where
  moduleName : Option String
  roles : List String
  tenant : Option String
  source : String
deriving DecidableEq

inductive Verdict where
  | allow
  | violation (reason : Reason)
deriving DecidableEq

def dimensionHit (declared : Option (List String)) (got : Option String) : Bool :=
  declared.any fun values => got.any values.contains

def granted (allow : AllowList) (ctx : AccessCtx) : Bool :=
  allow.isUnrestricted || dimensionHit allow.modules ctx.moduleName ||
    dimensionHit allow.tenants ctx.tenant ||
    (allow.roles.any fun declared => ctx.roles.any declared.contains) ||
    allow.sources.any fun declared => declared.contains ctx.source

def evaluate (policy : DbAccess) (ctx : AccessCtx) (c : Classified) : Verdict :=
  if granted policy.allow ctx then
    match c.risk with
    | .unknown => .violation .unknownRisk
    | .ddl =>
      if policy.readOnly then .violation .readOnly
      else if policy.allowDdl then .allow
      else .violation .ddlDenied
    | .write =>
      if policy.readOnly then .violation .readOnly
      else if c.dangerous && !policy.allowDangerous then .violation .dangerousWrite
      else .allow
    | .readOnly => .allow
    | .transaction => .allow
  else .violation .notGranted

inductive AccessError where
  | confirmationRequired (aliasName : String)
  | violation (aliasName : String) (reason : Reason)
deriving DecidableEq

def checkAccessIntent (aliasName : String) (policy : DbAccess) (ctx : AccessCtx)
    (c : Classified) : Except AccessError (Option Nat) :=
  if policy.enforce = .off then .ok policy.maxRows
  else
    match evaluate policy ctx c with
    | .allow => .ok policy.maxRows
    | .violation reason =>
      if policy.enforce = .warn then .ok policy.maxRows
      else .error (.violation aliasName reason)

/-- `confirm` is the request header that must repeat the configured token. -/
def dangerousConfirmGate (aliasName : String) (policy : DbAccess) (confirm : Option String)
    (c : Classified) : Except AccessError Unit :=
  if c.dangerous && policy.dangerousConfirmToken.isSome &&
      confirm != policy.dangerousConfirmToken then
    .error (.confirmationRequired aliasName)
  else .ok ()

def checkAccess (aliasName : String) (policy : DbAccess) (ctx : AccessCtx)
    (confirm : Option String) (sql : List Char) : Except AccessError (Option Nat) := do
  dangerousConfirmGate aliasName policy confirm (classify sql)
  checkAccessIntent aliasName policy ctx (classify sql)

end OnlyJs.Bridge.DbPolicy
