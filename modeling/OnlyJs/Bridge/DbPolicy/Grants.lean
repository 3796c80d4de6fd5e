import Mathlib.Data.Finmap
import OnlyJs.Bridge.DbPolicy.Access

/-!
# Policies of an alias and runtime grants

The policy of an alias is the configured baseline, refined for each alias key by
key. A runtime grant replaces it for an alias that was registered dynamically
and is not configured; for any other alias it only touches the allow list. The
two allow lists are merged dimension by dimension, while the access check reads
them as alternatives.
-/

namespace OnlyJs.Bridge.DbPolicy

structure DbAccessOverride where
  enforce : Option Enforce
  readOnly : Option Bool
  allowDdl : Option Bool
  allowDangerous : Option Bool
  maxRows : Option Nat
  statementTimeoutMs : Option Nat
  maxResultBytes : Option Nat
  onExceed : Option OnExceed
  allow : Option AllowList
deriving DecidableEq

def DbAccessOverride.default : DbAccessOverride where
  enforce := none
  readOnly := none
  allowDdl := none
  allowDangerous := none
  maxRows := none
  statementTimeoutMs := none
  maxResultBytes := none
  onExceed := none
  allow := none

def DbAccessOverride.merge (declared : DbAccessOverride) (base : DbAccess) : DbAccess where
  enforce := declared.enforce.getD base.enforce
  readOnly := declared.readOnly.getD base.readOnly
  allowDdl := declared.allowDdl.getD base.allowDdl
  allowDangerous := declared.allowDangerous.getD base.allowDangerous
  maxRows := declared.maxRows.or base.maxRows
  statementTimeoutMs := declared.statementTimeoutMs.or base.statementTimeoutMs
  maxResultBytes := declared.maxResultBytes.or base.maxResultBytes
  onExceed := declared.onExceed.or base.onExceed
  dangerousConfirmToken := base.dangerousConfirmToken
  allow := {
    modules := (declared.allow.bind (·.modules)).or base.allow.modules
    roles := (declared.allow.bind (·.roles)).or base.allow.roles
    tenants := (declared.allow.bind (·.tenants)).or base.allow.tenants
    sources := (declared.allow.bind (·.sources)).or base.allow.sources }

structure DbAccessSection where
  defaults : DbAccess
  byDb : Finmap fun _ : String => DbAccessOverride

def DbAccessSection.policyFor (access : DbAccessSection) (aliasName : String) : DbAccess :=
  match access.byDb.lookup aliasName with
  | some declared => declared.merge access.defaults
  | none => access.defaults

def mergeDimension : Option (List String) → Option (List String) → Option (List String)
  | some into, some values =>
    some (values.foldl
      (fun merged value => if merged.contains value then merged else merged ++ [value]) into)
  | into, _ => into

def AllowList.unionWith (allow other : AllowList) : AllowList where
  modules := mergeDimension allow.modules other.modules
  roles := mergeDimension allow.roles other.roles
  tenants := mergeDimension allow.tenants other.tenants
  sources := mergeDimension allow.sources other.sources

def denyAllAllow : AllowList where
  modules := some []
  roles := none
  tenants := none
  sources := none

/-- What the policy of an alias depends on: the dynamically registered aliases,
the configured section and the runtime grants. -/
structure PolicyState where
  clientDbs : Finset String
  dbAccess : DbAccessSection
  dbAccessRt : Finmap fun _ : String => DbAccess

def PolicyState.isDynamic (state : PolicyState) (aliasName : String) : Bool :=
  decide (aliasName ∈ state.clientDbs) && !decide (aliasName ∈ state.dbAccess.byDb)

def grantOn (policy entry : DbAccess) : DbAccess :=
  { policy with
    allow :=
      if policy.allow.isUnrestricted then entry.allow else policy.allow.unionWith entry.allow
    enforce := if policy.enforce = .off then .deny else policy.enforce }

def policyForState (state : PolicyState) (aliasName : String) : DbAccess :=
  match state.dbAccessRt.lookup aliasName with
  | some entry =>
    if state.isDynamic aliasName then entry
    else grantOn (state.dbAccess.policyFor aliasName) entry
  | none =>
    if state.isDynamic aliasName then
      { state.dbAccess.policyFor aliasName with enforce := .deny, allow := denyAllAllow }
    else state.dbAccess.policyFor aliasName

inductive Dimension where
  | modules
  | roles
  | tenants
  | sources
deriving DecidableEq

def AllowList.declared (allow : AllowList) : Dimension → Option (List String)
  | .modules => allow.modules
  | .roles => allow.roles
  | .tenants => allow.tenants
  | .sources => allow.sources

def AccessCtx.presents (ctx : AccessCtx) : Dimension → List String
  | .modules => ctx.moduleName.toList
  | .roles => ctx.roles
  | .tenants => ctx.tenant.toList
  | .sources => [ctx.source]

/-- The allow list declares this dimension and the caller matches it. -/
def AdmitsBy (allow : AllowList) (ctx : AccessCtx) (dimension : Dimension) : Prop :=
  ∃ values, allow.declared dimension = some values ∧ ∃ value ∈ ctx.presents dimension,
    value ∈ values

variable (allow other : AllowList)

theorem declared_unionWith (dimension : Dimension) :
    (allow.unionWith other).declared dimension =
      mergeDimension (allow.declared dimension) (other.declared dimension) := by
  cases dimension <;> rfl

theorem dimensionHit_iff (declared : Option (List String)) (got : Option String) :
    dimensionHit declared got = true ↔
      ∃ values, declared = some values ∧ ∃ value ∈ got.toList, value ∈ values := by
  cases declared with
  | none => simp [dimensionHit]
  | some values => cases got <;> simp [dimensionHit]

variable (ctx : AccessCtx)

theorem granted_iff :
    granted allow ctx = true ↔
      allow.isUnrestricted = true ∨ ∃ dimension, AdmitsBy allow ctx dimension := by
  have byRole : (allow.roles.any fun declared => ctx.roles.any declared.contains) = true ↔
      AdmitsBy allow ctx .roles := by
    cases declared : allow.roles <;> simp [AdmitsBy, AllowList.declared,
      AccessCtx.presents, declared]
  have bySource : (allow.sources.any fun declared => declared.contains ctx.source) = true ↔
      AdmitsBy allow ctx .sources := by
    cases declared : allow.sources <;>
      simp [AdmitsBy, AllowList.declared, AccessCtx.presents, declared]
  have byModule : dimensionHit allow.modules ctx.moduleName = true ↔ AdmitsBy allow ctx .modules :=
    dimensionHit_iff allow.modules ctx.moduleName
  have byTenant : dimensionHit allow.tenants ctx.tenant = true ↔ AdmitsBy allow ctx .tenants :=
    dimensionHit_iff allow.tenants ctx.tenant
  simp only [granted, Bool.or_eq_true, byModule, byTenant, byRole, bySource]
  constructor
  · rintro ((((unrestricted | admitted) | admitted) | admitted) | admitted)
    · exact .inl unrestricted
    · exact .inr ⟨.modules, admitted⟩
    · exact .inr ⟨.tenants, admitted⟩
    · exact .inr ⟨.roles, admitted⟩
    · exact .inr ⟨.sources, admitted⟩
  · rintro (unrestricted | ⟨dimension, admitted⟩)
    · simp [unrestricted]
    · cases dimension <;> simp [admitted]

theorem mem_mergeValues (into values : List String) (value : String) :
    value ∈ values.foldl
        (fun merged next => if merged.contains next then merged else merged ++ [next]) into ↔
      value ∈ into ∨ value ∈ values := by
  induction values generalizing into with
  | nil => simp
  | cons next rest ih =>
    rw [List.foldl_cons, ih]
    by_cases known : into.contains next = true
    · have present : next ∈ into := List.contains_iff_mem.mp known
      rw [if_pos known, List.mem_cons]
      constructor
      · rintro (found | found)
        · exact .inl found
        · exact .inr (.inr found)
      · rintro (found | rfl | found)
        · exact .inl found
        · exact .inl present
        · exact .inr found
    · rw [if_neg known, List.mem_append, List.mem_singleton, List.mem_cons]
      exact or_assoc

theorem admitsBy_unionWith (dimension : Dimension) :
    AdmitsBy (allow.unionWith other) ctx dimension ↔
      AdmitsBy allow ctx dimension ∨
        (allow.declared dimension).isSome = true ∧ AdmitsBy other ctx dimension := by
  simp only [AdmitsBy, declared_unionWith]
  cases own : allow.declared dimension with
  | none => simp [mergeDimension]
  | some into =>
    cases granting : other.declared dimension with
    | none => simp [mergeDimension]
    | some values =>
      simp only [mergeDimension, Option.some.injEq, exists_eq_left', mem_mergeValues,
        Option.isSome_some, true_and]
      constructor
      · rintro ⟨value, presented, found | found⟩
        · exact .inl ⟨value, presented, found⟩
        · exact .inr ⟨value, presented, found⟩
      · rintro (⟨value, presented, found⟩ | ⟨value, presented, found⟩)
        · exact ⟨value, presented, .inl found⟩
        · exact ⟨value, presented, .inr found⟩

theorem isUnrestricted_unionWith :
    (allow.unionWith other).isUnrestricted = allow.isUnrestricted := by
  have undeclared : ∀ first second : Option (List String),
      (mergeDimension first second).isNone = first.isNone := by
    intro first second
    cases first <;> cases second <;> rfl
  simp only [AllowList.isUnrestricted, AllowList.unionWith, undeclared]

theorem granted_unionWith (restricted : allow.isUnrestricted = false) :
    granted (allow.unionWith other) ctx = true ↔
      granted allow ctx = true ∨
        ∃ dimension, (allow.declared dimension).isSome = true ∧ AdmitsBy other ctx dimension := by
  rw [granted_iff, granted_iff, isUnrestricted_unionWith, restricted]
  simp only [Bool.false_eq_true, false_or, admitsBy_unionWith, exists_or]

/-- The bits of a policy that a grant must leave alone. -/
def SameSecurityBits (policy config : DbAccess) : Prop :=
  policy.readOnly = config.readOnly ∧ policy.allowDdl = config.allowDdl ∧
    policy.allowDangerous = config.allowDangerous ∧ policy.maxRows = config.maxRows ∧
      policy.statementTimeoutMs = config.statementTimeoutMs ∧
        policy.dangerousConfirmToken = config.dangerousConfirmToken

/-- A grant is effective for a caller when the policy in force admits the caller
by the configured allow list or by the granted one, and by nothing else. -/
def GrantEffective (config entry policy : DbAccess) (ctx : AccessCtx) : Prop :=
  granted policy.allow ctx = true ↔
    granted config.allow ctx = true ∨ granted entry.allow ctx = true

theorem policyForState_static (state : PolicyState) (aliasName : String) (entry : DbAccess)
    (configured : state.isDynamic aliasName = false)
    (issued : state.dbAccessRt.lookup aliasName = some entry) :
    policyForState state aliasName = grantOn (state.dbAccess.policyFor aliasName) entry := by
  simp only [policyForState, issued, configured, Bool.false_eq_true, if_false]

theorem grantOn_security (policy entry : DbAccess) :
    SameSecurityBits (grantOn policy entry) policy :=
  ⟨rfl, rfl, rfl, rfl, rfl, rfl⟩

/-- The security bits always stay those of the configuration. The grant is
effective for a caller exactly when the configuration admits the caller already,
the grant does not, or the caller matches the grant in a dimension that the
configured allow list declares too. -/
theorem grant_effective_iff (state : PolicyState) (aliasName : String) (entry : DbAccess)
    (ctx : AccessCtx) (configured : state.isDynamic aliasName = false)
    (issued : state.dbAccessRt.lookup aliasName = some entry)
    (restricted : (state.dbAccess.policyFor aliasName).allow.isUnrestricted = false)
    (restricting : entry.allow.isUnrestricted = false) :
    SameSecurityBits (policyForState state aliasName) (state.dbAccess.policyFor aliasName) ∧
      (GrantEffective (state.dbAccess.policyFor aliasName) entry
          (policyForState state aliasName) ctx ↔
        granted (state.dbAccess.policyFor aliasName).allow ctx = true ∨
          granted entry.allow ctx = false ∨
            ∃ dimension,
              ((state.dbAccess.policyFor aliasName).allow.declared dimension).isSome = true ∧
                AdmitsBy entry.allow ctx dimension) := by
  rw [policyForState_static state aliasName entry configured issued]
  refine ⟨grantOn_security _ _, ?_⟩
  have merged := granted_unionWith (state.dbAccess.policyFor aliasName).allow entry.allow ctx
    restricted
  have byGrant := granted_iff entry.allow ctx
  simp only [restricting, Bool.false_eq_true, false_or] at byGrant
  simp only [GrantEffective, grantOn, restricted, Bool.false_eq_true, if_false]
  rw [merged, ← Bool.not_eq_true]
  constructor
  · intro effective
    by_cases admitted : granted entry.allow ctx = true
    · rcases effective.mpr (.inr admitted) with configAdmits | shared
      · exact .inl configAdmits
      · exact .inr (.inr shared)
    · exact .inr (.inl admitted)
  · rintro (configAdmits | refused | ⟨dimension, declared, matched⟩)
    · exact ⟨fun _ => .inl configAdmits, fun _ => .inl configAdmits⟩
    · constructor
      · rintro (configAdmits | ⟨dimension, -, matched⟩)
        · exact .inl configAdmits
        · exact absurd (byGrant.mpr ⟨dimension, matched⟩) refused
      · rintro (configAdmits | admitted)
        · exact .inl configAdmits
        · exact absurd admitted refused
    · exact ⟨fun _ => .inr (byGrant.mpr ⟨dimension, matched⟩),
        fun _ => .inr ⟨dimension, declared, matched⟩⟩

def adminsThenTenant : PolicyState where
  clientDbs := ∅
  dbAccess := {
    defaults := { DbAccess.default with enforce := .deny }
    byDb := Finmap.singleton "main"
      { DbAccessOverride.default with allow := some ⟨none, some ["admin"], none, none⟩ } }
  dbAccessRt := Finmap.singleton "main" tenantGrant
where
  tenantGrant : DbAccess :=
    { DbAccess.default with enforce := .deny, readOnly := true, allow := ⟨none, none, some ["t1"], none⟩ }

def tenantCaller : AccessCtx where
  moduleName := none
  roles := []
  tenant := some "t1"
  source := "http"

theorem grant_not_effective :
    adminsThenTenant.isDynamic "main" = false ∧
      adminsThenTenant.dbAccessRt.lookup "main" = some adminsThenTenant.tenantGrant ∧
      (adminsThenTenant.dbAccess.policyFor "main").allow.isUnrestricted = false ∧
      adminsThenTenant.tenantGrant.allow.isUnrestricted = false ∧
      ¬ GrantEffective (adminsThenTenant.dbAccess.policyFor "main") adminsThenTenant.tenantGrant
        (policyForState adminsThenTenant "main") tenantCaller := by
  refine ⟨by decide, by decide, by decide, by decide, ?_⟩
  intro effective
  have admitted : granted (policyForState adminsThenTenant "main").allow tenantCaller = true :=
    effective.mpr (.inr (by decide))
  exact absurd admitted (by decide)

theorem grant_effective_iff_admins :
    SameSecurityBits (policyForState adminsThenTenant "main")
        (adminsThenTenant.dbAccess.policyFor "main") ∧
      (GrantEffective (adminsThenTenant.dbAccess.policyFor "main") adminsThenTenant.tenantGrant
          (policyForState adminsThenTenant "main") tenantCaller ↔
        granted (adminsThenTenant.dbAccess.policyFor "main").allow tenantCaller = true ∨
          granted adminsThenTenant.tenantGrant.allow tenantCaller = false ∨
            ∃ dimension,
              ((adminsThenTenant.dbAccess.policyFor "main").allow.declared dimension).isSome =
                true ∧ AdmitsBy adminsThenTenant.tenantGrant.allow tenantCaller dimension) :=
  grant_effective_iff adminsThenTenant "main" adminsThenTenant.tenantGrant tenantCaller
    (by decide) (by decide) (by decide) (by decide)

end OnlyJs.Bridge.DbPolicy
