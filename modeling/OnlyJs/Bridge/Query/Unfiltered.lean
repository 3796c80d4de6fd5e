import OnlyJs.Bridge.DbPolicy.Unfiltered
import OnlyJs.Bridge.Query.Tenant
import OnlyJs.Bridge.Query.Verb

/-!
# Requests without a condition

An update or a delete without a condition is refused when its statement is built. The
condition that binds it to the tenant is added before, and the check counts it as one.
-/

namespace OnlyJs.Bridge.Query

open Bridge.Guard Lib.Fallible
open Bridge.DbPolicy (UnfilteredMarked InnerWhereApart unfiltered_marked_iff)

inductive BuildFault where
  | invalid (message : String)
  | tenant (fault : TenantFault)

def prepare (context : TenantContext) (req : QueryReq) : Except BuildFault QueryReq := do
  (validateTruncate req).mapError .invalid
  let req ← (applyTenantGuard context req).mapError .tenant
  (validateVerb req).mapError .invalid
  .ok req

/-- The caller gave no condition and does not truncate. -/
structure WithoutCondition (req : QueryReq) : Prop where
  verb : req.verb = .update ∨ req.verb = .delete
  conditions : req.conditions = []
  truncate : req.truncate = false

/-- What an update or a delete must be otherwise. -/
structure Changes (req : QueryReq) : Prop where
  asName : req.table.asName = none
  joins : req.joins = []
  columns : req.columns = []
  returning : req.returning = []
  distinct : req.distinct = false
  groupBy : req.groupBy = []
  having : req.having = none
  unions : req.unions = []
  ctes : req.ctes = []
  sets : req.verb = .update → req.sets ≠ []
  orIgnore : req.orIgnore = false
  fromSelect : req.fromSelect = none
  insertCols : req.insertCols = []
  limit : req.limit = none
  offset : req.offset = none

/-- The request is bound to a tenant by a condition, and nothing else is wrong with it. -/
structure TenantBound (context : TenantContext) (req : QueryReq) : Prop where
  guard : context.guard ≠ .off
  user : context.system = false
  tenanted : isScoped context.registry req.ctes req.table.name = true
  tenant : ∃ tid, context.tenantId = some tid ∧
    (∃ leaf, tenantLeaf context.registry tid req.table = .ok leaf) ∧
    guardSets context.registry (some tid) req = .ok ()
  changes : Changes req

section Checks

theorem change_ok_iff (req : QueryReq) (verb : req.verb = .update ∨ req.verb = .delete)
    (kept : req.truncate = false) :
    validateVerb req = .ok () ↔ Changes req ∧ req.conditions ≠ [] := by
  have dispatched : validateVerb req =
      (reject (req.table.asName.isSome && req.verb ≠ .select)
        "table alias is not supported on insert/update/delete").bind fun _ =>
          validateChange req := by
    rcases verb with same | same <;> rw [validateVerb, same]
  have apart : req.verb ≠ .select := by
    rcases verb with same | same <;> rw [same] <;> decide
  have first : validateVerb req = .ok () ↔
      req.table.asName = none ∧ validateChange req = .ok () := by
    rw [dispatched]
    cases named : req.table.asName with
    | none => simp [reject, Except.bind]
    | some name => simp [reject, Except.bind, apart]
  rw [first, validateChange, check_all_ok_iff]
  simp only [List.forall_mem_cons, List.not_mem_nil, false_imp_iff, implies_true, and_true,
    accepts_ok_iff, reject_ok, lacksWhere, kept, Bool.false_and, Bool.not_false,
    Bool.not_eq_eq_eq_not, Bool.and_true, List.isEmpty_iff, Option.isSome_eq_false_iff,
    Option.isNone_iff_eq_none, Bool.or_eq_false_iff, Bool.and_eq_false_imp, true_and,
    decide_eq_true_eq, List.isEmpty_eq_false_iff]
  constructor
  · rintro ⟨asName, joins, columns, returning, distinct, groupBy, having, unions, ctes, sets,
      orIgnore, ⟨fromSelect, insertCols⟩, conditions, limit, offset⟩
    exact ⟨⟨asName, joins, columns, returning, distinct, groupBy, having, unions, ctes, sets,
      orIgnore, fromSelect, insertCols, limit, offset⟩, conditions⟩
  · rintro ⟨⟨asName, joins, columns, returning, distinct, groupBy, having, unions, ctes, sets,
      orIgnore, fromSelect, insertCols, limit, offset⟩, conditions⟩
    exact ⟨asName, joins, columns, returning, distinct, groupBy, having, unions, ctes, sets,
      orIgnore, ⟨fromSelect, insertCols⟩, conditions, limit, offset⟩

end Checks

section Tenant

variable {context : TenantContext} {req : QueryReq}

theorem columns_none {columns : List ColSpec}
    (none_ : applyTenantColumns context columns = .ok []) : columns = [] := by
  cases columns with
  | nil => rfl
  | cons column rest =>
    cases column with
    | case arms otherwise asName =>
      obtain ⟨_, _, later⟩ := bind_ok.mp none_
      obtain ⟨_, _, same⟩ := bind_ok.mp later
      cases same
    | name | star | lit | agg | window =>
      rw [applyTenantColumns] at none_
      · obtain ⟨_, _, same⟩ := bind_ok.mp none_
        cases same
      · nofun

theorem unions_none {unions : List UnionArm}
    (none_ : applyTenantUnions context unions = .ok []) : unions = [] := by
  cases unions with
  | nil => rfl
  | cons arm rest =>
    obtain ⟨kind, query⟩ := arm
    obtain ⟨_, _, later⟩ := bind_ok.mp none_
    obtain ⟨_, _, same⟩ := bind_ok.mp later
    cases same

theorem ctes_none {ctes : List CteReq} (none_ : applyTenantCtes context ctes = .ok []) :
    ctes = [] := by
  cases ctes with
  | nil => rfl
  | cons cte rest =>
    obtain ⟨name, columns, query⟩ := cte
    obtain ⟨_, _, later⟩ := bind_ok.mp none_
    obtain ⟨_, _, same⟩ := bind_ok.mp later
    cases same

theorem having_none {having : Option CondTree}
    (none_ : applyTenantHaving context having = .ok none) : having = none := by
  cases having with
  | none => rfl
  | some tree =>
    rw [applyTenantHaving] at none_
    cases found : applyTenantTree context tree with
    | error fault | ok _ =>
      rw [found] at none_
      cases none_

theorem source_none {source : Option QueryReq}
    (none_ : applyTenantSource context source = .ok none) : source = none := by
  cases source with
  | none => rfl
  | some query =>
    rw [applyTenantSource] at none_
    cases found : applyTenant context query with
    | error fault | ok _ =>
      rw [found] at none_
      cases none_

end Tenant

section Gate

variable {context : TenantContext} {req : QueryReq}

theorem changes_before {level : Level} {conditions : List CondTree} {having : Option CondTree}
    {columns : List ColSpec} {unions : List UnionArm} {ctes : List CteReq}
    {source : Option QueryReq} (changes : Changes (req.bound level conditions having columns unions
      ctes source))
    (joins : level.joins = [] → req.joins = []) (cols : level.insertCols = req.insertCols)
    (second : applyTenantHaving context req.having = .ok having)
    (third : applyTenantColumns context req.columns = .ok columns)
    (fourth : applyTenantUnions context req.unions = .ok unions)
    (fifth : applyTenantCtes context req.ctes = .ok ctes)
    (sixth : applyTenantSource context req.fromSelect = .ok source) : Changes req where
  asName := changes.asName
  joins := joins changes.joins
  columns := by
    have none_ : columns = [] := changes.columns
    rw [none_] at third
    exact columns_none third
  returning := changes.returning
  distinct := changes.distinct
  groupBy := changes.groupBy
  having := by
    have none_ : having = none := changes.having
    rw [none_] at second
    exact having_none second
  unions := by
    have none_ : unions = [] := changes.unions
    rw [none_] at fourth
    exact unions_none fourth
  ctes := by
    have none_ : ctes = [] := changes.ctes
    rw [none_] at fifth
    exact ctes_none fifth
  sets := changes.sets
  orIgnore := changes.orIgnore
  fromSelect := by
    have none_ : source = none := Option.map_eq_none_iff.mp changes.fromSelect
    rw [none_] at sixth
    exact source_none sixth
  insertCols := cols.symm.trans changes.insertCols
  limit := changes.limit
  offset := changes.offset

theorem prepared_bound (without : WithoutCondition req) {out : QueryReq}
    (prepared : prepare context req = .ok out) : TenantBound context req := by
  obtain ⟨_, -, prepared⟩ := bind_ok.mp prepared
  obtain ⟨mid, applied, prepared⟩ := bind_ok.mp prepared
  obtain ⟨_, accepted, -⟩ := bind_ok.mp prepared
  have applied := map_error_ok.mp applied
  have accepted := map_error_ok.mp accepted
  rw [applyTenantGuard] at applied
  split at applied
  · cases applied
    exact absurd without.conditions
      ((change_ok_iff req without.verb without.truncate).mp accepted).2
  · rename_i armed
    rw [not_or] at armed
    obtain ⟨level, conditions, having, columns, unions, ctes, source, bound, first, second, third,
      fourth, fifth, sixth, rfl⟩ := apply_parts applied
    obtain ⟨changes, some_⟩ := (change_ok_iff (req.bound level conditions having columns unions
      ctes source) without.verb without.truncate).mp accepted
    rw [without.conditions] at first
    cases first
    have verb : req.verb ≠ .insert := by
      rcases without.verb with same | same <;> rw [same] <;> decide
    rcases protect_bound verb bound with ⟨same, _⟩ | ⟨reached, tid, leaf, joins, tenant, found,
      sets, joined, same⟩
    · rw [same] at some_
      exact absurd rfl some_
    · have left : level.joins = [] → req.joins = [] := by
        intro none_
        rw [same] at none_
        have none_ : joins = [] := none_
        rw [none_] at joined
        exact List.forall₂_nil_right_iff.mp (mapM_ok.mp joined)
      have before := changes_before changes left (congrArg Level.insertCols same) second third
        fourth fifth sixth
      refine ⟨armed.1, Bool.not_eq_true _ |>.mp armed.2, ?_, ⟨tid, tenant, ⟨leaf, found⟩, sets⟩,
        before⟩
      rw [touched, before.joins] at reached
      by_contra unscoped
      rw [if_neg unscoped] at reached
      exact reached rfl

/-- A condition that binds the request to its tenant is a condition to the check. -/
theorem bound_prepared (without : WithoutCondition req) (bound : TenantBound context req) :
    ∃ out, prepare context req = .ok out := by
  obtain ⟨tid, tenant, ⟨leaf, found⟩, sets⟩ := bound.tenant
  have changes := bound.changes
  have reached : (touched context.registry req).isEmpty = false := by
    rw [touched, if_pos bound.tenanted]
    rfl
  have injected : inject context.registry tid req =
      .ok { Level.unchanged req with leaf := some leaf } := by
    rcases without.verb with same | same <;> rw [inject, same, found] <;> rfl
  have joined : req.joins.mapM (bindJoin context.registry req.ctes tid) = .ok [] := by
    rw [changes.joins]
    rfl
  have leveled : protect context req =
      .ok (Level.bound req leaf []) := by
    rw [protect, reached, tenant]
    change (inject context.registry tid req >>= _) = _
    rw [injected]
    rw [sets]
    change (req.joins.mapM (bindJoin context.registry req.ctes tid) >>= _) = _
    rw [joined]
    rfl
  have applied : applyTenantGuard context req =
      .ok (req.bound (Level.bound req leaf []) [] none [] [] [] none) := by
    have armed : ¬ (context.guard = .off ∨ context.system = true) := by
      rw [bound.user]
      exact not_or.mpr ⟨bound.guard, Bool.false_ne_true⟩
    rw [applyTenantGuard, if_neg armed]
    obtain ⟨⟩ := req
    cases without.conditions
    cases changes.having
    cases changes.columns
    cases changes.unions
    cases changes.ctes
    cases changes.fromSelect
    rw [applyTenant, leveled]
    rfl
  have accepted : validateVerb (req.bound (Level.bound req leaf []) [] none [] [] [] none) =
      .ok () := by
    apply (change_ok_iff (req.bound (Level.bound req leaf []) [] none [] [] [] none) without.verb
      without.truncate).mpr
    exact ⟨⟨changes.asName, rfl, rfl, changes.returning, changes.distinct, changes.groupBy, rfl,
      rfl, rfl, changes.sets, changes.orIgnore, rfl, changes.insertCols, changes.limit,
      changes.offset⟩, List.cons_ne_nil _ _⟩
  have untruncated : validateTruncate req = .ok () := by
    rw [validateTruncate, without.truncate]
    rfl
  refine ⟨req.bound (Level.bound req leaf []) [] none [] [] [] none, ?_⟩
  rw [prepare, untruncated, applied]
  change ((validateVerb _).mapError BuildFault.invalid >>= _) = _
  rw [accepted]
  rfl

/-- A request without a condition is refused. -/
def UnfilteredRefused (context : TenantContext) (req : QueryReq) : Prop :=
  WithoutCondition req → ∀ out, prepare context req ≠ .ok out

/-- Text and requests alike: an unfiltered change is caught exactly when no inner `WHERE` is
taken for one of its own, and when no condition of the tenant is added to it. -/
theorem unfiltered_caught_iff (sql : List Char) (context : TenantContext) (req : QueryReq) :
    (UnfilteredMarked sql ↔ InnerWhereApart sql) ∧
      (UnfilteredRefused context req ↔ (WithoutCondition req → ¬ TenantBound context req)) := by
  refine ⟨unfiltered_marked_iff sql, ?_⟩
  constructor
  · intro refused without bound
    obtain ⟨out, prepared⟩ := bound_prepared without bound
    exact refused without out prepared
  · intro unbound without out prepared
    exact unbound without (prepared_bound without prepared)

/-- A table `orders` with a tenant column, and a caller of tenant `a`. -/
def ordersContext : TenantContext where
  guard := .deny
  tenantId := some "a"
  system := false
  registry := ⟨Finmap.singleton "orders"
    ⟨Finmap.singleton "tenant_id" ⟨true, .text⟩, ["id"], false⟩⟩

/-- A `WHERE` of a sub-select makes an update of all rows harmless, and the condition of the
tenant lets a delete of all rows pass. -/
theorem inner_where_uncaught :
    ¬ UnfilteredMarked "UPDATE t SET a=(SELECT b FROM u WHERE c=1)".toList ∧
      ¬ UnfilteredRefused ordersContext (QueryReq.plain .delete "orders") := by
  constructor
  · intro marked
    have scanned : DbPolicy.statements "UPDATE t SET a=(SELECT b FROM u WHERE c=1)".toList =
        some [["UPDATE", "T", "SET", "A", "SELECT", "B", "FROM", "U", "WHERE", "C", "1"]] := by
      decide +kernel
    have inner : DbPolicy.ownWhere 0 (DbPolicy.layoutTokens
        "UPDATE t SET a=(SELECT b FROM u WHERE c=1)".toList) = false := by
      decide +kernel
    have dangerous := marked _ ⟨_, scanned, rfl⟩ (by decide) inner
    rw [DbPolicy.statement_dangerous ⟨_, scanned, rfl⟩] at dangerous
    revert dangerous
    decide +kernel
  · intro refused
    have without : WithoutCondition (QueryReq.plain .delete "orders") := ⟨.inr rfl, rfl, rfl⟩
    exact refused without (QueryReq.bound (QueryReq.plain .delete "orders")
      (Level.bound (QueryReq.plain .delete "orders")
        ⟨"orders.tenant_id", .eq, some (.string "a"), none, none⟩ []) [] none [] [] [] none) rfl

end Gate

end OnlyJs.Bridge.Query
