import OnlyJs.Bridge.Query.Build

/-!
# Requests that a tenant can be added to

What the tenant makes of a request, against what it should make of the statement: the same
statement in which every table with tenants is bound to the tenant. The conditions, the columns
and the unions of a request stay what they are where the requests inside them do.
-/

namespace OnlyJs.Bridge.Query

open Bridge.Guard List Option Lib Lib.Fallible

mutual

def leafCount : CondTree → Nat
  | .leaf _ => 1
  | .exists_ _ => 1
  | .and trees => leafCounts trees
  | .or trees => leafCounts trees
  | .not tree => leafCount tree

def leafCounts : List CondTree → Nat
  | [] => 0
  | tree :: rest => leafCount tree + leafCounts rest

end

attribute [grind =] leafCount leafCounts

/-- A level that touches tables with tenants: its base is one of them, there is room for a leaf,
and the names of these tables in the statement have no dot. -/
structure LevelFits (registry : SchemaRegistry) (req : QueryReq) : Prop where
  base : isScoped registry req.ctes req.table.name = true
  plain : '.' ∉ req.table.sqlName.toList
  joins : ∀ join ∈ req.joins, isScoped registry req.ctes join.table.name = true →
    '.' ∉ join.table.sqlName.toList
  leaves : leafCounts req.conditions < condLeafMax

def LevelBindable (registry : SchemaRegistry) (req : QueryReq) : Prop :=
  touched registry req = [] ∨ LevelFits registry req

section Bindable

variable (registry : SchemaRegistry)

mutual

def Bindable : QueryReq → Prop
  | ⟨table, verb, values, sets, returning, joins, columns, distinct, groupBy, having, conditions,
      orderBy, limit, offset, unions, ctes, orIgnore, truncate, fromSelect, insertCols⟩ =>
      LevelBindable registry ⟨table, verb, values, sets, returning, joins, columns, distinct,
        groupBy, having, conditions, orderBy, limit, offset, unions, ctes, orIgnore, truncate,
        fromSelect, insertCols⟩ ∧
      ColumnsBindable columns ∧ TreesBindable conditions ∧ HavingBindable having ∧
      UnionsBindable unions

def TreeBindable : CondTree → Prop
  | .leaf ⟨_, _, _, _, subquery⟩ => SubqueryBindable subquery
  | .exists_ query => Bindable query
  | .and trees => TreesBindable trees
  | .or trees => TreesBindable trees
  | .not tree => TreeBindable tree

def TreesBindable : List CondTree → Prop
  | [] => True
  | tree :: rest => TreeBindable tree ∧ TreesBindable rest

def SubqueryBindable : Option QueryReq → Prop
  | none => True
  | some query => Bindable query

def HavingBindable : Option CondTree → Prop
  | none => True
  | some tree => TreeBindable tree

def ArmsBindable : List CaseWhen → Prop
  | [] => True
  | ⟨cond, _⟩ :: rest => TreeBindable cond ∧ ArmsBindable rest

def ColumnsBindable : List ColSpec → Prop
  | [] => True
  | .case arms _ _ :: rest => ArmsBindable arms ∧ ColumnsBindable rest
  | _ :: rest => ColumnsBindable rest

def UnionsBindable : List UnionArm → Prop
  | [] => True
  | ⟨_, query⟩ :: rest => Bindable query ∧ UnionsBindable rest

end

attribute [grind =] Bindable TreeBindable TreesBindable SubqueryBindable HavingBindable
  ArmsBindable ColumnsBindable UnionsBindable

/-- The request and the common table expressions before it. -/
def StatementBindable (req : QueryReq) : Prop :=
  Bindable registry req ∧ ∀ cte ∈ req.ctes, Bindable registry cte.query

end Bindable

def tenantPolicy (b : Build) (tid : String) : TenantPolicy where
  tenanted := fun name => (b.registry.get name).any TableDef.isTenantScoped
  value := fun table =>
    match tenantValue b.registry table tid with
    | .ok value => toQv b.display value
    | .error _ => .other

/-- `*` and no columns mean all columns. -/
def columnStage (b : Build) (ctx : ColCtx) (level : Nat) (joined : Bool)
    (columns : List ColSpec) : Except String (List SelectExpr × Aliases) :=
  if columns.isEmpty || columns.any ColSpec.isStar then .ok (allColumns b ctx joined, [])
  else selectExprs b ctx level [] columns

/-- What each stage of the build of a select has given. -/
structure Stages (b : Build) (level : Nat) (req : QueryReq) (statement : SelectStatement)
    (ctx : ColCtx) (aliases : Aliases) (leaves : Nat) : Prop where
  resolved : colCtx b req.table req.joins req.ctes = .ok ctx
  star : checkStar req.columns req.joins = .ok ()
  columns : columnStage b ctx level (!req.joins.isEmpty) req.columns =
    .ok (statement.columns, aliases)
  joins : req.joins.mapM (joinClause b ctx) = .ok statement.joins
  conditions : condExprs b ctx .where_ level 1 0 req.conditions =
    .ok (statement.conditions, leaves)
  groupBy : groupColumns ctx req.groupBy = .ok statement.groupBy
  having : havingExpr b ctx aliases level req.having = .ok statement.having
  orderBy : req.orderBy.mapM (orderColumn ctx) = .ok statement.orderBy
  wide : (!req.unions.isEmpty && req.columns.isEmpty) = false
  unions : unionMembers b level req.columns.length req.unions = .ok statement.unions
  table : statement.table = req.table
  distinct : statement.distinct = req.distinct
  limit : statement.limit = req.limit
  offset : statement.offset = req.offset

theorem buildSelect_stages {b : Build} {level : Nat} {req : QueryReq}
    {statement : SelectStatement} :
    buildSelect b level req = .ok statement ↔
      ∃ ctx aliases leaves, Stages b level req statement ctx aliases leaves := by
  obtain ⟨⟩ := req
  constructor
  · intro built
    obtain ⟨ctx, first, built⟩ := bind_ok.mp built
    obtain ⟨_, star, built⟩ := bind_ok.mp built
    obtain ⟨⟨exprs, aliases⟩, columns, built⟩ := bind_ok.mp built
    obtain ⟨clauses, joins, built⟩ := bind_ok.mp built
    obtain ⟨⟨tests, leaves⟩, conditions, built⟩ := bind_ok.mp built
    obtain ⟨groups, groupBy, built⟩ := bind_ok.mp built
    obtain ⟨having, filtered, built⟩ := bind_ok.mp built
    obtain ⟨orders, orderBy, built⟩ := bind_ok.mp built
    obtain ⟨_, wide, built⟩ := bind_ok.mp built
    obtain ⟨members, unions, built⟩ := bind_ok.mp built
    obtain rfl := Except.ok.inj built
    exact ⟨ctx, aliases, leaves, first, star, columns, joins, conditions, groupBy, filtered,
      orderBy, reject_ok.mp wide, unions, rfl, rfl, rfl, rfl⟩
  · rintro ⟨ctx, aliases, leaves, resolved, star, columns, joins, conditions, groupBy, having,
      orderBy, wide, unions, table, distinct, limit, offset⟩
    obtain ⟨_, exprs, _, clauses, tests, groups, filtered, orders, _, _, members⟩ := statement
    cases table
    cases distinct
    cases limit
    cases offset
    exact bind_ok.mpr ⟨ctx, resolved, bind_ok.mpr ⟨(), star,
      bind_ok.mpr ⟨(exprs, aliases), columns, bind_ok.mpr ⟨clauses, joins,
        bind_ok.mpr ⟨(tests, leaves), conditions, bind_ok.mpr ⟨groups, groupBy,
          bind_ok.mpr ⟨filtered, having, bind_ok.mpr ⟨orders, orderBy,
            bind_ok.mpr ⟨(), reject_ok.mpr wide, bind_ok.mpr ⟨members, unions, rfl⟩⟩⟩⟩⟩⟩⟩⟩⟩⟩

section Shape

variable {context : TenantContext}

theorem applyTenantCtes_heads {ctes out : List CteReq}
    (applied : applyTenantCtes context ctes = .ok out) :
    (out.map fun cte => (cte.name, cte.columns)) = ctes.map fun cte => (cte.name, cte.columns) := by
  induction ctes generalizing out with
  | nil =>
    cases applied
    rfl
  | cons cte rest ih =>
    obtain ⟨name, columns, query⟩ := cte
    obtain ⟨_, _, applied⟩ := bind_ok.mp applied
    obtain ⟨later, remaining, applied⟩ := bind_ok.mp applied
    obtain rfl := Except.ok.inj applied
    rw [map_cons, map_cons, ih remaining]

theorem applyTenantUnions_length {unions out : List UnionArm}
    (applied : applyTenantUnions context unions = .ok out) : out.length = unions.length := by
  induction unions generalizing out with
  | nil =>
    cases applied
    rfl
  | cons arm rest ih =>
    obtain ⟨kind, query⟩ := arm
    obtain ⟨_, _, applied⟩ := bind_ok.mp applied
    obtain ⟨later, remaining, applied⟩ := bind_ok.mp applied
    obtain rfl := Except.ok.inj applied
    rw [length_cons, length_cons, ih remaining]

theorem applyTenantArms_length {arms out : List CaseWhen}
    (applied : applyTenantArms context arms = .ok out) : out.length = arms.length := by
  induction arms generalizing out with
  | nil =>
    cases applied
    rfl
  | cons arm rest ih =>
    obtain ⟨cond, value⟩ := arm
    obtain ⟨_, _, applied⟩ := bind_ok.mp applied
    obtain ⟨later, remaining, applied⟩ := bind_ok.mp applied
    obtain rfl := Except.ok.inj applied
    rw [length_cons, length_cons, ih remaining]

theorem applyTenantColumns_cons {column : ColSpec} {rest out : List ColSpec}
    (applied : applyTenantColumns context (column :: rest) = .ok out) :
    ∃ first later, out = first :: later ∧ first.isStar = column.isStar ∧
      applyTenantColumns context rest = .ok later := by
  cases column with
  | case arms otherwise asName =>
    obtain ⟨changed, _, applied⟩ := bind_ok.mp applied
    obtain ⟨later, remaining, applied⟩ := bind_ok.mp applied
    obtain rfl := Except.ok.inj applied
    exact ⟨_, later, rfl, rfl, remaining⟩
  | name | star | lit | agg | window =>
    rw [applyTenantColumns] at applied
    · obtain ⟨later, remaining, applied⟩ := bind_ok.mp applied
      obtain rfl := Except.ok.inj applied
      exact ⟨_, later, rfl, rfl, remaining⟩
    · nofun

theorem applyTenantColumns_shape {columns out : List ColSpec}
    (applied : applyTenantColumns context columns = .ok out) :
    out.map ColSpec.isStar = columns.map ColSpec.isStar := by
  induction columns generalizing out with
  | nil =>
    cases applied
    rfl
  | cons column rest ih =>
    obtain ⟨first, later, rfl, same, remaining⟩ := applyTenantColumns_cons applied
    rw [map_cons, map_cons, same, ih remaining]

theorem isEmpty_of_length {α β : Type} {left : List α} {right : List β}
    (same : left.length = right.length) : left.isEmpty = right.isEmpty := by
  cases left with
  | nil =>
    cases right with
    | nil => rfl
    | cons _ _ => cases same
  | cons _ _ =>
    cases right with
    | nil => cases same
    | cons _ _ => rfl

/-- What the checks of a nested select and of a union member look at. -/
structure SameShape (req out : QueryReq) : Prop where
  verb : out.verb = req.verb
  unions : out.unions.isEmpty = req.unions.isEmpty
  ctes : out.ctes.isEmpty = req.ctes.isEmpty
  limit : out.limit = req.limit
  offset : out.offset = req.offset
  orderBy : out.orderBy = req.orderBy
  columns : out.columns.length = req.columns.length

variable {out req : QueryReq}

theorem applyTenant_shape (applied : applyTenant context req = .ok out) :
    SameShape req out := by
  obtain ⟨level, conditions, having, columns, unions, ctes, source, _, _, _, shaped, members, heads,
    _, rfl⟩ := apply_parts applied
  have same := congrArg List.length (applyTenantCtes_heads heads)
  rw [length_map, length_map] at same
  have width := congrArg List.length (applyTenantColumns_shape shaped)
  rw [length_map, length_map] at width
  exact ⟨rfl, isEmpty_of_length (applyTenantUnions_length members), isEmpty_of_length same, rfl,
    rfl, rfl, width⟩

theorem validateNested_same (same : SameShape req out) (depth : Nat) (site : String) :
    validateNested out depth site = validateNested req depth site := by
  rw [validateNested, validateNested, same.verb, same.unions, same.ctes, same.limit, same.offset]

theorem checkMember_same (same : SameShape req out) (width depth : Nat) :
    checkMember width depth out = checkMember width depth req := by
  rw [checkMember, checkMember, validateNested_same same, same.orderBy, same.limit, same.offset,
    same.columns, isEmpty_of_length same.columns]

theorem validateNested_ok {depth : Nat} {site : String}
    (valid : validateNested req depth site = .ok ()) : req.verb = .select ∧ req.ctes = [] := by
  rw [validateNested, check_all_ok_iff] at valid
  simp only [forall_mem_cons, reject_ok, Bool.or_eq_false_iff] at valid
  obtain ⟨_, verb, ⟨_, ctes⟩, _⟩ := valid
  refine ⟨?_, ?_⟩
  · by_contra other
    rw [decide_eq_true other] at verb
    cases verb
  · cases listed : req.ctes with
    | nil => rfl
    | cons _ _ =>
      rw [listed] at ctes
      cases ctes

end Shape

section Commutes

variable (b : Build) (context : TenantContext) (tid : String)

def SelectCommutes (req : QueryReq) : Prop :=
  ∀ {level : Nat} {statement : SelectStatement} {out : QueryReq}, req.verb = .select →
    buildSelect b level req = .ok statement → applyTenant context req = .ok out →
      (Bindable b.registry req ↔ buildSelect b level out =
        .ok (statement.withTenant (tenantPolicy b tid) (req.ctes.map CteReq.name)))

def TreeCommutes (tree : CondTree) : Prop :=
  ∀ {ctx : ColCtx} {site : CondSite} {level depth leaves after : Nat} {expr : SqlExpr}
    {out : CondTree}, condExpr b ctx site level depth leaves tree = .ok (expr, after) →
      applyTenantTree context tree = .ok out →
        (TreeBindable b.registry tree ↔ condExpr b ctx site level depth leaves out =
          .ok (expr.withTenant (tenantPolicy b tid), after))

def TreesCommute (trees : List CondTree) : Prop :=
  ∀ {ctx : ColCtx} {site : CondSite} {level depth leaves after : Nat} {exprs : List SqlExpr}
    {out : List CondTree}, condExprs b ctx site level depth leaves trees = .ok (exprs, after) →
      applyTenantTrees context trees = .ok out →
        (TreesBindable b.registry trees ↔ condExprs b ctx site level depth leaves out =
          .ok (exprsWithTenant (tenantPolicy b tid) exprs, after))

def SubqueryCommutes (subquery : Option QueryReq) : Prop :=
  ∀ {ctx : ColCtx} {site : CondSite} {level : Nat} {field : String} {op : Op}
    {value : Option Value} {inner : Option SqlExpr} {out : Option QueryReq},
    leafSubquery b ctx site level field op value subquery = .ok inner →
      applyTenantSource context subquery = .ok out →
        (SubqueryBindable b.registry subquery ↔ leafSubquery b ctx site level field op value out =
          .ok (inner.map fun expr => expr.withTenant (tenantPolicy b tid)))

def HavingCommutes (having : Option CondTree) : Prop :=
  ∀ {ctx : ColCtx} {aliases : Aliases} {level : Nat} {filtered : Option SqlExpr}
    {out : Option CondTree}, havingExpr b ctx aliases level having = .ok filtered →
      applyTenantHaving context having = .ok out →
        (HavingBindable b.registry having ↔ havingExpr b ctx aliases level out =
          .ok (havingWithTenant (tenantPolicy b tid) filtered))

def ArmsCommute (arms : List CaseWhen) : Prop :=
  ∀ {ctx : ColCtx} {level leaves after : Nat} {built : List CaseArm} {out : List CaseWhen},
    caseArms b ctx level leaves arms = .ok (built, after) →
      applyTenantArms context arms = .ok out →
        (ArmsBindable b.registry arms ↔ caseArms b ctx level leaves out =
          .ok (armsWithTenant (tenantPolicy b tid) built, after))

def ColumnsCommute (columns : List ColSpec) : Prop :=
  ∀ {ctx : ColCtx} {level : Nat} {aliases after : Aliases} {exprs : List SelectExpr}
    {out : List ColSpec}, selectExprs b ctx level aliases columns = .ok (exprs, after) →
      applyTenantColumns context columns = .ok out →
        (ColumnsBindable b.registry columns ↔ selectExprs b ctx level aliases out =
          .ok (columnsWithTenant (tenantPolicy b tid) exprs, after))

def UnionsCommute (unions : List UnionArm) : Prop :=
  ∀ {level width : Nat} {members : List UnionMember} {out : List UnionArm},
    unionMembers b level width unions = .ok members →
      applyTenantUnions context unions = .ok out →
        (UnionsBindable b.registry unions ↔ unionMembers b level width out =
          .ok (unionsWithTenant (tenantPolicy b tid) members))

end Commutes

section Trees

variable {b : Build} {context : TenantContext} {tid : String}

variable {after leaves : Nat}

theorem countLeaf_ok (counted : countLeaf leaves = .ok after) :
    after = leaves + 1 := by
  unfold countLeaf at counted
  split at counted
  · cases counted
  · exact (Except.ok.inj counted).symm

mutual

/-- The leaves that were counted are those of the tree. -/
theorem condExpr_leaves {ctx : ColCtx} {site : CondSite} {level depth leaves after : Nat}
    {expr : SqlExpr} : ∀ {tree : CondTree},
      condExpr b ctx site level depth leaves tree = .ok (expr, after) →
        after = leaves + leafCount tree
  | .leaf ⟨field, op, value, escape, subquery⟩, built | .exists_ query, built => by
      rw [condExpr] at built
      obtain ⟨_, _, built⟩ := bind_ok.mp built
      obtain ⟨count, counted, built⟩ := bind_ok.mp built
      obtain ⟨_, _, built⟩ := bind_ok.mp built
      obtain ⟨_, _, built⟩ := bind_ok.mp built
      obtain ⟨_, rfl⟩ := Prod.mk.inj (Except.ok.inj built)
      rw [leafCount]
      exact countLeaf_ok counted
  | .and trees, built | .or trees, built => by
      rw [condExpr] at built
      obtain ⟨_, _, built⟩ := bind_ok.mp built
      obtain ⟨⟨parts, count⟩, inside, built⟩ := bind_ok.mp built
      obtain ⟨_, rfl⟩ := Prod.mk.inj (Except.ok.inj built)
      rw [leafCount]
      exact condExprs_leaves inside
  | .not tree, built => by
      rw [condExpr] at built
      obtain ⟨_, _, built⟩ := bind_ok.mp built
      obtain ⟨⟨part, count⟩, inside, built⟩ := bind_ok.mp built
      obtain ⟨_, rfl⟩ := Prod.mk.inj (Except.ok.inj built)
      rw [leafCount]
      exact condExpr_leaves inside

theorem condExprs_leaves {ctx : ColCtx} {site : CondSite} {level depth leaves after : Nat}
    {exprs : List SqlExpr} : ∀ {trees : List CondTree},
      condExprs b ctx site level depth leaves trees = .ok (exprs, after) →
        after = leaves + leafCounts trees
  | [], built => by
      rw [condExprs] at built
      obtain ⟨_, rfl⟩ := Prod.mk.inj (Except.ok.inj built)
      rw [leafCounts, Nat.add_zero]
  | tree :: rest, built => by
      rw [condExprs] at built
      obtain ⟨⟨expr, count⟩, first, built⟩ := bind_ok.mp built
      obtain ⟨⟨others, total⟩, later, built⟩ := bind_ok.mp built
      obtain ⟨_, rfl⟩ := Prod.mk.inj (Except.ok.inj built)
      rw [leafCounts, condExprs_leaves later, condExpr_leaves first, Nat.add_assoc]

end

mutual

theorem applyTenantTree_leaves : ∀ {tree out : CondTree},
    applyTenantTree context tree = .ok out → leafCount out = leafCount tree
  | .leaf ⟨field, op, value, escape, subquery⟩, out, applied => by
      rw [applyTenantTree] at applied
      obtain ⟨_, _, applied⟩ := bind_ok.mp applied
      obtain rfl := Except.ok.inj applied
      rw [leafCount, leafCount]
  | .exists_ query, out, applied => by
      rw [applyTenantTree] at applied
      obtain ⟨_, _, rfl⟩ := map_ok.mp applied
      rw [leafCount, leafCount]
  | .and trees, out, applied | .or trees, out, applied => by
      rw [applyTenantTree] at applied
      obtain ⟨_, changed, rfl⟩ := map_ok.mp applied
      rw [leafCount, leafCount, applyTenantTrees_leaves changed]
  | .not tree, out, applied => by
      rw [applyTenantTree] at applied
      obtain ⟨_, changed, rfl⟩ := map_ok.mp applied
      rw [leafCount, leafCount, applyTenantTree_leaves changed]

theorem applyTenantTrees_leaves : ∀ {trees out : List CondTree},
    applyTenantTrees context trees = .ok out → leafCounts out = leafCounts trees
  | [], out, applied => by
      cases applied
      rfl
  | tree :: rest, out, applied => by
      rw [applyTenantTrees] at applied
      obtain ⟨_, changed, applied⟩ := bind_ok.mp applied
      obtain ⟨_, remaining, applied⟩ := bind_ok.mp applied
      obtain rfl := Except.ok.inj applied
      rw [leafCounts, leafCounts, applyTenantTree_leaves changed,
        applyTenantTrees_leaves remaining]

end

variable {ctx : ColCtx} {site : CondSite} {field : String} {value : Option Value}

variable {op : Op} {escape : Option String}

theorem leafTest_withTenant {expr : SqlExpr} (policy : TenantPolicy)
    (built : leafTest b ctx site field op value escape = .ok expr) :
    expr.withTenant policy = expr := by
  obtain ⟨operand, _, built⟩ := bind_ok.mp built
  obtain ⟨predicate, _, built⟩ := bind_ok.mp built
  obtain rfl := Except.ok.inj built
  rw [SqlExpr.withTenant]

theorem subqueryExpr_withTenant (policy : TenantPolicy) (op : Op) (left : ColumnRef)
    (statement : SelectStatement) :
    (subqueryExpr op left statement).withTenant policy =
      subqueryExpr op left (statement.withTenant policy []) := by
  unfold subqueryExpr
  split
  · rw [SqlExpr.withTenant]
  · rw [SqlExpr.withTenant]

theorem subqueryExpr_inj {left : ColumnRef} {first second : SelectStatement}
    (same : subqueryExpr op left first = subqueryExpr op left second) : first = second := by
  unfold subqueryExpr at same
  split at same
  · injection same
  · injection same

theorem subquery_none : SubqueryCommutes b context tid none := by
  intro ctx site level field op value inner out built applied
  cases applied
  cases built
  exact ⟨fun _ => rfl, fun _ => trivial⟩

variable {query : QueryReq}

theorem subquery_some (nested : SelectCommutes b context tid query) :
    SubqueryCommutes b context tid (some query) := by
  intro ctx site level field op value inner out built applied
  obtain ⟨bound, changed, rfl⟩ := map_ok.mp applied
  rw [leafSubquery] at built ⊢
  obtain ⟨_, checked, built⟩ := bind_ok.mp built
  obtain ⟨_, valid, built⟩ := bind_ok.mp built
  obtain ⟨_, column, built⟩ := bind_ok.mp built
  obtain ⟨statement, select, built⟩ := bind_ok.mp built
  obtain rfl := Except.ok.inj built
  obtain ⟨verb, ctes⟩ := validateNested_ok valid
  have around := nested verb select changed
  rw [ctes, map_nil] at around
  rw [SubqueryBindable, around, validateNested_same (applyTenant_shape changed), map_some,
    subqueryExpr_withTenant]
  constructor
  · intro inside
    exact bind_ok.mpr ⟨(), checked, bind_ok.mpr ⟨(), valid, bind_ok.mpr ⟨(), column,
      bind_ok.mpr ⟨_, inside, rfl⟩⟩⟩⟩
  · intro rebuilt
    iterate 3 obtain ⟨_, _, rebuilt⟩ := bind_ok.mp rebuilt
    obtain ⟨other, inside, rebuilt⟩ := bind_ok.mp rebuilt
    have same := subqueryExpr_inj (Option.some.inj (Except.ok.inj rebuilt))
    rw [← same]
    exact inside

variable {level : Nat} {subquery : Option QueryReq}

theorem leafSubquery_isSome {inner : Option SqlExpr}
    (built : leafSubquery b ctx site level field op value subquery = .ok inner) :
    inner.isSome = subquery.isSome := by
  cases subquery with
  | none =>
    cases built
    rfl
  | some query =>
    iterate 4 obtain ⟨_, _, built⟩ := bind_ok.mp built
    cases built
    rfl

theorem applyTenantSource_isSome {out : Option QueryReq}
    (applied : applyTenantSource context subquery = .ok out) : out.isSome = subquery.isSome := by
  cases subquery with
  | none =>
    cases applied
    rfl
  | some query =>
    obtain ⟨_, _, rfl⟩ := map_ok.mp applied
    rfl

theorem tree_leaf (nested : SubqueryCommutes b context tid subquery) :
    TreeCommutes b context tid (.leaf ⟨field, op, value, escape, subquery⟩) := by
  intro ctx site level depth leaves after expr out built applied
  obtain ⟨bound, source, changed⟩ := bind_ok.mp applied
  obtain rfl := Except.ok.inj changed
  obtain ⟨_, deep, built⟩ := bind_ok.mp built
  obtain ⟨count, counted, built⟩ := bind_ok.mp built
  obtain ⟨inner, inside, built⟩ := bind_ok.mp built
  obtain ⟨found, chosen, built⟩ := bind_ok.mp built
  obtain ⟨rfl, rfl⟩ := Prod.mk.inj (Except.ok.inj built)
  have around := nested inside source
  rw [TreeBindable, around]
  have kept : leafExpr b ctx site field op value escape
      (inner.map fun expr => expr.withTenant (tenantPolicy b tid)) =
        .ok (found.withTenant (tenantPolicy b tid)) := by
    cases inner with
    | none =>
      rw [leafTest_withTenant _ chosen]
      exact chosen
    | some expr =>
      cases chosen
      rfl
  constructor
  · intro rebuilt
    exact bind_ok.mpr ⟨(), deep, bind_ok.mpr ⟨_, counted, bind_ok.mpr ⟨_, rebuilt,
      bind_ok.mpr ⟨_, kept, rfl⟩⟩⟩⟩
  · intro rebuilt
    obtain ⟨_, _, rebuilt⟩ := bind_ok.mp rebuilt
    obtain ⟨_, again, rebuilt⟩ := bind_ok.mp rebuilt
    obtain ⟨other, outside, rebuilt⟩ := bind_ok.mp rebuilt
    obtain ⟨result, taken, rebuilt⟩ := bind_ok.mp rebuilt
    obtain ⟨rfl, _⟩ := Prod.mk.inj (Except.ok.inj rebuilt)
    rw [outside]
    have alike : other.isSome = inner.isSome := by
      rw [leafSubquery_isSome outside, leafSubquery_isSome inside,
        applyTenantSource_isSome source]
    cases inner with
    | none =>
      rw [isSome_none, isSome_eq_false_iff, isNone_iff_eq_none] at alike
      rw [alike, map_none]
    | some expr =>
      obtain ⟨replaced, rfl⟩ := isSome_iff_exists.mp alike
      cases chosen
      cases taken
      rfl

theorem tree_exists (nested : SelectCommutes b context tid query) :
    TreeCommutes b context tid (.exists_ query) := by
  intro ctx site level depth leaves after expr out built applied
  obtain ⟨bound, changed, rfl⟩ := map_ok.mp applied
  rw [condExpr] at built ⊢
  obtain ⟨_, deep, built⟩ := bind_ok.mp built
  obtain ⟨count, counted, built⟩ := bind_ok.mp built
  obtain ⟨_, valid, built⟩ := bind_ok.mp built
  obtain ⟨statement, select, built⟩ := bind_ok.mp built
  obtain ⟨rfl, rfl⟩ := Prod.mk.inj (Except.ok.inj built)
  obtain ⟨verb, ctes⟩ := validateNested_ok valid
  have around := nested verb select changed
  rw [ctes, map_nil] at around
  rw [TreeBindable, around, validateNested_same (applyTenant_shape changed)]
  constructor
  · intro inside
    exact bind_ok.mpr ⟨(), deep, bind_ok.mpr ⟨_, counted, bind_ok.mpr ⟨(), valid,
      bind_ok.mpr ⟨_, inside, rfl⟩⟩⟩⟩
  · intro rebuilt
    iterate 3 obtain ⟨_, _, rebuilt⟩ := bind_ok.mp rebuilt
    obtain ⟨other, inside, rebuilt⟩ := bind_ok.mp rebuilt
    have same := SqlExpr.exists_.inj (Prod.mk.inj (Except.ok.inj rebuilt)).1
    rw [← same]
    exact inside

variable {trees : List CondTree}

theorem wrapped_iff {Part : Type} {wrap : Part → SqlExpr} {depth : Nat} {part : Part}
    {build : Except String (Part × Nat)} (deep : checkDepth depth = .ok ())
    (injective : ∀ other, wrap other = wrap part → other = part) :
    build = .ok (part, after) ↔ (do
      checkDepth depth
      let (part, leaves) ← build
      .ok (wrap part, leaves)) = .ok (wrap part, after) := by
  constructor
  · intro built
    exact bind_ok.mpr ⟨(), deep, bind_ok.mpr ⟨_, built, rfl⟩⟩
  · intro rebuilt
    obtain ⟨_, _, rebuilt⟩ := bind_ok.mp rebuilt
    obtain ⟨⟨other, total⟩, built, rebuilt⟩ := bind_ok.mp rebuilt
    obtain ⟨same, rfl⟩ := Prod.mk.inj (Except.ok.inj rebuilt)
    rw [built, injective other same]

theorem tree_and (nested : TreesCommute b context tid trees) :
    TreeCommutes b context tid (.and trees) := by
  intro ctx site level depth leaves after expr out built applied
  obtain ⟨bound, changed, rfl⟩ := map_ok.mp applied
  obtain ⟨_, deep, built⟩ := bind_ok.mp built
  obtain ⟨⟨parts, count⟩, inside, built⟩ := bind_ok.mp built
  obtain ⟨rfl, rfl⟩ := Prod.mk.inj (Except.ok.inj built)
  rw [TreeBindable, nested inside changed]
  exact wrapped_iff deep fun _ => SqlExpr.all.inj

theorem tree_or (nested : TreesCommute b context tid trees) :
    TreeCommutes b context tid (.or trees) := by
  intro ctx site level depth leaves after expr out built applied
  obtain ⟨bound, changed, rfl⟩ := map_ok.mp applied
  obtain ⟨_, deep, built⟩ := bind_ok.mp built
  obtain ⟨⟨parts, count⟩, inside, built⟩ := bind_ok.mp built
  obtain ⟨rfl, rfl⟩ := Prod.mk.inj (Except.ok.inj built)
  rw [TreeBindable, nested inside changed]
  exact wrapped_iff deep fun _ => SqlExpr.any.inj

variable {tree : CondTree}

theorem tree_not (nested : TreeCommutes b context tid tree) :
    TreeCommutes b context tid (.not tree) := by
  intro ctx site level depth leaves after expr out built applied
  obtain ⟨bound, changed, rfl⟩ := map_ok.mp applied
  obtain ⟨_, deep, built⟩ := bind_ok.mp built
  obtain ⟨⟨part, count⟩, inside, built⟩ := bind_ok.mp built
  obtain ⟨rfl, rfl⟩ := Prod.mk.inj (Except.ok.inj built)
  rw [TreeBindable, nested inside changed]
  exact wrapped_iff deep fun _ => SqlExpr.not.inj

theorem trees_nil : TreesCommute b context tid [] := by
  intro ctx site level depth leaves after exprs out built applied
  cases applied
  obtain ⟨rfl, rfl⟩ := Prod.mk.inj (Except.ok.inj built)
  exact ⟨fun _ => rfl, fun _ => trivial⟩

theorem trees_cons {rest : List CondTree} (head : TreeCommutes b context tid tree)
    (tail : TreesCommute b context tid rest) :
    TreesCommute b context tid (tree :: rest) := by
  intro ctx site level depth leaves after exprs out built applied
  obtain ⟨bound, changed, applied⟩ := bind_ok.mp applied
  obtain ⟨bounds, remaining, applied⟩ := bind_ok.mp applied
  obtain rfl := Except.ok.inj applied
  obtain ⟨⟨expr, count⟩, first, built⟩ := bind_ok.mp built
  obtain ⟨⟨others, total⟩, later, built⟩ := bind_ok.mp built
  obtain ⟨rfl, rfl⟩ := Prod.mk.inj (Except.ok.inj built)
  rw [TreesBindable, head first changed, tail later remaining]
  constructor
  · rintro ⟨inside, beyond⟩
    exact bind_ok.mpr ⟨_, inside, bind_ok.mpr ⟨_, beyond, rfl⟩⟩
  · intro rebuilt
    obtain ⟨⟨again, counted⟩, inside, rebuilt⟩ := bind_ok.mp rebuilt
    obtain ⟨⟨more, summed⟩, beyond, rebuilt⟩ := bind_ok.mp rebuilt
    obtain ⟨same, rfl⟩ := Prod.mk.inj (Except.ok.inj rebuilt)
    obtain ⟨rfl, rfl⟩ := List.cons.inj same
    have total : counted = count := by
      rw [condExpr_leaves inside, condExpr_leaves first, applyTenantTree_leaves changed]
    rw [inside, ← beyond, total]
    exact ⟨rfl, rfl⟩

theorem having_absent : HavingCommutes b context tid none := by
  intro ctx aliases level filtered out built applied
  cases applied
  cases built
  exact ⟨fun _ => rfl, fun _ => trivial⟩

theorem having_present (nested : TreeCommutes b context tid tree) :
    HavingCommutes b context tid (some tree) := by
  intro ctx aliases level filtered out built applied
  obtain ⟨bound, changed, rfl⟩ := map_ok.mp applied
  obtain ⟨⟨expr, count⟩, inside, built⟩ := bind_ok.mp built
  obtain rfl := Except.ok.inj built
  rw [HavingBindable, nested inside changed]
  constructor
  · intro rebuilt
    exact bind_ok.mpr ⟨_, rebuilt, rfl⟩
  · intro rebuilt
    obtain ⟨⟨other, counted⟩, outside, rebuilt⟩ := bind_ok.mp rebuilt
    have same := Option.some.inj (Except.ok.inj rebuilt)
    have total : counted = count := by
      rw [condExpr_leaves outside, condExpr_leaves inside, applyTenantTree_leaves changed]
    rw [outside, ← same, total]

def armLeaves (arms : List CaseWhen) : Nat := (arms.map fun arm => leafCount arm.cond).sum

variable {arms : List CaseWhen}

theorem caseArms_leaves {built : List CaseArm}
    (ended : caseArms b ctx level leaves arms = .ok (built, after)) :
    after = leaves + armLeaves arms := by
  induction arms generalizing leaves after built with
  | nil =>
    obtain ⟨_, rfl⟩ := Prod.mk.inj (Except.ok.inj ended)
    rfl
  | cons arm rest ih =>
    obtain ⟨cond, value⟩ := arm
    obtain ⟨⟨expr, count⟩, first, ended⟩ := bind_ok.mp ended
    obtain ⟨⟨others, total⟩, later, ended⟩ := bind_ok.mp ended
    obtain ⟨_, rfl⟩ := Prod.mk.inj (Except.ok.inj ended)
    rw [ih later, condExpr_leaves first, armLeaves, armLeaves, map_cons, sum_cons,
      Nat.add_assoc]

theorem applyTenantArms_leaves {out : List CaseWhen}
    (applied : applyTenantArms context arms = .ok out) : armLeaves out = armLeaves arms := by
  induction arms generalizing out with
  | nil =>
    cases applied
    rfl
  | cons arm rest ih =>
    obtain ⟨cond, value⟩ := arm
    obtain ⟨_, changed, applied⟩ := bind_ok.mp applied
    obtain ⟨later, remaining, applied⟩ := bind_ok.mp applied
    obtain rfl := Except.ok.inj applied
    have same := ih remaining
    unfold armLeaves at same ⊢
    rw [map_cons, map_cons, sum_cons, sum_cons, same,
      applyTenantTree_leaves changed]

theorem arms_nil : ArmsCommute b context tid [] := by
  intro ctx level leaves after built_arms out built applied
  cases applied
  obtain ⟨rfl, rfl⟩ := Prod.mk.inj (Except.ok.inj built)
  exact ⟨fun _ => rfl, fun _ => trivial⟩

theorem arms_cons {cond : CondTree} {value : Value} {rest : List CaseWhen}
    (head : TreeCommutes b context tid cond) (tail : ArmsCommute b context tid rest) :
    ArmsCommute b context tid (⟨cond, value⟩ :: rest) := by
  intro ctx level leaves after built_arms out built applied
  obtain ⟨bound, changed, applied⟩ := bind_ok.mp applied
  obtain ⟨bounds, remaining, applied⟩ := bind_ok.mp applied
  obtain rfl := Except.ok.inj applied
  obtain ⟨⟨expr, count⟩, first, built⟩ := bind_ok.mp built
  obtain ⟨⟨others, total⟩, later, built⟩ := bind_ok.mp built
  obtain ⟨rfl, rfl⟩ := Prod.mk.inj (Except.ok.inj built)
  rw [ArmsBindable, head first changed, tail later remaining]
  constructor
  · rintro ⟨inside, beyond⟩
    exact bind_ok.mpr ⟨_, inside, bind_ok.mpr ⟨_, beyond, rfl⟩⟩
  · intro rebuilt
    obtain ⟨⟨again, counted⟩, inside, rebuilt⟩ := bind_ok.mp rebuilt
    obtain ⟨⟨more, summed⟩, beyond, rebuilt⟩ := bind_ok.mp rebuilt
    obtain ⟨same, rfl⟩ := Prod.mk.inj (Except.ok.inj rebuilt)
    obtain ⟨arm, rfl⟩ := List.cons.inj same
    obtain ⟨rfl, _⟩ := CaseArm.mk.inj arm
    have total : counted = count := by
      rw [condExpr_leaves inside, condExpr_leaves first, applyTenantTree_leaves changed]
    rw [inside, ← beyond, total]
    exact ⟨rfl, rfl⟩

theorem columns_nil : ColumnsCommute b context tid [] := by
  intro ctx level aliases after exprs out built applied
  cases applied
  obtain ⟨rfl, rfl⟩ := Prod.mk.inj (Except.ok.inj built)
  exact ⟨fun _ => rfl, fun _ => trivial⟩

variable {rest : List ColSpec}

theorem columns_case {otherwise : Option Value} {asName : String}
    (head : ArmsCommute b context tid arms) (tail : ColumnsCommute b context tid rest) :
    ColumnsCommute b context tid (.case arms otherwise asName :: rest) := by
  intro ctx level aliases after exprs out built applied
  obtain ⟨bound, changed, applied⟩ := bind_ok.mp applied
  obtain ⟨bounds, remaining, applied⟩ := bind_ok.mp applied
  obtain rfl := Except.ok.inj applied
  obtain ⟨_, checked, built⟩ := bind_ok.mp built
  obtain ⟨⟨expr, count⟩, first, built⟩ := bind_ok.mp built
  obtain ⟨⟨others, named⟩, later, built⟩ := bind_ok.mp built
  obtain ⟨rfl, rfl⟩ := Prod.mk.inj (Except.ok.inj built)
  have width := applyTenantArms_length changed
  have checks : checkArms bound asName = .ok () := by
    unfold checkArms at checked ⊢
    rw [width, isEmpty_of_length width]
    exact checked
  rw [ColumnsBindable, head first changed, tail later remaining]
  constructor
  · rintro ⟨inside, beyond⟩
    exact bind_ok.mpr ⟨(), checks, bind_ok.mpr ⟨_, inside, bind_ok.mpr ⟨_, beyond, rfl⟩⟩⟩
  · intro rebuilt
    obtain ⟨_, _, rebuilt⟩ := bind_ok.mp rebuilt
    obtain ⟨⟨again, counted⟩, inside, rebuilt⟩ := bind_ok.mp rebuilt
    obtain ⟨⟨more, renamed⟩, beyond, rebuilt⟩ := bind_ok.mp rebuilt
    obtain ⟨same, rfl⟩ := Prod.mk.inj (Except.ok.inj rebuilt)
    obtain ⟨column, rfl⟩ := List.cons.inj same
    obtain ⟨rfl, _, _⟩ := SelectExpr.case.inj column
    have total : counted = count := by
      rw [caseArms_leaves inside, caseArms_leaves first, applyTenantArms_leaves changed]
    rw [inside, ← beyond, total]
    exact ⟨rfl, rfl⟩

/-- What a column that holds no condition adds to the list and to the names. -/
def plainColumn (b : Build) (ctx : ColCtx) (aliases : Aliases) :
    ColSpec → Except String (List SelectExpr × Aliases)
  | .case _ _ _ | .star => .ok ([], aliases)
  | .lit lit asName => (litColumn b lit asName).map fun column => ([column], aliases)
  | .name name => (ctx.checkCol name ("on '" ++ ctx.baseName ++ "'")).map fun _ =>
    ([.operand (.column (colRef name)) none], aliases)
  | .agg function field asName distinct => do
      let operand ← aggregateColumn ctx ("on '" ++ ctx.baseName ++ "'") function field distinct
      (asName.toList).forM checkAlias
      .ok ([.operand operand asName],
        (asName.map fun name => (name, operand)).toList ++ aliases)
  | .window function partitionBy orderBy asName =>
    (windowColumn ctx function partitionBy orderBy asName).map fun column => ([column], aliases)

variable {aliases : Aliases} {column : ColSpec}

variable {exprs : List SelectExpr}

theorem selectExprs_plain {after : Aliases}
    (plain : ∀ arms otherwise asName, column ≠ .case arms otherwise asName) :
    selectExprs b ctx level aliases (column :: rest) = .ok (exprs, after) ↔
      ∃ front between later, plainColumn b ctx aliases column = .ok (front, between) ∧
        selectExprs b ctx level between rest = .ok (later, after) ∧ exprs = front ++ later := by
  cases column with
  | case arms otherwise asName => exact absurd rfl (plain arms otherwise asName)
  | star =>
    constructor
    · intro built
      exact ⟨[], aliases, exprs, rfl, built, rfl⟩
    · rintro ⟨front, between, later, first, behind, rfl⟩
      cases first
      exact behind
  | name | lit | window =>
    constructor
    · intro built
      obtain ⟨found, first, built⟩ := bind_ok.mp built
      obtain ⟨⟨columns, named⟩, later, built⟩ := bind_ok.mp built
      obtain ⟨rfl, rfl⟩ := Prod.mk.inj (Except.ok.inj built)
      exact ⟨_, _, columns, map_ok.mpr ⟨found, first, rfl⟩, later, rfl⟩
    · rintro ⟨front, between, later, first, behind, rfl⟩
      obtain ⟨found, taken, same⟩ := map_ok.mp first
      obtain ⟨rfl, rfl⟩ := Prod.mk.inj same
      exact bind_ok.mpr ⟨found, taken, bind_ok.mpr ⟨_, behind, rfl⟩⟩
  | agg function field asName distinct =>
    constructor
    · intro built
      obtain ⟨operand, first, built⟩ := bind_ok.mp built
      obtain ⟨_, named, built⟩ := bind_ok.mp built
      obtain ⟨⟨columns, names⟩, later, built⟩ := bind_ok.mp built
      obtain ⟨rfl, rfl⟩ := Prod.mk.inj (Except.ok.inj built)
      exact ⟨_, _, columns, bind_ok.mpr ⟨operand, first, bind_ok.mpr ⟨(), named, rfl⟩⟩, later,
        rfl⟩
    · rintro ⟨front, between, later, first, behind, rfl⟩
      obtain ⟨operand, taken, first⟩ := bind_ok.mp first
      obtain ⟨_, named, first⟩ := bind_ok.mp first
      obtain ⟨rfl, rfl⟩ := Prod.mk.inj (Except.ok.inj first)
      exact bind_ok.mpr ⟨operand, taken, bind_ok.mpr ⟨(), named, bind_ok.mpr ⟨_, behind, rfl⟩⟩⟩

theorem plainColumn_withTenant {between : Aliases} {front : List SelectExpr} (policy : TenantPolicy)
    (later : List SelectExpr) (built : plainColumn b ctx aliases column = .ok (front, between)) :
    columnsWithTenant policy (front ++ later) = front ++ columnsWithTenant policy later := by
  cases column with
  | case | star =>
    obtain ⟨rfl, _⟩ := Prod.mk.inj (Except.ok.inj built)
    rfl
  | name =>
    obtain ⟨_, _, same⟩ := map_ok.mp built
    obtain ⟨rfl, _⟩ := Prod.mk.inj same
    rfl
  | agg =>
    obtain ⟨_, _, built⟩ := bind_ok.mp built
    obtain ⟨_, _, built⟩ := bind_ok.mp built
    obtain ⟨rfl, _⟩ := Prod.mk.inj (Except.ok.inj built)
    rfl
  | lit lit asName =>
    obtain ⟨found, taken, same⟩ := map_ok.mp built
    obtain ⟨rfl, _⟩ := Prod.mk.inj same
    obtain ⟨_, _, taken⟩ := bind_ok.mp taken
    split at taken
    · obtain rfl := Except.ok.inj taken
      rfl
    · cases taken
  | window =>
    obtain ⟨found, taken, same⟩ := map_ok.mp built
    obtain ⟨rfl, _⟩ := Prod.mk.inj same
    iterate 3 obtain ⟨_, _, taken⟩ := bind_ok.mp taken
    obtain rfl := Except.ok.inj taken
    rfl

theorem columns_plain (plain : ∀ arms otherwise asName, column ≠ .case arms otherwise asName)
    (tail : ColumnsCommute b context tid rest) :
    ColumnsCommute b context tid (column :: rest) := by
  intro ctx level aliases after exprs out built applied
  have split : ∃ bounds, applyTenantColumns context rest = .ok bounds ∧ out = column :: bounds := by
    rw [applyTenantColumns] at applied
    · obtain ⟨bounds, remaining, applied⟩ := bind_ok.mp applied
      exact ⟨bounds, remaining, (Except.ok.inj applied).symm⟩
    · exact plain
  obtain ⟨bounds, remaining, rfl⟩ := split
  obtain ⟨front, between, later, first, behind, rfl⟩ := (selectExprs_plain plain).mp built
  have same : ColumnsBindable b.registry (column :: rest) = ColumnsBindable b.registry rest := by
    rw [ColumnsBindable]
    exact plain
  rw [same, tail behind remaining, plainColumn_withTenant _ _ first, selectExprs_plain plain]
  constructor
  · intro inside
    exact ⟨front, between, _, first, inside, rfl⟩
  · rintro ⟨again, names, more, second, inside, appended⟩
    rw [first] at second
    obtain ⟨rfl, rfl⟩ := Prod.mk.inj (Except.ok.inj second)
    rw [append_cancel_left appended]
    exact inside

theorem unions_nil : UnionsCommute b context tid [] := by
  intro level width members out built applied
  cases applied
  obtain rfl := Except.ok.inj built
  exact ⟨fun _ => rfl, fun _ => trivial⟩

theorem unions_cons {kind : UnionKind} {rest : List UnionArm}
    (head : SelectCommutes b context tid query) (tail : UnionsCommute b context tid rest) :
    UnionsCommute b context tid (⟨kind, query⟩ :: rest) := by
  intro level width members out built applied
  obtain ⟨bound, changed, applied⟩ := bind_ok.mp applied
  obtain ⟨bounds, remaining, applied⟩ := bind_ok.mp applied
  obtain rfl := Except.ok.inj applied
  rw [unionMembers] at built ⊢
  obtain ⟨_, checked, built⟩ := bind_ok.mp built
  obtain ⟨statement, first, built⟩ := bind_ok.mp built
  obtain ⟨others, later, built⟩ := bind_ok.mp built
  obtain rfl := Except.ok.inj built
  obtain ⟨_, valid, _⟩ := bind_ok.mp checked
  obtain ⟨verb, ctes⟩ := validateNested_ok valid
  have around := head verb first changed
  rw [ctes] at around
  rw [UnionsBindable, around, tail later remaining,
    checkMember_same (applyTenant_shape changed)]
  constructor
  · rintro ⟨inside, beyond⟩
    exact bind_ok.mpr ⟨(), checked, bind_ok.mpr ⟨_, inside, bind_ok.mpr ⟨_, beyond, rfl⟩⟩⟩
  · intro rebuilt
    obtain ⟨_, _, rebuilt⟩ := bind_ok.mp rebuilt
    obtain ⟨again, inside, rebuilt⟩ := bind_ok.mp rebuilt
    obtain ⟨more, beyond, rebuilt⟩ := bind_ok.mp rebuilt
    obtain ⟨member, rfl⟩ := List.cons.inj (Except.ok.inj rebuilt)
    obtain ⟨_, rfl⟩ := UnionMember.mk.inj member
    exact ⟨inside, beyond⟩

theorem selectExprs_aliases {after renamed : Aliases} {columns out : List ColSpec}
    {others : List SelectExpr}
    (built : selectExprs b ctx level aliases columns = .ok (exprs, after))
    (applied : applyTenantColumns context columns = .ok out)
    (rebuilt : selectExprs b ctx level aliases out = .ok (others, renamed)) : renamed = after := by
  induction columns generalizing aliases out exprs others with
  | nil =>
    cases applied
    cases built
    cases rebuilt
    rfl
  | cons column rest ih =>
    cases column with
    | case arms otherwise asName =>
      obtain ⟨bound, _, applied⟩ := bind_ok.mp applied
      obtain ⟨bounds, remaining, applied⟩ := bind_ok.mp applied
      obtain rfl := Except.ok.inj applied
      obtain ⟨_, _, built⟩ := bind_ok.mp built
      obtain ⟨_, _, built⟩ := bind_ok.mp built
      obtain ⟨⟨_, named⟩, later, built⟩ := bind_ok.mp built
      obtain ⟨_, rfl⟩ := Prod.mk.inj (Except.ok.inj built)
      obtain ⟨_, _, rebuilt⟩ := bind_ok.mp rebuilt
      obtain ⟨_, _, rebuilt⟩ := bind_ok.mp rebuilt
      obtain ⟨⟨_, again⟩, behind, rebuilt⟩ := bind_ok.mp rebuilt
      obtain ⟨_, rfl⟩ := Prod.mk.inj (Except.ok.inj rebuilt)
      exact ih later remaining behind
    | name | star | lit | agg | window =>
      rw [applyTenantColumns] at applied
      · obtain ⟨bounds, remaining, applied⟩ := bind_ok.mp applied
        obtain rfl := Except.ok.inj applied
        rw [selectExprs_plain (by intro _ _ _ same; cases same)] at built rebuilt
        obtain ⟨_, _, _, first, later, _⟩ := built
        obtain ⟨_, _, _, second, behind, _⟩ := rebuilt
        rw [first] at second
        obtain ⟨rfl, rfl⟩ := Prod.mk.inj (Except.ok.inj second)
        exact ih later remaining behind
      · nofun

theorem condExprs_length {depth : Nat} {exprs : List SqlExpr}
    (built : condExprs b ctx site level depth leaves trees = .ok (exprs, after)) :
    exprs.length = trees.length := by
  induction trees generalizing leaves exprs with
  | nil =>
    cases built
    rfl
  | cons tree rest ih =>
    obtain ⟨_, _, built⟩ := bind_ok.mp built
    obtain ⟨⟨others, total⟩, later, built⟩ := bind_ok.mp built
    obtain ⟨rfl, rfl⟩ := Prod.mk.inj (Except.ok.inj built)
    rw [length_cons, length_cons, ih later]

theorem applyTenantTrees_length {out : List CondTree}
    (applied : applyTenantTrees context trees = .ok out) : out.length = trees.length := by
  induction trees generalizing out with
  | nil =>
    cases applied
    rfl
  | cons tree rest ih =>
    obtain ⟨_, _, applied⟩ := bind_ok.mp applied
    obtain ⟨later, remaining, applied⟩ := bind_ok.mp applied
    obtain rfl := Except.ok.inj applied
    rw [length_cons, length_cons, ih remaining]

theorem exprsWithTenant_length (policy : TenantPolicy) (exprs : List SqlExpr) :
    (exprsWithTenant policy exprs).length = exprs.length := by
  induction exprs with
  | nil => rfl
  | cons expr rest ih => rw [exprsWithTenant, length_cons, length_cons, ih]

/-- The last condition is built after the others. -/
theorem condExprs_append {depth : Nat} {last : CondTree} {exprs : List SqlExpr} :
    condExprs b ctx site level depth leaves (trees ++ [last]) = .ok (exprs, after) ↔
      ∃ front count expr,
        condExprs b ctx site level depth leaves trees = .ok (front, count) ∧
        condExpr b ctx site level depth count last = .ok (expr, after) ∧
        exprs = front ++ [expr] := by
  induction trees generalizing leaves exprs with
  | nil =>
    constructor
    · intro built
      obtain ⟨⟨expr, count⟩, first, built⟩ := bind_ok.mp built
      obtain ⟨⟨others, total⟩, later, built⟩ := bind_ok.mp built
      cases later
      cases built
      exact ⟨[], leaves, expr, rfl, first, rfl⟩
    · rintro ⟨front, count, expr, started, first, rfl⟩
      cases started
      exact bind_ok.mpr ⟨_, first, bind_ok.mpr ⟨([], after), by rw [condExprs], rfl⟩⟩
  | cons tree rest ih =>
    constructor
    · intro built
      obtain ⟨⟨expr, count⟩, first, built⟩ := bind_ok.mp built
      obtain ⟨⟨others, total⟩, later, built⟩ := bind_ok.mp built
      obtain ⟨rfl, rfl⟩ := Prod.mk.inj (Except.ok.inj built)
      obtain ⟨front, sum, final, behind, closing, rfl⟩ := ih.mp later
      exact ⟨expr :: front, sum, final,
        bind_ok.mpr ⟨_, first, bind_ok.mpr ⟨_, behind, rfl⟩⟩, closing, rfl⟩
    · rintro ⟨front, sum, final, started, closing, rfl⟩
      obtain ⟨⟨expr, count⟩, first, started⟩ := bind_ok.mp started
      obtain ⟨⟨others, total⟩, later, started⟩ := bind_ok.mp started
      obtain ⟨rfl, rfl⟩ := Prod.mk.inj (Except.ok.inj started)
      exact bind_ok.mpr ⟨_, first, bind_ok.mpr ⟨_,
        ih.mpr ⟨others, total, final, later, closing, rfl⟩, rfl⟩⟩

end Trees

end OnlyJs.Bridge.Query
