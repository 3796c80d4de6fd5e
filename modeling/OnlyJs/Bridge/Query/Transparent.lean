import OnlyJs.Bridge.Query.Bindable

/-!
# A tenant on a select

The condition that is added to a level is always one on its base, and it counts as a leaf like
the conditions of the caller. So a statement is only bound to the tenant where every level that
touches a table with tenants has one as its base.
-/

namespace OnlyJs.Bridge.Query

open Bridge.Guard List Lib Lib.Fallible

section Names

variable {b : Build}

theorem colRef_tenant (name : String) :
    colRef (name ++ ".tenant_id") = ⟨some name, "tenant_id"⟩ ↔ '.' ∉ name.toList := by
  have marked : (name ++ ".tenant_id").toList = name.toList ++ '.' :: "tenant_id".toList := by
    rw [String.toList_append]
    rfl
  constructor
  · intro same dotted
    unfold colRef at same
    split at same
    · rename_i before after split
      have named : String.ofList before = name := Option.some.inj (ColumnRef.mk.inj same).1
      have plain := Text.split_once_before split
      rw [← named, String.toList_ofList] at dotted
      exact plain dotted
    · cases same
  · intro plain
    unfold colRef
    rw [marked, Text.split_once_append _ plain]
    dsimp only
    rw [String.ofList_toList, String.ofList_toList]

theorem isScoped_hiding (tid : String) (ctes : List CteReq) (name : String) :
    ((tenantPolicy b tid).hiding (ctes.map CteReq.name)).tenanted name =
      isScoped b.registry ctes name := by
  unfold TenantPolicy.hiding tenantPolicy isScoped
  dsimp only
  have listed : (ctes.map CteReq.name).contains name = ctes.any fun cte => cte.name = name := by
    rw [Bool.eq_iff_iff, contains_iff_mem, any_eq_true, mem_map]
    constructor
    · rintro ⟨cte, member, same⟩
      exact ⟨cte, member, decide_eq_true same⟩
    · rintro ⟨cte, member, same⟩
      exact ⟨cte, member, of_decide_eq_true same⟩
  rw [listed, Bool.and_comm]

theorem resolve_heads {ctes out : List CteReq}
    (heads : (out.map fun cte => (cte.name, cte.columns)) =
      ctes.map fun cte => (cte.name, cte.columns)) (name : String) :
    resolve b out name = resolve b ctes name := by
  induction ctes generalizing out with
  | nil =>
    rw [map_nil, map_eq_nil_iff] at heads
    rw [heads]
  | cons cte rest ih =>
    cases out with
    | nil => cases heads
    | cons first later =>
      obtain ⟨same, remaining⟩ := List.cons.inj heads
      obtain ⟨named, listed⟩ := Prod.mk.inj same
      have behind := ih remaining
      unfold resolve at behind ⊢
      have found (head : CteReq) (tail : List CteReq) :
          ((head :: tail).find? fun cte => cte.name = name) =
            if head.name = name then some head
            else tail.find? fun cte => cte.name = name := by
        rw [find?_cons]
        by_cases hit : head.name = name
        · rw [if_pos hit, decide_eq_true hit]
        · rw [if_neg hit, decide_eq_false hit]
      rw [found, found, named]
      by_cases hit : cte.name = name
      · rw [if_pos hit, if_pos hit]
        dsimp only
        rw [listed]
      · rw [if_neg hit, if_neg hit]
        exact behind

/-- What a join is but for its tenant. -/
structure SameJoin (join bound : Join) : Prop where
  table : bound.table = join.table
  kind : bound.kind = join.kind
  on : bound.on = join.on

theorem colCtx_same {table : TableRef} {joins bounds : List Join} {ctes out : List CteReq}
    (pairs : List.Forall₂ SameJoin joins bounds)
    (heads : (out.map fun cte => (cte.name, cte.columns)) =
      ctes.map fun cte => (cte.name, cte.columns)) :
    colCtx b table bounds out = colCtx b table joins ctes := by
  have sources : bounds.mapM (joinSource b table out) = joins.mapM (joinSource b table ctes) := by
    apply mapM_same
    apply pairs.flip.imp
    intro bound join same
    unfold joinSource
    rw [same.table, same.on, resolve_heads heads]
  have listed : (out.map fun cte => (cte.name, TableSrc.cte cte.columns)) =
      ctes.map fun cte => (cte.name, TableSrc.cte cte.columns) := by
    have mapped := congrArg (List.map fun head => (head.1, TableSrc.cte head.2)) heads
    rw [map_map, map_map] at mapped
    exact mapped
  unfold colCtx
  rw [resolve_heads heads, sources, listed]

end Names

section Levels

variable {b : Build} {tid : String}

variable {ctes : List CteReq}

theorem bindJoin_ok {join bound : Join} (given : bindJoin b.registry ctes tid join = .ok bound) :
    SameJoin join bound ∧
      (isScoped b.registry ctes join.table.name = true → ∃ value,
        tenantValue b.registry join.table.name tid = .ok value ∧ bound.tenantId = some value) ∧
      (isScoped b.registry ctes join.table.name = false → bound = join) := by
  unfold bindJoin at given
  split at given
  · rename_i held
    obtain ⟨value, found, rfl⟩ := map_ok.mp given
    refine ⟨⟨rfl, rfl, rfl⟩, fun _ => ⟨value, found, rfl⟩, ?_⟩
    intro free
    rw [held] at free
    cases free
  · rename_i free
    cases given
    exact ⟨⟨rfl, rfl, rfl⟩, fun held => absurd held free, fun _ => rfl⟩

variable {ctx : ColCtx}

theorem joinClause_bound {join bound : Join} {clause : JoinClause}
    (built : joinClause b ctx join = .ok clause)
    (given : bindJoin b.registry ctes tid join = .ok bound) :
    ∃ changed, joinClause b ctx bound = .ok changed ∧
      (changed = clause.withTenant ((tenantPolicy b tid).hiding (ctes.map CteReq.name)) ↔
        (isScoped b.registry ctes join.table.name = true → '.' ∉ join.table.sqlName.toList)) := by
  obtain ⟨same, held, free⟩ := bindJoin_ok given
  obtain ⟨on, pairs, built⟩ := bind_ok.mp built
  obtain rfl := Except.ok.inj built
  by_cases tenanted : isScoped b.registry ctes join.table.name = true
  · obtain ⟨value, found, set⟩ := held tenanted
    refine ⟨⟨join.kind, join.table, on, some (.test (colRef (join.table.sqlName ++ ".tenant_id"))
      (.compare .eq (toQv b.display value)))⟩, ?_, ?_⟩
    · unfold joinClause
      rw [same.on, same.kind, same.table, set]
      exact bind_ok.mpr ⟨on, pairs, rfl⟩
    · have given : (tenantPolicy b tid).value join.table.name = toQv b.display value := by
        unfold tenantPolicy
        dsimp only
        rw [found]
      rw [JoinClause.withTenant, isScoped_hiding, if_pos tenanted, ← colRef_tenant]
      dsimp only [TenantPolicy.hiding]
      rw [given]
      constructor
      · intro equal _
        have tests := Option.some.inj (JoinClause.mk.inj equal).2.2.2
        exact (OnExpr.test.inj tests).1
      · intro plain
        rw [plain tenanted]
  · rw [free (Bool.eq_false_iff.mpr tenanted)]
    refine ⟨_, bind_ok.mpr ⟨on, pairs, rfl⟩, ?_⟩
    rw [JoinClause.withTenant, isScoped_hiding, if_neg tenanted]
    exact ⟨fun _ held => absurd held tenanted, fun _ => rfl⟩

variable {joins : List Join}

variable {clauses : List JoinClause}

theorem joins_commute {bounds : List Join} (built : joins.mapM (joinClause b ctx) = .ok clauses)
    (given : joins.mapM (bindJoin b.registry ctes tid) = .ok bounds) :
    (∀ join ∈ joins, isScoped b.registry ctes join.table.name = true →
        '.' ∉ join.table.sqlName.toList) ↔
      bounds.mapM (joinClause b ctx) = .ok (clauses.map
        (JoinClause.withTenant ((tenantPolicy b tid).hiding (ctes.map CteReq.name)))) := by
  induction joins generalizing bounds clauses with
  | nil =>
    cases built
    cases given
    exact ⟨fun _ => rfl, fun _ join member => absurd member not_mem_nil⟩
  | cons join rest ih =>
    rw [mapM_cons] at built given
    obtain ⟨clause, first, built⟩ := bind_ok.mp built
    obtain ⟨others, later, built⟩ := bind_ok.mp built
    obtain rfl := Except.ok.inj built
    obtain ⟨bound, set, given⟩ := bind_ok.mp given
    obtain ⟨remaining, behind, given⟩ := bind_ok.mp given
    obtain rfl := Except.ok.inj given
    obtain ⟨changed, rebuilt, plain⟩ := joinClause_bound first set
    rw [forall_mem_cons, ← plain, ih later behind, mapM_cons]
    constructor
    · rintro ⟨rfl, rest⟩
      exact bind_ok.mpr ⟨_, rebuilt, bind_ok.mpr ⟨_, rest, rfl⟩⟩
    · intro whole
      obtain ⟨head, again, whole⟩ := bind_ok.mp whole
      obtain ⟨tail, rest, whole⟩ := bind_ok.mp whole
      obtain ⟨rfl, rfl⟩ := List.cons.inj (Except.ok.inj whole)
      rw [rebuilt] at again
      exact ⟨Except.ok.inj again, rest⟩

theorem bindJoins_same {bounds : List Join}
    (given : joins.mapM (bindJoin b.registry ctes tid) = .ok bounds) :
    List.Forall₂ SameJoin joins bounds :=
  (mapM_ok.mp given).imp fun _ _ bound => (bindJoin_ok bound).1

variable {req : QueryReq}

theorem touched_none {registry : SchemaRegistry} (none_ : touched registry req = []) :
    isScoped registry req.ctes req.table.name = false ∧
      ∀ join ∈ req.joins, isScoped registry req.ctes join.table.name = false := by
  obtain ⟨base, joins⟩ := append_eq_nil_iff.mp none_
  constructor
  · rw [Bool.eq_false_iff]
    intro held
    rw [if_pos held] at base
    cases base
  · intro join member
    rw [map_eq_nil_iff, filter_eq_nil_iff] at joins
    exact Bool.eq_false_iff.mpr (joins join member)

theorem joins_untouched (built : joins.mapM (joinClause b ctx) = .ok clauses)
    (free : ∀ join ∈ joins, isScoped b.registry ctes join.table.name = false) :
    clauses.map (JoinClause.withTenant ((tenantPolicy b tid).hiding (ctes.map CteReq.name))) =
      clauses := by
  have pairs := mapM_ok.mp built
  clear built
  induction pairs with
  | nil => rfl
  | cons first _ ih =>
    rw [forall_mem_cons] at free
    obtain ⟨on, _, built⟩ := bind_ok.mp first
    obtain rfl := Except.ok.inj built
    have alone := free.1
    rw [map_cons, ih free.2, JoinClause.withTenant, isScoped_hiding, alone]
    rfl

variable {level : Nat}

variable {leaves : Nat}

theorem condExpr_tenant {after : Nat} {field : String} {value : Value} {expr : SqlExpr} :
    condExpr b ctx .where_ level 1 leaves (.leaf ⟨field, .eq, some value, none, none⟩) =
        .ok (expr, after) ↔
      leaves < condLeafMax ∧ ctx.checkCol field "where" = .ok () ∧
        expr = .test (.column (colRef field)) (.compare .eq (toQv b.display value)) ∧
        after = leaves + 1 := by
  constructor
  · intro built
    obtain ⟨_, _, built⟩ := bind_ok.mp built
    obtain ⟨count, counted, built⟩ := bind_ok.mp built
    obtain ⟨inner, inside, built⟩ := bind_ok.mp built
    cases inside
    obtain ⟨found, tested, built⟩ := bind_ok.mp built
    obtain ⟨rfl, rfl⟩ := Prod.mk.inj (Except.ok.inj built)
    obtain ⟨operand, column, tested⟩ := bind_ok.mp tested
    obtain ⟨_, checked, rfl⟩ := map_ok.mp column
    cases tested
    have total := countLeaf_ok counted
    refine ⟨?_, checked, rfl, total⟩
    unfold countLeaf at counted
    split at counted
    · cases counted
    · omega
  · rintro ⟨room, checked, rfl, rfl⟩
    have counted : countLeaf leaves = .ok (leaves + 1) := if_neg (by omega)
    exact bind_ok.mpr ⟨(), rfl, bind_ok.mpr ⟨_, counted, bind_ok.mpr ⟨none, rfl,
      bind_ok.mpr ⟨_, bind_ok.mpr ⟨_, map_ok.mpr ⟨(), checked, rfl⟩, rfl⟩, rfl⟩⟩⟩⟩

theorem checkCol_base {table : TableRef} (resolved : colCtx b table joins ctes = .ok ctx)
    (held : isScoped b.registry ctes table.name = true) (plain : '.' ∉ table.sqlName.toList) :
    ctx.checkCol (table.sqlName ++ ".tenant_id") "where" = .ok () := by
  obtain ⟨base, found, resolved⟩ := bind_ok.mp resolved
  obtain ⟨_, _, resolved⟩ := bind_ok.mp resolved
  obtain rfl := Except.ok.inj resolved
  unfold isScoped at held
  rw [Bool.and_eq_true, Bool.not_eq_true', any_eq_false] at held
  obtain ⟨apart, registered⟩ := held
  have missing : (ctes.find? fun cte => cte.name = table.name) = none := by
    rw [find?_eq_none]
    exact apart
  unfold resolve at found
  rw [missing] at found
  cases entry : b.registry.get table.name with
  | none =>
    rw [entry] at registered
    cases registered
  | some definition =>
    rw [entry] at registered found
    obtain rfl := Except.ok.inj found
    have column : (TableSrc.real definition).hasColumn "tenant_id" = true := by
      rw [Option.any_some, TableDef.isTenantScoped, Bool.and_eq_true] at registered
      exact registered.2
    have marked : (table.sqlName ++ ".tenant_id").toList =
        table.sqlName.toList ++ '.' :: "tenant_id".toList := by
      rw [String.toList_append]
      rfl
    unfold ColCtx.checkCol ColCtx.tableOf
    rw [marked, Text.split_once_append _ plain]
    dsimp only
    rw [String.ofList_toList, String.ofList_toList, ColCtx.named, if_pos rfl]
    dsimp only
    rw [if_pos column]
    rfl

/-- The conditions of a level that the tenant was added to. -/
theorem conditions_bound {context : TenantContext} {trees : List CondTree} {tests : List SqlExpr}
    {leaf : Cond} (resolved : colCtx b req.table req.joins req.ctes = .ok ctx)
    (nested : TreesCommute b context tid req.conditions)
    (built : condExprs b ctx .where_ level 1 0 req.conditions = .ok (tests, leaves))
    (applied : applyTenantTrees context req.conditions = .ok trees)
    (added : tenantLeaf b.registry tid req.table = .ok leaf) :
    (∃ after, condExprs b ctx .where_ level 1 0 (trees ++ [.leaf leaf]) =
        .ok (exprsWithTenant (tenantPolicy b tid) tests ++
          tenantConjuncts ((tenantPolicy b tid).hiding (req.ctes.map CteReq.name)) req.table,
          after)) ↔
      TreesBindable b.registry req.conditions ∧
        isScoped b.registry req.ctes req.table.name = true ∧ '.' ∉ req.table.sqlName.toList ∧
        leafCounts req.conditions < condLeafMax := by
  obtain ⟨value, found, rfl⟩ := map_ok.mp added
  have count : leaves = leafCounts req.conditions := by
    rw [condExprs_leaves built, Nat.zero_add]
  have conjuncts : tenantConjuncts ((tenantPolicy b tid).hiding (req.ctes.map CteReq.name))
      req.table = if isScoped b.registry req.ctes req.table.name then
        [tenantTest req.table (toQv b.display value)] else [] := by
    rw [tenantConjuncts, isScoped_hiding]
    dsimp only [TenantPolicy.hiding, tenantPolicy]
    rw [found]
  have size : tests.length = trees.length := by
    rw [condExprs_length built, applyTenantTrees_length applied]
  rw [conjuncts, nested built applied]
  constructor
  · rintro ⟨after, rebuilt⟩
    obtain ⟨front, sum, expr, started, closing, same⟩ := condExprs_append.mp rebuilt
    obtain ⟨room, _, equal, _⟩ := condExpr_tenant.mp closing
    have total : sum = leaves := by
      rw [condExprs_leaves started, applyTenantTrees_leaves applied, count, Nat.zero_add]
    by_cases held : isScoped b.registry req.ctes req.table.name = true
    · rw [if_pos held] at same
      obtain ⟨rfl, last⟩ := append_inj' same rfl
      have tested := (List.cons.inj last).1
      rw [equal] at tested
      have named := (Operand.column.inj (SqlExpr.test.inj tested).1).symm
      refine ⟨?_, held, (colRef_tenant req.table.sqlName).mp named, ?_⟩
      · rw [started, total]
      · rw [← count, ← total]
        exact room
    · rw [if_neg held, append_nil] at same
      have longer := congrArg List.length same
      rw [exprsWithTenant_length, length_append, condExprs_length started, size] at longer
      exact absurd longer (Nat.ne_of_lt (Nat.lt_succ_self _))
  · rintro ⟨inside, held, plain, room⟩
    rw [if_pos held]
    refine ⟨leaves + 1, condExprs_append.mpr ⟨_, leaves, _, inside, condExpr_tenant.mpr
      ⟨by rw [count]; exact room, checkCol_base resolved held plain, rfl, rfl⟩, ?_⟩⟩
    rw [tenantTest, (colRef_tenant req.table.sqlName).mpr plain]

theorem allColumns_withTenant (policy : TenantPolicy) (ctx : ColCtx) (joined : Bool) :
    columnsWithTenant policy (allColumns b ctx joined) = allColumns b ctx joined := by
  unfold allColumns
  induction ctx.base.colNames b with
  | nil => rfl
  | cons name rest ih =>
    rw [map_cons, columnsWithTenant, ih]
    nofun

variable {columns : List ColSpec}

theorem isStar_any {out : List ColSpec}
    (shape : out.map ColSpec.isStar = columns.map ColSpec.isStar) :
    out.any ColSpec.isStar = columns.any ColSpec.isStar := by
  have counted := congrArg (fun flags => flags.any id) shape
  rw [any_map, any_map] at counted
  exact counted

theorem columnStage_commutes {context : TenantContext} {joined : Bool} {out : List ColSpec}
    {exprs : List SelectExpr} {aliases : Aliases} (nested : ColumnsCommute b context tid columns)
    (star : checkStar columns joins = .ok ())
    (built : columnStage b ctx level joined columns = .ok (exprs, aliases))
    (applied : applyTenantColumns context columns = .ok out) :
    (ColumnsBindable b.registry columns ↔ columnStage b ctx level joined out =
        .ok (columnsWithTenant (tenantPolicy b tid) exprs, aliases)) ∧
      ∀ {others : List SelectExpr} {renamed : Aliases},
        columnStage b ctx level joined out = .ok (others, renamed) → renamed = aliases := by
  have shape := applyTenantColumns_shape applied
  have width := congrArg List.length shape
  rw [length_map, length_map] at width
  unfold columnStage at built ⊢
  rw [isEmpty_of_length width, isStar_any shape]
  by_cases whole : (columns.isEmpty || columns.any ColSpec.isStar) = true
  · rw [if_pos whole] at built ⊢
    obtain ⟨rfl, rfl⟩ := Prod.mk.inj (Except.ok.inj built)
    rw [allColumns_withTenant]
    have bindable : ColumnsBindable b.registry columns := by
      cases columns with
      | nil => trivial
      | cons column rest =>
        unfold checkStar at star
        rw [isEmpty_cons, Bool.false_or] at whole
        rw [if_pos whole] at star
        cases rest with
        | nil =>
          cases column with
          | star => trivial
          | name | lit | agg | case | window => cases whole
        | cons next later =>
          cases star
    refine ⟨⟨fun _ => rfl, fun _ => bindable⟩, ?_⟩
    intro others renamed rebuilt
    exact (Prod.mk.inj (Except.ok.inj rebuilt)).2.symm
  · rw [if_neg whole] at built ⊢
    exact ⟨nested built applied, fun rebuilt => selectExprs_aliases built applied rebuilt⟩

theorem withTenant_parts (policy : TenantPolicy) (ctes : List String)
    (statement : SelectStatement) :
    statement.withTenant policy ctes =
      { statement with
        columns := columnsWithTenant policy statement.columns
        joins := statement.joins.map (JoinClause.withTenant (policy.hiding ctes))
        conditions := exprsWithTenant policy statement.conditions ++
          tenantConjuncts (policy.hiding ctes) statement.table
        having := havingWithTenant policy statement.having
        unions := unionsWithTenant policy statement.unions } := by
  cases statement
  rw [SelectStatement.withTenant]

/-- A level is built again as it was but for its joins and its conditions. -/
theorem stages_bound {context : TenantContext} {statement : SelectStatement} {aliases : Aliases}
    {bound : Level} {conditions : List CondTree} {having : Option CondTree} {unions : List UnionArm}
    {source : Option QueryReq} (stages : Stages b level req statement ctx aliases leaves)
    (inColumns : ColumnsCommute b context tid req.columns)
    (inHaving : HavingCommutes b context tid req.having)
    (inUnions : UnionsCommute b context tid req.unions)
    (shaped : applyTenantColumns context req.columns = .ok columns)
    (filtered : applyTenantHaving context req.having = .ok having)
    (members : applyTenantUnions context req.unions = .ok unions)
    (heads : applyTenantCtes context req.ctes = .ok ctes)
    (pairs : List.Forall₂ SameJoin req.joins bound.joins) :
    buildSelect b level (req.bound bound conditions having columns unions ctes source) =
        .ok (statement.withTenant (tenantPolicy b tid) (req.ctes.map CteReq.name)) ↔
      (ColumnsBindable b.registry req.columns ∧ HavingBindable b.registry req.having ∧
        UnionsBindable b.registry req.unions) ∧
      bound.joins.mapM (joinClause b ctx) = .ok (statement.joins.map (JoinClause.withTenant
        ((tenantPolicy b tid).hiding (req.ctes.map CteReq.name)))) ∧
      ∃ after, condExprs b ctx .where_ level 1 0
          (conditions ++ (bound.leaf.map CondTree.leaf).toList) =
        .ok (exprsWithTenant (tenantPolicy b tid) statement.conditions ++
          tenantConjuncts ((tenantPolicy b tid).hiding (req.ctes.map CteReq.name)) req.table,
          after) := by
  have resolved : colCtx b req.table bound.joins ctes = .ok ctx := by
    rw [colCtx_same pairs (applyTenantCtes_heads heads), stages.resolved]
  have joined : bound.joins.isEmpty = req.joins.isEmpty :=
    isEmpty_of_length pairs.length_eq.symm
  have shape := applyTenantColumns_shape shaped
  have width := congrArg List.length shape
  rw [length_map, length_map] at width
  have star : checkStar columns bound.joins = .ok () := by
    have before := stages.star
    unfold checkStar at before ⊢
    rw [isStar_any shape, width, joined]
    exact before
  have wide : (!unions.isEmpty && columns.isEmpty) = false := by
    rw [isEmpty_of_length (applyTenantUnions_length members), isEmpty_of_length width]
    exact stages.wide
  obtain ⟨exprs, named⟩ := columnStage_commutes inColumns stages.star stages.columns shaped
  rw [exprs, inHaving stages.having filtered, inUnions stages.unions members, buildSelect_stages,
    withTenant_parts]
  constructor
  · rintro ⟨again, renamed, total, rebuilt⟩
    have same : again = ctx := Except.ok.inj (rebuilt.resolved.symm.trans resolved)
    obtain rfl := same
    have kept : columnStage b again level (!req.joins.isEmpty) columns =
        .ok (columnsWithTenant (tenantPolicy b tid) statement.columns, renamed) := by
      rw [← joined]
      exact rebuilt.columns
    obtain rfl := named kept
    have widths : unionMembers b level columns.length unions =
        .ok (unionsWithTenant (tenantPolicy b tid) statement.unions) := rebuilt.unions
    rw [width] at widths
    refine ⟨⟨kept, rebuilt.having, widths⟩, rebuilt.joins, total, ?_⟩
    rw [← stages.table]
    exact rebuilt.conditions
  · rintro ⟨⟨kept, having, widths⟩, clauses, total, tests⟩
    refine ⟨ctx, aliases, total, ?_⟩
    exact
      { resolved := resolved
        star := star
        columns := by
          change columnStage b ctx level (!bound.joins.isEmpty) columns = _
          rw [joined]
          exact kept
        joins := clauses
        conditions := by
          rw [stages.table]
          exact tests
        groupBy := stages.groupBy
        having := having
        orderBy := stages.orderBy
        wide := wide
        unions := by
          change unionMembers b level columns.length unions = _
          rw [width]
          exact widths
        table := stages.table
        distinct := stages.distinct
        limit := stages.limit
        offset := stages.offset }

theorem bindable_parts (registry : SchemaRegistry) (req : QueryReq) :
    Bindable registry req ↔ LevelBindable registry req ∧ ColumnsBindable registry req.columns ∧
      TreesBindable registry req.conditions ∧ HavingBindable registry req.having ∧
      UnionsBindable registry req.unions := by
  cases req
  rw [Bindable]

/-- A select commutes where the requests inside it do. -/
theorem select_commutes {context : TenantContext} (registry : context.registry = b.registry)
    (tenant : context.tenantId = some tid) (inColumns : ColumnsCommute b context tid req.columns)
    (inConditions : TreesCommute b context tid req.conditions)
    (inHaving : HavingCommutes b context tid req.having)
    (inUnions : UnionsCommute b context tid req.unions) : SelectCommutes b context tid req := by
  intro level statement out verb built applied
  obtain ⟨ctx, aliases, leaves, stages⟩ := buildSelect_stages.mp built
  obtain ⟨bound, conditions, having, columns, unions, ctes, source, protected_, trees, filtered,
    shaped, members, heads, _, rfl⟩ := apply_parts applied
  have select : req.verb ≠ .insert := by
    rw [verb]
    decide
  rw [bindable_parts]
  rcases protect_bound select protected_ with ⟨rfl, free⟩ | ⟨reached, given, leaf, joins, same,
    added, _, joined, rfl⟩
  · have none_ : touched b.registry req = [] := by
      rw [tenant, registry] at free
      exact free.resolve_left (Option.some_ne_none _)
    obtain ⟨base, others⟩ := touched_none none_
    have alone : List.Forall₂ SameJoin req.joins req.joins :=
      List.forall₂_same.mpr fun _ _ => ⟨rfl, rfl, rfl⟩
    have conjuncts : tenantConjuncts ((tenantPolicy b tid).hiding (req.ctes.map CteReq.name))
        req.table = [] := by
      rw [tenantConjuncts, isScoped_hiding, base]
      rfl
    rw [stages_bound stages inColumns inHaving inUnions shaped filtered members heads alone,
      joins_untouched stages.joins others, conjuncts, append_nil,
      inConditions stages.conditions trees]
    have leveled : LevelBindable b.registry req := .inl none_
    have unbound : (Level.unchanged req).joins.mapM (joinClause b ctx) = .ok statement.joins :=
      stages.joins
    change _ ↔ _ ∧ _ ∧ ∃ after, condExprs b ctx .where_ level 1 0 (conditions ++ []) = _
    rw [append_nil]
    constructor
    · rintro ⟨_, first, second, third, fourth⟩
      exact ⟨⟨first, third, fourth⟩, unbound, leaves, second⟩
    · rintro ⟨⟨first, third, fourth⟩, _, total, second⟩
      have counted : total = leaves := by
        rw [condExprs_leaves second, condExprs_leaves stages.conditions,
          applyTenantTrees_leaves trees]
      rw [counted] at second
      exact ⟨leveled, first, second, third, fourth⟩
  · obtain rfl := Option.some.inj (tenant.symm.trans same)
    rw [registry] at added joined reached
    rw [stages_bound stages inColumns inHaving inUnions shaped filtered members heads
      (bindJoins_same joined)]
    have clauses := joins_commute stages.joins joined
    have tests := conditions_bound stages.resolved inConditions stages.conditions trees added
    change _ ↔ _ ∧ joins.mapM (joinClause b ctx) = _ ∧ ∃ after, condExprs b ctx .where_ level 1 0
      (conditions ++ [.leaf leaf]) = _
    rw [← clauses, tests]
    constructor
    · rintro ⟨leveled, first, second, third, fourth⟩
      have fits := leveled.resolve_left reached
      exact ⟨⟨first, third, fourth⟩, fits.joins, second, fits.base, fits.plain, fits.leaves⟩
    · rintro ⟨⟨first, third, fourth⟩, joins, second, base, plain, room⟩
      exact ⟨.inr ⟨base, plain, joins, room⟩, first, second, third, fourth⟩

end Levels

section Requests

variable {b : Build} {context : TenantContext} {tid : String}

mutual

theorem query_commutes (registry : context.registry = b.registry)
    (tenant : context.tenantId = some tid) :
    ∀ req : QueryReq, SelectCommutes b context tid req
  | ⟨_, _, _, _, _, _, columns, _, _, having, conditions, _, _, _, unions, _, _, _, _, _⟩ =>
    select_commutes registry tenant (columns_commute registry tenant columns)
      (trees_commute registry tenant conditions) (having_commutes registry tenant having)
      (unions_commute registry tenant unions)

theorem tree_commutes (registry : context.registry = b.registry)
    (tenant : context.tenantId = some tid) :
    ∀ tree : CondTree, TreeCommutes b context tid tree
  | .leaf ⟨_, _, _, _, subquery⟩ => tree_leaf (subquery_commutes registry tenant subquery)
  | .exists_ query => tree_exists (query_commutes registry tenant query)
  | .and trees => tree_and (trees_commute registry tenant trees)
  | .or trees => tree_or (trees_commute registry tenant trees)
  | .not tree => tree_not (tree_commutes registry tenant tree)

theorem trees_commute (registry : context.registry = b.registry)
    (tenant : context.tenantId = some tid) :
    ∀ trees : List CondTree, TreesCommute b context tid trees
  | [] => trees_nil
  | tree :: rest =>
    trees_cons (tree_commutes registry tenant tree) (trees_commute registry tenant rest)

theorem subquery_commutes (registry : context.registry = b.registry)
    (tenant : context.tenantId = some tid) :
    ∀ subquery : Option QueryReq, SubqueryCommutes b context tid subquery
  | none => subquery_none
  | some query => subquery_some (query_commutes registry tenant query)

theorem having_commutes (registry : context.registry = b.registry)
    (tenant : context.tenantId = some tid) :
    ∀ having : Option CondTree, HavingCommutes b context tid having
  | none => having_absent
  | some tree => having_present (tree_commutes registry tenant tree)

theorem arms_commute (registry : context.registry = b.registry)
    (tenant : context.tenantId = some tid) :
    ∀ arms : List CaseWhen, ArmsCommute b context tid arms
  | [] => arms_nil
  | ⟨cond, _⟩ :: rest =>
    arms_cons (tree_commutes registry tenant cond) (arms_commute registry tenant rest)

theorem columns_commute (registry : context.registry = b.registry)
    (tenant : context.tenantId = some tid) :
    ∀ columns : List ColSpec, ColumnsCommute b context tid columns
  | [] => columns_nil
  | .case arms _ _ :: rest =>
    columns_case (arms_commute registry tenant arms) (columns_commute registry tenant rest)
  | .name _ :: rest | .star :: rest | .lit _ _ :: rest | .agg _ _ _ _ :: rest
  | .window _ _ _ _ :: rest =>
    columns_plain (by intro _ _ _ same; cases same) (columns_commute registry tenant rest)

theorem unions_commute (registry : context.registry = b.registry)
    (tenant : context.tenantId = some tid) :
    ∀ unions : List UnionArm, UnionsCommute b context tid unions
  | [] => unions_nil
  | ⟨_, query⟩ :: rest =>
    unions_cons (query_commutes registry tenant query) (unions_commute registry tenant rest)

end

variable {clauses : List CteClause}

theorem cteClauses_names {ctes : List CteReq} (built : ctes.mapM (cteClause b) = .ok clauses) :
    clauses.map CteClause.name = ctes.map CteReq.name := by
  have pairs := mapM_ok.mp built
  clear built
  induction pairs with
  | nil => rfl
  | cons first _ ih =>
    iterate 5 obtain ⟨_, _, first⟩ := bind_ok.mp first
    obtain rfl := Except.ok.inj first
    rw [map_cons, map_cons, ih]

/-- The common table expressions before a select, one by one. -/
theorem ctes_commute (registry : context.registry = b.registry)
    (tenant : context.tenantId = some tid) {ctes out : List CteReq}
    (built : ctes.mapM (cteClause b) = .ok clauses)
    (applied : applyTenantCtes context ctes = .ok out) :
    (∀ cte ∈ ctes, Bindable b.registry cte.query) ↔
      out.mapM (cteClause b) = .ok (clauses.map fun cte =>
        { cte with statement := cte.statement.withTenant (tenantPolicy b tid) [] }) := by
  induction ctes generalizing out clauses with
  | nil =>
    cases applied
    cases built
    exact ⟨fun _ => rfl, fun _ cte member => absurd member not_mem_nil⟩
  | cons cte rest ih =>
    obtain ⟨name, columns, query⟩ := cte
    obtain ⟨bound, changed, applied⟩ := bind_ok.mp applied
    obtain ⟨bounds, remaining, applied⟩ := bind_ok.mp applied
    obtain rfl := Except.ok.inj applied
    rw [mapM_cons] at built
    obtain ⟨clause, first, built⟩ := bind_ok.mp built
    obtain ⟨others, later, built⟩ := bind_ok.mp built
    obtain rfl := Except.ok.inj built
    obtain ⟨_, named, first⟩ := bind_ok.mp first
    obtain ⟨_, listed, first⟩ := bind_ok.mp first
    obtain ⟨_, columned, first⟩ := bind_ok.mp first
    obtain ⟨_, valid, first⟩ := bind_ok.mp first
    obtain ⟨statement, select, first⟩ := bind_ok.mp first
    obtain rfl := Except.ok.inj first
    obtain ⟨verb, alone⟩ := validateNested_ok valid
    have around := query_commutes registry tenant query verb select changed
    rw [alone, map_nil] at around
    have valid : validateNested bound 1 "cte" = .ok () := by
      rw [validateNested_same (applyTenant_shape changed)]
      exact valid
    rw [forall_mem_cons, around, ih later remaining, mapM_cons]
    constructor
    · rintro ⟨inside, beyond⟩
      have again : cteClause b ⟨name, columns, bound⟩ =
          .ok ⟨name, columns, statement.withTenant (tenantPolicy b tid) []⟩ :=
        bind_ok.mpr ⟨(), named, bind_ok.mpr ⟨(), listed, bind_ok.mpr ⟨(), columned,
          bind_ok.mpr ⟨(), valid, bind_ok.mpr ⟨_, inside, rfl⟩⟩⟩⟩⟩
      exact bind_ok.mpr ⟨_, again, bind_ok.mpr ⟨_, beyond, rfl⟩⟩
    · intro rebuilt
      obtain ⟨head, again, rebuilt⟩ := bind_ok.mp rebuilt
      obtain ⟨tail, beyond, rebuilt⟩ := bind_ok.mp rebuilt
      obtain ⟨rfl, rfl⟩ := List.cons.inj (Except.ok.inj rebuilt)
      iterate 4 obtain ⟨_, _, again⟩ := bind_ok.mp again
      obtain ⟨other, inside, again⟩ := bind_ok.mp again
      obtain ⟨_, _, same⟩ := CteClause.mk.inj (Except.ok.inj again)
      rw [← same]
      exact ⟨inside, beyond⟩

theorem validateVerb_select {req : QueryReq} (verb : req.verb = .select) :
    validateVerb req = validateSelect req := by
  have named : (req.table.asName.isSome && decide (req.verb ≠ .select)) = false := by
    rw [verb]
    exact Bool.and_false _
  unfold validateVerb
  rw [named, verb]
  rfl

theorem validateVerb_bound {req out : QueryReq} (verb : req.verb = .select)
    (valid : validateVerb req = .ok ()) (applied : applyTenant context req = .ok out) :
    validateVerb out = .ok () := by
  have select : req.verb ≠ .insert := by
    rw [verb]
    decide
  rw [validateVerb_select verb] at valid
  rw [validateVerb_select ((applyTenant_shape applied).verb.trans verb)]
  obtain ⟨bound, conditions, having, columns, unions, ctes, source, protected_, _, _, _, _, _,
    sourced, rfl⟩ := apply_parts applied
  have kept : bound.values = req.values ∧ bound.insertCols = req.insertCols := by
    rcases protect_bound select protected_ with ⟨rfl, _⟩ | ⟨_, _, _, _, _, _, _, _, rfl⟩
    · exact ⟨rfl, rfl⟩
    · exact ⟨rfl, rfl⟩
  obtain ⟨values, insertCols⟩ := kept
  unfold validateSelect at valid ⊢
  dsimp only [QueryReq.bound]
  rw [values, insertCols, Option.isSome_map, applyTenantSource_isSome sourced]
  exact valid

end Requests

/-- A statement stays what it was but for its tenant, where the tables with tenants that a select
reads are its base or are joined to one, and nowhere else. -/
theorem tenant_transparent_iff {b : Build} {context : TenantContext} {tid : String}
    {req out : QueryReq} {statement : Statement} (registry : context.registry = b.registry)
    (tenant : context.tenantId = some tid) (verb : req.verb = .select)
    (accepted : buildStatement b req = .ok statement)
    (applied : applyTenant context req = .ok out) :
    buildStatement b out = .ok (statement.withTenant (tenantPolicy b tid)) ↔
      StatementBindable b.registry req := by
  obtain ⟨_, valid, accepted⟩ := bind_ok.mp accepted
  obtain ⟨clauses, ctes, accepted⟩ := bind_ok.mp accepted
  obtain ⟨select, built, accepted⟩ := bind_ok.mp accepted
  obtain rfl := Except.ok.inj accepted
  have checked := validateVerb_bound verb valid applied
  have names : clauses.map CteClause.name = req.ctes.map CteReq.name := cteClauses_names ctes
  have heads : applyTenantCtes context req.ctes = .ok out.ctes := by
    obtain ⟨_, _, _, _, _, _, _, _, _, _, _, _, heads, _, rfl⟩ := apply_parts applied
    exact heads
  unfold StatementBindable
  rw [query_commutes registry tenant req verb built applied,
    ctes_commute registry tenant ctes heads, Statement.withTenant]
  rw [names]
  constructor
  · intro rebuilt
    obtain ⟨_, _, rebuilt⟩ := bind_ok.mp rebuilt
    obtain ⟨first, before, rebuilt⟩ := bind_ok.mp rebuilt
    obtain ⟨second, after, rebuilt⟩ := bind_ok.mp rebuilt
    obtain ⟨rfl, rfl⟩ := Statement.mk.inj (Except.ok.inj rebuilt)
    exact ⟨after, before⟩
  · rintro ⟨after, before⟩
    exact bind_ok.mpr ⟨(), checked, bind_ok.mpr ⟨_, before, bind_ok.mpr ⟨_, after, rfl⟩⟩⟩

/-- A table `orders` of the tenants, and a table `countries` that all tenants share. -/
def shopRegistry : SchemaRegistry where
  tables := (Finmap.singleton "orders" ⟨(Finmap.singleton "tenant_id" ⟨true, .text⟩).insert
    "country" ⟨true, .text⟩, ["country"], false⟩).insert
      "countries" ⟨Finmap.singleton "code" ⟨true, .text⟩, ["code"], true⟩

def shopBuild : Build where
  registry := shopRegistry
  dialect := .sqlite
  columnNames := fun table => if table.shared then ["code"] else ["country", "tenant_id"]
  display := fun _ => ""

def shopContext : TenantContext where
  guard := .deny
  tenantId := some "a"
  system := false
  registry := shopRegistry

theorem tenant_transparent_orders :
    ∃ statement out, buildStatement shopBuild (QueryReq.plain .select "orders") = .ok statement ∧
      applyTenant shopContext (QueryReq.plain .select "orders") = .ok out ∧
      buildStatement shopBuild out = .ok (statement.withTenant (tenantPolicy shopBuild "a")) := by
  have accepted : ∃ statement,
      buildStatement shopBuild (QueryReq.plain .select "orders") = .ok statement := ⟨_, rfl⟩
  have applied : ∃ out, applyTenant shopContext (QueryReq.plain .select "orders") = .ok out :=
    ⟨_, rfl⟩
  obtain ⟨statement, accepted⟩ := accepted
  obtain ⟨out, applied⟩ := applied
  refine ⟨statement, out, accepted, applied,
    (tenant_transparent_iff rfl rfl rfl accepted applied).mpr ⟨?_, by nofun⟩⟩
  exact ⟨.inr ⟨rfl, by decide, by nofun, by decide⟩, trivial, trivial, trivial, trivial⟩

def countryOrders : QueryReq :=
  { QueryReq.plain .select "countries" with
    joins := [⟨⟨"orders", none⟩, .left, [.cols "countries.code" "orders.country"], none⟩] }

/-- A shared base to which a table of the tenants is joined gets a condition on a column that it
does not have. -/
theorem shared_base_refused :
    ∃ statement out, countryOrders.verb = .select ∧
      buildStatement shopBuild countryOrders = .ok statement ∧
      applyTenant shopContext countryOrders = .ok out ∧
      buildStatement shopBuild out =
        .error "unknown column 'countries.tenant_id' in where" := by
  refine ⟨_, _, rfl, rfl, rfl, rfl⟩

end OnlyJs.Bridge.Query
