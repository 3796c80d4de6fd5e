import OnlyJs.Bridge.Explain.Fronts
import OnlyJs.Lib.Fallible

/-!
# What `db.explain` sends

The text that is sent should be an `EXPLAIN` that runs nothing, and the tenant guard and the
classification of risks should judge the statement inside it. The constant in front brings no
option of its own that runs the statement, but the caller's text may go on with the options.
-/

namespace OnlyJs.Bridge.Explain

open Bridge.DbPolicy List Option
open Bridge.DbSurface (explainPrefix)
open Bridge.Guard
open Bridge.Runtime (SqlGuard)
open Lib.ExplainSyntax Lib.Text

/-- What the text sent to a server must be. -/
structure Faithful (call : Call) (server : Server) (text : List Char) : Prop where
  dry : ∃ settings rest, explain server text = some (settings, rest) ∧ analyzes settings = false
  guarded : call.tenant.guard = .deny → call.tenant.tenantId.isSome = true →
    call.guards (innermost server text) = true
  judged : (classify text).risk = (classify (innermost server text)).risk

/-- The text goes on with the options of the `EXPLAIN` in front of it, or with an `EXPLAIN` of
its own. -/
def begins (server : Server) (sql : List Char) : Bool :=
  match server with
  | .postgres => (options .postgres sql).isSome || (explain .postgres sql).isSome
  | .mySql => (explain .mySql sql).isSome

/-- The first statement is no riskier than those behind it, or only reads. -/
def HeadMild (sql : List Char) : Prop :=
  ∀ first others, statements sql = some (first :: others) →
    severity (stmtRisk first) ≤ severity ((others.map stmtRisk).foldl worse .readOnly)

/-- The caller's text does not switch `ANALYZE` on. It is a statement that only reads, or one
with a riskier one behind it; where it brings options or an `EXPLAIN` of its own, the guard
accepts what is inside, and that is classified as the whole is. -/
structure Tame (call : Call) (server : Server) (text : List Char) : Prop where
  quiet : server = .postgres → ∀ settings rest,
    options .postgres call.sql = some (settings, rest) → analyzes settings = false
  plain : begins server call.sql = false → HeadMild call.sql
  begun : begins server call.sql = true →
    (call.tenant.guard = .deny → call.tenant.tenantId.isSome = true →
      call.guards (innermost server text) = true) ∧
    (classify text).risk = (classify (innermost server text)).risk

section Heads

theorem explain_blank (server : Server) (sql : List Char) :
    explain server (' ' :: sql) = explain server sql := by
  cases server <;> rfl

theorem explain_postgres (sql : List Char) :
    explain .postgres ("EXPLAIN ".toList ++ sql) =
      some ((options .postgres sql).getD ([], ' ' :: sql)) := rfl

theorem explain_my_sql (sql : List Char) :
    explain .mySql ("EXPLAIN FORMAT=JSON ".toList ++ sql) =
      some ([⟨"format".toList, some (.text "json".toList)⟩], ' ' :: sql) := rfl

theorem innermost_from_plain {server : Server} {text : List Char}
    (plain : explain server text = none) (fuel : Nat) : innermostFrom server fuel text = text := by
  cases fuel with
  | zero => rfl
  | succ fuel => simp only [innermostFrom, plain]

theorem innermost_sent {server : Server} {text sql : List Char} {settings : List Setting}
    (head : explain server text = some (settings, ' ' :: sql))
    (plain : explain server sql = none) : innermost server text = ' ' :: sql := by
  cases text with
  | nil => cases server <;> cases head
  | cons c text =>
    simp only [innermost, length_cons, innermostFrom, head]
    exact innermost_from_plain ((explain_blank server sql).trans plain) text.length

end Heads

section Guards

theorem lower_e {c : Char} (lower : c.toLower = 'e') : c = 'e' ∨ c = 'E' := by
  unfold Char.toLower at lower
  split at lower
  · rename_i range
    apply Or.inr
    have sum : (c.val + ('a'.val - 'A'.val)).toNat = 'e'.val.toNat :=
      congrArg (fun d => d.val.toNat) lower
    have below : c.val.toNat ≤ 90 := UInt32.le_iff_toNat_le.mp range.2
    have gap : ('a'.val - 'A'.val).toNat = 32 := rfl
    have letter : 'e'.val.toNat = 101 := rfl
    rw [UInt32.toNat_add] at sum
    apply Char.ext
    apply UInt32.toNat_inj.mp
    change c.val.toNat = 69
    omega
  · exact .inl lower

def changeKeywords : List String := ddlKeywords ++ dmlKeywords

theorem keyword_of_explain {sql : List Char}
    (begun : "explain".toList.isPrefixOf ((trimStart sql).map Char.toLower) = true) :
    firstKeyword sql ∉ changeKeywords := by
  cases trimmed : trimStart sql with
  | nil =>
    rw [trimmed] at begun
    cases begun
  | cons c rest =>
    rw [trimmed] at begun
    have lower : c.toLower = 'e' := by
      have first := (Bool.and_eq_true_iff.mp begun).1
      exact (beq_iff_eq.mp first).symm
    have first : (firstKeyword sql).toList.head? = some 'E' := by
      rcases lower_e lower with rfl | rfl <;>
        simp [firstKeyword, Guard.upper, trimmed, isWhitespace]
    intro listed
    have apart : ∀ keyword ∈ changeKeywords, keyword.toList.head? ≠ some 'E' := by decide
    exact apart _ listed first

variable {context : TenantContext} {sql : List Char} {params : List Value}

theorem check_tenant_scope (calm : firstKeyword sql ∉ changeKeywords) :
    checkTenantRaw context sql params =
      if context.guard = .off ∨ context.system then .ok ()
      else context.checkScope sql params := by
  have ddl : ddlKeywords.contains (firstKeyword sql) = false := by
    rw [← Bool.not_eq_true, contains_iff_mem]
    exact fun listed => calm (mem_append_left _ listed)
  have dml : dmlKeywords.contains (firstKeyword sql) = false := by
    rw [← Bool.not_eq_true, contains_iff_mem]
    exact fun listed => calm (mem_append_right _ listed)
  simp only [checkTenantRaw, ddl, dml, Bool.or_false, Bool.false_and, Bool.false_eq_true, if_false]

theorem check_tenant_blank :
    checkTenantRaw context (' ' :: sql) params = checkTenantRaw context sql params := by
  have keyword : firstKeyword (' ' :: sql) = firstKeyword sql := rfl
  have registered : context.registered (' ' :: sql) = context.registered sql := by
    have tables : extractTables (' ' :: sql) = extractTables sql :=
      extract_tables_passed blank_passed sql
    simp only [TenantContext.registered, tables]
  have same : context.checkScope (' ' :: sql) params = context.checkScope sql params :=
    check_scope_passed blank_passed context sql params
  simp only [checkTenantRaw, keyword, registered, same]

theorem guards_of_sent {call : Call} {front inner : List Char} (passed : Passed front)
    (explaining : firstKeyword (front ++ call.sql) = "EXPLAIN")
    (found : innerSqlOf call.sql = some inner) (first : call.guards inner = true)
    (second : call.guards (front ++ call.sql) = true) : call.guards call.sql = true := by
  by_cases begun :
      "explain".toList.isPrefixOf ((trimStart call.sql).map Char.toLower) = true
  · have calm : firstKeyword (front ++ call.sql) ∉ changeKeywords := by
      rw [explaining]
      decide
    unfold Call.guards at second ⊢
    rw [check_tenant_scope calm, check_scope_passed passed] at second
    rw [check_tenant_scope (keyword_of_explain begun)]
    exact second
  · unfold innerSqlOf at found
    simp only [begun] at found
    cases found
    exact first

end Guards

section Risks

theorem statements_blank (sql : List Char) : statements (' ' :: sql) = statements sql := by
  have fronts : Fronts [' '] [] := fun _ => rfl
  have same := statements_fronts fronts sql
  have unchanged : prepend [] = id := by
    funext stmts
    cases stmts <;> rfl
  rw [unchanged, Option.map_id] at same
  exact same

theorem classify_blank (sql : List Char) : classify (' ' :: sql) = classify sql := by
  simp only [classify, statements_blank]

theorem risk_of_statements {sql : List Char} {stmts : List (List String)}
    (scanned : statements sql = some stmts) :
    (classify sql).risk = (stmts.map stmtRisk).foldl worse .readOnly := by
  simp only [classify, scanned]

theorem severity_foldl (risks : List Risk) (initial : Risk) :
    severity (risks.foldl worse initial) =
      max (severity initial) (severity (risks.foldl worse .readOnly)) := by
  induction risks generalizing initial with
  | nil => exact (Nat.max_zero _).symm
  | cons risk risks ih =>
    rw [foldl_cons, foldl_cons, ih (worse initial risk), ih (worse .readOnly risk),
      severity_worse, severity_worse]
    have least : severity .readOnly = 0 := rfl
    omega

/-- An `EXPLAIN` in front of a text only reads, so the text is judged by what is behind its
first statement. -/
theorem risk_fronts {front sql : List Char} {words : List String} (fronts : Fronts front words)
    (reads : ∀ more, stmtRisk (words ++ more) = .readOnly) :
    (classify (front ++ sql)).risk = (classify sql).risk ↔ HeadMild sql := by
  have read := statements_fronts fronts sql
  cases scanned : statements sql with
  | none =>
    rw [scanned, map_none] at read
    have vacuous : HeadMild sql := by
      intro first others some_
      rw [scanned] at some_
      cases some_
    have same : (classify (front ++ sql)).risk = (classify sql).risk := by
      simp only [classify, read, scanned]
    exact iff_of_true same vacuous
  | some stmts =>
    obtain ⟨first, others, rfl⟩ := statements_cons scanned
    rw [scanned, map_some, prepend] at read
    have mild : HeadMild sql ↔
        severity (stmtRisk first) ≤ severity ((others.map stmtRisk).foldl worse .readOnly) := by
      constructor
      · intro mild
        exact mild first others scanned
      · intro below own more some_
        rw [scanned] at some_
        cases some_
        exact below
    rw [risk_of_statements read, risk_of_statements scanned, mild, map_cons, map_cons,
      foldl_cons, foldl_cons, reads]
    have same : worse .readOnly .readOnly = .readOnly := rfl
    have total := severity_foldl (others.map stmtRisk) (worse .readOnly (stmtRisk first))
    rw [severity_worse] at total
    have least : severity .readOnly = 0 := rfl
    rw [same]
    constructor
    · intro equal
      rw [← equal] at total
      omega
    · intro below
      apply severity_injective
      omega

end Risks

section Calls

/-- A constant that makes the text behind it an `EXPLAIN` and that guard and classifier know. -/
structure Explaining (server : Server) (front : List Char) : Prop where
  passed : Passed front
  keyword : ∀ sql, firstKeyword (front ++ sql) = "EXPLAIN"
  reads : ∃ words, Fronts front words ∧ ∀ more, stmtRisk (words ++ more) = .readOnly
  head : ∀ sql, begins server sql = false → ∃ settings,
    explain server (front ++ sql) = some (settings, ' ' :: sql) ∧ explain server sql = none
  switched : ∀ sql, (∃ settings rest, explain server (front ++ sql) = some (settings, rest) ∧
      analyzes settings = false) ↔
    (server = .postgres → ∀ settings rest,
      options .postgres sql = some (settings, rest) → analyzes settings = false)

theorem postgres_explaining : Explaining .postgres "EXPLAIN ".toList where
  passed := explain_passed
  keyword _ := rfl
  reads := by
    refine ⟨["EXPLAIN"], fun _ => rfl, fun more => ?_⟩
    simp [stmtRisk, classifyStmt]
  head sql plain := by
    obtain ⟨unset, unexplained⟩ := Bool.or_eq_false_iff.mp plain
    rw [isSome_eq_false_iff, isNone_iff_eq_none] at unset unexplained
    refine ⟨[], ?_, unexplained⟩
    rw [explain_postgres, unset]
    rfl
  switched sql := by
    rw [explain_postgres]
    cases set : options .postgres sql with
    | none =>
      refine iff_of_true ⟨[], ' ' :: sql, rfl, rfl⟩ ?_
      intro _ settings rest found
      cases found
    | some read =>
      constructor
      · rintro ⟨settings, rest, found, off⟩ _ own more same
        cases found
        cases same
        exact off
      · intro off
        exact ⟨read.1, read.2, rfl, off rfl read.1 read.2 rfl⟩

theorem my_sql_explaining : Explaining .mySql "EXPLAIN FORMAT=JSON ".toList where
  passed := format_passed
  keyword _ := rfl
  reads := by
    refine ⟨["EXPLAIN", "FORMAT", "JSON"], fun _ => rfl, fun more => ?_⟩
    simp [stmtRisk, classifyStmt]
  head sql plain := by
    have unexplained : (explain .mySql sql).isSome = false := plain
    rw [isSome_eq_false_iff, isNone_iff_eq_none] at unexplained
    exact ⟨_, explain_my_sql sql, unexplained⟩
  switched sql := by
    refine iff_of_true ⟨_, _, explain_my_sql sql, by decide⟩ ?_
    intro other
    cases other

theorem sent_of_explain {call : Call} {dialect : Dialect} {server : Server} {text : List Char}
    (known : call.dialect = some dialect) (served : serverOf dialect = some server)
    (sent : opDbExplain call = some text) :
    ∃ front inner, Explaining server front ∧ text = front ++ call.sql ∧
      innerSqlOf call.sql = some inner ∧ call.guards inner = true ∧ call.guards text = true := by
  obtain ⟨inner, found, sent⟩ := bind_eq_some_iff.mp sent
  obtain ⟨guarded, sent⟩ := ite_none_right_eq_some.mp sent
  obtain ⟨start, begun, sent⟩ := bind_eq_some_iff.mp sent
  obtain ⟨queried, same⟩ := ite_none_right_eq_some.mp sent
  cases same
  rw [known] at begun
  have again : call.guards (start.toList ++ call.sql) = true :=
    (Bool.and_eq_true_iff.mp (Bool.and_eq_true_iff.mp queried).1).2
  refine ⟨start.toList, inner, ?_, rfl, found, guarded, again⟩
  cases dialect with
  | sqlite => cases served
  | mySql =>
    cases served
    cases begun
    exact my_sql_explaining
  | postgres =>
    cases served
    cases begun
    exact postgres_explaining

end Calls

def strictCall (sql : String) : Call where
  sql := sql.toList
  params := []
  dialect := some .postgres
  tenant := { guard := .deny, tenantId := some "t1", system := false, registry := ⟨∅⟩ }
  aliasName := "main"
  policy := { DbAccess.default with enforce := .deny, readOnly := true }
  ctx := { moduleName := none, roles := [], tenant := some "t1", source := "http" }
  confirm := none
  others _ := true

theorem strict_sends (sql : String) (inner : innerSqlOf sql.toList = some sql.toList)
    (guarded : (strictCall sql).guards sql.toList = true)
    (queried : (strictCall sql).queries ("EXPLAIN ".toList ++ sql.toList) = true) :
    opDbExplain (strictCall sql) = some ("EXPLAIN ".toList ++ sql.toList) := by
  have found : innerSqlOf (strictCall sql).sql = some sql.toList := inner
  have begun : (strictCall sql).dialect.bind explainPrefix = some "EXPLAIN " := rfl
  have sent : (strictCall sql).queries ("EXPLAIN ".toList ++ (strictCall sql).sql) = true := queried
  simp only [opDbExplain, found, begun, bind_some, guarded, sent]
  rfl

end OnlyJs.Bridge.Explain
