import OnlyJs.Bridge.DbPolicy.Access
import OnlyJs.Bridge.DbPolicy.Layout
import OnlyJs.Bridge.DbPolicy.Leading

/-!
# What is recognised as a read

A `SELECT` without a word that writes or locks is read-only. A `WITH` never is: the search
for its risk begins at the rank of a read, so a `WITH` that only reads finds nothing above it
and is unknown. An `EXPLAIN` is read-only whatever it executes, and a function with side
effects is only found where its name is a word of its own.
-/

namespace OnlyJs.Bridge.DbPolicy

open Lib.SqlLexing List

section Statements

/-- A text of one statement; the statements between its semicolons that have no words are
left out. -/
def IsStatement (sql : List Char) (words : List String) : Prop :=
  ∃ stmts, statements sql = some stmts ∧ stmts.filter (fun stmt => !stmt.isEmpty) = [words]

variable {sql : List Char}

theorem statement_cases {words : List String} (single : IsStatement sql words) :
    statements sql = some [words] ∨ ∃ stmts, statements sql = some stmts ∧ [] ∈ stmts := by
  obtain ⟨stmts, scanned, kept⟩ := single
  by_cases blank : [] ∈ stmts
  · exact .inr ⟨stmts, scanned, blank⟩
  · have all : stmts.filter (fun stmt => !stmt.isEmpty) = stmts := by
      apply filter_eq_self.mpr
      intro stmt member
      cases stmt with
      | nil => exact absurd member blank
      | cons word rest => rfl
    rw [all] at kept
    rw [kept] at scanned
    exact .inl scanned

variable {stmts : List (List String)}

theorem read_only_iff (scanned : statements sql = some stmts) :
    (classify sql).risk = .readOnly ↔ ∀ words ∈ stmts, stmtRisk words = .readOnly := by
  have rank (risk : Risk) : severity risk ≤ 0 ↔ risk = .readOnly := by
    cases risk <;> decide
  rw [← rank, severity_classify_le sql stmts scanned 0]
  simp only [rank]

theorem single_read_only {words : List String} (scanned : statements sql = some [words]) :
    (classify sql).risk = .readOnly ↔ stmtRisk words = .readOnly := by
  rw [read_only_iff scanned, forall_mem_singleton]

theorem blank_not_read_only (scanned : statements sql = some stmts) (blank : [] ∈ stmts) :
    (classify sql).risk ≠ .readOnly := by
  intro readOnly
  have same := (read_only_iff scanned).mp readOnly [] blank
  cases same

end Statements

section Words

def changingWords : List String :=
  ["DELETE", "UPDATE", "INSERT", "REPLACE", "MERGE", "DROP", "ALTER", "TRUNCATE", "CREATE",
    "LOCK", "OUTFILE", "DUMPFILE"] ++ sideEffectFns

def harmless (words : List String) : Bool := words.all fun word => !changingWords.contains word

/-- What makes a `SELECT` a write. -/
def writeMarked (words : List String) : Bool :=
  words.contains "OUTFILE" || words.contains "DUMPFILE" ||
    (words.contains "FOR" && words.contains "UPDATE") ||
    (words.contains "LOCK" && words.contains "SHARE") || sideEffectFns.any words.contains

theorem first_mark (file row share called : Bool) :
    (if file then (Risk.write, false)
      else if row then (.write, false)
      else if share then (.write, false)
      else if called then (.write, false)
      else (.readOnly, false)).1 =
      if file || row || share || called then Risk.write else .readOnly := by
  cases file <;> cases row <;> cases share <;> cases called <;> rfl

variable (rest : List String)

theorem select_risk :
    stmtRisk ("SELECT" :: rest) =
      if writeMarked ("SELECT" :: rest) then .write else .readOnly := by
  have apart : ¬ "SELECT" = "WITH" := by decide
  rw [stmtRisk, classifyStmt, if_neg apart, if_pos rfl]
  exact first_mark _ _ _ _

theorem with_not_read_only : stmtRisk ("WITH" :: rest) ≠ .readOnly := by
  simp only [stmtRisk, classifyStmt, if_true]
  split
  · decide
  · rename_i ranked
    intro same
    exact ranked (congrArg severity same)

theorem explain_read_only : stmtRisk ("EXPLAIN" :: rest) = .readOnly := by
  simp [stmtRisk, classifyStmt]

theorem harmless_unmarked (words : List String) (clean : harmless words = true) :
    writeMarked words = false := by
  have absent : ∀ word ∈ changingWords, words.contains word = false := by
    intro word changing
    rw [Bool.eq_false_iff]
    intro found
    have kept := all_eq_true.mp clean word (contains_iff_mem.mp found)
    simp [changing] at kept
  have quiet : sideEffectFns.any words.contains = false := by
    rw [any_eq_false]
    intro word member
    rw [absent word (mem_append_right _ member)]
    decide
  simp only [writeMarked, quiet, absent "OUTFILE" (by decide), absent "DUMPFILE" (by decide),
    absent "UPDATE" (by decide), absent "LOCK" (by decide), Bool.and_false, Bool.false_and,
    Bool.or_false]

end Words

section Calls

def named : Piece → Option String
  | .name chars | .quoted _ chars _ => some (String.ofList (chars.map Char.toUpper))
  | _ => none

def callees (tokens : List (Bool × Piece)) : List String :=
  (tokens.zip tokens.tail).filterMap fun pair =>
    if pair.2.2 = .other '(' then named pair.1.2 else none

def callsSideEffect (sql : List Char) : Bool :=
  (callees (layoutTokens sql)).any sideEffectFns.contains

end Calls

section Recognised

/-- A `SELECT`, or a `WITH` in front of one. -/
def readShaped (words : List String) : Bool :=
  words.head? = some "SELECT" || words.head? = some "WITH" && words.contains "SELECT"

def changes (risk : Risk) : Bool := risk = .write || risk = .ddl

/-- What the classification of a text must be: reads are accepted, and what changes
something is not taken for a read, neither inside an `EXPLAIN` that executes it nor when it
calls a function with side effects. -/
structure Recognised (sql : List Char) : Prop where
  reads : ∀ words, IsStatement sql words → harmless words = true → readShaped words = true →
    (classify sql).risk = .readOnly ∧
      ∀ policy ctx, granted policy.allow ctx = true →
        evaluate policy ctx (classify sql) = .allow
  wrapped : changes (classify sql).risk = true →
    ∀ front more, Fronts front ("EXPLAIN" :: "ANALYZE" :: more) →
      (classify (front ++ sql)).risk ≠ .readOnly
  called : ∀ words, IsStatement sql words →
    words.head? = some "SELECT" ∨ words.head? = some "WITH" →
      callsSideEffect sql = true → (classify sql).risk ≠ .readOnly

/-- The text is no `WITH` that only reads and no read with a semicolon, a change in it stands
behind its first statement, and a call in a `SELECT` shows in the words. -/
structure Recognisable (sql : List Char) : Prop where
  reads : ∀ words, IsStatement sql words → harmless words = true → readShaped words = true →
    words.head? = some "SELECT" ∧ statements sql = some [words]
  wrapped : changes (classify sql).risk = true → ∀ first others,
    statements sql = some (first :: others) → ∃ stmt ∈ others, stmtRisk stmt ≠ .readOnly
  called : ∀ words, IsStatement sql words → words.head? = some "SELECT" →
    callsSideEffect sql = true → writeMarked words = true ∨ statements sql ≠ some [words]

theorem read_accepted (sql : List Char) (readOnly : (classify sql).risk = .readOnly)
    (policy : DbAccess) (ctx : AccessCtx) (admitted : granted policy.allow ctx = true) :
    evaluate policy ctx (classify sql) = .allow := by
  rw [evaluate, if_pos admitted, readOnly]

variable {sql : List Char} {words : List String}

/-- A harmless read is read-only exactly when it is a `SELECT` without a semicolon. -/
theorem read_recognised_iff (single : IsStatement sql words) (clean : harmless words = true)
    (shaped : readShaped words = true) :
    (classify sql).risk = .readOnly ↔
      words.head? = some "SELECT" ∧ statements sql = some [words] := by
  rcases statement_cases single with scanned | ⟨stmts, scanned, blank⟩
  · rw [single_read_only scanned]
    cases words with
    | nil => cases shaped
    | cons first rest =>
      by_cases select : first = "SELECT"
      · subst select
        have quiet := harmless_unmarked _ clean
        rw [select_risk, quiet]
        exact ⟨fun _ => ⟨rfl, scanned⟩, fun _ => rfl⟩
      · have begun : first = "WITH" := by
          simp only [readShaped, head?_cons, Option.some.injEq, select, decide_false,
            Bool.false_or, Bool.and_eq_true, decide_eq_true_eq] at shaped
          exact shaped.1
        subst begun
        constructor
        · intro readOnly
          exact absurd readOnly (with_not_read_only rest)
        · intro facts
          exact absurd (Option.some.inj facts.1) select
  · constructor
    · intro readOnly
      exact absurd readOnly (blank_not_read_only scanned blank)
    · intro facts
      cases scanned.symm.trans facts.2
      cases mem_singleton.mp blank
      cases shaped

theorem wrapped_read_only_iff {front : List Char} {more : List String}
    (fronts : Fronts front ("EXPLAIN" :: more)) {first : List String} {others : List (List String)}
    (scanned : statements sql = some (first :: others)) :
    (classify (front ++ sql)).risk = .readOnly ↔ ∀ stmt ∈ others, stmtRisk stmt = .readOnly := by
  have read := statements_fronts fronts sql
  rw [scanned] at read
  rw [read_only_iff read]
  change (∀ words ∈ ("EXPLAIN" :: (more ++ first)) :: others, _) ↔ _
  rw [forall_mem_cons]
  exact ⟨And.right, fun rest => ⟨explain_read_only _, rest⟩⟩

theorem select_read_only_iff (single : IsStatement sql words)
    (select : words.head? = some "SELECT") :
    (classify sql).risk = .readOnly ↔
      ¬ (writeMarked words = true ∨ statements sql ≠ some [words]) := by
  rcases statement_cases single with scanned | ⟨stmts, scanned, blank⟩
  · rw [single_read_only scanned]
    cases words with
    | nil => cases select
    | cons first rest =>
      cases Option.some.inj select
      rw [select_risk]
      cases writeMarked ("SELECT" :: rest) with
      | true => simp
      | false => simp [scanned]
  · constructor
    · intro readOnly
      exact absurd readOnly (blank_not_read_only scanned blank)
    · intro facts
      exfalso
      apply facts
      right
      intro whole
      cases scanned.symm.trans whole
      cases mem_singleton.mp blank
      cases select

theorem explain_analyze_fronts : Fronts "EXPLAIN ANALYZE ".toList ["EXPLAIN", "ANALYZE"] :=
  fun _ => rfl

theorem change_scanned (changing : changes (classify sql).risk = true) :
    ∃ first others, statements sql = some (first :: others) := by
  cases scanned : statements sql with
  | none =>
    simp [changes, classify, scanned] at changing
  | some stmts =>
    obtain ⟨first, others, rfl⟩ := statements_cons scanned
    exact ⟨first, others, rfl⟩

theorem with_recognised (single : IsStatement sql words) (begun : words.head? = some "WITH") :
    (classify sql).risk ≠ .readOnly := by
  rcases statement_cases single with scanned | ⟨stmts, scanned, blank⟩
  · rw [Ne, single_read_only scanned]
    cases words with
    | nil => cases begun
    | cons first rest =>
      cases Option.some.inj begun
      exact with_not_read_only rest
  · exact blank_not_read_only scanned blank

theorem recognised_iff (sql : List Char) : Recognised sql ↔ Recognisable sql := by
  constructor
  · intro recognised
    refine ⟨?_, ?_, ?_⟩
    · intro words single clean shaped
      exact (read_recognised_iff single clean shaped).mp
        (recognised.reads words single clean shaped).1
    · intro changing first others scanned
      have seen := recognised.wrapped changing _ [] explain_analyze_fronts
      rw [Ne, wrapped_read_only_iff explain_analyze_fronts scanned] at seen
      push Not at seen
      exact seen
    · intro words single select calls
      have seen := recognised.called words single (.inl select) calls
      rw [Ne, select_read_only_iff single select, not_not] at seen
      exact seen
  · intro recognisable
    refine ⟨?_, ?_, ?_⟩
    · intro words single clean shaped
      have readOnly := (read_recognised_iff single clean shaped).mpr
        (recognisable.reads words single clean shaped)
      exact ⟨readOnly, read_accepted sql readOnly⟩
    · intro changing front more fronts readOnly
      obtain ⟨first, others, scanned⟩ := change_scanned changing
      obtain ⟨stmt, member, risky⟩ := recognisable.wrapped changing first others scanned
      exact risky ((wrapped_read_only_iff fronts scanned).mp readOnly stmt member)
    · intro words single begun calls readOnly
      rcases begun with select | begun
      · exact (select_read_only_iff single select).mp readOnly
          (recognisable.called words single select calls)
      · exact with_recognised single begun readOnly

/-- A `WITH` that only reads is unknown, an `EXPLAIN ANALYZE` of a `DELETE` is a read, and so
is a call behind a comma. -/
theorem with_and_wrapper_unrecognised :
    ¬ Recognised "WITH x AS (SELECT 1) SELECT a FROM x".toList ∧
      ¬ Recognised "DELETE FROM t".toList ∧
      ¬ Recognised "SELECT 1,nextval('s')".toList := by
  refine ⟨?_, ?_, ?_⟩
  · intro recognised
    have scanned : statements "WITH x AS (SELECT 1) SELECT a FROM x".toList =
        some [["WITH", "X", "AS", "SELECT", "1", "SELECT", "A", "FROM", "X"]] := by
      decide +kernel
    have seen := (recognised.reads _ ⟨_, scanned, rfl⟩ (by decide) (by decide)).1
    rw [single_read_only scanned] at seen
    exact with_not_read_only _ seen
  · intro recognised
    have written : (classify "DELETE FROM t".toList).risk = .write := by
      decide
    apply recognised.wrapped (by rw [written]; rfl) "EXPLAIN ANALYZE ".toList [] fun _ => rfl
    have wrapped : statements ("EXPLAIN ANALYZE ".toList ++ "DELETE FROM t".toList) =
        some [["EXPLAIN", "ANALYZE", "DELETE", "FROM", "T"]] := rfl
    exact (single_read_only wrapped).mpr (explain_read_only _)
  · intro recognised
    have scanned : statements "SELECT 1,nextval('s')".toList =
        some [["SELECT", "1,NEXTVAL"]] := rfl
    have calls : callsSideEffect "SELECT 1,nextval('s')".toList = true := by decide +kernel
    apply recognised.called _ ⟨_, scanned, rfl⟩ (.inl rfl) calls
    decide

end Recognised

end OnlyJs.Bridge.DbPolicy
