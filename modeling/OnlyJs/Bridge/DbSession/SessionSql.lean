import OnlyJs.Bridge.DbPolicy.Classify

/-!
# Statements refused inside a cross-request transaction

Transaction control is recognised by the risk of the whole text, session state
statements by the first word of the raw text. The first test fails as soon as
another statement of the text is riskier, and an empty statement is the riskiest
of all; the second one sees only what stands at the very beginning.
-/

namespace OnlyJs.Bridge.DbSession

open Bridge.DbPolicy Lib.Text

def rawKeyword (sql : List Char) : String :=
  String.ofList (((trimStart sql).takeWhile fun char =>
    !(isWhitespace char || char = '\x28')).map Char.toUpper)

def sessionSqlForbidden (sql : List Char) : Option String :=
  if (classify sql).risk = .transaction then some "transaction control statement"
  else
    match rawKeyword sql with
    | "SET" => some "session variable statement (SET)"
    | "USE" => some "database switch (USE)"
    | "ATTACH" => some "database attach/detach"
    | "DETACH" => some "database attach/detach"
    | "PRAGMA" => some "PRAGMA"
    | _ => none

def transactionWords : List String :=
  ["BEGIN", "COMMIT", "ROLLBACK", "SAVEPOINT", "RELEASE", "START"]

def sessionStateWords : List String := ["SET", "USE", "ATTACH", "DETACH", "PRAGMA"]

/-- A statement of transaction control or of session state. -/
def StartsWithControl (words : List String) : Prop :=
  ∃ first ∈ words.head?, first ∈ transactionWords ∨ first ∈ sessionStateWords

/-- A text with such a statement anywhere in it is refused. -/
def ControlRefused (sql : List Char) : Prop :=
  (∃ stmts, statements sql = some stmts ∧ ∃ words ∈ stmts, StartsWithControl words) →
    (sessionSqlForbidden sql).isSome

/-- The texts on which the two tests see every control statement: there is none,
or nothing in the text is riskier than transaction control, or the raw text
begins with a session state word. -/
def ControlVisible (sql : List Char) : Prop :=
  (∀ stmts, statements sql = some stmts → ∀ words ∈ stmts, ¬ StartsWithControl words) ∨
    (∃ stmts, statements sql = some stmts ∧
      (∀ words ∈ stmts, stmtRisk words = .readOnly ∨ stmtRisk words = .transaction) ∧
      ∃ words ∈ stmts, stmtRisk words = .transaction) ∨
    rawKeyword sql ∈ sessionStateWords

variable (sql : List Char)

theorem session_sql_forbidden_iff :
    (sessionSqlForbidden sql).isSome ↔
      (classify sql).risk = .transaction ∨ rawKeyword sql ∈ sessionStateWords := by
  unfold sessionSqlForbidden
  split
  · rename_i control
    exact ⟨fun _ => .inl control, fun _ => rfl⟩
  · rename_i free
    constructor
    · intro refused
      split at refused <;> simp_all [sessionStateWords]
    · rintro (control | listed)
      · exact absurd control free
      · simp only [sessionStateWords, List.mem_cons, List.not_mem_nil, or_false] at listed
        rcases listed with same | same | same | same | same <;> rw [same] <;> rfl

variable (stmts : List (List String))

theorem classify_transaction_iff (scanned : statements sql = some stmts) :
    (classify sql).risk = .transaction ↔
      (∀ words ∈ stmts, stmtRisk words = .readOnly ∨ stmtRisk words = .transaction) ∧
        ∃ words ∈ stmts, stmtRisk words = .transaction := by
  have mild : ∀ risk, severity risk ≤ 1 ↔ risk = .readOnly ∨ risk = .transaction := by
    intro risk
    cases risk <;> decide
  have below := severity_classify_le sql stmts scanned 1
  constructor
  · intro control
    rw [control] at below
    refine ⟨fun words member => (mild _).mp (below.mp (Nat.le_refl 1) words member), ?_⟩
    have risky : (classify sql).risk ≠ .readOnly := by
      rw [control]
      decide
    obtain ⟨words, member, same⟩ := classify_risk_mem sql stmts scanned risky
    exact ⟨words, member, same.trans control⟩
  · rintro ⟨calm, words, member, control⟩
    have most := below.mpr fun other listed => (mild _).mpr (calm other listed)
    have least := (severity_classify_le sql stmts scanned (severity (classify sql).risk)).mp
      (Nat.le_refl _) words member
    rw [control] at least
    apply severity_injective
    have one : severity Risk.transaction = 1 := rfl
    omega

/-- Exactly the texts whose control statements are visible are judged right. -/
theorem control_refused_iff (sql : List Char) : ControlRefused sql ↔ ControlVisible sql := by
  cases scanned : statements sql with
  | none =>
    constructor
    · intro _
      left
      intro stmts same
      cases scanned.symm.trans same
    · rintro _ ⟨stmts, same, _⟩
      cases scanned.symm.trans same
  | some stmts =>
    constructor
    · intro refused
      by_cases control : ∃ words ∈ stmts, StartsWithControl words
      · right
        have seen := (session_sql_forbidden_iff sql).mp (refused ⟨stmts, scanned, control⟩)
        rcases seen with risk | keyword
        · exact .inl ⟨stmts, scanned, (classify_transaction_iff sql stmts scanned).mp risk⟩
        · exact .inr keyword
      · left
        intro other same words member starts
        cases scanned.symm.trans same
        exact control ⟨words, member, starts⟩
    · rintro visible ⟨other, same, words, member, starts⟩
      cases scanned.symm.trans same
      rw [session_sql_forbidden_iff]
      rcases visible with absent | ⟨others, again, calm⟩ | keyword
      · exact absurd starts (absent stmts scanned words member)
      · cases scanned.symm.trans again
        exact .inl ((classify_transaction_iff sql stmts scanned).mpr calm)
      · exact .inr keyword

theorem terminated_commit_admitted : ¬ ControlRefused "COMMIT;".toList := by
  intro refused
  have control : StartsWithControl ["COMMIT"] := ⟨"COMMIT", rfl, .inl (by decide)⟩
  have scanned : statements "COMMIT;".toList = some [["COMMIT"], []] := by decide +kernel
  have free : sessionSqlForbidden "COMMIT;".toList = none := by decide +kernel
  have forbidden := refused ⟨[["COMMIT"], []], scanned, ["COMMIT"], List.mem_cons_self, control⟩
  rw [free] at forbidden
  cases forbidden

end OnlyJs.Bridge.DbSession
