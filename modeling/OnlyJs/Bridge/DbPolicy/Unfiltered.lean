import OnlyJs.Bridge.DbPolicy.Recognition

/-!
# Changes without a condition

An `UPDATE` or a `DELETE` is dangerous when none of its words is `WHERE`. The words of a
statement have lost its parentheses and its quotation marks, so a `WHERE` inside them counts
as one of the statement's own.
-/

namespace OnlyJs.Bridge.DbPolicy

open Lib.SqlLexing

section Unfiltered

/-- A `WHERE` outside of all quotation marks and parentheses; `depth` counts the open ones. -/
def ownWhere : Nat → List (Bool × Piece) → Bool
  | _, [] => false
  | depth, (_, .other '(') :: rest => ownWhere (depth + 1) rest
  | depth, (_, .other ')') :: rest => ownWhere (depth - 1) rest
  | depth, (_, .name chars) :: rest =>
    (depth = 0 && named (.name chars) = some "WHERE") || ownWhere depth rest
  | depth, _ :: rest => ownWhere depth rest

def isChange (words : List String) : Bool :=
  words.head? = some "UPDATE" || words.head? = some "DELETE"

/-- A single change without a condition of its own is dangerous. -/
def UnfilteredMarked (sql : List Char) : Prop :=
  ∀ words, IsStatement sql words → isChange words = true →
    ownWhere 0 (layoutTokens sql) = false → (classify sql).dangerous = true

/-- No `WHERE` in quotation marks or parentheses is taken for one of the statement's own,
unless the statement is dangerous for another reason. -/
def InnerWhereApart (sql : List Char) : Prop :=
  ∀ words, IsStatement sql words → isChange words = true →
    ownWhere 0 (layoutTokens sql) = false →
      "WHERE" ∉ words ∨ multiTable words = true ∨ tautology words = true

theorem statement_dangerous {sql : List Char} {words : List String}
    (single : IsStatement sql words) : (classify sql).dangerous = (classifyStmt words).2 := by
  obtain ⟨stmts, scanned, kept⟩ := single
  have spoken : stmts.any (fun stmt => (classifyStmt stmt).2) =
      (stmts.filter fun stmt => !stmt.isEmpty).any fun stmt => (classifyStmt stmt).2 := by
    rw [List.any_filter]
    congr 1
    funext stmt
    cases stmt with
    | nil => rfl
    | cons word rest => rfl
  rw [classify, scanned]
  change stmts.any _ = _
  rw [spoken, kept, List.any_cons, List.any_nil, Bool.or_false]

theorem change_dangerous {words : List String} (change : isChange words = true) :
    (classifyStmt words).2 =
      (!words.contains "WHERE" || multiTable words || tautology words) := by
  cases words with
  | nil => cases change
  | cons first rest =>
    rw [isChange, Bool.or_eq_true, decide_eq_true_eq, decide_eq_true_eq] at change
    rcases change with update | delete
    · cases Option.some.inj update
      rfl
    · cases Option.some.inj delete
      rfl

theorem unfiltered_marked_iff (sql : List Char) : UnfilteredMarked sql ↔ InnerWhereApart sql := by
  apply forall_congr'
  intro words
  apply forall_congr'
  intro single
  apply forall_congr'
  intro change
  apply forall_congr'
  intro _
  rw [statement_dangerous single, change_dangerous change, Bool.or_eq_true, Bool.or_eq_true,
    Bool.not_eq_true', Bool.eq_false_iff, Ne, List.contains_iff_mem, or_assoc]

end Unfiltered

end OnlyJs.Bridge.DbPolicy
