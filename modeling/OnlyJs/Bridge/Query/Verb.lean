import OnlyJs.Bridge.Query.Request
import OnlyJs.Lib.Fallible

/-!
# What each verb accepts

The checks on the fields of a request, in the order of the source. An update or a delete must
have a condition unless it truncates.
-/

namespace OnlyJs.Bridge.Query

open Lib.Fallible

section Checks

def accepts (verb field : String) (given : Bool) : Except String Unit :=
  reject given (verb ++ " does not accept " ++ field)

def checkAll (checks : List (Except String Unit)) : Except String Unit := checks.forM id

theorem accepts_ok_iff (verb field : String) (given : Bool) :
    accepts verb field given = .ok () ↔ given = false :=
  reject_ok

theorem check_all_ok_iff (checks : List (Except String Unit)) :
    checkAll checks = .ok () ↔ ∀ check ∈ checks, check = .ok () :=
  forM_ok checks

end Checks

def reqNestMax : Nat := 4

def validateNested (req : QueryReq) (depth : Nat) (site : String) : Except String Unit :=
  checkAll [
    reject (reqNestMax ≤ depth) (site ++ ": nested select too deep"),
    reject (req.verb ≠ .select) (site ++ ": nested select must be select"),
    reject (!req.unions.isEmpty || !req.ctes.isEmpty)
      (site ++ ": nested select does not accept with/unions (v1)"),
    reject (req.limit.isNone && req.offset.isSome)
      (site ++ ": nested select offset requires limit")]

def ColSpec.isStar : ColSpec → Bool
  | .star => true
  | _ => false

/-- The source of an insert names its columns one by one. -/
def validateSource : Option QueryReq → Except String Unit
  | none => .ok ()
  | some source => checkAll [
      validateNested source 0 "fromSelect",
      reject (source.columns.isEmpty || source.columns.any ColSpec.isStar)
        "fromSelect source needs explicit columns (no '*' / omission)"]

def validateSelect (req : QueryReq) : Except String Unit :=
  checkAll [
    accepts "select" "values" (!req.values.isEmpty),
    accepts "select" "sets" (!req.sets.isEmpty),
    accepts "select" "returning" (!req.returning.isEmpty),
    accepts "select" "orIgnore" req.orIgnore,
    accepts "select" "fromSelect" (req.fromSelect.isSome || !req.insertCols.isEmpty)]

def validateInsert (req : QueryReq) : Except String Unit :=
  checkAll [
    reject (!req.values.isEmpty && req.fromSelect.isSome)
      "insert takes either values or fromSelect, not both",
    reject (req.values.isEmpty && req.fromSelect.isNone)
      "insert needs either values or fromSelect",
    reject (req.fromSelect.isSome && req.insertCols.isEmpty)
      "insert fromSelect needs insert columns",
    reject (req.fromSelect.isNone && !req.insertCols.isEmpty)
      "insert columns are only allowed with fromSelect",
    validateSource req.fromSelect,
    accepts "insert" "where" (!req.conditions.isEmpty),
    accepts "insert" "orderBy" (!req.orderBy.isEmpty),
    accepts "insert" "limit/offset" (req.limit.isSome || req.offset.isSome),
    accepts "insert" "joins" (!req.joins.isEmpty),
    accepts "insert" "distinct" req.distinct,
    accepts "insert" "groupBy" (!req.groupBy.isEmpty),
    accepts "insert" "having" req.having.isSome,
    accepts "insert" "unions" (!req.unions.isEmpty),
    accepts "insert" "with" (!req.ctes.isEmpty),
    accepts "insert" "columns" (!req.columns.isEmpty)]

def Verb.debug : Verb → String
  | select => "Select"
  | insert => "Insert"
  | update => "Update"
  | delete => "Delete"

def lacksWhere (req : QueryReq) : Bool := req.conditions.isEmpty && !req.truncate

def validateChange (req : QueryReq) : Except String Unit :=
  checkAll [
    accepts "update" "truncate" (req.truncate && req.verb = .update),
    accepts "update/delete" "joins" (!req.joins.isEmpty),
    accepts "update/delete" "columns" (!req.columns.isEmpty),
    accepts "update/delete" "returning" (!req.returning.isEmpty),
    accepts "update/delete" "distinct" req.distinct,
    accepts "update/delete" "groupBy" (!req.groupBy.isEmpty),
    accepts "update/delete" "having" req.having.isSome,
    accepts "update/delete" "unions" (!req.unions.isEmpty),
    accepts "update/delete" "with" (!req.ctes.isEmpty),
    reject (req.verb = .update && req.sets.isEmpty) "update needs non-empty sets",
    accepts "update/delete" "orIgnore" req.orIgnore,
    accepts "update/delete" "fromSelect" (req.fromSelect.isSome || !req.insertCols.isEmpty),
    reject (lacksWhere req) (req.verb.debug ++ " requires where (leaf count >= 1)"),
    accepts "update/delete" "limit/offset" (req.limit.isSome || req.offset.isSome)]

def validateVerb (req : QueryReq) : Except String Unit :=
  (reject (req.table.asName.isSome && req.verb ≠ .select)
    "table alias is not supported on insert/update/delete").bind fun _ =>
      match req.verb with
      | .select => validateSelect req
      | .insert => validateInsert req
      | .update | .delete => validateChange req

def validateTruncate (req : QueryReq) : Except String Unit :=
  reject (req.truncate && !req.conditions.isEmpty) "truncate does not accept where"

end OnlyJs.Bridge.Query
