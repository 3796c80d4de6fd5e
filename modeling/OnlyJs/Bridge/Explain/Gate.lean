import OnlyJs.Bridge.DbSurface.Surface
import OnlyJs.Bridge.Guard.Tables
import OnlyJs.Lib.ExplainSyntax

/-!
# The gate of `db.explain`

A constant in front of the caller's text makes it an `EXPLAIN`. The tenant guard sees the text
without the `EXPLAIN` that the caller may have written, and again with the one in front; the
other gates see the text that is sent.
-/

namespace OnlyJs.Bridge.Explain

open Bridge.DbPolicy
open Bridge.DbSurface (explainPrefix)
open Bridge.Guard
open Lib.ExplainSyntax (Server)
open Lib.Text

def byteLength (text : List Char) : Nat := (text.map Char.utf8Size).sum

/-- The text behind its first bytes; a cut inside a character panics. -/
def dropBytes : Nat → List Char → Option (List Char)
  | 0, text => some text
  | _ + 1, [] => none
  | count + 1, c :: rest =>
    if c.utf8Size ≤ count + 1 then dropBytes (count + 1 - c.utf8Size) rest else none

def formats : List (List Char) :=
  ["format=json".toList, "format=traditional".toList, "format=tree".toList]

/-- Cuts as many bytes from the front as there are behind the format. -/
def afterFormat (text : List Char) : Option (List Char) :=
  match formats.findSome? fun format => format.isPrefixOf? (text.map Char.toLower) with
  | some after => (dropBytes (byteLength after) text).map trimStart
  | none => some text

/-- The text without the `EXPLAIN` in front, or nothing where the host panics. -/
def innerSqlOf (sql : List Char) : Option (List Char) :=
  let trimmed := trimStart sql
  if "explain".toList.isPrefixOf (trimmed.map Char.toLower) then
    let rest := trimStart (trimmed.drop 7)
    match rest with
    | '(' :: after =>
      if ')' ∈ after then some (trimStart (after.dropWhile (· ≠ ')')).tail)
      else afterFormat rest
    | _ => afterFormat rest
  else some sql

/-- A call of `db.explain`, with what its gates read. `others` are the gates of the session,
of the tables and of the limits. -/
structure Call where
  sql : List Char
  params : List Value
  dialect : Option Dialect
  tenant : TenantContext
  aliasName : String
  policy : DbAccess
  ctx : AccessCtx
  confirm : Option String
  others : List Char → Bool

def Call.guards (call : Call) (text : List Char) : Bool :=
  (checkTenantRaw call.tenant text call.params).isOk

/-- The gates of `query_impl`. -/
def Call.queries (call : Call) (text : List Char) : Bool :=
  call.others text && call.guards text &&
    (checkAccess call.aliasName call.policy call.ctx call.confirm text).isOk

def opDbExplain (call : Call) : Option (List Char) :=
  (innerSqlOf call.sql).bind fun inner =>
    if call.guards inner then
      (call.dialect.bind explainPrefix).bind fun start =>
        let text := start.toList ++ call.sql
        if call.queries text then some text else none
    else none

def serverOf : Dialect → Option Server
  | .postgres => some .postgres
  | .mySql => some .mySql
  | .sqlite => none

end OnlyJs.Bridge.Explain
