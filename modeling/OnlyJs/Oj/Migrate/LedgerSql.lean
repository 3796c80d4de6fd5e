import OnlyJs.Lib.Text
import OnlyJs.Lib.Utf8

/-!
# The ledger in the migration engine's SQL

The migration library knows one ledger without modules. Its INSERT is given the
module's name and its SELECT is restricted to the module, both recognised by the
text they begin with; every other text passes as it is.
-/

namespace OnlyJs.Oj.Migrate

open Lib List

set_option autoImplicit false

abbrev Text := List Char

def trim (text : Text) : Text := (Text.trimStart text).rdropWhile Text.isWhitespace

def splitStmts (text : Text) : List Text :=
  ((text.splitOn ';').map trim).filter fun stmt => !stmt.isEmpty

def lockIdOf (moduleName : Text) : Int :=
  ((Utf8.encode moduleName).foldl (fun h b => (h ^^^ b.toUInt64) * 0x100000001b3)
    (0xcbf29ce484222325 : UInt64)).toInt64.toInt

def ledgerTable : Text := "_oj_migrations".toList

def refineryInsertHead : Text :=
  "INSERT INTO _oj_migrations (version, name, applied_on, checksum) VALUES (".toList

def refinerySelectHead : Text :=
  "SELECT version, name, applied_on, checksum FROM _oj_migrations ORDER BY ".toList

def quoteStr (text : Text) : Text :=
  ['\''] ++ text.flatMap (fun char => if char = '\'' then ['\'', '\''] else [char]) ++ ['\'']

/-- The text with `new` for every `old`, from left to right; `skip` characters of
the last one found are still to be passed. -/
def replaceFrom (old new : Text) : Nat → Text → Text
  | _, [] => []
  | skip + 1, _ :: rest => replaceFrom old new skip rest
  | 0, char :: rest =>
    if old.isPrefixOf (char :: rest) then new ++ replaceFrom old new (old.length - 1) rest
    else char :: replaceFrom old new 0 rest

/-- The ledger's `version` column has another type on MySQL. -/
def mysqlLedgerDdl (stmt : Text) : Text :=
  if "CREATE TABLE IF NOT EXISTS _oj_migrations".toList.isPrefixOf stmt then
    replaceFrom "int8".toList "TINYINT".toList 0 stmt
  else stmt

/-- The library's ledger INSERT gets its module column. -/
def tagModule (stmt moduleName : Text) : Except Text Text :=
  match stmt.dropPrefix? refineryInsertHead with
  | some rest =>
    .ok ("INSERT INTO ".toList ++ ledgerTable ++
      " (module, version, name, applied_on, checksum) VALUES (".toList ++
      quoteStr moduleName ++ ", ".toList ++ rest)
  | none =>
    if "INSERT INTO ".toList.isPrefixOf stmt && ledgerTable.isPrefixOf (stmt.drop 12) then
      .error ("refinery 账本 INSERT 形态不识别（升级 refinery 须同步 tag_module）: ".toList ++ stmt)
    else .ok stmt

/-- Whether `part` stands somewhere in the text. -/
def contains (part : Text) : Text → Bool
  | [] => part.isEmpty
  | char :: rest => part.isPrefixOf (char :: rest) || contains part rest

/-- The library's ledger SELECT is restricted to the rows of the module. -/
def scopeModule (query moduleName : Text) : Except Text Text :=
  match query.dropPrefix? refinerySelectHead with
  | some rest =>
    .ok ("SELECT version, name, applied_on, checksum FROM ".toList ++ ledgerTable ++
      " WHERE module = ".toList ++ quoteStr moduleName ++ " ORDER BY ".toList ++ rest)
  | none =>
    if contains ledgerTable query then
      .error ("refinery 账本 SELECT 形态不识别（升级 refinery 须同步 scope_module）: ".toList ++ query)
    else .ok query

/-- The statements of the texts that the library passes to one `execute`. -/
def statementsOf (queries : List Text) (moduleName : Text) : Except Text (List Text) :=
  (queries.flatMap splitStmts).mapM (tagModule · moduleName)

/-- `GET_APPLIED_MIGRATIONS_QUERY` of the library. -/
def appliedQuery : Text := refinerySelectHead ++ "version ASC".toList

def scopedQuery (moduleName : Text) : Text :=
  "SELECT version, name, applied_on, checksum FROM ".toList ++ ledgerTable ++
    " WHERE module = ".toList ++ quoteStr moduleName ++ " ORDER BY ".toList ++
    "version ASC".toList

def taggedInsert (moduleName values : Text) : Text :=
  "INSERT INTO ".toList ++ ledgerTable ++
    " (module, version, name, applied_on, checksum) VALUES (".toList ++
    quoteStr moduleName ++ ", ".toList ++ values

/-- What follows `VALUES (` in the library's INSERT: one closed list of values
without a semicolon. -/
def PlainValues (values : Text) : Prop := ';' ∉ values ∧ ∃ shown, values = shown ++ [')']

theorem scopeModule_appliedQuery (moduleName : Text) :
    scopeModule appliedQuery moduleName = .ok (scopedQuery moduleName) := by
  have cut : appliedQuery.dropPrefix? refinerySelectHead = some "version ASC".toList :=
    dropPrefix?_eq_some_iff.mpr ⟨refinerySelectHead, rfl, beq_self_eq_true _⟩
  rw [scopeModule, cut]
  rfl

theorem splitStmts_insert {values : Text} (plain : PlainValues values) :
    splitStmts (refineryInsertHead ++ values) = [refineryInsertHead ++ values] := by
  obtain ⟨uncut, shown, rfl⟩ := plain
  have whole : (refineryInsertHead ++ (shown ++ [')'])).splitOn ';' =
      [refineryInsertHead ++ (shown ++ [')'])] := by
    apply splitOn_eq_singleton
    rw [mem_append, not_or]
    exact ⟨by decide, uncut⟩
  have trimmed : trim (refineryInsertHead ++ (shown ++ [')'])) =
      refineryInsertHead ++ (shown ++ [')']) := by
    have start : Text.trimStart (refineryInsertHead ++ (shown ++ [')'])) =
        (refineryInsertHead ++ shown) ++ [')'] := by
      rfl
    rw [trim, start, rdropWhile_concat_neg _ _ _ (by decide), append_assoc]
  rw [splitStmts, whole, map_singleton, trimmed]
  rfl

theorem tagModule_insert (moduleName values : Text) :
    tagModule (refineryInsertHead ++ values) moduleName = .ok (taggedInsert moduleName values) := by
  have cut : (refineryInsertHead ++ values).dropPrefix? refineryInsertHead = some values :=
    dropPrefix?_eq_some_iff.mpr ⟨refineryInsertHead, rfl, beq_self_eq_true _⟩
  rw [tagModule, cut]
  rfl

theorem statementsOf_migration {sql values moduleName : Text} {stmts : List Text}
    (plain : PlainValues values)
    (split : statementsOf [sql, refineryInsertHead ++ values] moduleName = .ok stmts) :
    ∃ pieces, (splitStmts sql).mapM (tagModule · moduleName) = .ok pieces ∧
      stmts = pieces ++ [taggedInsert moduleName values] := by
  have both : [sql, refineryInsertHead ++ values].flatMap splitStmts =
      splitStmts sql ++ [refineryInsertHead ++ values] := by
    rw [flatMap_cons, flatMap_singleton, splitStmts_insert plain]
  rw [statementsOf, both, mapM_append] at split
  cases tagged : (splitStmts sql).mapM (tagModule · moduleName) with
  | error e =>
    rw [tagged] at split
    cases split
  | ok pieces =>
    rw [tagged, mapM_cons, tagModule_insert] at split
    cases split
    exact ⟨pieces, rfl, rfl⟩

end OnlyJs.Oj.Migrate
