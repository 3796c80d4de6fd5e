import OnlyJs.Lib.Text

/-!
# Risk classification of SQL text

A scanner cuts the text at its semicolons and each statement into upper-cased
words; the words of a statement decide its risk, and a text is as risky as its
riskiest statement. Text that the scanner cannot delimit, and a statement without
words, are `unknown`.

The scanner is one pass over the characters. Its mode is the loop of the source
that it is in, and the words of quoted identifiers keep their escapes.
-/

namespace OnlyJs.Bridge.DbPolicy

open List

inductive Risk where
  | readOnly
  | write
  | ddl
  | transaction
  | unknown
deriving DecidableEq

def Risk.text : Risk → String
  | readOnly => "readonly"
  | write => "write"
  | ddl => "ddl"
  | transaction => "tx"
  | unknown => "unknown"

def severity : Risk → Nat
  | .readOnly => 0
  | .transaction => 1
  | .write => 2
  | .ddl => 3
  | .unknown => 4

structure Classified where
  risk : Risk
  dangerous : Bool
  statements : Nat
deriving DecidableEq

section Scanner

/-- The loop that the scanner is in. `plain version` skips the digits of a MySQL
executable comment first; `quoted` and `bracket` carry what they have read. -/
inductive ScanMode where
  | plain (version : Bool)
  | literal
  | quoted (mark : Char) (read : List Char)
  | bracket (read : List Char)
  | lineComment
  | blockComment
deriving DecidableEq

structure Scanned where
  word : List Char
  cur : List String
  out : List (List String)
deriving DecidableEq

def Scanned.start : Scanned where
  word := []
  cur := []
  out := []

def Scanned.push (scanned : Scanned) (word : List Char) : Scanned :=
  { scanned with cur := scanned.cur ++ [String.ofList (word.map Char.toUpper)] }

def Scanned.flush (scanned : Scanned) : Scanned :=
  if scanned.word.isEmpty then scanned
  else { scanned.push scanned.word with word := [] }

def Scanned.extend (scanned : Scanned) (char : Char) : Scanned :=
  { scanned with word := scanned.word ++ [char] }

def Scanned.cut (scanned : Scanned) : Scanned :=
  { scanned with cur := [], out := scanned.out ++ [scanned.cur] }

def Scanned.finish (scanned : Scanned) : List (List String) :=
  scanned.flush.out ++ [scanned.flush.cur]

def isWordChar (char : Char) : Bool :=
  char.isAlphanum || char = '_' || char = '.' || char = ',' || char = '$'

/-- The characters with a meaning of their own, by code: `"` 22, `#` 23, `'` 27,
`[` 5b, backslash 5c, `]` 5d, backquote 60. -/
def scan : ScanMode → Scanned → List Char → Option (List (List String))
  | .plain _, scanned, [] => some scanned.finish
  | .plain _, scanned, '\x27' :: rest => scan .literal scanned.flush rest
  | .plain _, scanned, '\x22' :: rest => scan (.quoted '\x22' []) scanned.flush rest
  | .plain _, scanned, '\x60' :: rest => scan (.quoted '\x60' []) scanned.flush rest
  | .plain _, scanned, '\x5b' :: rest => scan (.bracket []) scanned.flush rest
  | .plain _, scanned, '-' :: '-' :: rest => scan .lineComment scanned.flush rest
  | .plain _, scanned, '\x23' :: rest => scan .lineComment scanned.flush rest
  | .plain _, scanned, '/' :: '*' :: '!' :: rest => scan (.plain true) scanned.flush rest
  | .plain _, scanned, '/' :: '*' :: rest => scan .blockComment scanned.flush rest
  | .plain _, scanned, ';' :: rest => scan (.plain false) scanned.flush.cut rest
  | .plain version, scanned, char :: rest =>
    if version && char.isDigit then scan (.plain true) scanned rest
    else if isWordChar char then scan (.plain false) (scanned.extend char) rest
    else scan (.plain false) scanned.flush rest
  | .literal, _, [] => none
  | .literal, _, ['\x5c'] => none
  | .literal, scanned, '\x5c' :: _ :: rest => scan .literal scanned rest
  | .literal, scanned, '\x27' :: '\x27' :: rest => scan .literal scanned rest
  | .literal, scanned, '\x27' :: rest => scan (.plain false) scanned rest
  | .literal, scanned, _ :: rest => scan .literal scanned rest
  | .quoted _ _, _, [] => none
  | .quoted _ _, _, ['\x5c'] => none
  | .quoted mark read, scanned, '\x5c' :: char :: rest =>
    scan (.quoted mark (read ++ ['\x5c', char])) scanned rest
  | .quoted mark read, scanned, [char] =>
    if char = mark then scan (.plain false) (scanned.push read) [] else none
  | .quoted mark read, scanned, char :: next :: rest =>
    if char = mark then
      if next = mark then scan (.quoted mark (read ++ [mark, mark])) scanned rest
      else scan (.plain false) (scanned.push read) (next :: rest)
    else scan (.quoted mark (read ++ [char])) scanned (next :: rest)
  | .bracket _, _, [] => none
  | .bracket read, scanned, '\x5d' :: rest => scan (.plain false) (scanned.push read) rest
  | .bracket read, scanned, char :: rest => scan (.bracket (read ++ [char])) scanned rest
  | .lineComment, scanned, [] => some scanned.finish
  | .lineComment, scanned, '\n' :: rest => scan (.plain false) scanned rest
  | .lineComment, scanned, _ :: rest => scan .lineComment scanned rest
  | .blockComment, scanned, [] => some scanned.finish
  | .blockComment, scanned, '*' :: '/' :: rest => scan (.plain false) scanned rest
  | .blockComment, scanned, _ :: rest => scan .blockComment scanned rest

def statements (sql : List Char) : Option (List (List String)) :=
  scan (.plain false) .start sql

end Scanner

section Statement

def sideEffectFns : List String :=
  ["NEXTVAL", "SETVAL", "PG_TERMINATE_BACKEND", "PG_CANCEL_BACKEND", "LO_IMPORT", "LO_EXPORT",
    "SET_CONFIG"]

def predicateEnds : List String :=
  ["GROUP", "ORDER", "LIMIT", "OFFSET", "HAVING", "UNION", "RETURNING"]

/-- The words between `WHERE` and the next clause. -/
def predicate (words : List String) : Option (List String) :=
  match words.dropWhile fun word => word != "WHERE" with
  | [] => none
  | _ :: after => some (after.takeWhile fun word => !predicateEnds.contains word)

def tautology (words : List String) : Bool :=
  match predicate words with
  | none => false
  | some p =>
    (p.zip p.tail).any (fun pair => pair.1 == pair.2) ||
      (p.contains "IS" && p.contains "NULL" && p.contains "OR" && p.contains "NOT")

def multiTableEnds : List String :=
  ["WHERE", "SET", "ORDER", "LIMIT", "RETURNING", "ON", "GROUP", "HAVING"]

def multiTableScan : List String → Bool
  | [] => false
  | word :: rest =>
    if word = "USING" || word = "JOIN" || word.endsWith "," then true
    else if multiTableEnds.contains word then false
    else multiTableScan rest

/-- An `UPDATE` or `DELETE` over several tables. -/
def multiTable (words : List String) : Bool :=
  match words.tail with
  | "FROM" :: rest => multiTableScan rest
  | rest => multiTableScan rest

/-- The risk that a word gives to a `WITH` statement. -/
def withWordRisk (word : String) : Option Risk :=
  if ["DELETE", "UPDATE", "INSERT", "REPLACE", "MERGE"].contains word then some .write
  else if ["DROP", "ALTER", "TRUNCATE", "CREATE"].contains word then some .ddl
  else if word = "SELECT" then some .readOnly
  else none

def worse (worst risk : Risk) : Risk :=
  if severity worst < severity risk then risk else worst

def withRisk (words : List String) : Risk :=
  (words.filterMap withWordRisk).foldl worse .readOnly

def classifyStmt (words : List String) : Risk × Bool :=
  match words with
  | [] => (.unknown, false)
  | first :: _ =>
    let has := fun word => words.contains word
    if first = "WITH" then
      let risk := withRisk words
      if severity risk = 0 then (.unknown, false)
      else (risk, (risk = .write || risk = .ddl) && (!has "WHERE" || tautology words))
    else if first = "SELECT" then
      if has "OUTFILE" || has "DUMPFILE" then (.write, false)
      else if has "FOR" && has "UPDATE" then (.write, false)
      else if has "LOCK" && has "SHARE" then (.write, false)
      else if sideEffectFns.any has then (.write, false)
      else (.readOnly, false)
    else if ["INSERT", "REPLACE", "MERGE"].contains first then (.write, false)
    else if ["UPDATE", "DELETE"].contains first then
      (.write, !has "WHERE" || multiTable words || tautology words)
    else if ["TRUNCATE", "DROP", "ALTER", "CREATE", "RENAME", "GRANT", "REVOKE"].contains first
      then (.ddl, true)
    else if ["BEGIN", "COMMIT", "ROLLBACK", "SAVEPOINT", "RELEASE", "START"].contains first
      then (.transaction, false)
    else if first = "SET" then
      if has "GLOBAL" || has "SESSION" || has "SEARCH_PATH" then (.write, false)
      else (.unknown, false)
    else if ["COPY", "LOAD", "CALL", "EXECUTE"].contains first then (.write, false)
    else if ["USE", "ATTACH", "DETACH"].contains first then (.write, false)
    else if ["SHOW", "EXPLAIN", "DESCRIBE", "DESC", "PRAGMA", "ANALYZE", "VALUES"].contains first
      then (.readOnly, false)
    else if first = "KILL" then (.write, false)
    else (.unknown, false)

def stmtRisk (words : List String) : Risk := (classifyStmt words).1

end Statement

/-- The classification of a text; the cache of the source returns the same. -/
def classify (sql : List Char) : Classified :=
  match statements sql with
  | none => ⟨.unknown, false, 0⟩
  | some stmts =>
    ⟨(stmts.map stmtRisk).foldl worse .readOnly, stmts.any fun words => (classifyStmt words).2,
      stmts.length⟩

section Lattice

theorem severity_injective {a b : Risk} (same : severity a = severity b) : a = b := by
  cases a <;> cases b <;> first | rfl | cases same

theorem severity_worse (worst risk : Risk) :
    severity (worse worst risk) = max (severity worst) (severity risk) := by
  unfold worse
  split <;> omega

variable (risks : List Risk) (initial : Risk)

theorem foldl_worse_mem :
    risks.foldl worse initial = initial ∨ risks.foldl worse initial ∈ risks := by
  induction risks generalizing initial with
  | nil => exact .inl rfl
  | cons risk rest ih =>
    rw [foldl_cons]
    rcases ih (worse initial risk) with same | later
    · rw [same]
      unfold worse
      split
      · exact .inr mem_cons_self
      · exact .inl rfl
    · exact .inr (mem_cons_of_mem risk later)

theorem severity_le_foldl_worse :
    severity initial ≤ severity (risks.foldl worse initial) ∧
      ∀ risk ∈ risks, severity risk ≤ severity (risks.foldl worse initial) := by
  induction risks generalizing initial with
  | nil => exact ⟨Nat.le_refl _, fun risk member => by cases member⟩
  | cons risk rest ih =>
    obtain ⟨above, rest_le⟩ := ih (worse initial risk)
    rw [severity_worse] at above
    rw [foldl_cons]
    refine ⟨by omega, fun other member => ?_⟩
    rcases mem_cons.mp member with rfl | later
    · omega
    · exact rest_le other later

variable (sql : List Char) (stmts : List (List String))

theorem severity_classify_le (scanned : statements sql = some stmts) (bound : Nat) :
    severity (classify sql).risk ≤ bound ↔ ∀ words ∈ stmts, severity (stmtRisk words) ≤ bound := by
  have risk : (classify sql).risk = (stmts.map stmtRisk).foldl worse .readOnly := by
    simp only [classify, scanned]
  rw [risk]
  constructor
  · intro below words member
    have above := (severity_le_foldl_worse (stmts.map stmtRisk) .readOnly).2 (stmtRisk words)
      (mem_map_of_mem member)
    omega
  · intro below
    rcases foldl_worse_mem (stmts.map stmtRisk) .readOnly with same | member
    · rw [same]
      exact Nat.zero_le bound
    · obtain ⟨words, listed, same⟩ := mem_map.mp member
      rw [← same]
      exact below words listed

theorem classify_risk_mem (scanned : statements sql = some stmts)
    (risky : (classify sql).risk ≠ .readOnly) :
    ∃ words ∈ stmts, stmtRisk words = (classify sql).risk := by
  have risk : (classify sql).risk = (stmts.map stmtRisk).foldl worse .readOnly := by
    simp only [classify, scanned]
  rw [risk] at risky ⊢
  rcases foldl_worse_mem (stmts.map stmtRisk) .readOnly with same | member
  · exact absurd same risky
  · exact mem_map.mp member

end Lattice

end OnlyJs.Bridge.DbPolicy
