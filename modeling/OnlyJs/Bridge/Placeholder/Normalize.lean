import OnlyJs.Bridge.Value
import OnlyJs.Lib.Lexing

/-!
# Numbered placeholders

A text with `?` placeholders is rewritten for dialects that number them. One
pass tells literals, quoted identifiers, comments and dollar quotes from the
text around them, notes the bare `?` and the largest parameter in use, and then
numbers the bare ones from the next number on. Machine addition wraps, as it does
in the release profile.

Pieces are read one character at a time outside these regions, and the
characters with a meaning of their own are given by code where they would not
read well: `"` is 22, `'` is 27, a backslash 5c.
-/

namespace OnlyJs.Bridge.Placeholder

open Lib.Lexing

inductive PlaceholderStyle where
  | q
  | dollar
  | colon
deriving DecidableEq

def usizeSpan : Nat := 2 ^ 64

def isTagChar (c : Char) : Bool := c.isAlphanum || c = '_'

def isIdentChar (c : Char) : Bool := isTagChar c || c = '$'

def boundary : List Char → Bool
  | [] => true
  | c :: _ => !isIdentChar c

def opensEString : List Char → Bool
  | [] => false
  | c :: earlier => (c = 'e' || c = 'E') && boundary earlier

def quotedBody (mark : Char) (escapes : Bool) : List Char → List Char
  | [] => []
  | [c] => [c]
  | c :: d :: rest =>
    if escapes && c = '\x5c' then c :: d :: quotedBody mark escapes rest
    else if c = mark then
      if d = mark then c :: d :: quotedBody mark escapes rest else [c]
    else c :: quotedBody mark escapes (d :: rest)

def blockBody : List Char → List Char
  | [] => []
  | [c] => [c]
  | c :: d :: rest => if c = '*' ∧ d = '/' then [c, d] else c :: blockBody (d :: rest)

def throughTag (tag : List Char) : List Char → Option (List Char)
  | [] => none
  | c :: rest =>
    if tag.isPrefixOf (c :: rest) then some tag else (throughTag tag rest).map (c :: ·)

def paramNumber (digits : List Char) : Nat :=
  if Nat.ofDigitChars 10 digits 0 < usizeSpan then Nat.ofDigitChars 10 digits 0 else 0

def isOperatorChar (c : Char) : Bool :=
  ['|', '&', '<', '>', '=', '#', '~', '-'].contains c

inductive Piece where
  | text (chars : List Char)
  | param (digits : List Char)
  | mark
deriving DecidableEq

def Piece.source : Piece → List Char
  | text chars => chars
  | param digits => '$' :: digits
  | mark => ['?']

/-- What a dollar sign begins: a dollar quote, else a parameter, else nothing. -/
def nextDollar (before rest : List Char) : Except String Piece :=
  if boundary before then
    let tag := rest.takeWhile isTagChar
    match rest.dropWhile isTagChar with
    | '$' :: body =>
      match throughTag ('$' :: (tag ++ ['$'])) body with
      | some quoted => .ok (.text ('$' :: (tag ++ '$' :: quoted)))
      | none => .error "unterminated dollar-quoted string"
    | _ =>
      let digits := rest.takeWhile Char.isDigit
      let glued := (rest.dropWhile Char.isDigit).head?.any fun c => c.isAlpha || c = '_'
      if digits ≠ [] ∧ glued = false ∧ 1 ≤ paramNumber digits then .ok (.param digits)
      else .ok (.text ['$'])
  else .ok (.text ['$'])

def next (before : List Char) (c : Char) (rest : List Char) : Except String Piece :=
  if c = '\x27' then .ok (.text (c :: quotedBody '\x27' (opensEString before) rest))
  else if c = '\x22' then .ok (.text (c :: quotedBody '\x22' false rest))
  else if c = '-' ∧ rest.head? = some '-' then .ok (.text (c :: rest.takeWhile (· ≠ '\n')))
  else if c = '/' ∧ rest.head? = some '*' then .ok (.text (c :: '*' :: blockBody rest.tail))
  else if c = '$' then nextDollar before rest
  else if c = '?' then
    if rest.head?.any isOperatorChar then .ok (.text [c]) else .ok .mark
  else .ok (.text [c])

theorem quotedBody_reads (mark : Char) (escapes : Bool) (rest : List Char) :
    ∃ left, rest = quotedBody mark escapes rest ++ left := by
  fun_induction quotedBody mark escapes rest with
  | case1 | case2 c => exact ⟨[], rfl⟩
  | case3 c d rest _ ih =>
    obtain ⟨left, split⟩ := ih
    exact ⟨left, congrArg (c :: d :: ·) split⟩
  | case4 rest _ ih =>
    obtain ⟨left, split⟩ := ih
    exact ⟨left, congrArg (mark :: mark :: ·) split⟩
  | case5 d rest _ _ => exact ⟨d :: rest, rfl⟩
  | case6 c d rest _ _ ih =>
    obtain ⟨left, split⟩ := ih
    exact ⟨left, congrArg (c :: ·) split⟩

variable (before rest : List Char)

theorem blockBody_reads : ∃ left, rest = blockBody rest ++ left := by
  fun_induction blockBody rest with
  | case1 | case2 c => exact ⟨[], rfl⟩
  | case3 c d rest closes => exact ⟨rest, rfl⟩
  | case4 c d rest _ ih =>
    obtain ⟨left, split⟩ := ih
    exact ⟨left, congrArg (c :: ·) split⟩

theorem throughTag_reads (tag body quoted : List Char) (found : throughTag tag body = some quoted) :
    ∃ left, body = quoted ++ left := by
  induction body generalizing quoted with
  | nil => cases found
  | cons c rest ih =>
    rw [throughTag] at found
    by_cases here : tag.isPrefixOf (c :: rest) = true
    · rw [if_pos here] at found
      cases found
      obtain ⟨left, split⟩ := List.isPrefixOf_iff_prefix.mp here
      exact ⟨left, split.symm⟩
    · rw [if_neg here] at found
      obtain ⟨later, foundLater, rfl⟩ := Option.map_eq_some_iff.mp found
      obtain ⟨left, split⟩ := ih later foundLater
      exact ⟨left, congrArg (c :: ·) split⟩

theorem nextDollar_reads (piece : Piece) (read : nextDollar before rest = .ok piece) :
    ∃ more left, piece.source = '$' :: more ∧ rest = more ++ left := by
  have bare : ∃ more left, (Piece.text ['$']).source = '$' :: more ∧ rest = more ++ left :=
    ⟨[], rest, rfl, rfl⟩
  unfold nextDollar at read
  split at read
  · dsimp only at read
    split at read
    · rename_i body closes
      split at read
      · rename_i quoted found
        cases read
        obtain ⟨left, split_⟩ := throughTag_reads _ body quoted found
        refine ⟨rest.takeWhile isTagChar ++ '$' :: quoted, left, rfl, ?_⟩
        calc
          rest = rest.takeWhile isTagChar ++ rest.dropWhile isTagChar :=
            List.takeWhile_append_dropWhile.symm
          _ = rest.takeWhile isTagChar ++ '$' :: (quoted ++ left) := by rw [closes, ← split_]
          _ = rest.takeWhile isTagChar ++ '$' :: quoted ++ left := by
            rw [List.append_assoc, List.cons_append]
      · cases read
    · split at read
      · cases read
        exact ⟨_, _, rfl, List.takeWhile_append_dropWhile.symm⟩
      · cases read
        exact bare
  · cases read
    exact bare

theorem next_reads (c : Char) (rest : List Char) (piece : Piece)
    (read : next before c rest = .ok piece) :
    ∃ more left, piece.source = c :: more ∧ rest = more ++ left := by
  unfold next at read
  split at read
  · cases read
    obtain ⟨left, split_⟩ := quotedBody_reads '\x27' (opensEString before) rest
    exact ⟨_, left, rfl, split_⟩
  split at read
  · cases read
    obtain ⟨left, split_⟩ := quotedBody_reads '\x22' false rest
    exact ⟨_, left, rfl, split_⟩
  split at read
  · cases read
    exact ⟨_, _, rfl, List.takeWhile_append_dropWhile.symm⟩
  split at read
  · rename_i opens
    cases read
    cases rest with
    | nil => cases opens.2
    | cons d rest =>
      cases opens.2
      obtain ⟨left, split_⟩ := blockBody_reads rest
      exact ⟨_, left, rfl, congrArg ('*' :: ·) split_⟩
  split at read
  · rename_i dollar
    rw [dollar]
    exact nextDollar_reads before rest piece read
  split at read
  · rename_i question
    split at read
    · cases read
      exact ⟨[], rest, rfl, rfl⟩
    · cases read
      exact ⟨[], rest, congrArg (fun c => [c]) question.symm, rfl⟩
  · cases read
    exact ⟨[], rest, rfl, rfl⟩

def lexer : Lexer Piece String where
  next := next
  source := Piece.source
  reads := next_reads

/-- The largest parameter in use. -/
def maxParam : List Piece → Nat
  | [] => 0
  | .param digits :: rest => max (paramNumber digits) (maxParam rest)
  | _ :: rest => maxParam rest

def countMarks (pieces : List Piece) : Nat := pieces.count .mark

/-- The text with its bare question marks numbered from `first` on. -/
def rewrite : Nat → List Piece → List Char
  | _, [] => []
  | first, .mark :: rest =>
    '$' :: (Nat.toDigits 10 (first % usizeSpan) ++ rewrite (first + 1) rest)
  | first, piece :: rest => piece.source ++ rewrite first rest

def normalizePlaceholders (sql : List Char) : Except String (List Char × Nat) :=
  match lexer.pieces sql with
  | .error error => .error error
  | .ok pieces =>
    if countMarks pieces = 0 then .ok (sql, maxParam pieces)
    else
      .ok (rewrite (maxParam pieces + 1) pieces,
        (maxParam pieces + countMarks pieces) % usizeSpan)

def mismatchError (count params : Nat) : String :=
  s!"placeholder count {count} != params {params}\n" ++
    "hint: oj 统一占位符为 `?`（postgres 由宿主自动改写为 $n）；" ++
    "jsonb 存在性判断请用 jsonb_exists(doc, 'key')"

def normalizeSql (placeholder : PlaceholderStyle) (sql : List Char) (params : List Value) :
    Except String (List Char) :=
  if placeholder ≠ .dollar ∨ params.isEmpty then .ok sql
  else
    match normalizePlaceholders sql with
    | .error error => .error error
    | .ok (out, count) =>
      if count ≠ params.length then .error (mismatchError count params.length) else .ok out

end OnlyJs.Bridge.Placeholder
