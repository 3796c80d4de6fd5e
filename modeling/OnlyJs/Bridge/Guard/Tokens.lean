import Mathlib.Data.List.TakeWhile
import OnlyJs.Lib.SqlLexing

/-!
# The scanners of the table guard

`tokens` cuts a text into words: runs of letters, digits, underscores, dots and
commas, and the text of quoted identifiers. `strip_literals` blanks literals and
comments and keeps the rest. Both are one pass over the characters; the mode is the
loop of the source they are in.
-/

namespace OnlyJs.Bridge.Guard

open Lib.Lexing Lib.SqlLexing

section Scanners

inductive TokenMode where
  | plain
  | literal
  | quoted (mark : Char) (read : List Char)
  | lineComment
  | blockComment
deriving DecidableEq

structure Tokens where
  word : List Char
  out : List (List Char)
deriving DecidableEq

def Tokens.start : Tokens where
  word := []
  out := []

def Tokens.push (tokens : Tokens) (word : List Char) : Tokens :=
  { tokens with out := tokens.out ++ [word] }

def Tokens.flush (tokens : Tokens) : Tokens :=
  if tokens.word.isEmpty then tokens else { word := [], out := tokens.out ++ [tokens.word] }

def Tokens.drop (tokens : Tokens) : Tokens := { tokens with word := [] }

def isTokenChar (c : Char) : Bool := c.isAlphanum || c = '_' || c = '.' || c = ','

def Tokens.char (tokens : Tokens) (c : Char) : Tokens :=
  if isTokenChar c then { tokens with word := tokens.word ++ [c] } else tokens.flush

/-- The characters with a meaning of their own, by code: `"` 22, `'` 27, backslash 5c,
backquote 60. -/
def scanTokens : TokenMode → Tokens → List Char → List (List Char)
  | .plain, tokens, [] => tokens.flush.out
  | .plain, tokens, '\x27' :: rest => scanTokens .literal tokens.flush rest
  | .plain, tokens, '\x22' :: rest => scanTokens (.quoted '\x22' []) tokens.flush rest
  | .plain, tokens, '\x60' :: rest => scanTokens (.quoted '\x60' []) tokens.flush rest
  | .plain, tokens, '-' :: '-' :: rest => scanTokens .lineComment tokens.drop rest
  | .plain, tokens, '/' :: '*' :: rest => scanTokens .blockComment tokens.drop rest
  | .plain, tokens, c :: rest => scanTokens .plain (tokens.char c) rest
  | .literal, tokens, [] => tokens.flush.out
  | .literal, tokens, ['\x5c'] => tokens.flush.out
  | .literal, tokens, '\x5c' :: _ :: rest => scanTokens .literal tokens rest
  | .literal, tokens, '\x27' :: '\x27' :: rest => scanTokens .literal tokens rest
  | .literal, tokens, '\x27' :: rest => scanTokens .plain tokens rest
  | .literal, tokens, _ :: rest => scanTokens .literal tokens rest
  | .quoted _ read, tokens, [] => (tokens.push read).out
  | .quoted _ read, tokens, ['\x5c'] => (tokens.push (read ++ ['\x5c'])).out
  | .quoted mark read, tokens, '\x5c' :: c :: rest =>
    scanTokens (.quoted mark (read ++ ['\x5c', c])) tokens rest
  | .quoted mark read, tokens, [c] =>
    if c = mark then scanTokens .plain (tokens.push read) []
    else (tokens.push (read ++ [c])).out
  | .quoted mark read, tokens, c :: next :: rest =>
    if c = mark then
      if next = mark then scanTokens (.quoted mark (read ++ [mark, mark])) tokens rest
      else scanTokens .plain (tokens.push read) (next :: rest)
    else scanTokens (.quoted mark (read ++ [c])) tokens (next :: rest)
  | .lineComment, tokens, [] => tokens.flush.out
  | .lineComment, tokens, '\n' :: rest => scanTokens .plain tokens rest
  | .lineComment, tokens, _ :: rest => scanTokens .lineComment tokens rest
  | .blockComment, tokens, [] => tokens.flush.out
  | .blockComment, tokens, '*' :: '/' :: rest => scanTokens .plain tokens rest
  | .blockComment, tokens, _ :: rest => scanTokens .blockComment tokens rest

def tokens (sql : List Char) : List (List Char) := scanTokens .plain .start sql

inductive StripMode where
  | plain
  | literal
  | lineComment
  | blockComment
deriving DecidableEq

def strip : StripMode → List Char → List Char
  | .plain, [] => []
  | .plain, '\x27' :: rest => strip .literal rest
  | .plain, '-' :: '-' :: rest => strip .lineComment rest
  | .plain, '/' :: '*' :: rest => strip .blockComment rest
  | .plain, c :: rest => c :: strip .plain rest
  | .literal, [] => [' ']
  | .literal, '\x27' :: '\x27' :: rest => strip .literal rest
  | .literal, '\x27' :: rest => ' ' :: strip .plain rest
  | .literal, ['\x5c'] => [' ']
  | .literal, '\x5c' :: _ :: rest => strip .literal rest
  | .literal, _ :: rest => strip .literal rest
  | .lineComment, [] => [' ']
  | .lineComment, '\n' :: rest => ' ' :: '\n' :: strip .plain rest
  | .lineComment, _ :: rest => strip .lineComment rest
  | .blockComment, [] => [' ']
  | .blockComment, '*' :: '/' :: rest => ' ' :: strip .plain rest
  | .blockComment, _ :: rest => strip .blockComment rest

def stripLiterals (sql : List Char) : List Char := strip .plain sql

end Scanners

section Words

variable (tokens : Tokens)

@[simp] theorem flush_word : tokens.flush.word = [] := by
  unfold Tokens.flush
  split
  · rename_i empty
    exact List.isEmpty_iff.mp empty
  · rfl

@[simp] theorem flush_flush : tokens.flush.flush = tokens.flush := by
  rw [Tokens.flush, flush_word]
  rfl

@[simp] theorem drop_flush : tokens.drop.flush = tokens.drop := rfl

@[simp] theorem push_flush (body : List Char) :
    (tokens.flush.push body).flush = tokens.flush.push body := by
  have empty : (tokens.flush.push body).word = [] := flush_word tokens
  rw [Tokens.flush, empty]
  rfl

end Words

/-- What `tokens` has after a piece of a standard text. It does not know brackets, and
reads what they enclose as if it stood outside. -/
def Tokens.piece (tokens : Tokens) : Piece → Tokens
  | .name chars => chars.foldl Tokens.char tokens
  | .literal _ _ => tokens.flush
  | .quoted _ body _ => tokens.flush.push body
  | .bracket body _ => (body.foldl Tokens.char tokens.flush).flush
  | .line _ _ | .block _ _ | .live _ => tokens.drop
  | .other c => tokens.char c

/-- A piece that `tokens` reads as what it is. -/
def tokenReadable : Piece → Bool
  | .bracket body _ => inert ['\x27', '\x22', '\x60'] body
  | piece => piece.portable

section Loops

attribute [local simp] scanTokens

variable (tokens : Tokens)

theorem tokens_literal :
    QuotationLoop '\x27' (fun _ => scanTokens .literal tokens)
      (fun _ => scanTokens .plain tokens) (fun _ => scanTokens .plain tokens []) where
  nil _ := rfl
  lone _ := rfl
  escape _ d rest := by simp only [scanTokens]
  doubled _ rest := by simp only [scanTokens]
  closes _ rest apart := by
    cases rest with
    | nil => simp only [scanTokens]
    | cons d rest =>
      have apart : d ≠ '\x27' := by simpa using apart
      simp [scanTokens, apart]
  char _ c rest open_ plain := by simp [open_, plain]

theorem tokens_quoted (mark : Char) (ordinary : mark ≠ '\x5c') (tokens : Tokens) :
    QuotationLoop mark (fun read => scanTokens (.quoted mark read) tokens.flush)
      (fun read => scanTokens .plain (tokens.flush.push read))
      (fun read => scanTokens .plain (tokens.flush.push read) []) where
  nil read := by simp
  lone read := by simp
  escape _ d rest := by simp only [scanTokens]
  doubled _ rest := by
    cases rest with
    | nil => simp
    | cons e rest => simp
  closes _ rest apart := by
    cases rest with
    | nil => simp
    | cons d rest =>
      have apart : d ≠ mark := by simpa using apart
      simp [apart]
  char _ c rest open_ plain := by
    cases rest with
    | nil | cons d rest => simp [open_]

theorem tokens_line :
    LineLoop (scanTokens .lineComment tokens.drop) (scanTokens .plain tokens.drop) where
  nil := rfl
  newline rest := by simp [Tokens.char, isTokenChar]
  char c rest apart := by simp

theorem tokens_block :
    BlockLoop (scanTokens .blockComment tokens.drop) (scanTokens .plain tokens.drop) where
  nil := rfl
  last c := by simp
  closes rest := by simp only [scanTokens]
  char c d rest open_ := by
    by_cases star : c = '*'
    · have apart : d ≠ '/' := fun slash => open_ ⟨star, slash⟩
      simp [apart]
    · simp [star]

end Loops

section Plain

theorem tokens_char (tokens : Tokens) (c : Char) (rest : List Char)
    (unquoted : c ∉ ['\x27', '\x22', '\x60']) (minus : c = '-' → rest.head? ≠ some '-')
    (slash : c = '/' → rest.head? ≠ some '*') :
    scanTokens .plain tokens (c :: rest) = scanTokens .plain (tokens.char c) rest := by
  simp only [List.mem_cons, not_or] at unquoted
  cases rest with
  | nil => simp [scanTokens, unquoted]
  | cons d rest =>
    simp only [List.head?_cons, ne_eq, Option.some.injEq] at minus slash
    by_cases dash : c = '-'
    · have apart := minus dash
      subst dash
      simp [scanTokens, apart]
    · by_cases bar : c = '/'
      · have apart := slash bar
        subst bar
        simp [scanTokens, apart]
      · simp [scanTokens, unquoted, dash, bar]

theorem tokens_inert (body left : List Char) (tokens : Tokens)
    (isInert : inert ['\x27', '\x22', '\x60'] body = true) (minus : left.head? ≠ some '-')
    (star : left.head? ≠ some '*') :
    scanTokens .plain tokens (body ++ left) =
      scanTokens .plain (body.foldl Tokens.char tokens) left := by
  induction body generalizing tokens with
  | nil => rfl
  | cons c body ih =>
    obtain ⟨unquoted, dash, bar, later⟩ := inert_cons _ c body left isInert minus star
    rw [List.cons_append, tokens_char tokens c (body ++ left) unquoted dash bar]
    exact ih (tokens.char c) later

theorem name_inert (c : Char) (isName : isNameChar c = true) :
    c ∉ ['\x27', '\x22', '\x60'] ∧ c ≠ '-' ∧ c ≠ '/' := by
  have apart : ∀ mark, isNameChar mark = false → c ≠ mark := by
    rintro mark plain rfl
    rw [isName] at plain
    cases plain
  refine ⟨?_, apart '-' rfl, apart '/' rfl⟩
  simp only [List.mem_cons, List.not_mem_nil, or_false, not_or]
  exact ⟨apart _ rfl, apart _ rfl, apart _ rfl⟩

theorem tokens_name (tokens : Tokens) (chars left : List Char)
    (names : ∀ c ∈ chars, isNameChar c = true) :
    scanTokens .plain tokens (chars ++ left) =
      scanTokens .plain (chars.foldl Tokens.char tokens) left := by
  induction chars generalizing tokens with
  | nil => rfl
  | cons c chars ih =>
    obtain ⟨unquoted, dash, bar⟩ := name_inert c (names c List.mem_cons_self)
    rw [List.cons_append, tokens_char tokens c _ unquoted (fun same => absurd same dash)
      (fun same => absurd same bar)]
    exact ih (tokens.char c) fun other member => names other (List.mem_cons_of_mem c member)

end Plain

/-- One piece moves the scan over the piece. -/
theorem tokens_piece (tokens : Tokens) (c : Char) (rest left : List Char) (piece : Piece)
    (reading : Reading standard c rest piece left) (readable : tokenReadable piece = true) :
    scanTokens .plain tokens (c :: rest) = scanTokens .plain (tokens.piece piece) left := by
  have escaping : ∀ mark (body : List Char) (closed : Bool), mark ≠ '\x5c' →
      quotedBody mark false (body ++ (closing [mark] closed ++ left)) = (body, closed) →
      escapeSafe mark (body ++ closing [mark] closed) = true →
      quotedBody mark true (body ++ (closing [mark] closed ++ left)) = (body, closed) := by
    intro mark body closed ordinary found safe
    rw [quotedBody_escapes mark ordinary, found]
    rw [found]
    exact safe
  have nothing := left_of_open reading
  cases reading with
  | literal body closed left found =>
    have found := escaping '\x27' body closed (by decide) found readable
    have literal := quotation_loop (tokens_literal tokens.flush) [] _ left (by rw [found])
    rw [found] at literal
    refine literal.trans ?_
    cases closed with
    | true => rfl
    | false =>
      rw [nothing rfl]
      rfl
  | quoted mark isMark body closed left found =>
    have ordinary : c ≠ '\x5c' := by
      rintro rfl
      rcases isMark with same | same <;> cases same
    have found := escaping c body closed ordinary found readable
    have quoted := quotation_loop (tokens_quoted c ordinary tokens) [] _ left (by rw [found])
    rw [found] at quoted
    have opened : scanTokens .plain tokens (c :: (body ++ (closing [c] closed ++ left))) =
        scanTokens (.quoted c []) tokens.flush (body ++ (closing [c] closed ++ left)) := by
      rcases isMark with rfl | rfl <;> simp only [scanTokens]
    rw [opened, quoted]
    cases closed with
    | true => rfl
    | false =>
      rw [nothing rfl]
      rfl
  | bracket body closed left found =>
    cases closed with
    | true =>
      have inside := tokens_inert body ('\x5d' :: left) tokens.flush readable
        (by simp) (by simp)
      exact inside.trans (tokens_char _ '\x5d' left (by decide)
        (fun same => by cases same) (fun same => by cases same))
    | false =>
      rw [nothing rfl]
      have inside := tokens_inert body [] tokens.flush readable (by simp) (by simp)
      refine inside.trans ?_
      rw [scanTokens, scanTokens, Tokens.piece, flush_flush]
  | line rest =>
    exact line_loop (tokens_line tokens) rest
  | hash rest known | live rest known => cases known
  | block body closed left found dead =>
    exact block_loop (tokens_block tokens) _ left (by rw [found])
  | name c rest isName =>
    have names : ∀ d ∈ c :: rest.takeWhile isNameChar, isNameChar d = true := by
      intro d member
      rcases List.mem_cons.mp member with rfl | later
      · exact isName
      · exact List.mem_takeWhile_imp later
    have moved := tokens_name tokens (c :: rest.takeWhile isNameChar)
      (rest.dropWhile isNameChar) names
    rw [List.cons_append, List.takeWhile_append_dropWhile] at moved
    exact moved
  | other c rest unquoted minus hash slash plain known =>
    apply tokens_char tokens c rest ?_ minus slash
    simp only [List.mem_cons, List.not_mem_nil, or_false, not_or] at unquoted ⊢
    exact ⟨unquoted.1, unquoted.2.1, unquoted.2.2.1⟩

theorem tokens_lexes (before text : List Char) (pieces : List Piece)
    (lexes : (sqlLexer standard).Lexes before text pieces)
    (readable : ∀ piece ∈ pieces, tokenReadable piece = true) (tokens : Tokens) :
    scanTokens .plain tokens text = (pieces.foldl Tokens.piece tokens).flush.out := by
  induction lexes generalizing tokens with
  | nil before => rfl
  | cons before c more left piece pieces read source later ih =>
    have reading := reading_of_read standard c more left piece read source
    rw [tokens_piece tokens c _ left piece reading (readable piece List.mem_cons_self)]
    exact ih (fun other member => readable other (List.mem_cons_of_mem piece member))
      (tokens.piece piece)

section Stripping

/-- A piece that `strip_literals` keeps or blanks as what it is; it does not know quoted
identifiers. -/
def stripReadable : Piece → Bool
  | .quoted _ body _ | .bracket body _ => inert ['\x27'] body
  | piece => piece.portable

attribute [local simp] strip

theorem strip_literal :
    QuotationLoop '\x27' (fun _ => strip .literal) (fun _ rest => ' ' :: strip .plain rest)
      (fun _ => [' ']) where
  nil _ := rfl
  lone _ := rfl
  escape _ d rest := by simp only [strip]
  doubled _ rest := by simp only [strip]
  closes _ rest apart := by
    cases rest with
    | nil => simp only [strip]
    | cons d rest =>
      have apart : d ≠ '\x27' := by simpa using apart
      simp [apart]
  char _ c rest open_ plain := by simp [open_, plain]

theorem strip_line :
    LineLoop (strip .lineComment) (fun rest => ' ' :: strip .plain rest) where
  nil := rfl
  newline rest := by simp
  char c rest apart := by simp

theorem strip_block :
    BlockLoop (strip .blockComment) (fun rest => ' ' :: strip .plain rest) where
  nil := rfl
  last c := by simp
  closes rest := by simp only [strip]
  char c d rest open_ := by
    by_cases star : c = '*'
    · have apart : d ≠ '/' := fun slash => open_ ⟨star, slash⟩
      simp [apart]
    · simp [star]

theorem strip_char (c : Char) (rest : List Char) (unquoted : c ≠ '\x27')
    (minus : c = '-' → rest.head? ≠ some '-') (slash : c = '/' → rest.head? ≠ some '*') :
    strip .plain (c :: rest) = c :: strip .plain rest := by
  cases rest with
  | nil => simp
  | cons d rest =>
    simp only [List.head?_cons, ne_eq, Option.some.injEq] at minus slash
    by_cases dash : c = '-'
    · have apart := minus dash
      subst dash
      simp [apart]
    · by_cases bar : c = '/'
      · have apart := slash bar
        subst bar
        simp [apart]
      · simp [dash, bar]

theorem strip_inert (body left : List Char) (isInert : inert ['\x27'] body = true)
    (minus : left.head? ≠ some '-') (star : left.head? ≠ some '*') :
    strip .plain (body ++ left) = body ++ strip .plain left := by
  induction body with
  | nil => rfl
  | cons c body ih =>
    obtain ⟨unquoted, dash, bar, later⟩ := inert_cons _ c body left isInert minus star
    rw [List.cons_append, strip_char c (body ++ left) (by simpa using unquoted) dash bar, ih later]
    rfl

theorem strip_name (chars left : List Char) (names : ∀ c ∈ chars, isNameChar c = true) :
    strip .plain (chars ++ left) = chars ++ strip .plain left := by
  induction chars with
  | nil => rfl
  | cons c chars ih =>
    obtain ⟨unquoted, dash, bar⟩ := name_inert c (names c List.mem_cons_self)
    have apart : c ≠ '\x27' := by
      rintro rfl
      exact unquoted List.mem_cons_self
    rw [List.cons_append, strip_char c _ apart (fun same => absurd same dash)
      (fun same => absurd same bar), ih fun other member => names other
        (List.mem_cons_of_mem c member)]
    rfl

theorem strip_enclosed (mark last : Char) (marks : mark ≠ '\x27' ∧ last ≠ '\x27')
    (apart : ∀ c ∈ ['-', '/', '*'], c ≠ mark ∧ c ≠ last) (body left : List Char) (closed : Bool)
    (isInert : inert ['\x27'] body = true) (nothing : closed = false → left = []) :
    strip .plain (mark :: (body ++ (closing [last] closed ++ left))) =
      mark :: (body ++ closing [last] closed) ++ strip .plain left := by
  have dash := apart '-' (by simp)
  have bar := apart '/' (by simp)
  have star := apart '*' (by simp)
  rw [strip_char mark _ marks.1 (fun same => absurd same.symm dash.1)
    (fun same => absurd same.symm bar.1)]
  cases closed with
  | true =>
    have inside := strip_inert body (last :: left) isInert (by simpa using dash.2.symm)
      (by simpa using star.2.symm)
    have behind := strip_char last left marks.2 (fun same => absurd same.symm dash.2)
      (fun same => absurd same.symm bar.2)
    rw [show closing [last] true ++ left = last :: left from rfl, inside, behind]
    simp [closing]
  | false =>
    rw [nothing rfl]
    have inside := strip_inert body [] isInert (by simp) (by simp)
    rw [show closing [last] false ++ [] = [] from rfl, inside]
    simp [closing]

/-- One piece is kept or blanked as what it is. -/
theorem strip_piece (c : Char) (rest left : List Char) (piece : Piece)
    (reading : Reading standard c rest piece left) (readable : stripReadable piece = true) :
    strip .plain (c :: rest) = piece.visible ++ strip .plain left := by
  have nothing := left_of_open reading
  cases reading with
  | literal body closed left found =>
    change quotedBody '\x27' false _ = _ at found
    have escaping : quotedBody '\x27' true (body ++ (closing ['\x27'] closed ++ left)) =
        (body, closed) := by
      rw [quotedBody_escapes '\x27' (by decide), found]
      rw [found]
      exact readable
    have literal := quotation_loop strip_literal [] _ left (by rw [escaping])
    rw [escaping] at literal
    refine literal.trans ?_
    cases closed with
    | true => rfl
    | false =>
      rw [nothing rfl]
      rfl
  | quoted mark isMark body closed left found =>
    rcases isMark with rfl | rfl
    · exact strip_enclosed _ _ (by decide) (by simp) body left closed readable nothing
    · exact strip_enclosed _ _ (by decide) (by simp) body left closed readable nothing
  | bracket body closed left found =>
    exact strip_enclosed _ _ (by decide) (by simp) body left closed readable nothing
  | line rest =>
    exact line_loop strip_line rest
  | hash rest known | live rest known => cases known
  | block body closed left found dead =>
    exact block_loop strip_block _ left (by rw [found])
  | name c rest isName =>
    have names : ∀ d ∈ c :: rest.takeWhile isNameChar, isNameChar d = true := by
      intro d member
      rcases List.mem_cons.mp member with rfl | later
      · exact isName
      · exact List.mem_takeWhile_imp later
    have moved := strip_name (c :: rest.takeWhile isNameChar) (rest.dropWhile isNameChar) names
    rw [List.cons_append, List.takeWhile_append_dropWhile] at moved
    exact moved
  | other c rest unquoted minus hash slash plain known =>
    have apart : c ≠ '\x27' := by
      rintro rfl
      exact unquoted List.mem_cons_self
    exact strip_char c rest apart minus slash

theorem strip_lexes (before text : List Char) (pieces : List Piece)
    (lexes : (sqlLexer standard).Lexes before text pieces)
    (readable : ∀ piece ∈ pieces, stripReadable piece = true) :
    strip .plain text = visible pieces := by
  induction lexes with
  | nil before => rfl
  | cons before c more left piece pieces read source later ih =>
    have reading := reading_of_read standard c more left piece read source
    rw [strip_piece c _ left piece reading (readable piece List.mem_cons_self), visible_cons,
      ih fun other member => readable other (List.mem_cons_of_mem piece member)]

end Stripping

end OnlyJs.Bridge.Guard
