import OnlyJs.Bridge.DbPolicy.Classify
import OnlyJs.Lib.SqlLexing

/-!
# The statement scanner, piece by piece

The scanner reads SQL in one dialect for all databases: backslashes escape in every
quotation, `#` begins a comment, and executable comments are live. In that dialect
it reads a text piece by piece.
-/

namespace OnlyJs.Bridge.DbPolicy

open Lib.Lexing List Lib.SqlLexing

def scannerDialect : Lib.SqlLexing.Dialect where
  escapes := true
  hash := true
  live := true
  foreign := fun _ => false

def Scanned.char (scanned : Scanned) (c : Char) : Scanned :=
  if isWordChar c then scanned.extend c else scanned.flush

/-- What the scanner has after a piece; an open quotation ends the scan. -/
def Scanned.piece (scanned : Scanned) : Piece → Option Scanned
  | .name chars => some (chars.foldl Scanned.char scanned)
  | .literal _ closed => if closed then some scanned.flush else none
  | .quoted _ body closed => if closed then some (scanned.flush.push body) else none
  | .bracket body closed => if closed then some (scanned.flush.push body) else none
  | .line _ _ | .block _ _ | .live _ => some scanned.flush
  | .other c => some (if c = ';' then scanned.flush.cut else scanned.char c)

variable (scanned : Scanned)

@[simp] theorem flush_word : scanned.flush.word = [] := by
  unfold Scanned.flush
  split
  · rename_i empty
    exact List.isEmpty_iff.mp empty
  · rfl

@[simp] theorem flush_flush : scanned.flush.flush = scanned.flush := by
  rw [Scanned.flush, flush_word]
  rfl

theorem flush_of_empty (empty : scanned.word = []) :
    scanned.flush = scanned := by
  rw [Scanned.flush, empty]
  rfl

theorem flush_out : scanned.flush.out = scanned.out := by
  unfold Scanned.flush
  split
  · rfl
  · rfl

theorem char_out (c : Char) : (scanned.char c).out = scanned.out := by
  unfold Scanned.char
  split
  · rfl
  · exact flush_out scanned

section Loops

attribute [local simp] scan

variable (scanned : Scanned)

theorem scan_literal :
    QuotationLoop '\x27' (fun _ => scan .literal scanned) (fun _ => scan (.plain false) scanned)
      (fun _ => none) where
  nil _ := rfl
  lone _ := rfl
  escape _ d rest := by simp only [scan]
  doubled _ rest := by simp only [scan]
  closes _ rest apart := by
    cases rest with
    | nil => simp only [scan]
    | cons d rest =>
      have apart : d ≠ '\x27' := by simpa using apart
      simp [apart]
  char _ c rest open_ plain := by simp [open_, plain]

theorem scan_quoted (mark : Char) (ordinary : mark ≠ '\x5c') (scanned : Scanned) :
    QuotationLoop mark (fun read => scan (.quoted mark read) scanned)
      (fun read => scan (.plain false) (scanned.push read)) (fun _ => none) where
  nil _ := rfl
  lone _ := rfl
  escape _ d rest := by simp only [scan]
  doubled _ rest := by
    cases rest with
    | nil => simp
    | cons e rest => simp
  closes _ rest apart := by
    cases rest with
    | nil => simp
    | cons d rest =>
      have apart : d ≠ mark := by simpa using apart
      simp [apart]
  char _ c rest open_ plain := by
    cases rest with
    | nil | cons d rest => simp [open_]

theorem scan_bracket (read rest left : List Char)
    (split : rest = (bracketBody rest).1 ++ (closing ['\x5d'] (bracketBody rest).2 ++ left)) :
    scan (.bracket read) scanned rest =
      if (bracketBody rest).2 then
        scan (.plain false) (scanned.push (read ++ (bracketBody rest).1)) left
      else none := by
  fun_induction bracketBody rest generalizing read with
  | case1 => rfl
  | case2 rest =>
    cases split
    rw [append_nil]
    rfl
  | case3 c rest apart ih =>
    have later := ih (read ++ [c]) (cons_inj_right _ |>.mp split)
    rw [append_assoc, singleton_append] at later
    rw [← later]
    simp

theorem scan_line :
    LineLoop (scan .lineComment scanned.flush) (scan (.plain false) scanned.flush) where
  nil := rfl
  newline rest := by simp [isWordChar]
  char c rest apart := by simp

theorem scan_block :
    BlockLoop (scan .blockComment scanned.flush) (scan (.plain false) scanned.flush) where
  nil := rfl
  last c := by simp
  closes rest := by simp only [scan]
  char c d rest open_ := by
    by_cases star : c = '*'
    · have apart : d ≠ '/' := fun slash => open_ ⟨star, slash⟩
      simp [apart]
    · simp [star]

end Loops

section Plain

def marks : List Char := ['\x27', '\x22', '\x60', '\x5b', '-', '\x23', '/', ';']

variable (version : Bool) (scanned : Scanned) (c : Char) (rest : List Char)

theorem scan_plain_char (unmarked : c ∉ marks) :
    scan (.plain version) scanned (c :: rest) =
      if version && c.isDigit then scan (.plain true) scanned rest
      else scan (.plain false) (scanned.char c) rest := by
  simp only [marks, mem_cons, not_or] at unmarked
  simp [scan, unmarked, Scanned.char]
  split
  · rfl
  · split
    · rfl
    · rfl

theorem scan_minus :
    scan (.plain version) scanned ('-' :: rest) =
      if rest.head? = some '-' then scan .lineComment scanned.flush rest.tail
      else scan (.plain false) scanned.flush rest := by
  cases rest with
  | nil => simp [scan, isWordChar]
  | cons d rest =>
    by_cases again : d = '-'
    · subst again
      simp [scan]
    · simp [scan, again, isWordChar]

theorem scan_slash :
    scan (.plain version) scanned ('/' :: rest) =
      if rest.head? = some '*' then
        if rest.tail.head? = some '!' then scan (.plain true) scanned.flush rest.tail.tail
        else scan .blockComment scanned.flush rest.tail
      else scan (.plain false) scanned.flush rest := by
  cases rest with
  | nil => simp [scan, isWordChar]
  | cons d rest =>
    by_cases star : d = '*'
    · subst star
      cases rest with
      | nil => simp [scan]
      | cons e rest =>
        by_cases bang : e = '!'
        · subst bang
          simp [scan]
        · simp [scan, bang]
    · simp [scan, star, isWordChar]

theorem name_unmarked (isName : isNameChar c = true) : c ∉ marks := by
  intro member
  simp only [marks, mem_cons, not_mem_nil, or_false] at member
  rcases member with rfl | rfl | rfl | rfl | rfl | rfl | rfl | rfl <;> cases isName

theorem digit_name (digit : c.isDigit = true) : isNameChar c = true := by
  simp [isNameChar, Char.isAlphanum, digit]

theorem scan_name (chars left : List Char) (names : ∀ c ∈ chars, isNameChar c = true) :
    scan (.plain false) scanned (chars ++ left) =
      scan (.plain false) (chars.foldl Scanned.char scanned) left := by
  induction chars generalizing scanned with
  | nil => rfl
  | cons c chars ih =>
    have unmarked := name_unmarked c (names c mem_cons_self)
    rw [cons_append, scan_plain_char false scanned c _ unmarked]
    exact ih (scanned.char c) fun other member => names other (mem_cons_of_mem c member)

theorem scan_version :
    scan (.plain true) scanned rest =
      scan (.plain false) scanned (rest.dropWhile Char.isDigit) := by
  induction rest with
  | nil => rfl
  | cons c rest ih =>
    by_cases digit : c.isDigit = true
    · have unmarked := name_unmarked c (digit_name c digit)
      rw [scan_plain_char true scanned c rest unmarked, dropWhile_cons_of_pos digit,
        digit, ← ih]
      rfl
    · rw [dropWhile_cons_of_neg digit]
      by_cases mark : c ∈ marks
      · simp only [marks, mem_cons, not_mem_nil, or_false] at mark
        rcases mark with rfl | rfl | rfl | rfl | rfl | rfl | rfl | rfl
        · simp only [scan]
        · simp only [scan]
        · simp only [scan]
        · simp only [scan]
        · rw [scan_minus, scan_minus]
        · simp only [scan]
        · rw [scan_slash, scan_slash]
        · simp only [scan]
      · rw [scan_plain_char true scanned c rest mark, scan_plain_char false scanned c rest mark,
          Bool.not_eq_true _ |>.mp digit]
        rfl

end Plain

/-- One piece of the text moves the scanner over the piece. -/
theorem scan_piece (c : Char) (rest left : List Char) (piece : Piece)
    (reading : Reading scannerDialect c rest piece left) :
    scan (.plain false) scanned (c :: rest) =
      (scanned.piece piece).bind fun after => scan (.plain false) after left := by
  cases reading with
  | literal body closed left found =>
    change quotedBody '\x27' true _ = _ at found
    have literal := quotation_loop (scan_literal scanned.flush) [] _ left (by rw [found])
    rw [found] at literal
    simp only [scan, literal, Scanned.piece]
    split
    · rfl
    · rfl
  | quoted mark isMark body closed left found =>
    change quotedBody c true _ = _ at found
    have ordinary : c ≠ '\x5c' := by
      rintro rfl
      rcases isMark with same | same <;> cases same
    have quoted := quotation_loop (scan_quoted c ordinary scanned.flush) [] _ left
      (by rw [found])
    rw [found] at quoted
    have opened : scan (.plain false) scanned
        (c :: (body ++ (closing [c] closed ++ left))) =
          scan (.quoted c []) scanned.flush (body ++ (closing [c] closed ++ left)) := by
      rcases isMark with rfl | rfl <;> simp only [scan]
    rw [opened, quoted]
    simp only [Scanned.piece]
    split
    · rfl
    · rfl
  | bracket body closed left found =>
    have bracket := scan_bracket scanned.flush [] _ left (by rw [found])
    rw [found] at bracket
    simp only [scan, bracket, Scanned.piece]
    split
    · rfl
    · rfl
  | line rest | hash rest known =>
    exact line_loop (scan_line scanned) rest
  | live rest known =>
    exact scan_version scanned.flush rest
  | block body closed left found dead =>
    have block := block_loop (scan_block scanned) _ left (by rw [found])
    have apart := dead rfl
    rw [scan_slash, tail_cons, if_neg apart, block]
    rfl
  | name c rest isName =>
    have names : ∀ d ∈ c :: rest.takeWhile isNameChar, isNameChar d = true := by
      intro d member
      rcases mem_cons.mp member with rfl | later
      · exact isName
      · exact mem_takeWhile_imp later
    have moved := scan_name scanned (c :: rest.takeWhile isNameChar)
      (rest.dropWhile isNameChar) names
    rw [cons_append, takeWhile_append_dropWhile] at moved
    exact moved
  | other c rest unquoted minus hash slash plain known =>
    simp only [Scanned.piece, Option.bind_some]
    by_cases mark : c ∈ marks
    · simp only [marks, mem_cons, not_mem_nil, or_false] at mark
      simp only [mem_cons, not_mem_nil, or_false, not_or] at unquoted
      rcases mark with rfl | rfl | rfl | rfl | rfl | rfl | rfl | rfl
      · exact absurd rfl unquoted.1
      · exact absurd rfl unquoted.2.1
      · exact absurd rfl unquoted.2.2.1
      · exact absurd rfl unquoted.2.2.2
      · rw [scan_minus, if_neg (minus rfl)]
        rfl
      · exact absurd rfl (hash rfl)
      · rw [scan_slash, if_neg (slash rfl)]
        rfl
      · simp only [scan, if_true]
    · rw [scan_plain_char false scanned c rest mark]
      have separate : c ≠ ';' := by
        rintro rfl
        exact mark (by decide)
      simp only [Bool.false_and, Bool.false_eq_true, if_false, if_neg separate]

theorem scan_lexes (before text : List Char) (pieces : List Piece)
    (lexes : (sqlLexer scannerDialect).Lexes before text pieces) (scanned : Scanned) :
    scan (.plain false) scanned text = (pieces.foldlM Scanned.piece scanned).map
      Scanned.finish := by
  induction lexes generalizing scanned with
  | nil before => rfl
  | cons before c more left piece pieces read source later ih =>
    have reading := reading_of_read scannerDialect c more left piece read source
    rw [scan_piece scanned c _ left piece reading, foldlM_cons]
    cases scanned.piece piece with
    | none => rfl
    | some after => exact ih after

theorem statements_lexes (sql : List Char) (pieces : List Piece)
    (lexes : (sqlLexer scannerDialect).Lexes [] sql pieces) :
    statements sql = (pieces.foldlM Scanned.piece .start).map Scanned.finish :=
  scan_lexes [] sql pieces lexes .start

end OnlyJs.Bridge.DbPolicy
