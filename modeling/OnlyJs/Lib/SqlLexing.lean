import OnlyJs.Lib.Lexing

/-!
# The lexical structure of SQL

Dialects of SQL agree on names, operators, comments and quotation, and differ in
a few points: whether a backslash escapes inside quotes, whether `#` begins a
comment, whether the text of a comment that begins with an exclamation mark is
live, and which characters have no meaning outside quotes. Pieces keep the text
they were read from.
-/

namespace OnlyJs.Lib.SqlLexing

open Lib.Lexing List

set_option autoImplicit false

structure Dialect where
  escapes : Bool
  hash : Bool
  live : Bool
  foreign : Char → Bool

/-- Standard quotation: a backslash is an ordinary character, and a quotation mark
in a literal is doubled. Neither `#` nor a backslash stands outside quotes. -/
def standard : Dialect where
  escapes := false
  hash := false
  live := false
  foreign := fun c => c = '\x23' || c = '\x5c'

def isNameChar (c : Char) : Bool :=
  c.isAlphanum || c = '_' || c = '$' || 0x80 ≤ c.toNat

/-- `closed` tells whether the closing mark was there; `live` begins a comment whose
text is live, with the version number it is meant for. -/
inductive Piece where
  | name (chars : List Char)
  | literal (body : List Char) (closed : Bool)
  | quoted (mark : Char) (body : List Char) (closed : Bool)
  | bracket (body : List Char) (closed : Bool)
  | line (opener body : List Char)
  | block (body : List Char) (closed : Bool)
  | live (version : List Char)
  | other (char : Char)
deriving DecidableEq

def closing (mark : List Char) (closed : Bool) : List Char := if closed then mark else []

def Piece.source : Piece → List Char
  | name chars => chars
  | literal body closed => '\x27' :: (body ++ closing ['\x27'] closed)
  | quoted mark body closed => mark :: (body ++ closing [mark] closed)
  | bracket body closed => '\x5b' :: (body ++ closing ['\x5d'] closed)
  | line opener body => opener ++ body
  | block body closed => '/' :: '*' :: (body ++ closing ['*', '/'] closed)
  | live version => '/' :: '*' :: '!' :: version
  | other char => [char]

/-- The text up to the closing mark, and whether there is one. A doubled mark does
not close. -/
def quotedBody (mark : Char) (escapes : Bool) : List Char → List Char × Bool
  | [] => ([], false)
  | [c] => if c = mark then ([], true) else ([c], false)
  | c :: d :: rest =>
    if escapes && c = '\x5c' then
      (c :: d :: (quotedBody mark escapes rest).1, (quotedBody mark escapes rest).2)
    else if c = mark then
      if d = mark then
        (c :: d :: (quotedBody mark escapes rest).1, (quotedBody mark escapes rest).2)
      else ([], true)
    else (c :: (quotedBody mark escapes (d :: rest)).1, (quotedBody mark escapes (d :: rest)).2)

def bracketBody : List Char → List Char × Bool
  | [] => ([], false)
  | c :: rest =>
    if c = '\x5d' then ([], true) else (c :: (bracketBody rest).1, (bracketBody rest).2)

/-- Block comments do not nest. -/
def blockBody : List Char → List Char × Bool
  | [] => ([], false)
  | [c] => ([c], false)
  | c :: d :: rest =>
    if c = '*' ∧ d = '/' then ([], true)
    else (c :: (blockBody (d :: rest)).1, (blockBody (d :: rest)).2)

def lineBody (rest : List Char) : List Char := rest.takeWhile (· ≠ '\n')

def next (dialect : Dialect) (c : Char) (rest : List Char) : Except Char Piece :=
  if c = '\x27' then
    .ok (.literal (quotedBody c dialect.escapes rest).1 (quotedBody c dialect.escapes rest).2)
  else if c = '\x22' ∨ c = '\x60' then
    .ok (.quoted c (quotedBody c dialect.escapes rest).1 (quotedBody c dialect.escapes rest).2)
  else if c = '\x5b' then .ok (.bracket (bracketBody rest).1 (bracketBody rest).2)
  else if c = '-' ∧ rest.head? = some '-' then .ok (.line ['-', '-'] (lineBody rest.tail))
  else if dialect.hash ∧ c = '\x23' then .ok (.line ['\x23'] (lineBody rest))
  else if c = '/' ∧ rest.head? = some '*' then
    if dialect.live ∧ rest.tail.head? = some '!' then
      .ok (.live (rest.tail.tail.takeWhile Char.isDigit))
    else .ok (.block (blockBody rest.tail).1 (blockBody rest.tail).2)
  else if isNameChar c then .ok (.name (c :: rest.takeWhile isNameChar))
  else if dialect.foreign c then .error c
  else .ok (.other c)

section Reading

theorem quotedBody_reads (mark : Char) (escapes : Bool) (rest : List Char) :
    ∃ left, rest = (quotedBody mark escapes rest).1 ++
      (closing [mark] (quotedBody mark escapes rest).2 ++ left) := by
  fun_induction quotedBody mark escapes rest with
  | case1 | case2 | case3 c _ => exact ⟨[], rfl⟩
  | case4 c d rest _ ih =>
    obtain ⟨left, split⟩ := ih
    exact ⟨left, congrArg (c :: d :: ·) split⟩
  | case5 rest _ ih =>
    obtain ⟨left, split⟩ := ih
    exact ⟨left, congrArg (mark :: mark :: ·) split⟩
  | case6 d rest _ _ => exact ⟨d :: rest, rfl⟩
  | case7 c d rest _ _ ih =>
    obtain ⟨left, split⟩ := ih
    exact ⟨left, congrArg (c :: ·) split⟩

theorem bracketBody_reads (rest : List Char) :
    ∃ left, rest = (bracketBody rest).1 ++ (closing ['\x5d'] (bracketBody rest).2 ++ left) := by
  fun_induction bracketBody rest with
  | case1 => exact ⟨[], rfl⟩
  | case2 rest => exact ⟨rest, rfl⟩
  | case3 c rest _ ih =>
    obtain ⟨left, split⟩ := ih
    exact ⟨left, congrArg (c :: ·) split⟩

theorem blockBody_reads (rest : List Char) :
    ∃ left, rest = (blockBody rest).1 ++ (closing ['*', '/'] (blockBody rest).2 ++ left) := by
  fun_induction blockBody rest with
  | case1 | case2 c => exact ⟨[], rfl⟩
  | case3 c d rest closes =>
    obtain ⟨rfl, rfl⟩ := closes
    exact ⟨rest, rfl⟩
  | case4 c d rest _ ih =>
    obtain ⟨left, split⟩ := ih
    exact ⟨left, congrArg (c :: ·) split⟩

theorem eq_cons_of_head (rest : List Char) (c : Char) (head : rest.head? = some c) :
    rest = c :: rest.tail := by
  cases rest with
  | nil => cases head
  | cons d rest =>
    cases head
    rfl

/-- `Reading dialect c rest piece left`: the piece that begins with `c` leaves `left`
of the rest. -/
inductive Reading (dialect : Dialect) : Char → List Char → Piece → List Char → Prop where
  | literal (body : List Char) (closed : Bool) (left : List Char)
      (found : quotedBody '\x27' dialect.escapes (body ++ (closing ['\x27'] closed ++ left)) =
        (body, closed)) :
      Reading dialect '\x27' (body ++ (closing ['\x27'] closed ++ left)) (.literal body closed) left
  | quoted (mark : Char) (isMark : mark = '\x22' ∨ mark = '\x60') (body : List Char)
      (closed : Bool) (left : List Char)
      (found : quotedBody mark dialect.escapes (body ++ (closing [mark] closed ++ left)) =
        (body, closed)) :
      Reading dialect mark (body ++ (closing [mark] closed ++ left)) (.quoted mark body closed) left
  | bracket (body : List Char) (closed : Bool) (left : List Char)
      (found : bracketBody (body ++ (closing ['\x5d'] closed ++ left)) = (body, closed)) :
      Reading dialect '\x5b' (body ++ (closing ['\x5d'] closed ++ left)) (.bracket body closed) left
  | line (rest : List Char) :
      Reading dialect '-' ('-' :: rest) (.line ['-', '-'] (lineBody rest))
        (rest.dropWhile (· ≠ '\n'))
  | hash (rest : List Char) (known : dialect.hash = true) :
      Reading dialect '\x23' rest (.line ['\x23'] (lineBody rest)) (rest.dropWhile (· ≠ '\n'))
  | live (rest : List Char) (known : dialect.live = true) :
      Reading dialect '/' ('*' :: '!' :: rest) (.live (rest.takeWhile Char.isDigit))
        (rest.dropWhile Char.isDigit)
  | block (body : List Char) (closed : Bool) (left : List Char)
      (found : blockBody (body ++ (closing ['*', '/'] closed ++ left)) = (body, closed))
      (dead : dialect.live = true →
        (body ++ (closing ['*', '/'] closed ++ left)).head? ≠ some '!') :
      Reading dialect '/' ('*' :: (body ++ (closing ['*', '/'] closed ++ left)))
        (.block body closed) left
  | name (c : Char) (rest : List Char) (isName : isNameChar c = true) :
      Reading dialect c rest (.name (c :: rest.takeWhile isNameChar)) (rest.dropWhile isNameChar)
  | other (c : Char) (rest : List Char)
      (unquoted : c ∉ ['\x27', '\x22', '\x60', '\x5b']) (minus : c = '-' → rest.head? ≠ some '-')
      (hash : dialect.hash = true → c ≠ '\x23') (slash : c = '/' → rest.head? ≠ some '*')
      (plain : isNameChar c = false) (known : dialect.foreign c = false) :
      Reading dialect c rest (.other c) rest

theorem reading_of_next (dialect : Dialect) (c : Char) (rest : List Char) (piece : Piece)
    (read : next dialect c rest = .ok piece) : ∃ left, Reading dialect c rest piece left := by
  unfold next at read
  split at read
  · rename_i mark
    cases read
    subst mark
    obtain ⟨left, split_⟩ := quotedBody_reads '\x27' dialect.escapes rest
    have reading := @Reading.literal dialect _ _ left (by rw [← split_])
    rw [← split_] at reading
    exact ⟨left, reading⟩
  split at read
  · rename_i mark
    cases read
    obtain ⟨left, split_⟩ := quotedBody_reads c dialect.escapes rest
    have reading := @Reading.quoted dialect c mark _ _ left (by rw [← split_])
    rw [← split_] at reading
    exact ⟨left, reading⟩
  split at read
  · rename_i mark
    cases read
    subst mark
    obtain ⟨left, split_⟩ := bracketBody_reads rest
    have reading := @Reading.bracket dialect _ _ left (by rw [← split_])
    rw [← split_] at reading
    exact ⟨left, reading⟩
  split at read
  · rename_i opens
    obtain ⟨rfl, head⟩ := opens
    cases read
    have reading := @Reading.line dialect rest.tail
    rw [← eq_cons_of_head rest '-' head] at reading
    exact ⟨_, reading⟩
  split at read
  · rename_i opens
    obtain ⟨known, rfl⟩ := opens
    cases read
    exact ⟨_, .hash rest known⟩
  split at read
  · rename_i opens
    obtain ⟨rfl, head⟩ := opens
    have whole := eq_cons_of_head rest '*' head
    split at read
    · rename_i mark
      cases read
      have reading := @Reading.live dialect rest.tail.tail mark.1
      rw [← eq_cons_of_head rest.tail '!' mark.2, ← whole] at reading
      exact ⟨_, reading⟩
    · rename_i dead
      cases read
      obtain ⟨left, split_⟩ := blockBody_reads rest.tail
      have reading := @Reading.block dialect _ _ left (by rw [← split_])
        (by rw [← split_]; exact fun live bang => dead ⟨live, bang⟩)
      rw [← split_, ← whole] at reading
      exact ⟨left, reading⟩
  rename_i unquoted marked unbracketed minus hash slash
  split at read
  · rename_i isName
    cases read
    exact ⟨_, .name c rest isName⟩
  split at read
  · cases read
  · rename_i plain known
    cases read
    refine ⟨rest, .other c rest ?_ (fun same head => minus ⟨same, head⟩)
      (fun known same => hash ⟨known, same⟩) (fun same head => slash ⟨same, head⟩)
      (Bool.not_eq_true _ |>.mp plain) (Bool.not_eq_true _ |>.mp known)⟩
    simp only [mem_cons, not_mem_nil, or_false, not_or]
    exact ⟨unquoted, fun same => marked (.inl same), fun same => marked (.inr same), unbracketed⟩

theorem not_name_of_mark (c : Char) (mark : c ∈ ['\x27', '\x22', '\x60', '\x5b', '-',
    '\x23', '/']) :
    isNameChar c = false := by
  simp only [mem_cons, not_mem_nil, or_false] at mark
  rcases mark with rfl | rfl | rfl | rfl | rfl | rfl | rfl <;> rfl

variable {dialect : Dialect} {left rest : List Char} {piece : Piece}

section

variable {c : Char} (reading : Reading dialect c rest piece left)
include reading

theorem next_of_reading :
    next dialect c rest = .ok piece := by
  cases reading with
  | literal body closed left found =>
    simp [next, found]
  | quoted mark isMark body closed left found =>
    rcases isMark with rfl | rfl <;> simp [next, found]
  | bracket body closed left found => simp [next, found]
  | line rest => simp [next]
  | hash rest known | live rest known => simp [next, known]
  | block body closed left found dead =>
    generalize body ++ (closing ['*', '/'] closed ++ left) = tail at found dead ⊢
    simp [next, found]
    exact dead
  | name c rest isName =>
    have apart : c ∉ ['\x27', '\x22', '\x60', '\x5b', '-', '\x23', '/'] := by
      intro mark
      rw [not_name_of_mark c mark] at isName
      cases isName
    simp only [mem_cons, not_or] at apart
    simp [next, apart, isName]
  | other c rest unquoted minus hash slash plain known =>
    simp only [mem_cons, not_mem_nil, or_false, not_or] at unquoted
    obtain ⟨literal, quote, backquote, bracket⟩ := unquoted
    have unmarked : ¬(c = '\x22' ∨ c = '\x60') := not_or.mpr ⟨quote, backquote⟩
    rw [next, if_neg literal, if_neg unmarked, if_neg bracket,
      if_neg fun opens => minus opens.1 opens.2, if_neg fun opens => hash opens.1 opens.2,
      if_neg fun opens => slash opens.1 opens.2, plain, known]
    rfl

theorem source_of_reading :
    piece.source ++ left = c :: rest := by
  cases reading with
  | literal body closed left found | quoted mark isMark body closed left found
  | bracket body closed left found => simp [Piece.source]
  | line rest | hash rest known => simp [Piece.source, lineBody]
  | live rest known | block body closed left found dead | name c rest isName => simp [Piece.source]
  | other c rest unquoted minus hash slash plain known => rfl

theorem source_ne_nil :
    piece.source ≠ [] := by
  cases reading <;> simp [Piece.source]

end

theorem next_reads (dialect : Dialect) (c : Char) (rest : List Char) (piece : Piece)
    (read : next dialect c rest = .ok piece) :
    ∃ more left, piece.source = c :: more ∧ rest = more ++ left := by
  obtain ⟨left, reading⟩ := reading_of_next dialect c rest piece read
  have split := source_of_reading reading
  cases source : piece.source with
  | nil => exact absurd source (source_ne_nil reading)
  | cons d more =>
    rw [source] at split
    cases split
    exact ⟨more, left, rfl, rfl⟩

end Reading

def sqlLexer (dialect : Dialect) : Lexer Piece Char where
  next := fun _ => next dialect
  source := Piece.source
  reads := fun _ => next_reads dialect

theorem reading_of_read (dialect : Dialect) (c : Char) (more left : List Char) (piece : Piece)
    (read : next dialect c (more ++ left) = .ok piece) (source : piece.source = c :: more) :
    Reading dialect c (more ++ left) piece left := by
  obtain ⟨other, reading⟩ := reading_of_next dialect c (more ++ left) piece read
  have split := source_of_reading reading
  rw [source] at split
  cases append_cancel_left (cons_inj_right c |>.mp split)
  exact reading

/-- Every piece of a text was read. -/
theorem reading_of_mem (dialect : Dialect) (before text : List Char) (pieces : List Piece)
    (lexes : (sqlLexer dialect).Lexes before text pieces) (piece : Piece)
    (member : piece ∈ pieces) : ∃ c rest left, Reading dialect c rest piece left := by
  induction lexes with
  | nil before => cases member
  | cons before c more left first pieces read source later ih =>
    rcases mem_cons.mp member with rfl | behind
    · exact ⟨c, _, left, reading_of_read dialect c more left piece read source⟩
    · exact ih behind

section Quotations

/-- No backslash stands in front of the mark, if backslashes are taken in pairs. -/
def escapeSafe (mark : Char) : List Char → Bool
  | [] => true
  | [_] => true
  | c :: d :: rest =>
    if c = '\x5c' then d ≠ mark && escapeSafe mark rest else escapeSafe mark (d :: rest)

variable (mark : Char)

theorem escapeSafe_char (c : Char) (plain : c ≠ '\x5c') (rest : List Char) :
    escapeSafe mark (c :: rest) = escapeSafe mark rest := by
  cases rest with
  | nil => rfl
  | cons d rest => rw [escapeSafe, if_neg plain]

theorem quotedBody_char (c : Char) (apart : c ≠ mark) (rest : List Char) :
    quotedBody mark false (c :: rest) =
      (c :: (quotedBody mark false rest).1, (quotedBody mark false rest).2) := by
  cases rest with
  | nil => exact if_neg apart
  | cons d rest => rw [quotedBody, if_neg (by simp), if_neg apart]

theorem quotedBody_doubled (rest : List Char) :
    quotedBody mark false (mark :: mark :: rest) =
      (mark :: mark :: (quotedBody mark false rest).1, (quotedBody mark false rest).2) := by
  rw [quotedBody, if_neg (by simp), if_pos rfl, if_pos rfl]

theorem quotedBody_closed (d : Char) (apart : d ≠ mark) (rest : List Char) :
    quotedBody mark false (mark :: d :: rest) = ([], true) := by
  rw [quotedBody, if_neg (by simp), if_pos rfl, if_neg apart]

/-- A backslash in front of a mark is not safe. -/
theorem not_escapeSafe (rest : List Char) :
    escapeSafe mark ('\x5c' :: ((quotedBody mark false (mark :: rest)).1 ++
      closing [mark] (quotedBody mark false (mark :: rest)).2)) = false := by
  cases rest with
  | nil => simp [quotedBody, closing, escapeSafe]
  | cons d rest =>
    by_cases same : d = mark
    · subst same
      simp [quotedBody_doubled, escapeSafe]
    · simp [quotedBody_closed mark d same, closing, escapeSafe]

/-- Both kinds of quotation end in the same place when no backslash hides a mark. -/
theorem quotedBody_escapes (ordinary : mark ≠ '\x5c') (rest : List Char)
    (safe : escapeSafe mark ((quotedBody mark false rest).1 ++
      closing [mark] (quotedBody mark false rest).2) = true) :
    quotedBody mark true rest = quotedBody mark false rest := by
  fun_induction quotedBody mark true rest with
  | case1 => rfl
  | case2 => rw [quotedBody, if_pos rfl]
  | case3 c apart => rw [quotedBody, if_neg apart]
  | case4 c d rest escape ih =>
    have same : c = '\x5c' := by simpa using escape
    subst same
    rw [quotedBody_char mark _ ordinary.symm] at safe ⊢
    by_cases hidden : d = mark
    · subst hidden
      rw [cons_append, not_escapeSafe] at safe
      cases safe
    · rw [quotedBody_char mark d hidden] at safe ⊢
      simp only [cons_append, escapeSafe, if_true, Bool.and_eq_true] at safe
      rw [ih safe.2]
  | case5 rest _ ih =>
    rw [quotedBody_doubled] at safe ⊢
    rw [cons_append, cons_append, escapeSafe_char mark mark ordinary,
      escapeSafe_char mark mark ordinary] at safe
    rw [ih safe]
  | case6 d rest apart _ => rw [quotedBody_closed mark d apart]
  | case7 c d rest plain apart ih =>
    have ordinary : c ≠ '\x5c' := by simpa using plain
    rw [quotedBody_char mark c apart] at safe ⊢
    rw [cons_append, escapeSafe_char mark c ordinary] at safe
    rw [ih safe]

end Quotations

section Openness

def Piece.closed : Piece → Bool
  | literal _ closed | quoted _ _ closed | bracket _ closed | block _ closed => closed
  | _ => true

theorem quotedBody_open (mark : Char) (escapes : Bool) (rest : List Char)
    (open_ : (quotedBody mark escapes rest).2 = false) :
    (quotedBody mark escapes rest).1 = rest := by
  fun_induction quotedBody mark escapes rest with
  | case1 => rfl
  | case2 => cases open_
  | case3 c _ => rfl
  | case4 c d rest _ ih => exact congrArg (c :: d :: ·) (ih open_)
  | case5 rest _ ih => exact congrArg (mark :: mark :: ·) (ih open_)
  | case6 d rest _ _ => cases open_
  | case7 c d rest _ _ ih => exact congrArg (c :: ·) (ih open_)

theorem bracketBody_open (rest : List Char) (open_ : (bracketBody rest).2 = false) :
    (bracketBody rest).1 = rest := by
  fun_induction bracketBody rest with
  | case1 => rfl
  | case2 rest => cases open_
  | case3 c rest _ ih => exact congrArg (c :: ·) (ih open_)

theorem blockBody_open (rest : List Char) (open_ : (blockBody rest).2 = false) :
    (blockBody rest).1 = rest := by
  fun_induction blockBody rest with
  | case1 => rfl
  | case2 c => rfl
  | case3 c d rest _ => cases open_
  | case4 c d rest _ ih => exact congrArg (c :: ·) (ih open_)

/-- Nothing is left behind a piece without its closing mark. -/
theorem left_of_open {dialect : Dialect} {c : Char} {rest : List Char} {piece : Piece}
    {left : List Char} (reading : Reading dialect c rest piece left)
    (open_ : piece.closed = false) : left = [] := by
  have nothing : ∀ body : List Char, body = body ++ ([] ++ left) → left = [] := by
    intro body whole
    exact append_right_eq_self.mp whole.symm
  cases reading with
  | literal body closed left found | quoted mark isMark body closed left found =>
    cases open_
    have whole := quotedBody_open _ _ _ (congrArg Prod.snd found)
    rw [found] at whole
    exact nothing body whole
  | bracket body closed left found =>
    cases open_
    have whole := bracketBody_open _ (congrArg Prod.snd found)
    rw [found] at whole
    exact nothing body whole
  | block body closed left found dead =>
    cases open_
    have whole := blockBody_open _ (congrArg Prod.snd found)
    rw [found] at whole
    exact nothing body whole
  | line rest | hash rest known | live rest known | name c rest isName
  | other c rest unquoted minus hash slash plain known => cases open_

end Openness

section Portable

/-- A piece of a standard text that other dialects read alike. -/
def Piece.portable : Piece → Bool
  | literal body closed => escapeSafe '\x27' (body ++ closing ['\x27'] closed)
  | quoted mark body closed => escapeSafe mark (body ++ closing [mark] closed)
  | block body _ => body.head? ≠ some '!'
  | _ => true

theorem quotedBody_dialect (dialect : Dialect) (mark : Char) (ordinary : mark ≠ '\x5c')
    (rest body : List Char) (closed : Bool) (found : quotedBody mark false rest = (body, closed))
    (safe : escapeSafe mark (body ++ closing [mark] closed) = true) :
    quotedBody mark dialect.escapes rest = (body, closed) := by
  cases dialect.escapes with
  | false => exact found
  | true =>
    rw [quotedBody_escapes mark ordinary rest, found]
    rw [found]
    exact safe

section

variable (dialect : Dialect) (tolerant : ∀ c, dialect.foreign c = true → standard.foreign c = true)
include dialect tolerant

theorem reading_portable {c : Char} {rest : List Char} {piece : Piece} {left : List Char}
    (reading : Reading standard c rest piece left) (portable : piece.portable = true) :
    Reading dialect c rest piece left := by
  cases reading with
  | literal body closed left found =>
    exact .literal body closed left
      (quotedBody_dialect dialect '\x27' (by decide) _ body closed found portable)
  | quoted mark isMark body closed left found =>
    have ordinary : c ≠ '\x5c' := by
      rintro rfl
      rcases isMark with same | same <;> cases same
    exact .quoted c isMark body closed left
      (quotedBody_dialect dialect c ordinary _ body closed found portable)
  | bracket body closed left found => exact .bracket body closed left found
  | line rest => exact .line rest
  | hash rest known | live rest known => cases known
  | block body closed left found dead =>
    refine .block body closed left found fun _ bang => ?_
    have apart : body.head? ≠ some '!' := by simpa [Piece.portable] using portable
    cases body with
    | cons d body => exact apart bang
    | nil =>
      cases closed with
      | true => cases bang
      | false =>
        have whole := blockBody_open _ (congrArg Prod.snd found)
        rw [found] at whole
        rw [← whole] at bang
        cases bang
  | name c rest isName => exact .name c rest isName
  | other c rest unquoted minus hash slash plain known =>
    refine .other c rest unquoted minus (fun _ same => ?_) slash plain ?_
    · subst same
      cases known
    · cases foreign : dialect.foreign c with
      | false => rfl
      | true =>
        rw [tolerant c foreign] at known
        cases known

/-- A standard text of portable pieces is read alike in every dialect. -/
theorem lexes_portable (before text : List Char) (pieces : List Piece)
    (lexes : (sqlLexer standard).Lexes before text pieces)
    (portable : ∀ piece ∈ pieces, piece.portable = true) :
    (sqlLexer dialect).Lexes before text pieces := by
  induction lexes with
  | nil before => exact .nil before
  | cons before c more left piece pieces read source later ih =>
    have reading := reading_portable dialect tolerant
      (reading_of_read standard c more left piece read source)
      (portable piece mem_cons_self)
    refine .cons before c more left piece pieces (next_of_reading reading) source ?_
    exact ih fun other member => portable other (mem_cons_of_mem piece member)

end

end Portable

section Names

/-- The names in a text: its longest runs of name characters, behind a run already
read. -/
def fragmentsFrom : List Char → List Char → List (List Char)
  | run, [] => if run.isEmpty then [] else [run]
  | run, c :: rest =>
    if isNameChar c then fragmentsFrom (run ++ [c]) rest
    else (if run.isEmpty then [] else [run]) ++ fragmentsFrom [] rest

def fragments (text : List Char) : List (List Char) := fragmentsFrom [] text

variable (pieces : List Piece) (run first second : List Char)

theorem fragmentsFrom_append (c : Char) (gap : isNameChar c = false) :
    fragmentsFrom run (first ++ c :: second) =
      fragmentsFrom run first ++ fragmentsFrom [] second := by
  induction first generalizing run with
  | nil =>
    simp only [nil_append, fragmentsFrom, gap, Bool.false_eq_true, if_false]
  | cons d first ih =>
    rw [cons_append, fragmentsFrom, fragmentsFrom]
    by_cases isName : isNameChar d = true
    · rw [if_pos isName, if_pos isName, ih]
    · rw [if_neg isName, if_neg isName, ih, append_assoc]

/-- A character that belongs to no name separates the names on its sides. -/
theorem fragments_append (c : Char) (gap : isNameChar c = false) :
    fragments (first ++ c :: second) = fragments first ++ fragments second :=
  fragmentsFrom_append [] first second c gap

@[simp] theorem fragments_nil : fragments [] = [] := rfl

theorem fragments_gap (rest : List Char) (c : Char) (gap : isNameChar c = false) :
    fragments (c :: rest) = fragments rest :=
  fragments_append [] rest c gap

variable (text : List Char)

theorem fragments_of_gaps (gaps : ∀ c ∈ text, isNameChar c = false) :
    fragments text = [] := by
  induction text with
  | nil => rfl
  | cons c text ih =>
    rw [fragments_gap text c (gaps c mem_cons_self)]
    exact ih fun d member => gaps d (mem_cons_of_mem c member)

theorem toUpper_of_not_lower (c : Char) (apart : ¬(97 ≤ c.toNat ∧ c.toNat ≤ 122)) :
    c.toUpper = c := by
  unfold Char.toUpper
  rw [dif_neg]
  rintro ⟨above, below⟩
  exact apart ⟨UInt32.le_iff_toNat_le.mp above, UInt32.le_iff_toNat_le.mp below⟩

theorem isNameChar_toUpper (c : Char) : isNameChar c.toUpper = isNameChar c := by
  by_cases lower : 97 ≤ c.toNat ∧ c.toNat ≤ 122
  · have all : ∀ n < 123, 97 ≤ n →
        isNameChar (Char.ofNat n).toUpper = isNameChar (Char.ofNat n) := by decide
    have same := all c.toNat (by omega) lower.1
    rwa [Char.ofNat_toNat] at same
  · rw [toUpper_of_not_lower c lower]

theorem fragmentsFrom_toUpper :
    fragmentsFrom (run.map Char.toUpper) (text.map Char.toUpper) =
      (fragmentsFrom run text).map (List.map Char.toUpper) := by
  induction text generalizing run with
  | nil =>
    cases run with
    | nil => rfl
    | cons c run => rfl
  | cons c text ih =>
    rw [map_cons, fragmentsFrom, fragmentsFrom, isNameChar_toUpper]
    by_cases isName : isNameChar c = true
    · rw [if_pos isName, if_pos isName, ← ih, map_append]
      rfl
    · have later := ih []
      rw [if_neg isName, if_neg isName, map_append, ← later]
      cases run with
      | nil => rfl
      | cons d run => rfl

/-- The names do not depend on the letter case. -/
theorem fragments_toUpper :
    fragments (text.map Char.toUpper) = (fragments text).map (List.map Char.toUpper) :=
  fragmentsFrom_toUpper [] text

/-- The text outside literals and comments; a space stands for each of them. -/
def Piece.visible : Piece → List Char
  | literal _ _ | line _ _ | block _ _ => [' ']
  | piece => piece.source

def visible (pieces : List Piece) : List Char := pieces.flatMap Piece.visible

@[simp] theorem visible_nil : visible [] = [] := rfl

@[simp] theorem visible_cons (piece : Piece) (pieces : List Piece) :
    visible (piece :: pieces) = piece.visible ++ visible pieces :=
  flatMap_cons

/-- The statements of a text, cut at its semicolons. -/
def groups : List Piece → List (List Piece)
  | [] => [[]]
  | piece :: rest =>
    if piece = .other ';' then [] :: groups rest
    else (piece :: (groups rest).headD []) :: (groups rest).tail

theorem groups_ne_nil : groups pieces ≠ [] := by
  cases pieces with
  | nil => simp [groups]
  | cons piece pieces =>
    rw [groups]
    split
    · simp
    · simp

/-- The names of a text are those of its statements. -/
theorem fragments_groups :
    fragments (run ++ visible pieces) =
      fragments (run ++ visible ((groups pieces).headD [])) ++
        (groups pieces).tail.flatMap fun group => fragments (visible group) := by
  induction pieces generalizing run with
  | nil => simp [groups]
  | cons piece pieces ih =>
    rw [visible_cons, groups]
    by_cases separator : piece = .other ';'
    · have later := ih []
      rw [nil_append] at later
      rw [separator]
      have apart := fragments_append run (visible pieces) ';' rfl
      refine apart.trans ?_
      rw [later]
      cases split : groups pieces with
      | nil => exact absurd split (groups_ne_nil pieces)
      | cons group others => simp
    · rw [if_neg separator, ← append_assoc, ih]
      simp

end Names

section Loops

universe u

variable {α : Type u}

/-- The loop of a scanner inside a quotation where backslashes escape. It goes on with
what it has read of the body, and knows how to go on behind the mark and at the end. -/
structure QuotationLoop (mark : Char) (inside outside : List Char → List Char → α)
    (ended : List Char → α) : Prop where
  nil : ∀ read, inside read [] = ended read
  lone : ∀ read, inside read ['\x5c'] = ended (read ++ ['\x5c'])
  escape : ∀ read d rest, inside read ('\x5c' :: d :: rest) = inside (read ++ ['\x5c', d]) rest
  doubled : ∀ read rest, inside read (mark :: mark :: rest) = inside (read ++ [mark, mark]) rest
  closes : ∀ read rest, rest.head? ≠ some mark → inside read (mark :: rest) = outside read rest
  char : ∀ read c rest, c ≠ mark → c ≠ '\x5c' →
    inside read (c :: rest) = inside (read ++ [c]) rest

/-- The loop ends where the lexical structure says. -/
theorem quotation_loop {mark : Char} {inside outside : List Char → List Char → α}
    {ended : List Char → α} (loop : QuotationLoop mark inside outside ended)
    (read rest left : List Char)
    (split : rest = (quotedBody mark true rest).1 ++
      (closing [mark] (quotedBody mark true rest).2 ++ left)) :
    inside read rest =
      if (quotedBody mark true rest).2 then outside (read ++ (quotedBody mark true rest).1) left
      else ended (read ++ (quotedBody mark true rest).1) := by
  fun_induction quotedBody mark true rest generalizing read with
  | case1 =>
    rw [append_nil]
    exact loop.nil read
  | case2 =>
    cases split
    rw [append_nil]
    exact loop.closes read [] (by simp)
  | case3 c apart =>
    by_cases escape : c = '\x5c'
    · rw [escape]
      exact loop.lone read
    · rw [loop.char read c [] apart escape]
      exact loop.nil (read ++ [c])
  | case4 c d rest escape ih =>
    have same : c = '\x5c' := by simpa using escape
    subst same
    have inner := cons_inj_right _ |>.mp (cons_inj_right _ |>.mp split)
    have later := ih (read ++ ['\x5c', d]) inner
    rw [append_assoc] at later
    rw [loop.escape]
    exact later
  | case5 rest plain ih =>
    have inner := cons_inj_right _ |>.mp (cons_inj_right _ |>.mp split)
    have later := ih (read ++ [mark, mark]) inner
    rw [append_assoc] at later
    rw [loop.doubled]
    exact later
  | case6 d rest apart _ =>
    cases split
    rw [append_nil]
    exact loop.closes read (d :: rest) (by simpa using apart)
  | case7 c d rest plain apart ih =>
    have ordinary : c ≠ '\x5c' := by simpa using plain
    have later := ih (read ++ [c]) (cons_inj_right _ |>.mp split)
    rw [append_assoc] at later
    rw [loop.char read c _ apart ordinary]
    exact later

/-- The loop of a scanner inside a block comment. -/
structure BlockLoop (inside outside : List Char → α) : Prop where
  nil : inside [] = outside []
  last : ∀ c, inside [c] = outside []
  closes : ∀ rest, inside ('*' :: '/' :: rest) = outside rest
  char : ∀ c d rest, ¬(c = '*' ∧ d = '/') → inside (c :: d :: rest) = inside (d :: rest)

variable {inside outside : List Char → α}

theorem block_loop (loop : BlockLoop inside outside) (rest left : List Char)
    (split : rest = (blockBody rest).1 ++ (closing ['*', '/'] (blockBody rest).2 ++ left)) :
    inside rest = outside left := by
  fun_induction blockBody rest with
  | case1 =>
    cases split
    exact loop.nil
  | case2 c =>
    cases split
    exact loop.last c
  | case3 c d rest closes =>
    cases split
    exact loop.closes left
  | case4 c d rest open_ ih =>
    rw [loop.char c d rest open_]
    exact ih (cons_inj_right _ |>.mp split)

/-- The loop of a scanner inside a comment that ends with the line. -/
structure LineLoop (inside outside : List Char → α) : Prop where
  nil : inside [] = outside []
  newline : ∀ rest, inside ('\n' :: rest) = outside ('\n' :: rest)
  char : ∀ c rest, c ≠ '\n' → inside (c :: rest) = inside rest

theorem line_loop (loop : LineLoop inside outside) (rest : List Char) :
    inside rest = outside (rest.dropWhile (· ≠ '\n')) := by
  induction rest with
  | nil => exact loop.nil
  | cons c rest ih =>
    by_cases newline : c = '\n'
    · subst newline
      exact loop.newline rest
    · rw [dropWhile_cons_of_pos (by simpa using newline), loop.char c rest newline]
      exact ih

/-- None of the marks, and no comment, begins in the text. -/
def inert (marks : List Char) : List Char → Bool
  | [] => true
  | c :: rest =>
    !marks.contains c && !(c = '-' && rest.head? = some '-') &&
      !(c = '/' && rest.head? = some '*') && inert marks rest

/-- Nothing begins with the first character of an inert text, unless a comment does so
together with what follows the text. -/
theorem inert_cons (marks : List Char) (c : Char) (body left : List Char)
    (isInert : inert marks (c :: body) = true) (minus : left.head? ≠ some '-')
    (star : left.head? ≠ some '*') :
    c ∉ marks ∧ (c = '-' → (body ++ left).head? ≠ some '-') ∧
      (c = '/' → (body ++ left).head? ≠ some '*') ∧ inert marks body = true := by
  simp only [inert, Bool.and_eq_true, Bool.not_eq_true', Bool.and_eq_false_iff,
    decide_eq_false_iff_not, contains_eq_mem] at isInert
  obtain ⟨⟨⟨unquoted, dashes⟩, bars⟩, later⟩ := isInert
  have ahead : ∀ mark, left.head? ≠ some mark → body.head? ≠ some mark →
      (body ++ left).head? ≠ some mark := by
    intro mark behind inside
    cases body with
    | nil => exact behind
    | cons d body => exact inside
  refine ⟨unquoted, ?_, ?_, later⟩
  · intro dash
    exact ahead '-' minus (dashes.resolve_left (not_not_intro dash))
  · intro bar
    exact ahead '*' star (bars.resolve_left (not_not_intro bar))

end Loops

end OnlyJs.Lib.SqlLexing
