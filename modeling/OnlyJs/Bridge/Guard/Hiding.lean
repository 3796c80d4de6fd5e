import OnlyJs.Bridge.DbPolicy.Lexed
import OnlyJs.Bridge.Guard.Tokens

/-!
# What the scanners see of a standard text

Standard SQL says which names of a text stand outside literals and comments. The three
scanners each have their own idea of where literals and comments end, and a name that a
scanner takes for part of one of them is hidden from the guard that relies on it.
-/

namespace OnlyJs.Bridge.Guard

open Bridge.DbPolicy Option Lib.Lexing Lib.SqlLexing

section Visibility

def standardPieces (sql : List Char) : Except Char (List Piece) := (sqlLexer standard).pieces sql

def changingWords : List String :=
  ["INSERT", "UPDATE", "DELETE", "DROP", "ALTER", "CREATE", "TRUNCATE"]

def wordNames (words : List String) : List (List Char) :=
  words.flatMap fun word => fragments word.toList

def upperNames (text : List Char) : List (List Char) :=
  (fragments text).map (List.map Char.toUpper)

/-- The statement begins with a word that changes data or schema. -/
def OpensChange (group : List Piece) : Prop :=
  ∃ first ∈ (upperNames (visible group)).head?, String.ofList first ∈ changingWords

/-- Every name outside literals and comments is seen by the three scanners, in its place
among the others, and no statement that changes something passes for reading. -/
structure Unhidden (sql : List Char) (pieces : List Piece) : Prop where
  tokens : (fragments (visible pieces)).Sublist ((tokens sql).flatMap fragments)
  stripped : (fragments (visible pieces)).Sublist (fragments (stripLiterals sql))
  statements : ∀ stmts, statements sql = some stmts →
    (upperNames (visible pieces)).Sublist (stmts.flatMap wordNames)
  classified : (∃ group ∈ groups pieces, OpensChange group) → (classify sql).risk ≠ .readOnly

/-- Every standard text shows its names. -/
def NothingHidden (sql : List Char) : Prop :=
  ∀ pieces, standardPieces sql = .ok pieces → Unhidden sql pieces

def isComment : Piece → Bool
  | .line _ _ | .block _ _ => true
  | _ => false

/-- A piece that all scanners read as what it is: names without `$` and of ASCII
characters, quotations whose marks no backslash hides, identifiers in quotes or brackets
that hold nothing in which a literal or comment could begin, and no comment that begins
with an exclamation mark. -/
def unambiguous : Piece → Bool
  | .name chars => chars.all isTokenChar
  | .quoted mark body closed =>
    (Piece.quoted mark body closed).portable && inert ['\x27'] body
  | .bracket body _ =>
    inert ['\x27', '\x22', '\x60'] body && body.all fun c => !isNameChar c || isTokenChar c
  | piece => piece.portable

def runBehind (run : List Char) : Piece → List Char
  | .name chars => run ++ chars
  | .other c => if isTokenChar c then run ++ [c] else []
  | _ => []

def commentsApart : List Char → List Piece → Bool
  | _, [] => true
  | run, piece :: rest =>
    (!isComment piece || run.all fun c => !isNameChar c) &&
      commentsApart (runBehind run piece) rest

/-- The condition on a text under which nothing is hidden. -/
def unambiguousText (sql : List Char) : Bool :=
  match standardPieces sql with
  | .error _ => true
  | .ok pieces => pieces.all unambiguous && commentsApart [] pieces

end Visibility

variable (sql : List Char) (pieces : List Piece) (words : List String) (piece : Piece)

theorem token_readable (plain : unambiguous piece = true) :
    tokenReadable piece = true := by
  cases piece with
  | quoted mark body closed | bracket body closed => exact (Bool.and_eq_true_iff.mp plain).1
  | name chars => rfl
  | literal body closed => exact plain
  | line opener body => rfl
  | block body closed => exact plain
  | live version => rfl
  | other c => rfl

theorem inert_mono (marks more : List Char) (sub : ∀ mark ∈ marks, mark ∈ more)
    (body : List Char) (isInert : inert more body = true) : inert marks body = true := by
  induction body with
  | nil => rfl
  | cons c body ih =>
    simp only [inert, Bool.and_eq_true, Bool.not_eq_true', List.contains_eq_mem,
      decide_eq_false_iff_not] at isInert ⊢
    exact ⟨⟨⟨fun member => isInert.1.1.1 (sub c member), isInert.1.1.2⟩, isInert.1.2⟩,
      ih isInert.2⟩

theorem strip_readable (plain : unambiguous piece = true) :
    stripReadable piece = true := by
  cases piece with
  | quoted mark body closed => exact (Bool.and_eq_true_iff.mp plain).2
  | bracket body closed =>
    exact inert_mono _ _ (by simp) body (Bool.and_eq_true_iff.mp plain).1
  | name chars => rfl
  | literal body closed => exact plain
  | line opener body => rfl
  | block body closed => exact plain
  | live version => rfl
  | other c => rfl

theorem portable_of_unambiguous (plain : unambiguous piece = true) :
    piece.portable = true := by
  cases piece with
  | quoted mark body closed => exact (Bool.and_eq_true_iff.mp plain).1
  | bracket body closed => rfl
  | name chars => rfl
  | literal body closed => exact plain
  | line opener body => rfl
  | block body closed => exact plain
  | live version => rfl
  | other c => rfl

section TokenNames

def Tokens.names (tokens : Tokens) (text : List Char) : List (List Char) :=
  tokens.out.flatMap fragments ++ fragments (tokens.word ++ text)

variable (tokens : Tokens)

theorem flush_names (c : Char) (gap : isNameChar c = false) (text : List Char) :
    tokens.flush.names text = tokens.names (c :: text) := by
  rw [Tokens.names, Tokens.names, fragments_append _ text c gap, flush_word, List.nil_append,
    ← List.append_assoc]
  unfold Tokens.flush
  split
  · rename_i empty
    rw [List.isEmpty_iff.mp empty, fragments_nil, List.append_nil]
  · rw [List.flatMap_append, List.flatMap_singleton]

theorem char_names (c : Char) (plain : isNameChar c = true → isTokenChar c = true)
    (text : List Char) : (tokens.char c).names text = tokens.names (c :: text) := by
  unfold Tokens.char
  split
  · rw [Tokens.names, Tokens.names, List.append_assoc, List.singleton_append]
  · rename_i gap
    apply flush_names tokens c
    rw [← Bool.not_eq_true]
    exact fun isName => gap (plain isName)

variable (chars : List Char)

theorem chars_names (plain : ∀ c ∈ chars, isNameChar c = true → isTokenChar c = true)
    (tokens : Tokens) (text : List Char) :
    (chars.foldl Tokens.char tokens).names text = tokens.names (chars ++ text) := by
  induction chars generalizing tokens with
  | nil => rfl
  | cons c chars ih =>
    rw [List.foldl_cons, ih fun d member => plain d (List.mem_cons_of_mem c member),
      char_names tokens c (plain c List.mem_cons_self)]
    rfl

variable (first last : Char)

theorem push_names (before : isNameChar first = false) (behind : isNameChar last = false)
    (body text : List Char) :
    (tokens.flush.push body).names text = tokens.names (first :: (body ++ last :: text)) := by
  rw [← flush_names tokens first before, Tokens.names, Tokens.names, Tokens.push, flush_word,
    List.nil_append, List.nil_append, fragments_append body text last behind,
    List.flatMap_append, List.flatMap_singleton, List.append_assoc]

theorem drop_names (apart : ∀ c ∈ tokens.word, isNameChar c = false) (text : List Char) :
    tokens.drop.names text = tokens.names (' ' :: text) := by
  rw [Tokens.names, Tokens.names, fragments_append _ text ' ' rfl,
    fragments_of_gaps tokens.word apart]
  rfl

theorem chars_word (plain : ∀ c ∈ chars, isTokenChar c = true) (tokens : Tokens) :
    (chars.foldl Tokens.char tokens).word = tokens.word ++ chars := by
  induction chars generalizing tokens with
  | nil => simp
  | cons c chars ih =>
    rw [List.foldl_cons, ih fun d member => plain d (List.mem_cons_of_mem c member), Tokens.char,
      if_pos (plain c List.mem_cons_self), List.append_assoc]
    rfl

theorem piece_word (piece : Piece) (plain : unambiguous piece = true) :
    (tokens.piece piece).word = runBehind tokens.word piece := by
  cases piece with
  | name chars => exact chars_word chars (List.all_eq_true.mp plain) tokens
  | literal body closed | quoted mark body closed => exact flush_word tokens
  | bracket body closed => exact flush_word _
  | line opener body | block body closed | live version => rfl
  | other c =>
    simp only [Tokens.piece, Tokens.char, runBehind]
    split
    · rfl
    · exact flush_word tokens

theorem names_end (text : List Char) (c : Char) (gap : isNameChar c = false) :
    tokens.names (text ++ [c]) = tokens.names text := by
  rw [Tokens.names, Tokens.names, ← List.append_assoc, fragments_append _ [] c gap, fragments_nil,
    List.append_nil]

theorem names_enclosed (behind : isNameChar last = false) (body text : List Char) (closed : Bool)
    (nothing : closed = false → text = []) :
    tokens.names (first :: (body ++ last :: text)) =
      tokens.names (first :: (body ++ closing [last] closed) ++ text) := by
  cases closed with
  | true => simp [closing]
  | false =>
    rw [nothing rfl, show closing [last] false = [] from rfl, List.append_nil, List.append_nil,
      ← List.cons_append, names_end tokens _ last behind]

theorem piece_names (c : Char) (rest left : List Char) (piece : Piece)
    (reading : Reading standard c rest piece left) (plain : unambiguous piece = true)
    (apart : isComment piece = true → ∀ d ∈ tokens.word, isNameChar d = false) (text : List Char)
    (nothing : piece.closed = false → text = []) :
    (tokens.piece piece).names text = tokens.names (piece.visible ++ text) := by
  cases reading with
  | literal body closed left found => exact flush_names tokens ' ' rfl text
  | quoted mark isMark body closed left found =>
    have gap : isNameChar c = false := by
      rcases isMark with rfl | rfl <;> rfl
    rw [Tokens.piece, push_names tokens c c gap gap]
    exact names_enclosed tokens c c gap body text closed nothing
  | bracket body closed left found =>
    have inside : ∀ c ∈ body, isNameChar c = true → isTokenChar c = true := by
      intro d member isName
      have listed := List.all_eq_true.mp (Bool.and_eq_true_iff.mp plain).2 d member
      rw [isName] at listed
      exact listed
    rw [Tokens.piece, flush_names _ '\x5d' rfl, chars_names body inside,
      flush_names tokens '\x5b' rfl]
    exact names_enclosed tokens '\x5b' '\x5d' rfl body text closed nothing
  | line rest => exact drop_names tokens (apart rfl) text
  | hash rest known | live rest known => cases known
  | block body closed left found dead => exact drop_names tokens (apart rfl) text
  | name c rest isName =>
    exact chars_names _ (fun d member _ => List.all_eq_true.mp plain d member) tokens text
  | other c rest unquoted minus hash slash known foreign =>
    exact char_names tokens c (fun isName => by rw [known] at isName; cases isName) text

theorem tokens_names (before text : List Char) (pieces : List Piece)
    (lexes : (sqlLexer standard).Lexes before text pieces)
    (plain : ∀ piece ∈ pieces, unambiguous piece = true) (tokens : Tokens)
    (apart : commentsApart tokens.word pieces = true) :
    (pieces.foldl Tokens.piece tokens).names [] = tokens.names (visible pieces) := by
  induction lexes generalizing tokens with
  | nil before => rfl
  | cons before c more left piece pieces read source later ih =>
    have reading := reading_of_read standard c more left piece read source
    have plainPiece := plain piece List.mem_cons_self
    obtain ⟨comment, apartLater⟩ := Bool.and_eq_true_iff.mp apart
    rw [← piece_word tokens piece plainPiece] at apartLater
    rw [List.foldl_cons, ih (fun other member => plain other (List.mem_cons_of_mem piece member))
      (tokens.piece piece) apartLater]
    apply piece_names tokens c _ left piece reading plainPiece
    · intro isComment d member
      rw [isComment] at comment
      simpa using List.all_eq_true.mp comment d member
    · intro open_
      have nothing := left_of_open reading open_
      subst nothing
      cases later
      rfl

end TokenNames

section StatementNames

def currentNames (scanned : Scanned) (text : List Char) : List (List Char) :=
  wordNames scanned.cur ++ upperNames (scanned.word ++ text)

theorem upperNames_append (first second : List Char) (c : Char) (gap : isNameChar c = false) :
    upperNames (first ++ c :: second) = upperNames first ++ upperNames second := by
  rw [upperNames, fragments_append first second c gap, List.map_append]
  rfl

theorem wordNames_push (words : List String) (word : List Char) :
    wordNames (words ++ [String.ofList (word.map Char.toUpper)]) =
      wordNames words ++ upperNames word := by
  rw [wordNames, List.flatMap_append, List.flatMap_singleton, String.toList_ofList,
    fragments_toUpper]
  rfl

variable (scanned : Scanned) (c : Char)

theorem flush_current (gap : isNameChar c = false) (text : List Char) :
    currentNames scanned.flush text = currentNames scanned (c :: text) := by
  rw [currentNames, currentNames, upperNames_append _ text c gap, DbPolicy.flush_word,
    ← List.append_assoc]
  congr 1
  unfold Scanned.flush
  split
  · rename_i empty
    rw [List.isEmpty_iff.mp empty]
    exact (List.append_nil _).symm
  · exact wordNames_push scanned.cur scanned.word

theorem flush_cur :
    wordNames scanned.flush.cur = currentNames scanned [] := by
  have current := flush_current scanned ' ' rfl []
  rw [currentNames, currentNames, upperNames_append scanned.word [] ' ' rfl]
    at current
  rw [currentNames]
  simpa [upperNames] using current

theorem char_current (plain : isNameChar c = true → isWordChar c = true) (text : List Char) :
    currentNames (scanned.char c) text = currentNames scanned (c :: text) := by
  unfold Scanned.char
  split
  · rw [currentNames, currentNames, Scanned.extend, List.append_assoc, List.singleton_append]
  · rename_i gap
    apply flush_current scanned c
    rw [← Bool.not_eq_true]
    exact fun isName => gap (plain isName)

theorem chars_current (chars : List Char)
    (plain : ∀ c ∈ chars, isNameChar c = true → isWordChar c = true) (scanned : Scanned) :
    (chars.foldl Scanned.char scanned).out = scanned.out ∧ ∀ text,
      currentNames (chars.foldl Scanned.char scanned) text =
        currentNames scanned (chars ++ text) := by
  induction chars generalizing scanned with
  | nil => exact ⟨rfl, fun text => rfl⟩
  | cons c chars ih =>
    obtain ⟨out, current⟩ := ih (fun d member => plain d (List.mem_cons_of_mem c member))
      (scanned.char c)
    rw [List.foldl_cons]
    refine ⟨out.trans (char_out scanned c), fun text => ?_⟩
    rw [current, char_current scanned c (plain c List.mem_cons_self)]
    rfl

theorem push_current (first last : Char) (before : isNameChar first = false)
    (behind : isNameChar last = false) (body text : List Char) :
    currentNames (scanned.flush.push body) text =
      currentNames scanned (first :: (body ++ last :: text)) := by
  have empty : (scanned.flush.push body).word = [] := DbPolicy.flush_word scanned
  rw [← flush_current scanned first before, currentNames, currentNames, empty,
    DbPolicy.flush_word, List.nil_append, List.nil_append, upperNames_append body text last behind,
    Scanned.push, wordNames_push, List.append_assoc]

theorem wordChar_of_tokenChar (token : isTokenChar c = true) : isWordChar c = true := by
  simp only [isTokenChar, isWordChar, Bool.or_eq_true] at token ⊢
  exact .inl token

/-- A piece of a statement adds what it shows. -/
theorem piece_current (after : Scanned) (c : Char) (rest left : List Char) (piece : Piece)
    (reading : Reading standard c rest piece left) (plain : unambiguous piece = true)
    (inside : piece ≠ .other ';') (read : scanned.piece piece = some after) :
    after.out = scanned.out ∧
      ∀ text, currentNames after text = currentNames scanned (piece.visible ++ text) := by
  cases reading with
  | literal body closed left found =>
    obtain ⟨-, same⟩ := ite_none_right_eq_some.mp read
    cases same
    exact ⟨flush_out scanned, flush_current scanned ' ' rfl⟩
  | quoted mark isMark body closed left found =>
    have gap : isNameChar c = false := by
      rcases isMark with rfl | rfl <;> rfl
    obtain ⟨shut, same⟩ := ite_none_right_eq_some.mp read
    cases same
    refine ⟨flush_out scanned, fun text => ?_⟩
    rw [push_current scanned c c gap gap, shut]
    simp [Piece.visible, Piece.source, closing]
  | bracket body closed left found =>
    obtain ⟨shut, same⟩ := ite_none_right_eq_some.mp read
    cases same
    refine ⟨flush_out scanned, fun text => ?_⟩
    rw [push_current scanned '\x5b' '\x5d' rfl rfl, shut]
    simp [Piece.visible, Piece.source, closing]
  | line rest =>
    cases read
    exact ⟨flush_out scanned, flush_current scanned ' ' rfl⟩
  | hash rest known | live rest known => cases known
  | block body closed left found dead =>
    cases read
    exact ⟨flush_out scanned, flush_current scanned ' ' rfl⟩
  | name c rest isName =>
    cases read
    apply chars_current
    intro d member _
    exact wordChar_of_tokenChar d (List.all_eq_true.mp plain d member)
  | other c rest unquoted minus hash slash known foreign =>
    have apart : c ≠ ';' := fun same => inside (congrArg Piece.other same)
    simp only [Scanned.piece, if_neg apart, Option.some.injEq] at read
    subst read
    refine ⟨char_out scanned c, char_current scanned c fun isName => ?_⟩
    rw [known] at isName
    cases isName

theorem statement_names (pieces : List Piece)
    (lexed : ∀ piece ∈ pieces, ∃ c rest left, Reading standard c rest piece left)
    (plain : ∀ piece ∈ pieces, unambiguous piece = true) (scanned after : Scanned)
    (read : pieces.foldlM Scanned.piece scanned = some after) :
    after.finish.map wordNames = scanned.out.map wordNames ++
      currentNames scanned (visible ((groups pieces).headD [])) ::
        (groups pieces).tail.map fun group => upperNames (visible group) := by
  induction pieces generalizing scanned with
  | nil =>
    obtain rfl : scanned = after := Option.some.inj read
    rw [Scanned.finish, List.map_append, flush_out, List.map_singleton, flush_cur]
    rfl
  | cons piece pieces ih =>
    obtain ⟨next, first, later⟩ := bind_eq_some_iff.mp read
    have rest := ih (fun other member => lexed other (List.mem_cons_of_mem piece member))
      (fun other member => plain other (List.mem_cons_of_mem piece member)) next later
    by_cases separator : piece = .other ';'
    · subst separator
      cases first
      have empty : scanned.flush.cut.word = [] := DbPolicy.flush_word scanned
      have out : scanned.flush.cut.out = scanned.out ++ [scanned.flush.cur] :=
        congrArg (· ++ [scanned.flush.cur]) (flush_out scanned)
      rw [rest, groups, if_pos rfl, out, currentNames, empty, List.map_append,
        List.map_singleton, flush_cur, List.append_assoc]
      cases split : groups pieces with
      | nil => exact absurd split (groups_ne_nil pieces)
      | cons group others => rfl
    · obtain ⟨c, text, left, reading⟩ := lexed piece List.mem_cons_self
      obtain ⟨out, current⟩ := piece_current scanned next c text left piece reading
        (plain piece List.mem_cons_self) separator first
      rw [rest, groups, if_neg separator, out, current]
      simp

end StatementNames

def readingWords : List String :=
  ["SELECT", "SHOW", "EXPLAIN", "DESCRIBE", "DESC", "PRAGMA", "ANALYZE", "VALUES"]

theorem reads_only (calm : stmtRisk words = .readOnly) :
    ∃ first rest, words = first :: rest ∧ first ∈ readingWords := by
  cases words with
  | nil => cases calm
  | cons first rest =>
    refine ⟨first, rest, rfl, ?_⟩
    by_contra unread
    simp only [readingWords, List.mem_cons, not_or] at unread
    obtain ⟨select, others⟩ := unread
    have others : ["SHOW", "EXPLAIN", "DESCRIBE", "DESC", "PRAGMA", "ANALYZE",
        "VALUES"].contains first = false := by
      simp [others]
    simp only [stmtRisk, classifyStmt, others] at calm
    split at calm
    · split at calm
      · cases calm
      · rename_i risky
        apply risky
        simp only at calm
        rw [calm]
        rfl
    · repeat' split at calm
      all_goals contradiction

theorem reading_names (word : String) (listed : word ∈ readingWords) :
    ∃ rest, wordNames [word] = word.toList :: rest ∧ word ∉ changingWords := by
  simp only [readingWords, List.mem_cons, List.not_mem_nil, or_false] at listed
  rcases listed with rfl | rfl | rfl | rfl | rfl | rfl | rfl | rfl
  all_goals exact ⟨[], by decide +kernel, by decide +kernel⟩

theorem reading_opens (calm : stmtRisk words = .readOnly) (first : List Char)
    (opens : (wordNames words).head? = some first) :
    String.ofList first ∉ changingWords := by
  obtain ⟨word, rest, rfl, listed⟩ := reads_only words calm
  obtain ⟨more, names, harmless⟩ := reading_names word listed
  have split : wordNames (word :: rest) = wordNames [word] ++ wordNames rest := by
    simp [wordNames]
  rw [split, names] at opens
  cases opens
  rw [String.ofList_toList]
  exact harmless

theorem lexes_of_standard (read : standardPieces sql = .ok pieces) :
    (sqlLexer standard).Lexes [] sql pieces :=
  (pieces_iff (sqlLexer standard) sql pieces).mp read

theorem statements_show (lexes : (sqlLexer standard).Lexes [] sql pieces)
    (plain : ∀ piece ∈ pieces, unambiguous piece = true) (stmts : List (List String))
    (scanned : statements sql = some stmts) :
    stmts.map wordNames = (groups pieces).map fun group => upperNames (visible group) := by
  have portable := lexes_portable scannerDialect (fun _ foreign => by cases foreign) [] sql pieces
    lexes fun piece member => portable_of_unambiguous piece (plain piece member)
  rw [statements_lexes sql pieces portable] at scanned
  obtain ⟨after, read, same⟩ := map_eq_some_iff.mp scanned
  rw [← same, statement_names pieces
    (fun piece member => reading_of_mem standard [] sql pieces lexes piece member) plain
      _ after read]
  cases split : groups pieces with
  | nil => exact absurd split (groups_ne_nil pieces)
  | cons group others => rfl

theorem upperNames_groups :
    upperNames (visible pieces) = (groups pieces).flatMap fun group => upperNames
      (visible group) := by
  have all := fragments_groups pieces []
  rw [List.nil_append] at all
  rw [upperNames, all, List.map_append, List.map_flatMap]
  cases split : groups pieces with
  | nil => exact absurd split (groups_ne_nil pieces)
  | cons group others => rfl

end OnlyJs.Bridge.Guard
