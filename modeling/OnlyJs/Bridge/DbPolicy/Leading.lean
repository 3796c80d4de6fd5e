import OnlyJs.Bridge.DbPolicy.Lexed
import OnlyJs.Lib.SqlLayout

/-!
# Words in front of a text

Words that the scanner reads off in front of a text stand in its first statement, whatever
the text is, and change nothing else.
-/

namespace OnlyJs.Bridge.DbPolicy

open Lib.Lexing List Lib.SqlLexing

def prepend (words : List String) : List (List String) → List (List String)
  | [] => []
  | first :: others => (words ++ first) :: others

def Scanned.fronted (words : List String) (scanned : Scanned) : Scanned :=
  match scanned.out with
  | [] => { scanned with cur := words ++ scanned.cur }
  | first :: others => { scanned with out := (words ++ first) :: others }

section Fronted

variable (words : List String) (scanned : Scanned)

theorem fronted_word : (scanned.fronted words).word = scanned.word := by
  unfold Scanned.fronted
  split <;> rfl

theorem fronted_push (body : List Char) :
    (scanned.fronted words).push body = (scanned.push body).fronted words := by
  cases out : scanned.out with
  | nil | cons first others => simp [Scanned.fronted, Scanned.push, out]

theorem fronted_with (word : List Char) :
    { scanned.fronted words with word := word } =
      Scanned.fronted words { scanned with word := word } := by
  unfold Scanned.fronted
  cases scanned.out <;> rfl

theorem fronted_flush : (scanned.fronted words).flush = scanned.flush.fronted words := by
  unfold Scanned.flush
  rw [fronted_word]
  split
  · rfl
  · rw [fronted_push, fronted_with]

theorem fronted_cut : (scanned.fronted words).cut = scanned.cut.fronted words := by
  cases out : scanned.out with
  | nil | cons first others => simp [Scanned.fronted, Scanned.cut, out]

theorem fronted_char (c : Char) :
    (scanned.fronted words).char c = (scanned.char c).fronted words := by
  unfold Scanned.char
  split
  · rw [Scanned.extend, fronted_word, fronted_with]
    rfl
  · exact fronted_flush words scanned

theorem fronted_chars (chars : List Char) :
    chars.foldl Scanned.char (scanned.fronted words) =
      (chars.foldl Scanned.char scanned).fronted words := by
  induction chars generalizing scanned with
  | nil => rfl
  | cons c chars ih => rw [foldl_cons, foldl_cons, fronted_char, ih]

theorem fronted_piece (piece : Piece) :
    (scanned.fronted words).piece piece = (scanned.piece piece).map (Scanned.fronted words) := by
  cases piece with
  | name chars => exact congrArg some (fronted_chars words scanned chars)
  | literal _ closed =>
    cases closed with
    | false => rfl
    | true => exact congrArg some (fronted_flush words scanned)
  | quoted _ body closed | bracket body closed =>
    cases closed with
    | false => rfl
    | true =>
      change some _ = some _
      rw [fronted_flush, fronted_push]
  | line _ _ | block _ _ | live _ => exact congrArg some (fronted_flush words scanned)
  | other c =>
    change some _ = some _
    split
    · rw [fronted_flush, fronted_cut]
    · rw [fronted_char]

theorem fronted_pieces (pieces : List Piece) :
    pieces.foldlM Scanned.piece (scanned.fronted words) =
      (pieces.foldlM Scanned.piece scanned).map (Scanned.fronted words) := by
  induction pieces generalizing scanned with
  | nil => rfl
  | cons piece pieces ih =>
    rw [foldlM_cons, foldlM_cons, fronted_piece]
    cases scanned.piece piece with
    | none => rfl
    | some after => exact ih after

theorem fronted_finish : (scanned.fronted words).finish = prepend words scanned.finish := by
  rw [Scanned.finish, Scanned.finish, fronted_flush]
  cases out : scanned.flush.out with
  | nil | cons first others => simp [Scanned.fronted, prepend, out]

end Fronted

/-- The scanner reads nothing but these words off the front of a text. -/
def Fronts (front : List Char) (words : List String) : Prop :=
  ∀ rest, scan (.plain false) .start (front ++ rest) = scan (.plain false) ⟨[], words, []⟩ rest

theorem statements_fronts {front : List Char} {words : List String} (fronts : Fronts front words)
    (rest : List Char) : statements (front ++ rest) = (statements rest).map (prepend words) := by
  obtain ⟨pieces, read⟩ := pieces_ok scannerDialect (fun _ => rfl) rest
  have lexes := lexes_of_scan (sqlLexer scannerDialect) [] rest pieces read
  have begun : (⟨[], words, []⟩ : Scanned) = Scanned.start.fronted words := by
    simp [Scanned.fronted, Scanned.start]
  rw [statements, fronts, begun, scan_lexes [] rest pieces lexes, fronted_pieces,
    statements_lexes rest pieces lexes, Option.map_map, Option.map_map]
  congr 1
  funext scanned
  exact fronted_finish words scanned

theorem statements_cons {sql : List Char} {stmts : List (List String)}
    (scanned : statements sql = some stmts) : ∃ first others, stmts = first :: others := by
  obtain ⟨pieces, read⟩ := pieces_ok scannerDialect (fun _ => rfl) sql
  have lexes := lexes_of_scan (sqlLexer scannerDialect) [] sql pieces read
  rw [statements_lexes sql pieces lexes] at scanned
  obtain ⟨last, -, rfl⟩ := Option.map_eq_some_iff.mp scanned
  apply exists_cons_of_ne_nil
  exact append_ne_nil_of_right_ne_nil _ (cons_ne_nil _ _)

theorem severity_fronts {front : List Char} {word : String} {risk : Risk}
    (fronts : Fronts front [word]) (verb : ∀ more, stmtRisk (word :: more) = risk)
    (rest : List Char) : severity risk ≤ severity (classify (front ++ rest)).risk := by
  have read := statements_fronts fronts rest
  cases scanned : statements rest with
  | none =>
    have unknown : (classify (front ++ rest)).risk = .unknown := by
      simp only [classify, read, scanned, Option.map_none]
    rw [unknown]
    cases risk <;> decide
  | some stmts =>
    obtain ⟨first, others, rfl⟩ := statements_cons scanned
    rw [scanned] at read
    have above := (severity_classify_le _ _ read _).mp (Nat.le_refl _) (word :: first)
      mem_cons_self
    rw [verb first] at above
    exact above

end OnlyJs.Bridge.DbPolicy
