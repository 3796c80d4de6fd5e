import Mathlib.Data.List.SplitBy
import OnlyJs.Bridge.DbPolicy.Lexed
import OnlyJs.Lib.SqlLayout

/-!
# Classification and layout

Commas and dots belong to the words of the scanner, so the words of a statement depend
on the layout around commas and dots. Two texts with the same tokens are compared joint
by joint: each token with whether layout precedes it in the one and in the other text.
-/

namespace OnlyJs.Bridge.DbPolicy

open Lib.Lexing Lib.SqlLexing

section Joints

def layoutTokens (sql : List Char) : List (Bool × Piece) :=
  match (sqlLexer scannerDialect).pieces sql with
  | .ok pieces => spaced false pieces
  | .error _ => []

structure Joint where
  first : Bool
  second : Bool
  piece : Piece
deriving DecidableEq

def jointsOf (first second : List (Bool × Piece)) : List Joint :=
  List.zipWith (fun one other => ⟨one.1, other.1, one.2⟩) first second

def Scanned.token (scanned : Scanned) (token : Bool × Piece) : Option Scanned :=
  (if token.1 then scanned.flush else scanned).piece token.2

/-- What the scanner has after a token that is not left open. -/
def Scanned.absorb (scanned : Scanned) : Piece → Scanned
  | .name chars => chars.foldl Scanned.char scanned
  | .quoted _ body _ | .bracket body _ => scanned.flush.push body
  | .other c => if c = ';' then scanned.flush.cut else scanned.char c
  | _ => scanned.flush

/-- One token of the text that `gap` tells about. -/
def Scanned.joint (gap : Joint → Bool) (scanned : Scanned) (joint : Joint) : Scanned :=
  (if gap joint then scanned.flush else scanned).absorb joint.piece

def Joint.cuts (joint : Joint) : Bool := joint.piece = .other ';'

/-- The words of a statement in the text that `gap` tells about. -/
def wordsAt (gap : Joint → Bool) (joints : List Joint) : List String :=
  (joints.foldl (Scanned.joint gap) .start).flush.cur

variable (scanned : Scanned)

theorem piece_absorb (piece : Piece) (token : piece.isLayout = false) :
    scanned.piece piece = if piece.closed then some (scanned.absorb piece) else none := by
  cases piece with
  | line | block => cases token
  | name | literal | quoted | bracket | live | other => rfl

theorem layout_flushes (piece : Piece) (layout : piece.isLayout = true) :
    scanned.piece piece = some scanned.flush := by
  cases piece with
  | line | block => rfl
  | name | literal | quoted | bracket | live => cases layout
  | other c =>
    have apart : ∀ n < 0x21, isSpace (Char.ofNat n) = true →
        Char.ofNat n ≠ ';' ∧ isWordChar (Char.ofNat n) = false := by decide
    have small : c.toNat < 0x21 := by
      simp only [Piece.isLayout, isSpace, Bool.or_eq_true, decide_eq_true_eq,
        Bool.and_eq_true] at layout
      rcases layout with rfl | range
      · decide
      · omega
    have facts := apart c.toNat small (by rw [Char.ofNat_toNat]; exact layout)
    rw [Char.ofNat_toNat] at facts
    rw [Scanned.piece, if_neg facts.1, Scanned.char, if_neg (by rw [facts.2]; decide)]

theorem finish_flush : scanned.flush.finish = scanned.finish := by
  rw [Scanned.finish, Scanned.finish, flush_flush]

theorem statements_tokens (sql : List Char) :
    statements sql =
      ((layoutTokens sql).foldlM Scanned.token Scanned.start).map Scanned.finish := by
  obtain ⟨pieces, read⟩ := pieces_ok scannerDialect (fun _ => rfl) sql
  have lexes := (pieces_iff (sqlLexer scannerDialect) sql pieces).mp read
  have tokens : layoutTokens sql = spaced false pieces := by
    unfold layoutTokens
    rw [read]
  rw [statements_lexes sql pieces lexes, tokens]
  exact foldlM_spaced Scanned.piece Scanned.flush Scanned.finish flush_flush finish_flush
    layout_flushes pieces false .start

theorem foldlM_joints (gap : Joint → Bool) (joints : List Joint)
    (solid : ∀ joint ∈ joints, joint.piece.isLayout = false) (scanned : Scanned) :
    (joints.map fun joint => (gap joint, joint.piece)).foldlM Scanned.token scanned =
      if joints.all (·.piece.closed) then some (joints.foldl (Scanned.joint gap) scanned)
      else none := by
  induction joints generalizing scanned with
  | nil => rfl
  | cons joint joints ih =>
    have step : scanned.token (gap joint, joint.piece) =
        if joint.piece.closed then some (scanned.joint gap joint) else none :=
      piece_absorb _ joint.piece (solid joint List.mem_cons_self)
    rw [List.map_cons, List.foldlM_cons, step, List.all_cons]
    cases joint.piece.closed with
    | false => rfl
    | true => exact ih (fun other member => solid other (List.mem_cons_of_mem joint member)) _

end Joints

section Statements

/-- What the scanner has read before stays in front of what it reads later in the
statement. -/
def Scanned.behind (stmts : List (List String)) (words : List String) (scanned : Scanned) :
    Scanned :=
  { scanned with cur := words ++ scanned.cur, out := stmts ++ scanned.out }

variable (stmts : List (List String)) (words : List String)

variable (scanned : Scanned)

theorem behind_flush :
    (scanned.behind stmts words).flush = scanned.flush.behind stmts words := by
  unfold Scanned.flush Scanned.behind Scanned.push
  split
  · rfl
  · rw [List.append_assoc]

theorem behind_char (c : Char) :
    (scanned.behind stmts words).char c = (scanned.char c).behind stmts words := by
  unfold Scanned.char
  split
  · rfl
  · exact behind_flush stmts words scanned

theorem behind_chars (chars : List Char) (scanned : Scanned) :
    chars.foldl Scanned.char (scanned.behind stmts words) =
      (chars.foldl Scanned.char scanned).behind stmts words := by
  induction chars generalizing scanned with
  | nil => rfl
  | cons c chars ih => rw [List.foldl_cons, List.foldl_cons, behind_char, ih]

theorem behind_absorb (piece : Piece) (uncut : piece ≠ .other ';') :
    (scanned.behind stmts words).absorb piece = (scanned.absorb piece).behind stmts words := by
  have pushes : ∀ body, (scanned.behind stmts words).flush.push body =
      (scanned.flush.push body).behind stmts words := by
    intro body
    rw [behind_flush]
    unfold Scanned.push Scanned.behind
    rw [List.append_assoc]
  cases piece with
  | name chars => exact behind_chars stmts words chars scanned
  | literal | line | block | live => exact behind_flush stmts words scanned
  | quoted mark body closed | bracket body closed => exact pushes body
  | other c =>
    have apart : c ≠ ';' := fun same => uncut (congrArg Piece.other same)
    rw [Scanned.absorb, Scanned.absorb, if_neg apart, if_neg apart]
    exact behind_char stmts words scanned c

theorem behind_joints (gap : Joint → Bool) (joints : List Joint)
    (uncut : ∀ joint ∈ joints, joint.cuts = false) (scanned : Scanned) :
    joints.foldl (Scanned.joint gap) (scanned.behind stmts words) =
      (joints.foldl (Scanned.joint gap) scanned).behind stmts words := by
  induction joints generalizing scanned with
  | nil => rfl
  | cons joint joints ih =>
    have step : (scanned.behind stmts words).joint gap joint =
        (scanned.joint gap joint).behind stmts words := by
      have apart := of_decide_eq_false (uncut joint List.mem_cons_self)
      unfold Scanned.joint
      rw [← behind_absorb stmts words _ joint.piece apart]
      split
      · rw [behind_flush]
      · rfl
    rw [List.foldl_cons, step]
    exact ih (fun other member => uncut other (List.mem_cons_of_mem joint member)) _

end Statements

section Cutting

variable (gap : Joint → Bool) (scanned : Scanned)

theorem absorb_out (piece : Piece) (uncut : piece ≠ .other ';') :
    (scanned.absorb piece).out = scanned.out := by
  cases piece with
  | name chars =>
    rw [Scanned.absorb]
    clear uncut
    induction chars generalizing scanned with
    | nil => rfl
    | cons c chars ih => rw [List.foldl_cons, ih, char_out]
  | literal | line | block | live | quoted mark body closed | bracket body closed =>
    exact flush_out scanned
  | other c =>
    have apart : c ≠ ';' := fun same => uncut (congrArg Piece.other same)
    rw [Scanned.absorb, if_neg apart]
    exact char_out scanned c

theorem gap_out (gap : Bool) (scanned : Scanned) :
    (if gap then scanned.flush else scanned).out = scanned.out := by
  cases gap with
  | true => exact flush_out scanned
  | false => rfl

theorem gap_flush (gap : Bool) (scanned : Scanned) :
    (if gap then scanned.flush else scanned).flush = scanned.flush := by
  cases gap with
  | true => exact flush_flush scanned
  | false => rfl

theorem joint_cut (joint : Joint) (cut : joint.cuts = true) :
    scanned.joint gap joint = Scanned.start.behind (scanned.out ++ [scanned.flush.cur]) [] := by
  have same : joint.piece = .other ';' := of_decide_eq_true cut
  rw [Scanned.joint, same, Scanned.absorb, gap_flush]
  unfold Scanned.cut Scanned.behind
  rw [flush_out]
  simp [Scanned.start]

variable (joints : List Joint)

theorem finish_joints (scanned : Scanned) :
    ∃ first others, joints.splitOnP Joint.cuts = first :: others ∧
      (joints.foldl (Scanned.joint gap) scanned).finish =
        scanned.out ++ (first.foldl (Scanned.joint gap) scanned).flush.cur ::
          others.map (wordsAt gap) := by
  induction joints generalizing scanned with
  | nil =>
    refine ⟨[], [], List.splitOnP_nil, ?_⟩
    rw [Scanned.finish, flush_out]
    rfl
  | cons joint joints ih =>
    obtain ⟨first, others, split, finished⟩ := ih (scanned.joint gap joint)
    rw [List.splitOnP_cons_eq_if_modifyHead, split]
    by_cases cut : joint.cuts = true
    · refine ⟨[], first :: others, if_pos cut, ?_⟩
      have uncut := uncut_of_mem_splitOnP Joint.cuts joints first
        (by rw [split]; exact List.mem_cons_self)
      rw [List.foldl_cons, finished, joint_cut gap scanned joint cut,
        behind_joints _ _ gap first uncut, behind_flush]
      simp [Scanned.behind, Scanned.start, wordsAt]
    · refine ⟨joint :: first, others, if_neg cut, ?_⟩
      have apart : joint.piece ≠ .other ';' := fun same => cut (decide_eq_true same)
      rw [List.foldl_cons, finished, List.foldl_cons, Scanned.joint, absorb_out _ _ apart,
        gap_out]

theorem statements_joints (solid : ∀ joint ∈ joints, joint.piece.isLayout = false) (sql : List Char)
    (tokens : layoutTokens sql = joints.map fun joint => (gap joint, joint.piece)) :
    statements sql =
      if joints.all (·.piece.closed) then some ((joints.splitOnP Joint.cuts).map (wordsAt gap))
      else none := by
  rw [statements_tokens, tokens, foldlM_joints gap joints solid]
  split
  · obtain ⟨first, others, split, finished⟩ := finish_joints gap joints .start
    rw [Option.map_some, finished, split]
    rfl
  · rfl

end Cutting

section Runs

def inWord : Piece → Bool
  | .name _ => true
  | .other c => isWordChar c
  | _ => false

def Joint.joins (one next : Joint) : Bool :=
  inWord one.piece && inWord next.piece && !(next.first && next.second)

def runs (joints : List Joint) : List (List Joint) := joints.splitBy Joint.joins

theorem absorb_apart (scanned : Scanned) (piece : Piece) (apart : inWord piece = false) :
    scanned.flush.absorb piece = scanned.absorb piece ∧ (scanned.absorb piece).word = [] := by
  cases piece with
  | name chars => cases apart
  | literal | line | block | live => exact ⟨flush_flush scanned, flush_word scanned⟩
  | quoted mark body closed | bracket body closed =>
    exact ⟨congrArg (Scanned.push · body) (flush_flush scanned), flush_word scanned⟩
  | other c =>
    have plain : isWordChar c = false := apart
    rw [Scanned.absorb, Scanned.absorb, Scanned.char, Scanned.char, plain, flush_flush]
    refine ⟨rfl, ?_⟩
    split
    · exact flush_word scanned
    · exact flush_word scanned

theorem start_behind (scanned : Scanned) :
    scanned.flush = Scanned.start.behind scanned.flush.out scanned.flush.cur := by
  have empty := flush_word scanned
  cases flushed : scanned.flush with
  | mk word cur out =>
    rw [flushed] at empty
    have empty : word = [] := empty
    simp [Scanned.behind, Scanned.start, empty]

variable (gap : Joint → Bool)

theorem joint_word (joints : List Joint) (last : Joint) (ends : joints.getLast? = some last)
    (apart : inWord last.piece = false) (scanned : Scanned) :
    (joints.foldl (Scanned.joint gap) scanned).word = [] := by
  obtain ⟨front, rfl⟩ := List.getLast?_eq_some_iff.mp ends
  rw [List.foldl_append]
  exact (absorb_apart _ last.piece apart).2

section

variable (both : ∀ joint : Joint, (joint.first && joint.second) = true → gap joint = true)
include both

theorem joint_apart (one : List Joint) (first : Joint)
    (apart : ∀ last, one.getLast? = some last → last.joins first = false) :
    (one.foldl (Scanned.joint gap) .start).joint gap first =
      (one.foldl (Scanned.joint gap) .start).flush.joint gap first := by
  cases ends : one.getLast? with
  | none =>
    rw [List.getLast?_eq_none_iff.mp ends]
    rfl
  | some last =>
    have apart := apart last ends
    by_cases begun : inWord last.piece = true
    · by_cases goes : inWord first.piece = true
      · rw [Joint.joins, begun, goes, Bool.true_and, Bool.true_and, Bool.not_eq_false'] at apart
        rw [Scanned.joint, Scanned.joint, both first apart, if_pos rfl, if_pos rfl, flush_flush]
      · have stands := fun scanned => (absorb_apart scanned first.piece
          (Bool.not_eq_true _ |>.mp goes)).1
        rw [Scanned.joint, Scanned.joint, ← stands (ite _ _ _), gap_flush,
          ← stands (ite _ (Scanned.flush _) (Scanned.flush _)), gap_flush, flush_flush]
    · have empty := joint_word gap one last ends (Bool.not_eq_true _ |>.mp begun) .start
      rw [flush_of_empty _ empty]

theorem words_append (one next : List Joint) (uncut : ∀ joint ∈ next, joint.cuts = false)
    (apart : ∀ last first, one.getLast? = some last → next.head? = some first →
      last.joins first = false) :
    wordsAt gap (one ++ next) = wordsAt gap one ++ wordsAt gap next := by
  cases next with
  | nil => simp [wordsAt, Scanned.start, Scanned.flush]
  | cons first rest =>
    have flushed := joint_apart gap both one first fun last ends => apart last first ends rfl
    rw [wordsAt, List.foldl_append, List.foldl_cons, flushed, ← List.foldl_cons,
      start_behind (one.foldl (Scanned.joint gap) .start),
      behind_joints _ _ gap (first :: rest) uncut, behind_flush]
    rfl

theorem words_runs (joints : List Joint) (uncut : ∀ joint ∈ joints, joint.cuts = false) :
    wordsAt gap joints = (runs joints).flatMap (wordsAt gap) := by
  have split : ∀ parts : List (List Joint), (∀ joint ∈ parts.flatten, joint.cuts = false) →
      [] ∉ parts → (parts.IsChain fun one next => ∃ ends begins,
        (one.getLast ends).joins (next.head begins) = false) →
      wordsAt gap parts.flatten = parts.flatMap (wordsAt gap) := by
    intro parts uncut full chain
    induction parts with
    | nil => rfl
    | cons one parts ih =>
      rw [List.flatten_cons] at uncut ⊢
      rw [List.isChain_cons] at chain
      have later := ih (fun joint member => uncut joint (List.mem_append_right one member))
        (fun member => full (List.mem_cons_of_mem one member)) chain.2
      rw [words_append gap both one parts.flatten
        (fun joint member => uncut joint (List.mem_append_right one member)) ?_, later,
        List.flatMap_cons]
      intro last first ends begins
      cases parts with
      | nil => cases begins
      | cons next others =>
        obtain ⟨nonempty, begun, apart⟩ := chain.1 next rfl
        rw [List.getLast?_eq_some_getLast nonempty] at ends
        rw [List.flatten_cons, List.head?_append_of_ne_nil _ begun,
          List.head?_eq_some_head begun] at begins
        cases ends
        cases begins
        exact apart
  have whole := List.flatten_splitBy Joint.joins joints
  have parts := split (runs joints) (by rwa [runs, whole])
    (List.nil_notMem_splitBy Joint.joins joints)
    (List.isChain_getLast_head_splitBy Joint.joins joints)
  rwa [runs, whole] at parts

end

end Runs

section Words

def watched : List String :=
  ["WITH", "SELECT", "OUTFILE", "DUMPFILE", "FOR", "UPDATE", "LOCK", "SHARE", "INSERT", "REPLACE",
    "MERGE", "DELETE", "TRUNCATE", "DROP", "ALTER", "CREATE", "RENAME", "GRANT", "REVOKE", "BEGIN",
    "COMMIT", "ROLLBACK", "SAVEPOINT", "RELEASE", "START", "SET", "GLOBAL", "SESSION",
    "SEARCH_PATH", "COPY", "LOAD", "CALL", "EXECUTE", "USE", "ATTACH", "DETACH", "SHOW", "EXPLAIN",
    "DESCRIBE", "DESC", "PRAGMA", "ANALYZE", "VALUES", "KILL", "USING", "JOIN"] ++
    sideEffectFns ++ predicateEnds ++ multiTableEnds

def isMark (c : Char) : Bool := c = '.' || c = ','

def pieceWords (piece : Piece) : List String := (Scanned.start.absorb piece).flush.cur

def sameRun (run : List Joint) : Bool := run.tail.all fun joint => joint.first == joint.second

def calmRun (run : List Joint) : Bool :=
  run.all fun joint => (pieceWords joint.piece).all fun word => !watched.contains word

/-- Words of which a classification sees only that they are there. -/
structure Loose (words : List String) : Prop where
  some : words ≠ []
  unwatched : ∀ word ∈ words, word ∉ watched

def upper (word : List Char) : String := String.ofList (word.map Char.toUpper)

/-- None of the words read, and not the word being read, is looked for. -/
structure Unwatched (scanned : Scanned) : Prop where
  cur : ∀ word ∈ scanned.cur, word ∉ watched
  word : upper scanned.word ∉ watched

variable (run : List Joint)

theorem words_same (same : sameRun run = true) :
    wordsAt Joint.first run = wordsAt Joint.second run := by
  have folds : ∀ (joints : List Joint) (scanned : Scanned),
      (∀ joint ∈ joints, joint.first = joint.second) →
        joints.foldl (Scanned.joint Joint.first) scanned =
          joints.foldl (Scanned.joint Joint.second) scanned := by
    intro joints
    induction joints with
    | nil => exact fun _ _ => rfl
    | cons joint joints ih =>
      intro scanned agree
      have here : scanned.joint Joint.first joint = scanned.joint Joint.second joint := by
        rw [Scanned.joint, Scanned.joint, agree joint List.mem_cons_self]
      rw [List.foldl_cons, here]
      exact ih _ fun other member => agree other (List.mem_cons_of_mem joint member)
  cases run with
  | nil => rfl
  | cons joint rest =>
    have agree : ∀ other ∈ rest, other.first = other.second := fun other member =>
      beq_iff_eq.mp (List.all_eq_true.mp same other member)
    have opens : ∀ gap, Scanned.start.joint gap joint = Scanned.start.absorb joint.piece := by
      intro gap
      rw [Scanned.joint]
      cases gap joint <;> rfl
    rw [wordsAt, wordsAt, List.foldl_cons, List.foldl_cons, opens, opens, folds rest _ agree]

theorem unwatched_of_mark (word : List Char) (marked : word.any isMark = true) :
    upper word ∉ watched := by
  intro member
  obtain ⟨c, inside, mark⟩ := List.any_eq_true.mp marked
  have plain : (watched.all fun word => word.toList.all fun c => !isMark c) = true := by
    decide +kernel
  have fixed : c.toUpper = c := by
    simp only [isMark, Bool.or_eq_true, decide_eq_true_eq] at mark
    rcases mark with rfl | rfl <;> rfl
  have found : c ∈ (upper word).toList := by
    rw [upper, String.toList_ofList, ← fixed]
    exact List.mem_map_of_mem inside
  have unmarked := List.all_eq_true.mp (List.all_eq_true.mp plain _ member) c found
  rw [mark] at unmarked
  cases unmarked

variable (gap : Joint → Bool) (one : Joint) (scanned : Scanned)

theorem flush_cur :
    scanned.flush.cur =
      scanned.cur ++ if scanned.word = [] then [] else [upper scanned.word] := by
  unfold Scanned.flush
  split
  · rename_i empty
    rw [if_pos (List.isEmpty_iff.mp empty), List.append_nil]
  · rename_i full
    rw [if_neg fun empty => full (List.isEmpty_iff.mpr empty)]
    rfl

theorem mem_flush (word : String) :
    word ∈ scanned.flush.cur ↔
      word ∈ scanned.cur ∨ scanned.word ≠ [] ∧ word = upper scanned.word := by
  rw [flush_cur]
  split
  · simp_all
  · simp_all

theorem flush_unwatched (unwatched : Unwatched scanned) :
    Unwatched scanned.flush := by
  refine ⟨fun word member => ?_, by rw [flush_word]; decide⟩
  rcases (mem_flush scanned word).mp member with before | ⟨-, rfl⟩
  · exact unwatched.cur word before
  · exact unwatched.word

def wordChars : Piece → List Char
  | .name chars => chars
  | .other c => [c]
  | _ => []

variable (piece : Piece)

theorem absorb_chars (isIn : inWord piece = true) :
    scanned.absorb piece = (wordChars piece).foldl Scanned.char scanned := by
  cases piece with
  | name chars => rfl
  | literal | quoted | bracket | line | block | live => cases isIn
  | other c =>
    have apart : c ≠ ';' := by
      rintro rfl
      cases isIn
    rw [Scanned.absorb, if_neg apart]
    rfl

theorem chars_unwatched (chars : List Char) (alone scanned : Scanned)
    (words : ∀ word ∈ scanned.cur, word ∈ alone.cur ∨ word ∉ watched)
    (word : scanned.word = alone.word ∨ scanned.word.any isMark = true) :
    (∀ word ∈ (chars.foldl Scanned.char scanned).cur,
        word ∈ (chars.foldl Scanned.char alone).cur ∨ word ∉ watched) ∧
      ((chars.foldl Scanned.char scanned).word = (chars.foldl Scanned.char alone).word ∨
        (chars.foldl Scanned.char scanned).word.any isMark = true) := by
  induction chars generalizing alone scanned with
  | nil => exact ⟨words, word⟩
  | cons c chars ih =>
    rw [List.foldl_cons, List.foldl_cons]
    by_cases letter : isWordChar c = true
    · have extends_ : ∀ any : Scanned, any.char c = any.extend c := fun any => if_pos letter
      rw [extends_, extends_]
      apply ih (alone.extend c) (scanned.extend c) words
      rcases word with same | marked
      · exact .inl (congrArg (· ++ [c]) same)
      · refine .inr ?_
        rw [Scanned.extend, List.any_append, marked, Bool.true_or]
    · have flushes : ∀ any : Scanned, any.char c = any.flush := fun any => if_neg letter
      rw [flushes, flushes]
      apply ih alone.flush scanned.flush ?_ (.inl (by rw [flush_word, flush_word]))
      intro read member
      rcases (mem_flush scanned read).mp member with before | ⟨full, rfl⟩
      · rcases words read before with known | unwatched
        · exact .inl ((mem_flush alone read).mpr (.inl known))
        · exact .inr unwatched
      · rcases word with same | marked
        · rw [same] at full ⊢
          exact .inl ((mem_flush alone _).mpr (.inr ⟨full, rfl⟩))
        · exact .inr (unwatched_of_mark scanned.word marked)

theorem absorb_unwatched (isIn : inWord piece = true)
    (calm : ∀ word ∈ pieceWords piece, word ∉ watched) (unwatched : Unwatched scanned)
    (word : scanned.word = [] ∨ scanned.word.any isMark = true) :
    Unwatched (scanned.absorb piece) := by
  have calm : ∀ read ∈ (Scanned.start.absorb piece).flush.cur, read ∉ watched := calm
  rw [absorb_chars _ piece isIn] at calm ⊢
  have related := chars_unwatched (wordChars piece) .start scanned
    (fun read member => .inr (unwatched.cur read member)) word
  refine ⟨fun read member => ?_, ?_⟩
  · rcases related.1 read member with known | fine
    · exact calm read ((mem_flush _ read).mpr (.inl known))
    · exact fine
  · rcases related.2 with same | marked
    · rw [same]
      by_cases empty : ((wordChars piece).foldl Scanned.char .start).word = []
      · rw [empty]
        decide
      · exact calm _ ((mem_flush _ _).mpr (.inr ⟨empty, rfl⟩))
    · exact unwatched_of_mark _ marked

theorem gap_unwatched (gap : Bool) (scanned : Scanned) (unwatched : Unwatched scanned) :
    Unwatched (if gap then scanned.flush else scanned) := by
  cases gap with
  | true => exact flush_unwatched scanned unwatched
  | false => exact unwatched

def markPiece : Piece → Bool
  | .other c => isMark c
  | _ => false

theorem absorb_mark (mark : markPiece piece = true) :
    ∃ c, isMark c = true ∧ scanned.absorb piece = scanned.extend c := by
  cases piece with
  | name | literal | quoted | bracket | line | block | live => cases mark
  | other c =>
    have isIn : inWord (.other c) = true := by
      have mark : isMark c = true := mark
      simp only [isMark, Bool.or_eq_true, decide_eq_true_eq] at mark
      rcases mark with rfl | rfl <;> rfl
    refine ⟨c, mark, ?_⟩
    rw [absorb_chars scanned _ isIn]
    exact if_pos isIn

theorem joint_unwatched (joint : Joint) (isIn : inWord joint.piece = true)
    (calm : ∀ word ∈ pieceWords joint.piece, word ∉ watched) (unwatched : Unwatched scanned)
    (word : scanned.word = [] ∨ scanned.word.any isMark = true ∨ markPiece joint.piece = true) :
    Unwatched (scanned.joint gap joint) ∧
      (markPiece joint.piece = true → (scanned.joint gap joint).word.any isMark = true) := by
  have before := gap_unwatched (gap joint) scanned unwatched
  rw [Scanned.joint]
  by_cases mark : markPiece joint.piece = true
  · obtain ⟨c, isMark, absorbed⟩ := absorb_mark
      (if gap joint then scanned.flush else scanned) joint.piece mark
    rw [absorbed]
    have marked : ∀ word : List Char, (word ++ [c]).any OnlyJs.Bridge.DbPolicy.isMark = true := by
      intro word
      rw [List.any_append, List.any_cons, isMark, Bool.true_or, Bool.or_true]
    exact ⟨⟨before.cur, unwatched_of_mark _ (marked _)⟩, fun _ => marked _⟩
  · refine ⟨absorb_unwatched _ joint.piece isIn calm before ?_, fun same => absurd same mark⟩
    cases gap joint with
    | true => exact .inl (flush_word scanned)
    | false => exact word.imp_right fun rest => rest.resolve_right mark

/-- In a run a mark stands at every joint. -/
structure Linked (one next : Joint) : Prop where
  begun : inWord one.piece = true
  goes : inWord next.piece = true
  mark : markPiece one.piece = true ∨ markPiece next.piece = true

theorem run_unwatched (rest : List Joint) (linked : (one :: rest).IsChain Linked)
    (calm : ∀ joint ∈ rest, ∀ word ∈ pieceWords joint.piece, word ∉ watched) (scanned : Scanned)
    (unwatched : Unwatched scanned)
    (marked : markPiece one.piece = true → scanned.word.any isMark = true) :
    Unwatched (rest.foldl (Scanned.joint gap) scanned) := by
  induction rest generalizing one scanned with
  | nil => exact unwatched
  | cons next rest ih =>
    rw [List.isChain_cons_cons] at linked
    have stepped := joint_unwatched gap scanned next linked.1.goes
      (calm next List.mem_cons_self) unwatched (.inr (linked.1.mark.imp_left marked))
    exact ih next linked.2 (fun joint member => calm joint (List.mem_cons_of_mem next member)) _
      stepped.1 stepped.2

theorem flush_ne_nil :
    scanned.flush.cur ≠ [] ↔ scanned.cur ≠ [] ∨ scanned.word ≠ [] := by
  rw [flush_cur]
  split
  · simp_all
  · simp_all

theorem joint_some (joint : Joint) (isIn : inWord joint.piece = true)
    (some : scanned.flush.cur ≠ [] ∨ markPiece joint.piece = true) :
    (scanned.joint gap joint).flush.cur ≠ [] := by
  have chars_some : ∀ (chars : List Char) (scanned : Scanned), scanned.flush.cur ≠ [] →
      (chars.foldl Scanned.char scanned).flush.cur ≠ [] := by
    intro chars
    induction chars with
    | nil => exact fun _ some => some
    | cons c chars ih =>
      intro scanned some
      apply ih
      unfold Scanned.char
      split
      · rw [flush_ne_nil] at some ⊢
        exact some.imp_right fun _ => by simp [Scanned.extend]
      · rwa [flush_flush]
  rw [Scanned.joint]
  rcases some with before | mark
  · rw [absorb_chars _ _ isIn]
    apply chars_some
    rwa [gap_flush]
  · obtain ⟨c, -, absorbed⟩ := absorb_mark
      (if gap joint then scanned.flush else scanned) joint.piece mark
    rw [absorbed, flush_ne_nil]
    exact .inr (by simp [Scanned.extend])

variable (joints : List Joint)

theorem run_some (isIn : ∀ joint ∈ joints, inWord joint.piece = true) (scanned : Scanned)
    (some : scanned.flush.cur ≠ [] ∨ ∃ joint ∈ joints, markPiece joint.piece = true) :
    (joints.foldl (Scanned.joint gap) scanned).flush.cur ≠ [] := by
  induction joints generalizing scanned with
  | nil => exact some.resolve_right fun found => by simp at found
  | cons joint joints ih =>
    apply ih fun other member => isIn other (List.mem_cons_of_mem joint member)
    have here := joint_some gap scanned joint (isIn joint List.mem_cons_self)
    rcases some with before | ⟨mark, member, isMark⟩
    · exact .inl (here (.inl before))
    · rcases List.mem_cons.mp member with rfl | later
      · exact .inl (here (.inr isMark))
      · exact .inr ⟨mark, later, isMark⟩

/-- The tokens next to each other in two texts with the same tokens: two of them that
could be one word have layout between them in both. -/
def NamesApart (one next : Joint) : Prop :=
  inWord one.piece = true → inWord next.piece = true → markPiece one.piece = false →
    markPiece next.piece = false → (next.first && next.second) = true

theorem linked_run (apart : joints.IsChain NamesApart) (run : List Joint)
    (member : run ∈ runs joints) : run.IsChain Linked := by
  have inside : run <:+: joints := by
    have found := List.infix_of_mem_flatten member
    rwa [runs, List.flatten_splitBy] at found
  have joined := List.isChain_of_mem_splitBy member
  have both := chain_and ( List.IsChain.infix apart inside) joined
  refine both.imp fun one next facts => ?_
  obtain ⟨names, joins⟩ := facts
  simp only [Joint.joins, Bool.and_eq_true] at joins
  refine ⟨joins.1.1, joins.1.2, ?_⟩
  by_contra unmarked
  rw [not_or, Bool.not_eq_true, Bool.not_eq_true] at unmarked
  rw [names joins.1.1 joins.1.2 unmarked.1 unmarked.2] at joins
  cases joins.2

/-- A classification sees the same of both. -/
def Alike (one other : List String) : Prop := one = other ∨ Loose one ∧ Loose other

section

variable (next : Joint) (rest : List Joint) (linked : (one :: next :: rest).IsChain Linked)
include next rest linked

theorem linked_inWord :
    ∀ joint ∈ one :: next :: rest, inWord joint.piece = true := by
  induction rest generalizing one next with
  | nil =>
    rw [List.isChain_cons_cons] at linked
    simp [linked.1.begun, linked.1.goes]
  | cons other rest ih =>
    rw [List.isChain_cons_cons] at linked
    intro joint member
    rcases List.mem_cons.mp member with rfl | later
    · exact linked.1.begun
    · exact ih next other linked.2 joint later

theorem run_loose (calm : calmRun (one :: next :: rest) = true) :
    Loose (wordsAt gap (one :: next :: rest)) := by
  have calm : ∀ joint ∈ one :: next :: rest, ∀ word ∈ pieceWords joint.piece, word ∉ watched := by
    intro joint member word read
    have quiet := List.all_eq_true.mp (List.all_eq_true.mp calm joint member) word read
    simpa using quiet
  have isIn := linked_inWord one next rest linked
  have link := (List.isChain_cons_cons.mp linked).1
  have started : Unwatched .start := ⟨fun _ member => absurd member List.not_mem_nil, by decide⟩
  constructor
  · apply run_some gap _ isIn .start
    refine .inr ?_
    rcases link.mark with mark | mark
    · exact ⟨one, List.mem_cons_self, mark⟩
    · exact ⟨next, List.mem_cons_of_mem one List.mem_cons_self, mark⟩
  · have first := joint_unwatched gap .start one link.begun (calm one List.mem_cons_self) started
      (.inl rfl)
    have whole := run_unwatched gap one (next :: rest) linked
      (fun joint member => calm joint (List.mem_cons_of_mem one member)) _ first.1 first.2
    exact (flush_unwatched _ whole).cur

end

theorem run_alike (linked : run.IsChain Linked) (settled : (sameRun run || calmRun run) = true) :
    Alike (wordsAt Joint.first run) (wordsAt Joint.second run) := by
  by_cases same : sameRun run = true
  · exact .inl (words_same run same)
  · have calm := (Bool.or_eq_true_iff.mp settled).resolve_left same
    match run, linked, calm, same with
    | [], _, _, same | [_], _, _, same => exact absurd rfl same
    | one :: next :: rest, linked, calm, _ =>
      exact .inr ⟨run_loose Joint.first one next rest linked calm,
        run_loose Joint.second one next rest linked calm⟩

end Words

end OnlyJs.Bridge.DbPolicy
