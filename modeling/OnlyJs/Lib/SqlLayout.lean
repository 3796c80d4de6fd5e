import Mathlib.Data.List.Chain
import OnlyJs.Lib.SqlLexing

/-!
# The layout of SQL

Whitespace and comments separate tokens and mean nothing else. A text is its tokens,
each with whether layout stands in front of it; two texts with the same tokens differ
in layout alone.
-/

namespace OnlyJs.Lib.SqlLexing

open Lib.Lexing List

set_option autoImplicit false

universe u v

def isSpace (c : Char) : Bool := c = ' ' || 0x09 ≤ c.toNat && c.toNat ≤ 0x0d

def Piece.isLayout : Piece → Bool
  | line _ _ | block _ _ => true
  | other c => isSpace c
  | _ => false

def Piece.isName : Piece → Bool
  | name _ => true
  | _ => false

/-- The tokens among the pieces, each with whether layout stands in front of it; the flag
tells whether layout stands in front of the pieces. -/
@[grind =]
def spaced : Bool → List Piece → List (Bool × Piece)
  | _, [] => []
  | gap, piece :: rest =>
    if piece.isLayout then spaced true rest else (gap, piece) :: spaced false rest

/-- A scanner whose steps over layout are gaps sees a text as its spaced tokens. -/
theorem foldlM_spaced {σ : Type u} {β : Type v} (step : σ → Piece → Option σ) (gap : σ → σ)
    (finish : σ → β) (again : ∀ state, gap (gap state) = gap state)
    (ended : ∀ state, finish (gap state) = finish state)
    (layout : ∀ state piece, piece.isLayout = true → step state piece = some (gap state))
    (pieces : List Piece) (before : Bool) (state : σ) :
    (pieces.foldlM step (if before then gap state else state)).map finish =
      ((spaced before pieces).foldlM
        (fun state token => step (if token.1 then gap state else state) token.2) state).map
          finish := by
  induction pieces generalizing before state with
  | nil =>
    cases before with
    | true => exact congrArg some (ended state)
    | false => rfl
  | cons piece rest ih =>
    rw [foldlM_cons, spaced]
    by_cases isLayout : piece.isLayout = true
    · have moved : gap (if before then gap state else state) = gap state := by
        cases before with
        | true => exact again state
        | false => rfl
      rw [if_pos isLayout, layout _ piece isLayout, moved]
      exact ih true state
    · rw [if_neg isLayout, foldlM_cons]
      cases step (if before then gap state else state) piece with
      | none => rfl
      | some after => exact ih false after

theorem mem_of_mem_spaced (pieces : List Piece) (before : Bool) (token : Bool × Piece)
    (member : token ∈ spaced before pieces) : token.2 ∈ pieces ∧ token.2.isLayout = false := by
  induction pieces generalizing before with
  | nil => cases member
  | cons piece rest ih =>
    rw [spaced] at member
    split at member
    · have later := ih true member
      exact ⟨mem_cons_of_mem piece later.1, later.2⟩
    · rename_i solid
      rcases mem_cons.mp member with rfl | behind
      · exact ⟨mem_cons_self, Bool.not_eq_true _ |>.mp solid⟩
      · have later := ih false behind
        exact ⟨mem_cons_of_mem piece later.1, later.2⟩

theorem spaced_head (pieces : List Piece) (token : Bool × Piece)
    (head : token ∈ (spaced true pieces).head?) : token.1 = true := by
  induction pieces with
  | nil => cases head
  | cons piece rest ih =>
    rw [spaced] at head
    split at head
    · exact ih head
    · cases head
      rfl

/-- In a dialect that gives every character a meaning, every text has pieces. -/
theorem pieces_ok (dialect : Dialect) (known : ∀ c, dialect.foreign c = false)
    (text : List Char) : ∃ pieces, (sqlLexer dialect).pieces text = .ok pieces := by
  have reads : ∀ c rest, ∃ piece, next dialect c rest = .ok piece := by
    intro c rest
    unfold next
    simp only [known c, Bool.false_eq_true, if_false]
    split_ifs <;> exact ⟨_, rfl⟩
  have scans : ∀ text skip before, ∃ pieces,
      (sqlLexer dialect).scan skip before text = .ok pieces := by
    intro text
    induction text with
    | nil =>
      intro skip before
      exact ⟨[], by rw [Lexer.scan]⟩
    | cons c rest ih =>
      intro skip before
      cases skip with
      | succ skip =>
        exact ih skip (c :: before)
      | zero =>
        obtain ⟨piece, read⟩ := reads c rest
        have read : (sqlLexer dialect).next before c rest = .ok piece := read
        obtain ⟨pieces, scanned⟩ := ih (((sqlLexer dialect).source piece).length - 1) (c :: before)
        exact ⟨piece :: pieces, by simp only [Lexer.scan, read, scanned]⟩
  exact scans text 0 []

section Names

theorem name_begins {dialect : Dialect} {c : Char} {rest : List Char} {piece : Piece}
    {left : List Char} (reading : Reading dialect c rest piece left)
    (isName : piece.isName = true) : isNameChar c = true := by
  cases reading with
  | name c rest begins => exact begins
  | literal | quoted | bracket | line | hash | live | block | other => cases isName

theorem name_ends {dialect : Dialect} {c : Char} {rest : List Char} {piece : Piece}
    {left : List Char} (reading : Reading dialect c rest piece left)
    (isName : piece.isName = true) (d : Char) (behind : left.head? = some d) :
    isNameChar d = false := by
  cases reading with
  | name c rest begins =>
    have stops := head?_dropWhile_not isNameChar rest
    rw [behind] at stops
    exact stops
  | literal | quoted | bracket | line | hash | live | block | other => cases isName

/-- A name is as long as can be: no name follows it directly. -/
theorem names_apart (dialect : Dialect) (before text : List Char) (pieces : List Piece)
    (lexes : (sqlLexer dialect).Lexes before text pieces) :
    pieces.IsChain fun first second => ¬(first.isName = true ∧ second.isName = true) := by
  induction lexes with
  | nil before => exact .nil
  | cons before c more left piece pieces read source later ih =>
    rw [isChain_cons]
    refine ⟨fun second behind both => ?_, ih⟩
    have reading := reading_of_read dialect c more left piece read source
    cases later with
    | nil => cases behind
    | cons _ d more' left' other others read' source' later' =>
      cases behind
      have next := reading_of_read dialect d more' left' second read' source'
      have ends := name_ends reading both.1 d rfl
      rw [name_begins next both.2] at ends
      cases ends

/-- Two names with nothing between them have layout between them. -/
theorem spaced_names (pieces : List Piece)
    (apart : pieces.IsChain fun first second => ¬(first.isName = true ∧ second.isName = true))
    (before : Bool) :
    (spaced before pieces).IsChain fun first second =>
      first.2.isName = true → second.2.isName = true → second.1 = true := by
  induction pieces generalizing before with
  | nil => exact .nil
  | cons piece rest ih =>
    rw [isChain_cons] at apart
    rw [spaced]
    split
    · exact ih apart.2 true
    · rw [isChain_cons]
      refine ⟨fun second behind isName follows => ?_, ih apart.2 false⟩
      cases rest with
      | nil => cases behind
      | cons next rest =>
        rw [spaced] at behind
        split at behind
        · exact spaced_head rest second behind
        · cases behind
          exact absurd ⟨isName, follows⟩ (apart.1 next rfl)

end Names

section Splitting

variable {α : Type u}

variable (cuts : α → Bool) (all : List α)

/-- The first part of a list that is cut is a prefix, the others lie inside it. -/
theorem splitOnP_parts :
    ∃ first others, all.splitOnP cuts = first :: others ∧ first <+: all ∧
      ∀ part ∈ others, part <:+: all := by
  induction all with
  | nil => exact ⟨[], [], splitOnP_nil, nil_prefix, fun _ member => by cases member⟩
  | cons a all ih =>
    obtain ⟨first, others, split, begins, inside⟩ := ih
    rw [splitOnP_cons_eq_if_modifyHead, split]
    by_cases cut : cuts a = true
    · refine ⟨[], first :: others, if_pos cut, nil_prefix, fun part member => ?_⟩
      apply infix_cons
      rcases mem_cons.mp member with rfl | later
      · exact begins.isInfix
      · exact inside part later
    · refine ⟨a :: first, others, if_neg cut, ?_, fun part member => ?_⟩
      · exact prefix_cons_inj a |>.mpr begins
      · exact infix_cons (inside part member)

theorem infix_of_mem_splitOnP (part : List α) (member : part ∈ all.splitOnP cuts) :
    part <:+: all := by
  obtain ⟨first, others, split, begins, inside⟩ := splitOnP_parts cuts all
  rw [split] at member
  rcases mem_cons.mp member with rfl | later
  · exact begins.isInfix
  · exact inside part later

theorem uncut_of_mem_splitOnP (part : List α) (member : part ∈ all.splitOnP cuts) (a : α)
    (inside : a ∈ part) : cuts a = false := by
  induction all generalizing part with
  | nil =>
    rw [splitOnP_nil, mem_singleton] at member
    rw [member] at inside
    cases inside
  | cons b all ih =>
    rw [splitOnP_cons_eq_if_modifyHead] at member
    by_cases cut : cuts b = true
    · rw [if_pos cut] at member
      rcases mem_cons.mp member with rfl | later
      · cases inside
      · exact ih part later inside
    · rw [if_neg cut] at member
      obtain ⟨first, others, split, -, -⟩ := splitOnP_parts cuts all
      rw [split] at member
      rcases mem_cons.mp member with rfl | later
      · rcases mem_cons.mp inside with rfl | within
        · exact Bool.not_eq_true _ |>.mp cut
        · exact ih first (by rw [split]; exact mem_cons_self) within
      · exact ih part (by rw [split]; exact mem_cons_of_mem first later) inside

theorem chain_and {R S : α → α → Prop} {all : List α} (one : all.IsChain R)
    (other : all.IsChain S) : all.IsChain fun a b => R a b ∧ S a b := by
  induction all with
  | nil => exact .nil
  | cons a all ih =>
    rw [isChain_cons] at one other ⊢
    exact ⟨fun b head => ⟨one.1 b head, other.1 b head⟩, ih one.2 other.2⟩

end Splitting

end OnlyJs.Lib.SqlLexing
