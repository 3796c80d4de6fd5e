import Mathlib.Algebra.Order.Ring.Int
import Mathlib.Data.List.Basic

/-!
# Lexing piece by piece

A lexer reads one piece at the front of the text, given what stands before it,
and goes on behind the piece. That a piece is a prefix of the text it is read
from is part of the lexer. The scan visits each character once, and skips those
of the piece it has just read.
-/

namespace OnlyJs.Lib.Lexing

open List

set_option autoImplicit false

universe u v

variable {Piece : Type u} {Error : Type v}

/-- `next before c rest` reads the piece that begins with `c`; `before` lists the
characters in front of it, the nearest first. -/
structure Lexer (Piece : Type u) (Error : Type v) where
  next : List Char → Char → List Char → Except Error Piece
  source : Piece → List Char
  reads : ∀ before c rest piece, next before c rest = .ok piece →
    ∃ more left, source piece = c :: more ∧ rest = more ++ left

/-- The pieces behind the first `skip` characters. -/
def Lexer.scan (lexer : Lexer Piece Error) :
    Nat → List Char → List Char → Except Error (List Piece)
  | _, _, [] => .ok []
  | skip + 1, before, c :: rest => lexer.scan skip (c :: before) rest
  | 0, before, c :: rest =>
    match lexer.next before c rest with
    | .error error => .error error
    | .ok piece =>
      match lexer.scan ((lexer.source piece).length - 1) (c :: before) rest with
      | .error error => .error error
      | .ok pieces => .ok (piece :: pieces)

def Lexer.pieces (lexer : Lexer Piece Error) (text : List Char) : Except Error (List Piece) :=
  lexer.scan 0 [] text

/-- `Lexes before text pieces`: behind `before`, the text is read as these pieces. -/
inductive Lexer.Lexes (lexer : Lexer Piece Error) :
    List Char → List Char → List Piece → Prop where
  | nil (before : List Char) : lexer.Lexes before [] []
  | cons (before : List Char) (c : Char) (more left : List Char) (piece : Piece)
      (pieces : List Piece) (read : lexer.next before c (more ++ left) = .ok piece)
      (source : lexer.source piece = c :: more)
      (later : lexer.Lexes (more.reverse ++ c :: before) left pieces) :
      lexer.Lexes before (c :: (more ++ left)) (piece :: pieces)

variable (lexer : Lexer Piece Error)

def Lexer.text (pieces : List Piece) : List Char := pieces.flatMap lexer.source

@[simp] theorem text_nil : lexer.text [] = [] := rfl

@[simp] theorem text_cons (piece : Piece) (pieces : List Piece) :
    lexer.text (piece :: pieces) = lexer.source piece ++ lexer.text pieces :=
  flatMap_cons

@[simp] theorem text_append (first second : List Piece) :
    lexer.text (first ++ second) = lexer.text first ++ lexer.text second :=
  flatMap_append

theorem scan_skip (skipped left before : List Char) :
    lexer.scan skipped.length before (skipped ++ left) =
      lexer.scan 0 (skipped.reverse ++ before) left := by
  induction skipped generalizing before with
  | nil => rfl
  | cons c skipped ih =>
    rw [length_cons, cons_append, Lexer.scan, ih, reverse_cons,
      append_assoc, singleton_append]

variable (before text : List Char) (pieces : List Piece)

theorem lexes_of_scan (scanned : lexer.scan 0 before text = .ok pieces) :
    lexer.Lexes before text pieces := by
  induction size : text.length using Nat.strongRecOn generalizing before text pieces with
  | ind size ih =>
    cases text with
    | nil =>
      cases scanned
      exact .nil before
    | cons c rest =>
      rw [Lexer.scan] at scanned
      cases read : lexer.next before c rest with
      | error error =>
        rw [read] at scanned
        cases scanned
      | ok piece =>
        obtain ⟨more, left, source, split⟩ := lexer.reads before c rest piece read
        subst split
        have skip : (lexer.source piece).length - 1 = more.length := by
          rw [source, length_cons, Nat.add_sub_cancel]
        simp only [read, skip, scan_skip] at scanned
        cases later : lexer.scan 0 (more.reverse ++ c :: before) left with
        | error error =>
          rw [later] at scanned
          cases scanned
        | ok others =>
          rw [later] at scanned
          cases scanned
          refine .cons before c more left piece others read source ?_
          apply ih left.length ?_ _ _ _ later rfl
          rw [← size, length_cons, length_append]
          omega

theorem scan_of_lexes (lexes : lexer.Lexes before text pieces) :
    lexer.scan 0 before text = .ok pieces := by
  induction lexes with
  | nil before => rfl
  | cons before c more left piece pieces read source later ih =>
    have skip : (lexer.source piece).length - 1 = more.length := by
      rw [source, length_cons, Nat.add_sub_cancel]
    rw [Lexer.scan]
    simp only [read, skip, scan_skip, ih]

theorem pieces_iff :
    lexer.pieces text = .ok pieces ↔ lexer.Lexes [] text pieces :=
  ⟨lexes_of_scan lexer [] text pieces, scan_of_lexes lexer [] text pieces⟩

/-- The pieces cover the text. -/
theorem text_of_lexes (lexes : lexer.Lexes before text pieces) : lexer.text pieces = text := by
  induction lexes with
  | nil before => rfl
  | cons before c more left piece pieces read source later ih =>
    rw [text_cons, source, ih, cons_append]

/-- The pieces behind a part of the text are read behind it. -/
theorem lexes_append (first second : List Piece)
    (lexes : lexer.Lexes before text (first ++ second)) :
    lexer.Lexes ((lexer.text first).reverse ++ before) (lexer.text second) second := by
  induction first generalizing before text with
  | nil =>
    rw [text_of_lexes lexer before text second lexes]
    exact lexes
  | cons piece first ih =>
    cases lexes with
    | cons before c more left piece pieces read source later =>
      have rest := ih _ _ later
      rw [text_cons, source, reverse_append, reverse_cons, append_assoc,
        append_assoc]
      exact rest

end OnlyJs.Lib.Lexing
