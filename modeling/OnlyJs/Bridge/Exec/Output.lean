import Mathlib.Algebra.Order.Ring.Int

/-!
# The output of a child process

A child writes to two pipes. What it has written, what is still unread and whether its end is
open is kept for each of them; the reader takes at most a buffer at a time and counts the
bytes of both against one limit.
-/

namespace OnlyJs.Bridge.Exec

abbrev Bytes := List UInt8

def outputLimit : Nat := 10 * 1024 * 1024

def bufferSize : Nat := 8192

inductive Output where
  | stdout
  | stderr
  deriving DecidableEq

inductive Status where
  | exited (code : Int)
  | signalled (signal : Nat)
  | lost (error : String)

def Status.exitCode : Status → Int
  | .exited code => code
  | .signalled signal => 128 + signal
  | .lost _ => -1

structure Pipe where
  unread : Bytes
  /-- Everything that was ever written. -/
  written : Bytes
  writable : Bool

def Pipe.empty : Pipe where
  unread := []
  written := []
  writable := true

def Pipe.write (pipe : Pipe) (bytes : Bytes) : Pipe :=
  { pipe with unread := pipe.unread ++ bytes, written := pipe.written ++ bytes }

def Pipe.close (pipe : Pipe) : Pipe := { pipe with writable := false }

/-- What is left after a read of `n` bytes. -/
def Pipe.drop (pipe : Pipe) (n : Nat) : Pipe := { pipe with unread := pipe.unread.drop n }

/-- A read can return `n` bytes. -/
def Pipe.offers (pipe : Pipe) (n : Nat) : Bool :=
  0 < n && n ≤ bufferSize && n ≤ pipe.unread.length

def Pipe.atEnd (pipe : Pipe) : Bool := pipe.unread.isEmpty && !pipe.writable

theorem offers_iff (pipe : Pipe) (n : Nat) :
    pipe.offers n = true ↔ 0 < n ∧ n ≤ bufferSize ∧ n ≤ pipe.unread.length := by
  simp only [Pipe.offers, Bool.and_eq_true, decide_eq_true_eq, and_assoc]

theorem at_end_iff (pipe : Pipe) :
    pipe.atEnd = true ↔ pipe.unread = [] ∧ pipe.writable = false := by
  simp only [Pipe.atEnd, Bool.and_eq_true, List.isEmpty_iff, Bool.not_eq_true']

section Both

variable {α : Type}

def both (size : α → Nat) (streams : Output → α) : Nat :=
  size (streams .stdout) + size (streams .stderr)

variable (size : α → Nat) (streams : Output → α) (out : Output)

theorem both_update (stream : α) :
    both size (Function.update streams out stream) + size (streams out) =
      both size streams + size stream := by
  unfold both
  cases out with
  | stdout =>
    have other : Output.stderr ≠ Output.stdout := by decide
    simp only [Function.update_self, Function.update_of_ne other]
    omega
  | stderr =>
    have other : Output.stdout ≠ Output.stderr := by decide
    simp only [Function.update_self, Function.update_of_ne other]
    omega

theorem both_same {stream : α} (same : size stream = size (streams out)) :
    both size (Function.update streams out stream) = both size streams := by
  have sum := both_update size streams out stream
  omega

theorem both_congr {size : α → Nat} {streams others : Output → α}
    (same : ∀ out, size (streams out) = size (others out)) :
    both size streams = both size others := by
  simp only [both, same]

end Both

end OnlyJs.Bridge.Exec
