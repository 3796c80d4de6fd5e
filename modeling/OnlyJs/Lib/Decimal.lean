import Mathlib.Algebra.Order.Ring.Int

/-!
# Decimal integers

Reading an integer the way the standard parsers of fixed-width integers do: an
optional sign, at least one digit, nothing else, and the value in range.
-/

namespace OnlyJs.Lib.Decimal

open List Option

set_option autoImplicit false

def digit (char : Char) : Option Nat :=
  if '0' ≤ char ∧ char ≤ '9' then some (char.toNat - '0'.toNat) else none

def digits (value : Nat) : List Char → Option Nat
  | [] => some value
  | char :: rest => (digit char).bind fun d => digits (value * 10 + d) rest

def parseNat : List Char → Option Nat
  | [] => none
  | char :: rest => digits 0 (char :: rest)

def parseInt : List Char → Option Int
  | '-' :: rest => (parseNat rest).map fun n => -(n : Int)
  | '+' :: rest => (parseNat rest).map Int.ofNat
  | text => (parseNat text).map Int.ofNat

def parseInt64 (text : List Char) : Option Int :=
  (parseInt text).filter fun n => -(2 : Int) ^ 63 ≤ n ∧ n < (2 : Int) ^ 63

variable {number : Nat} {text : List Char}

theorem digits_digit {value : Nat} (read : digits value text = some number) :
    ∀ char ∈ text, '0' ≤ char ∧ char ≤ '9' := by
  induction text generalizing value with
  | nil =>
    intro char member
    cases member
  | cons head rest ih =>
    rw [digits, digit] at read
    split at read
    · rename_i digit
      intro char member
      rcases mem_cons.mp member with rfl | member
      · exact digit
      · exact ih read char member
    · cases read

theorem parse_nat_digit (read : parseNat text = some number) :
    text ≠ [] ∧ ∀ char ∈ text, '0' ≤ char ∧ char ≤ '9' := by
  cases text with
  | nil => cases read
  | cons char rest => exact ⟨cons_ne_nil _ _, digits_digit read⟩

theorem digits_of_isDigit {value : Nat} (all : ∀ char ∈ text, char.isDigit = true) :
    digits value text = some (Nat.ofDigitChars 10 text value) := by
  induction text generalizing value with
  | nil => rfl
  | cons char rest ih =>
    have head := all char mem_cons_self
    rw [Char.isDigit, Bool.and_eq_true, decide_eq_true_iff, decide_eq_true_iff] at head
    have inside : '0' ≤ char ∧ char ≤ '9' := head
    rw [digits, digit, if_pos inside, Nat.ofDigitChars_cons,
      Nat.mul_comm 10 value]
    exact ih fun other member => all other (mem_cons_of_mem _ member)

theorem isDigit_toDigits {char : Char} (member : char ∈ Nat.toDigits 10 number) :
    char.isDigit = true :=
  Nat.isDigit_of_mem_toDigits (by decide) (by decide) member

theorem parse_nat_toDigits (number : Nat) : parseNat (Nat.toDigits 10 number) = some number := by
  have read : digits 0 (Nat.toDigits 10 number) = some number := by
    rw [digits_of_isDigit fun _ member => isDigit_toDigits member, Nat.ofDigitChars_ten_toDigits]
  cases shown : Nat.toDigits 10 number with
  | nil => exact absurd shown Nat.toDigits_ne_nil
  | cons char rest => rw [parseNat, ← shown, read]

theorem unsigned_toDigits {char : Char} (member : char ∈ Nat.toDigits 10 number) :
    char ≠ '-' ∧ char ≠ '+' := by
  have digit := isDigit_toDigits member
  apply And.intro
  · rintro rfl
    cases digit
  · rintro rfl
    cases digit

/-- No positive number is written with a zero in front. -/
theorem toDigits_head (positive : 0 < number) :
    (Nat.toDigits 10 number).head? ≠ some '0' := by
  induction number using Nat.strongRecOn with
  | ind number ih =>
    by_cases small : number < 10
    · rw [Nat.toDigits_of_lt_base small]
      intro equal
      have zero := Nat.digitChar_eq_zero.mp (Option.some.inj equal)
      omega
    · rw [Nat.toDigits_of_base_le (by decide) (by omega), head?_append,
        head?_eq_some_head Nat.toDigits_ne_nil, some_or,
        ← head?_eq_some_head]
      exact ih (number / 10) (by omega) (by omega)

theorem parse_int_toDigits (number : Nat) :
    parseInt (Nat.toDigits 10 number) = some (number : Int) := by
  have read := parse_nat_toDigits number
  have first : ∀ char ∈ Nat.toDigits 10 number, char ≠ '-' ∧ char ≠ '+' := fun _ =>
    unsigned_toDigits
  generalize Nat.toDigits 10 number = text at read first
  unfold parseInt
  split
  · exact absurd rfl (first '-' mem_cons_self).1
  · exact absurd rfl (first '+' mem_cons_self).2
  · rw [read]
    rfl

/-- The standard decimal form of a number is read back as that number. -/
theorem parse_int_toString (number : Int) : parseInt (toString number).toList = some number := by
  rw [Int.toString_eq_repr, Int.repr_eq_if]
  split
  · rename_i positive
    rw [Nat.toList_repr, parse_int_toDigits, Int.toNat_of_nonneg positive]
  · rename_i negative
    rw [String.toList_append, Nat.toList_repr]
    have magnitude : ((-number).toNat : Int) = -number := Int.toNat_of_nonneg (by omega)
    change ((parseNat (Nat.toDigits 10 (-number).toNat)).bind fun n : Nat => some (n : Int)).map
      (fun n => -n) = some number
    rw [parse_nat_toDigits, bind_some, map_some, magnitude, Int.neg_neg]

theorem parse_int64_toString {number : Int} (low : -(2 : Int) ^ 63 ≤ number)
    (high : number < (2 : Int) ^ 63) : parseInt64 (toString number).toList = some number := by
  rw [parseInt64, parse_int_toString, filter_some, if_pos (decide_eq_true ⟨low, high⟩)]

end OnlyJs.Lib.Decimal
