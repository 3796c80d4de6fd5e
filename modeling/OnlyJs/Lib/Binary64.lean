import OnlyJs.Lib.Decimal

/-!
# Double precision numbers

Every finite double is an integer multiple of `2 ^ -1074`, so its value is kept as
an integer: the number of these units. Rounding goes to the nearest double, ties to
the even one.
-/

namespace OnlyJs.Lib.Binary64

set_option autoImplicit false

/-- How many units make one: `2 ^ 1074`. -/
def one : Nat := (2 ^ 179) ^ 6

/-- The quotient rounded to the nearest integer, ties to even. -/
def nearest (numerator denominator : Nat) : Nat :=
  let floor := numerator / denominator
  let rest := 2 * (numerator % denominator)
  if rest < denominator then floor
  else if rest = denominator ∧ floor % 2 = 0 then floor
  else floor + 1

/-- The double next to `numerator / denominator`, in units. Up to `2 ^ 53` units the
doubles are the integers, beyond they keep 53 binary digits. -/
def round (numerator denominator : Nat) : Nat :=
  let scaled := numerator * one
  let shift := 2 ^ (Nat.log2 (scaled / denominator) - 52)
  nearest scaled (denominator * shift) * shift

/-- From here on a number is infinite. -/
def overflow : Nat := 2 ^ 1024 * one

/-- The largest finite double. -/
def largest : Nat := overflow - 2 * (2 ^ 194) ^ 5 * one

/-- The bits of a finite magnitude given in units. -/
def encode (negative : Bool) (units : Nat) : UInt64 :=
  let sign : Nat := if negative then 2 ^ 63 else 0
  if units < 2 ^ 52 then UInt64.ofNat (sign + units)
  else
    let exponent := Nat.log2 units - 52
    UInt64.ofNat (sign + (exponent + 1) * 2 ^ 52 + (units / 2 ^ exponent - 2 ^ 52))

/-- The value of a finite double in units. -/
def ofBits (bits : UInt64) : Int :=
  let n := bits.toNat
  let exponent := n / 2 ^ 52 % 2 ^ 11
  let fraction := n % 2 ^ 52
  let magnitude : Nat := if exponent = 0 then fraction else (2 ^ 52 + fraction) * 2 ^ (exponent - 1)
  if n / 2 ^ 63 = 0 then (magnitude : Int) else -(magnitude : Int)

/-- The double next to an integer, in units. -/
def ofInt (n : Int) : Int :=
  if 0 ≤ n then (round n.toNat 1 : Int) else -(round (-n).toNat 1 : Int)

/-- What a text reads as: a finite double by its bits, or infinity or not a number. -/
inductive Parsed where
  | finite (bits : UInt64)
  | nonFinite
deriving DecidableEq

/-- The leading digits as a number, how many they are, and the text after them. -/
def takeDigits (value count : Nat) : List Char → Nat × Nat × List Char
  | [] => (value, count, [])
  | char :: rest =>
    match Decimal.digit char with
    | some d => takeDigits (value * 10 + d) (count + 1) rest
    | none => (value, count, char :: rest)

/-- `decimal` is the number without its point, `places` the digits after the point. -/
def finish (negative : Bool) (decimal places : Nat) (exponent : Int) : Parsed :=
  let power := exponent - (places : Int)
  let units := if 0 ≤ power then round (decimal * 10 ^ power.toNat) 1
    else round decimal (10 ^ (-power).toNat)
  if overflow ≤ units then .nonFinite else .finite (encode negative units)

/-- The exponent part: absent, or `e` with an optional sign and at least one digit. -/
def parseExponent : List Char → Option Int
  | [] => some 0
  | mark :: rest =>
    if mark = 'e' ∨ mark = 'E' then Decimal.parseInt rest else none

/-- An unsigned decimal number with at least one digit. -/
def parseDecimal (negative : Bool) (text : List Char) : Option Parsed :=
  match takeDigits 0 0 text with
  | (whole, count, '.' :: rest) =>
    match takeDigits whole 0 rest with
    | (decimal, places, tail) =>
      if count + places = 0 then none
      else (parseExponent tail).map (finish negative decimal places)
  | (whole, count, tail) =>
    if count = 0 then none else (parseExponent tail).map (finish negative whole 0)

def lower (text : List Char) : List Char := text.map Char.toLower

/-- Reading a double the way the standard parser does: an optional sign, then a
decimal number or one of the names, in any letter case. -/
def parse (text : List Char) : Option Parsed :=
  let unsigned (negative : Bool) (rest : List Char) : Option Parsed :=
    if lower rest ∈ ["inf".toList, "infinity".toList, "nan".toList] then some .nonFinite
    else parseDecimal negative rest
  match text with
  | '-' :: rest => unsigned true rest
  | '+' :: rest => unsigned false rest
  | _ => unsigned false text

example : parse "1.5e2".toList = some (.finite 0x4062C00000000000) := by decide +kernel

example : parse "1e999".toList = some .nonFinite := by decide +kernel

theorem one_pos : 0 < one := by
  exact Nat.pow_pos (Nat.pow_pos Nat.zero_lt_two)

variable (numerator denominator : Nat)

theorem div_le_nearest :
    numerator / denominator ≤ nearest numerator denominator := by
  unfold nearest
  dsimp only
  split
  · exact Nat.le_refl _
  · split
    · exact Nat.le_refl _
    · exact Nat.le_succ _

/-- A positive integer does not round to zero. -/
theorem round_pos {n : Nat} (positive : 0 < n) : 0 < round n 1 := by
  unfold round
  dsimp only
  rw [Nat.div_one, Nat.one_mul]
  have scaled : n * one ≠ 0 := Nat.mul_ne_zero (Nat.ne_of_gt positive) (Nat.ne_of_gt one_pos)
  generalize n * one = units at scaled
  have below : 2 ^ (Nat.log2 units - 52) ≤ units := calc
    2 ^ (Nat.log2 units - 52) ≤ 2 ^ Nat.log2 units :=
      Nat.pow_le_pow_right Nat.zero_lt_two (Nat.sub_le _ _)
    _ ≤ units := Nat.log2_self_le scaled
  have quotient : 0 < units / 2 ^ (Nat.log2 units - 52) :=
    Nat.div_pos below (Nat.pow_pos Nat.zero_lt_two)
  exact Nat.mul_pos (Nat.lt_of_lt_of_le quotient (div_le_nearest _ _))
    (Nat.pow_pos Nat.zero_lt_two)

/-- Integers of different signs stay apart. -/
theorem ofInt_ne {n m : Int} (negative : n < 0) (positive : 0 < m) : ofInt n ≠ ofInt m := by
  have left : 0 < round (-n).toNat 1 := round_pos (by omega)
  rw [ofInt, ofInt]
  omega

/-- The bits of a finite double. -/
def isFinite (bits : UInt64) : Bool := bits.toNat / 2 ^ 52 % 2 ^ 11 != 2 ^ 11 - 1

theorem nearest_le :
    nearest numerator denominator ≤ numerator / denominator + 1 := by
  unfold nearest
  dsimp only
  split
  · exact Nat.le_succ _
  · split
    · exact Nat.le_succ _
    · exact Nat.le_refl _

/-- Rounding an integer does not double it. -/
theorem round_le {n : Nat} (positive : 0 < n) : round n 1 ≤ 2 * (n * one) := by
  unfold round
  dsimp only
  rw [Nat.div_one, Nat.one_mul]
  have scaled : n * one ≠ 0 := Nat.mul_ne_zero (Nat.ne_of_gt positive) (Nat.ne_of_gt one_pos)
  generalize n * one = units at scaled
  have shift : 2 ^ (Nat.log2 units - 52) ≤ units := calc
    2 ^ (Nat.log2 units - 52) ≤ 2 ^ Nat.log2 units :=
      Nat.pow_le_pow_right Nat.zero_lt_two (Nat.sub_le _ _)
    _ ≤ units := Nat.log2_self_le scaled
  generalize 2 ^ (Nat.log2 units - 52) = unit at shift
  calc
    nearest units unit * unit ≤ (units / unit + 1) * unit :=
      Nat.mul_le_mul_right _ (nearest_le _ _)
    _ = units / unit * unit + unit := by rw [Nat.add_mul, Nat.one_mul]
    _ ≤ units + units := Nat.add_le_add (Nat.div_mul_le_self _ _) shift
    _ = 2 * units := (Nat.two_mul units).symm

theorem round_lt {n k m : Nat} (positive : 0 < n) (below : n < 2 ^ k) (small : k < m) :
    round n 1 < 2 ^ m * one := by
  have doubled : 2 * n < 2 ^ (k + 1) := by
    omega
  have fits : 2 ^ (k + 1) ≤ 2 ^ m := Nat.pow_le_pow_right Nat.zero_lt_two small
  calc
    round n 1 ≤ 2 * (n * one) := round_le positive
    _ = (2 * n) * one := (Nat.mul_assoc _ _ _).symm
    _ < 2 ^ m * one := Nat.mul_lt_mul_of_pos_right (Nat.lt_of_lt_of_le doubled fits) one_pos

theorem log2_lt {units a b c : Nat} (zero : units ≠ 0) (below : units < 2 ^ a * (2 ^ b) ^ c) :
    Nat.log2 units < a + b * c := by
  rw [← Nat.pow_mul, ← Nat.pow_add] at below
  exact (Nat.log2_lt zero).mpr below

/-- Below the overflow the exponent of the bits is not the one of infinity. -/
theorem isFinite_encode {units : Nat} (below : units < overflow) :
    isFinite (encode false units) = true := by
  have small : Nat.log2 units < 1024 + 179 * 6 := by
    by_cases zero : units = 0
    · subst zero
      decide
    · unfold overflow one at below
      exact log2_lt (a := 1024) (b := 179) (c := 6) zero below
  unfold isFinite encode
  dsimp only
  rw [if_neg Bool.false_ne_true]
  split
  · rename_i subnormal
    have fits : units < 2 ^ 64 := by omega
    rw [Nat.zero_add, UInt64.toNat_ofNat', Nat.mod_eq_of_lt fits, Nat.div_eq_of_lt subnormal]
    rfl
  · rename_i normal
    have fraction : units / 2 ^ (Nat.log2 units - 52) < 2 ^ 53 := by
      apply Nat.div_lt_of_lt_mul
      rw [← Nat.pow_add]
      exact Nat.lt_of_lt_of_le Nat.lt_log2_self
        (Nat.pow_le_pow_right Nat.zero_lt_two (by omega))
    generalize units / 2 ^ (Nat.log2 units - 52) = mantissa at fraction
    generalize exponent : Nat.log2 units - 52 = power
    have fits : (power + 1) * 2 ^ 52 + (mantissa - 2 ^ 52) < 2 ^ 64 := by omega
    have field : ((power + 1) * 2 ^ 52 + (mantissa - 2 ^ 52)) / 2 ^ 52 = power + 1 := by omega
    have finite : power + 1 < 2 ^ 11 - 1 := by omega
    rw [Nat.zero_add, UInt64.toNat_ofNat', Nat.mod_eq_of_lt fits, field,
      Nat.mod_eq_of_lt (by omega), bne_iff_ne]
    exact Nat.ne_of_lt finite

theorem isFinite_round {n k : Nat} (positive : 0 < n) (below : n < 2 ^ k) (small : k < 1024) :
    isFinite (encode false (round n 1)) = true := by
  apply isFinite_encode
  unfold overflow
  generalize 1024 = limit at small
  exact round_lt positive below small

end OnlyJs.Lib.Binary64
