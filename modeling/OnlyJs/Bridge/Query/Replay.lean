import OnlyJs.Bridge.Query.Tenant
import OnlyJs.Lib.Binary64

/-!
# Parameters that can be replayed

A parameter is turned into a value of the statement builder, and what the builder has
collected is shown to the caller as JSON again. An integer beyond the safe range is shown as
a marker, so that binding what was shown binds the same integer.
-/

namespace OnlyJs.Bridge.Query

open Lib List Option

def i64Marker : String := "$oj$i64"

def u64Marker : String := "$oj$u64"

def canonicalDigits (digits : List Char) : Bool :=
  !digits.isEmpty && digits.all Char.isDigit && (digits = ['0'] || digits.head? != some '0')

def isCanonicalDecimal (text : List Char) : Bool :=
  match text with
  | '-' :: digits => if digits = ['0'] then false else canonicalDigits digits
  | digits => canonicalDigits digits

def markerStr (value : Value) (key : String) : Option String :=
  match value with
  | .object [(name, .string text)] =>
    if name = key ∧ isCanonicalDecimal text.toList = true then some text else none
  | _ => none

def markerI64 (value : Value) : Option Int := (markerStr value i64Marker).bind parseI64

def markerU64 (value : Value) : Option Nat := (markerStr value u64Marker).bind parseU64

/-- A value of the statement builder. A double is known by its bits, a single by the bits of
the double it is widened to. -/
inductive Qv where
  | bool (flag : Option Bool)
  | tinyInt (number : Option Int)
  | smallInt (number : Option Int)
  | int (number : Option Int)
  | bigInt (number : Option Int)
  | tinyUnsigned (number : Option Nat)
  | smallUnsigned (number : Option Nat)
  | unsigned (number : Option Nat)
  | bigUnsigned (number : Option Nat)
  | float (widened : Option UInt64)
  | double (bits : Option UInt64)
  | string (text : Option String)
  | other
deriving DecidableEq

def nearestDouble (number : Nat) : UInt64 := Binary64.encode false (Binary64.round number 1)

/-- `display` is the JSON text of a value. -/
def toQv (display : Value → String) (value : Value) : Qv :=
  match markerI64 value with
  | some number => .bigInt (some number)
  | none =>
    match markerU64 value with
    | some number => .bigUnsigned (some number)
    | none =>
      match value with
      | .null => .string none
      | .bool flag => .bool (some flag)
      | .int number =>
        if -(2 ^ 63) ≤ number ∧ number < 2 ^ 63 then .bigInt (some number)
        else .double (some (nearestDouble number.toNat))
      | .double bits => .double (some bits)
      | .string text => .string (some text)
      | other => .string (some (display other))

def doubleParam (bits : UInt64) : Value := if Binary64.isFinite bits then .double bits else .null

def valueToJson : Qv → Value
  | .bool (some flag) => .bool flag
  | .tinyInt (some number) => .int number
  | .smallInt (some number) => .int number
  | .int (some number) => .int number
  | .bigInt (some number) => intParam number
  | .tinyUnsigned (some number) => .int number
  | .smallUnsigned (some number) => .int number
  | .unsigned (some number) => .int number
  | .bigUnsigned (some number) => uintParam number
  | .float (some widened) => doubleParam widened
  | .double (some bits) => doubleParam bits
  | .string (some text) => .string text
  | _ => .null

mutual

def sanitizeJsNumbers : Value → Value
  | .int number =>
    if -maxSafeInt ≤ number ∧ number ≤ maxSafeInt then .int number
    else .string (toString number)
  | .array items => .array (sanitizeItems items)
  | .object fields => .object (sanitizeFields fields)
  | other => other

def sanitizeItems : List Value → List Value
  | [] => []
  | item :: items => sanitizeJsNumbers item :: sanitizeItems items

def sanitizeFields : List (String × Value) → List (String × Value)
  | [] => []
  | (name, value) :: fields => (name, sanitizeJsNumbers value) :: sanitizeFields fields

end

/-- What `toSQL` reports for a parameter. -/
def reported (display : Value → String) (value : Value) : Value :=
  sanitizeJsNumbers (valueToJson (toQv display value))

inductive SqlValue where
  | null
  | bool (flag : Bool)
  | integer (number : Int)
  | double (bits : UInt64)
  | text (text : String)
deriving DecidableEq

def Qv.denote : Qv → SqlValue
  | .bool (some flag) => .bool flag
  | .tinyInt (some number) => .integer number
  | .smallInt (some number) => .integer number
  | .int (some number) => .integer number
  | .bigInt (some number) => .integer number
  | .tinyUnsigned (some number) => .integer number
  | .smallUnsigned (some number) => .integer number
  | .unsigned (some number) => .integer number
  | .bigUnsigned (some number) => .integer number
  | .float (some widened) => .double widened
  | .double (some bits) => .double bits
  | .string (some text) => .text text
  | _ => .null

/-- A value of the builder that fits into its type and is a number if it says so. -/
inductive Qv.Fits : Qv → Prop
  | bool (flag : Option Bool) : Fits (.bool flag)
  | bigInt (number : Int) (low : -(2 ^ 63) ≤ number) (high : number < 2 ^ 63) :
      Fits (.bigInt (some number))
  | bigUnsigned (number : Nat) (high : number < 2 ^ 64) : Fits (.bigUnsigned (some number))
  | double (bits : UInt64) (finite : Binary64.isFinite bits = true) : Fits (.double (some bits))
  | string (text : Option String) : Fits (.string text)

/-- A parameter that the builder accepts, with what it stands for. An unsigned number beyond
the signed range is a double, as it is for the caller. -/
inductive Accepts : Value → SqlValue → Prop
  | null : Accepts .null .null
  | bool (flag : Bool) : Accepts (.bool flag) (.bool flag)
  | signed (number : Int) (low : -(2 ^ 63) ≤ number) (high : number < 2 ^ 63) :
      Accepts (.int number) (.integer number)
  | unsigned (number : Nat) (low : 2 ^ 63 ≤ number) (high : number < 2 ^ 64) :
      Accepts (.int number) (.double (nearestDouble number))
  | double (bits : UInt64) (finite : Binary64.isFinite bits = true) :
      Accepts (.double bits) (.double bits)
  | string (text : String) : Accepts (.string text) (.text text)
  | marked (value : Value) (number : Int) (marked : markerI64 value = some number) :
      Accepts value (.integer number)
  | markedUnsigned (value : Value) (number : Nat) (marked : markerU64 value = some number) :
      Accepts value (.integer number)

theorem digitsValue_toDigits (number : Nat) :
    digitsValue (Nat.toDigits 10 number) = some number := by
  have filled : (Nat.toDigits 10 number).isEmpty = false := by
    rw [isEmpty_eq_false_iff]
    exact Nat.toDigits_ne_nil
  have digits : (Nat.toDigits 10 number).all Char.isDigit = true :=
    all_eq_true.mpr fun _ member => Decimal.isDigit_toDigits member
  unfold digitsValue
  rw [filled, digits]
  exact congrArg some Nat.ofDigitChars_ten_toDigits

variable {number : Nat}

theorem parseU64_toString (high : number < 2 ^ 64) :
    parseU64 (toString number) = some number := by
  have value := digitsValue_toDigits number
  have first : ∀ char ∈ Nat.toDigits 10 number, char ≠ '-' ∧ char ≠ '+' := fun _ =>
    Decimal.unsigned_toDigits
  unfold parseU64
  rw [Nat.toString_eq_repr, Nat.toList_repr]
  generalize Nat.toDigits 10 number = text at value first
  split
  · exact absurd rfl (first '+' mem_cons_self).2
  · rw [value, filter_some, if_pos (decide_eq_true high)]

variable {text : String}

theorem parseI64_digits (shown : text.toList = Nat.toDigits 10 number)
    (high : (number : Int) < 2 ^ 63) :
    parseI64 text = some (number : Int) := by
  have value := digitsValue_toDigits number
  have first : ∀ char ∈ Nat.toDigits 10 number, char ≠ '-' ∧ char ≠ '+' := fun _ =>
    Decimal.unsigned_toDigits
  have fits : -(2 ^ 63) ≤ (number : Int) ∧ (number : Int) < 2 ^ 63 := ⟨by omega, high⟩
  unfold parseI64
  rw [shown]
  generalize Nat.toDigits 10 number = digits at value first
  split
  · exact absurd rfl (first '-' mem_cons_self).1
  · exact absurd rfl (first '+' mem_cons_self).2
  · rw [value]
    change (some (number : Int)).filter _ = some (number : Int)
    rw [filter_some, if_pos (decide_eq_true fits)]

theorem parseI64_minus (shown : text.toList = '-' :: Nat.toDigits 10 number)
    (low : (number : Int) ≤ 2 ^ 63) :
    parseI64 text = some (-(number : Int)) := by
  have fits : -(2 ^ 63) ≤ -(number : Int) ∧ -(number : Int) < 2 ^ 63 := by omega
  have value := digitsValue_toDigits number
  unfold parseI64
  rw [shown]
  generalize Nat.toDigits 10 number = digits at value
  change (((digitsValue digits).bind fun read => some (read : Int)).map fun read => -read).filter
    (fun read => decide (-(2 ^ 63) ≤ read ∧ read < 2 ^ 63)) = some (-(number : Int))
  rw [value, bind_some, map_some]
  rw [filter_some, if_pos (decide_eq_true fits)]

theorem parseI64_toString {number : Int} (low : -(2 ^ 63) ≤ number) (high : number < 2 ^ 63) :
    parseI64 (toString number) = some number := by
  have shown : (toString number) = if 0 ≤ number then number.toNat.repr
      else "-" ++ (-number).toNat.repr := by
    rw [Int.toString_eq_repr, Int.repr_eq_if]
  rw [shown]
  split
  · rename_i positive
    have magnitude : (number.toNat : Int) = number := Int.toNat_of_nonneg positive
    rw [parseI64_digits Nat.toList_repr (by omega), magnitude]
  · rename_i negative
    have magnitude : ((-number).toNat : Int) = -number := Int.toNat_of_nonneg (by omega)
    have text : ("-" ++ (-number).toNat.repr).toList =
        '-' :: Nat.toDigits 10 (-number).toNat := by
      rw [String.toList_append, Nat.toList_repr]
      rfl
    rw [parseI64_minus text (by omega), magnitude, Int.neg_neg]

theorem canonicalDigits_toDigits (number : Nat) :
    canonicalDigits (Nat.toDigits 10 number) = true := by
  have filled : (Nat.toDigits 10 number).isEmpty = false := by
    rw [isEmpty_eq_false_iff]
    exact Nat.toDigits_ne_nil
  have digits : (Nat.toDigits 10 number).all Char.isDigit = true :=
    all_eq_true.mpr fun _ member => Decimal.isDigit_toDigits member
  unfold canonicalDigits
  rw [filled, digits]
  cases Nat.eq_zero_or_pos number with
  | inl zero =>
    subst zero
    rfl
  | inr positive =>
    rw [bne_iff_ne.mpr (Decimal.toDigits_head positive), Bool.or_true]
    rfl

theorem isCanonicalDecimal_digits {text : List Char} (shown : text = Nat.toDigits 10 number) :
    isCanonicalDecimal text = true := by
  have canonical := canonicalDigits_toDigits number
  have first : ∀ char ∈ Nat.toDigits 10 number, char ≠ '-' ∧ char ≠ '+' := fun _ =>
    Decimal.unsigned_toDigits
  rw [← shown] at canonical first
  unfold isCanonicalDecimal
  split
  · exact absurd rfl (first '-' mem_cons_self).1
  · exact canonical

theorem isCanonicalDecimal_toString (number : Int) :
    isCanonicalDecimal (toString number).toList = true := by
  rw [Int.toString_eq_repr, Int.repr_eq_if]
  split
  · exact isCanonicalDecimal_digits Nat.toList_repr
  · have positive : 0 < (-number).toNat := by omega
    have zero : Nat.toDigits 10 (-number).toNat ≠ ['0'] := by
      intro equal
      exact Decimal.toDigits_head positive (by rw [equal, head?_cons])
    rw [String.toList_append, Nat.toList_repr]
    change (if Nat.toDigits 10 (-number).toNat = ['0'] then false
      else canonicalDigits (Nat.toDigits 10 (-number).toNat)) = true
    rw [if_neg zero, canonicalDigits_toDigits]

theorem markerStr_object (name text key : String) :
    markerStr (.object [(name, .string text)]) key =
      if name = key ∧ isCanonicalDecimal text.toList = true then some text else none := rfl

theorem markerI64_marked {number : Int} (canonical : isCanonicalDecimal text.toList = true)
    (value : parseI64 text = some number) :
    markerI64 (.object [(i64Marker, .string text)]) = some number := by
  rw [markerI64, markerStr_object, if_pos ⟨rfl, canonical⟩, bind_some, value]

theorem markerU64_marked (canonical : isCanonicalDecimal text.toList = true)
    (value : parseU64 text = some number) :
    markerU64 (.object [(u64Marker, .string text)]) = some number := by
  rw [markerU64, markerStr_object, if_pos ⟨rfl, canonical⟩, bind_some, value]

variable {value : Value}

theorem markerI64_of_markerU64 (marked : markerU64 value = some number) :
    markerI64 value = none := by
  unfold markerU64 markerStr at marked
  split at marked
  · split at marked
    · rename_i unsigned
      have apart : u64Marker ≠ i64Marker := by decide
      rw [unsigned.1, markerI64, markerStr_object, if_neg fun signed => apart signed.1,
        bind_none]
    · cases marked
  · cases marked

variable (display : Value → String)

theorem toQv_number (number : Int) :
    toQv display (.int number) =
      if -(2 ^ 63) ≤ number ∧ number < 2 ^ 63 then .bigInt (some number)
      else .double (some (nearestDouble number.toNat)) := rfl

theorem toQv_int {number : Int} (low : -(2 ^ 63) ≤ number) (high : number < 2 ^ 63) :
    toQv display (.int number) = .bigInt (some number) := by
  rw [toQv_number, if_pos ⟨low, high⟩]

theorem toQv_markedI64 {number : Int} (marked : markerI64 value = some number) :
    toQv display value = .bigInt (some number) := by
  unfold toQv
  rw [marked]

theorem toQv_markedU64 (marked : markerU64 value = some number) :
    toQv display value = .bigUnsigned (some number) := by
  unfold toQv
  rw [markerI64_of_markerU64 marked, marked]

theorem toQv_intParam {number : Int} (low : -(2 ^ 63) ≤ number) (high : number < 2 ^ 63) :
    toQv display (intParam number) = .bigInt (some number) := by
  unfold intParam
  split
  · exact toQv_int display low high
  · exact toQv_markedI64 display
      (markerI64_marked (isCanonicalDecimal_toString number) (parseI64_toString low high))

theorem denote_uintParam (high : number < 2 ^ 64) :
    (toQv display (uintParam number)).denote = .integer number := by
  have shown : (toString number).toList = Nat.toDigits 10 number := Nat.toList_repr
  unfold uintParam
  split
  · rename_i safe
    unfold maxSafeInt at safe
    rw [toQv_int display (by omega) (by omega), Qv.denote]
  · split
    · rename_i signed
      have value : parseI64 (toString number) = some (number : Int) :=
        parseI64_digits shown (by omega)
      change (toQv display (.object [(i64Marker, .string (toString number))])).denote = _
      rw [toQv_markedI64 display (markerI64_marked (isCanonicalDecimal_digits shown) value),
        Qv.denote]
    · change (toQv display (.object [(u64Marker, .string (toString number))])).denote = _
      rw [toQv_markedU64 display
        (markerU64_marked (isCanonicalDecimal_digits shown) (parseU64_toString high)), Qv.denote]

theorem sanitize_safe {number : Int} (low : -maxSafeInt ≤ number) (high : number ≤ maxSafeInt) :
    sanitizeJsNumbers (.int number) = .int number := by
  rw [sanitizeJsNumbers, if_pos ⟨low, high⟩]

theorem sanitize_marker (key text : String) :
    sanitizeJsNumbers (.object [(key, .string text)]) = .object [(key, .string text)] := by
  rw [sanitizeJsNumbers, sanitizeFields, sanitizeFields, sanitizeJsNumbers]
  all_goals simp

theorem sanitize_intParam (number : Int) :
    sanitizeJsNumbers (intParam number) = intParam number := by
  unfold intParam
  split
  · rename_i safe
    exact sanitize_safe safe.1 safe.2
  · exact sanitize_marker _ _

theorem sanitize_uintParam (number : Nat) :
    sanitizeJsNumbers (uintParam number) = uintParam number := by
  unfold uintParam
  split
  · rename_i safe
    have low : -maxSafeInt ≤ (number : Int) := by
      omega
    exact sanitize_safe low safe
  · split
    · exact sanitize_marker _ _
    · exact sanitize_marker _ _

theorem fits_replays {value : Qv} (fits : value.Fits) :
    (toQv display (valueToJson value)).denote = value.denote ∧
      sanitizeJsNumbers (valueToJson value) = valueToJson value := by
  cases fits with
  | bool flag =>
    cases flag with
    | none | some flag => exact ⟨rfl, rfl⟩
  | bigInt number low high =>
    rw [valueToJson, toQv_intParam display low high]
    exact ⟨rfl, sanitize_intParam number⟩
  | bigUnsigned number high =>
    rw [valueToJson, denote_uintParam display high]
    exact ⟨rfl, sanitize_uintParam number⟩
  | double bits finite =>
    have kept : valueToJson (.double (some bits)) = .double bits := if_pos finite
    rw [kept]
    exact ⟨rfl, rfl⟩
  | string text =>
    cases text with
    | none | some text => exact ⟨rfl, rfl⟩

theorem isFinite_nearestDouble (positive : 0 < number) (high : number < 2 ^ 64) :
    Binary64.isFinite (nearestDouble number) = true :=
  Binary64.isFinite_round positive high (by decide)

theorem accepted_fits {meaning : SqlValue} (accepted : Accepts value meaning) :
    (toQv display value).Fits ∧ (toQv display value).denote = meaning := by
  cases accepted with
  | null => exact ⟨.string none, rfl⟩
  | bool flag => exact ⟨.bool (some flag), rfl⟩
  | signed number low high =>
    rw [toQv_int display low high]
    exact ⟨.bigInt number low high, rfl⟩
  | unsigned number low high =>
    have beyond : ¬(-(2 ^ 63) ≤ (number : Int) ∧ (number : Int) < 2 ^ 63) := by omega
    rw [toQv_number, if_neg beyond]
    exact ⟨.double _ (isFinite_nearestDouble (by omega) high), rfl⟩
  | double bits finite => exact ⟨.double bits finite, rfl⟩
  | string text => exact ⟨.string (some text), rfl⟩
  | marked _ number marked =>
    have range : -(2 ^ 63) ≤ number ∧ number < 2 ^ 63 := by
      obtain ⟨text, _, read⟩ := bind_eq_some_iff.mp marked
      exact of_decide_eq_true (filter_eq_some_iff.mp read).2
    rw [toQv_markedI64 display marked]
    exact ⟨.bigInt number range.1 range.2, rfl⟩
  | markedUnsigned _ number marked =>
    have range : number < 2 ^ 64 := by
      obtain ⟨text, _, read⟩ := bind_eq_some_iff.mp marked
      exact of_decide_eq_true (filter_eq_some_iff.mp read).2
    rw [toQv_markedU64 display marked]
    exact ⟨.bigUnsigned number range, rfl⟩

/-- The parameters that are shown can be bound again: they denote the same value, and the guard
of the numbers has nothing to do. -/
theorem parameters_replayable (display : Value → String) {value : Value} {meaning : SqlValue}
    (accepted : Accepts value meaning) :
    (toQv display value).denote = meaning ∧
      (toQv display (reported display value)).denote = meaning ∧
      reported display value = valueToJson (toQv display value) := by
  obtain ⟨fits, denotes⟩ := accepted_fits display accepted
  obtain ⟨replayed, unguarded⟩ := fits_replays display fits
  have shown : reported display value = valueToJson (toQv display value) := unguarded
  refine ⟨denotes, ?_, shown⟩
  rw [shown, replayed, denotes]

theorem parameters_replayable_unsigned :
    (toQv (fun _ => "") (reported (fun _ => "")
      (.object [("$oj$u64", .string "18446744073709551615")]))).denote =
      .integer 18446744073709551615 :=
  (parameters_replayable (fun _ => "")
    (.markedUnsigned (.object [("$oj$u64", .string "18446744073709551615")])
      18446744073709551615 (by decide))).2.1

end OnlyJs.Bridge.Query
