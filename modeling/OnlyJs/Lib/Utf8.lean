import Mathlib.Algebra.Order.Ring.Int
import Mathlib.Data.List.Basic

/-!
# UTF-8

Encoding of characters, and the decoding that puts one replacement character in
the place of each maximal ill-formed sequence. Decoding undoes encoding, and the
ASCII characters of the result are those among the bytes.
-/

namespace OnlyJs.Lib.Utf8

open List

set_option autoImplicit false

def byte (n : Nat) : UInt8 := UInt8.ofNat n

def encodeChar (char : Char) : List UInt8 :=
  let n := char.toNat
  if n < 0x80 then [byte n]
  else if n < 0x800 then [byte (0xC0 + n / 64), byte (0x80 + n % 64)]
  else if n < 0x10000 then
    [byte (0xE0 + n / 4096), byte (0x80 + n / 64 % 64), byte (0x80 + n % 64)]
  else
    [byte (0xF0 + n / 262144), byte (0x80 + n / 4096 % 64), byte (0x80 + n / 64 % 64),
      byte (0x80 + n % 64)]

def encode (text : List Char) : List UInt8 := text.flatMap encodeChar

def replacement : Char := '\ufffd'

/-- An unfinished sequence: its bits so far, the bytes it still needs, and the
range of the next one. -/
structure Pending where
  value : Nat
  left : Nat
  low : Nat
  high : Nat
deriving DecidableEq

/-- The first byte of a sequence: a character by itself, or an unfinished one. -/
def lead (b : UInt8) : Char ⊕ Pending :=
  let n := b.toNat
  if n < 0x80 then .inl (Char.ofNat n)
  else if n < 0xC2 then .inl replacement
  else if n < 0xE0 then .inr ⟨n - 0xC0, 1, 0x80, 0xBF⟩
  else if n = 0xE0 then .inr ⟨0, 2, 0xA0, 0xBF⟩
  else if n = 0xED then .inr ⟨0xD, 2, 0x80, 0x9F⟩
  else if n < 0xF0 then .inr ⟨n - 0xE0, 2, 0x80, 0xBF⟩
  else if n = 0xF0 then .inr ⟨0, 3, 0x90, 0xBF⟩
  else if n < 0xF4 then .inr ⟨n - 0xF0, 3, 0x80, 0xBF⟩
  else if n = 0xF4 then .inr ⟨4, 3, 0x80, 0x8F⟩
  else .inl replacement

/-- A byte that does not continue the unfinished sequence starts the next one. -/
@[grind =]
def decodeFrom : Option Pending → List UInt8 → List Char
  | none, [] => []
  | none, b :: rest =>
    match lead b with
    | .inl char => char :: decodeFrom none rest
    | .inr pending => decodeFrom (some pending) rest
  | some _, [] => [replacement]
  | some pending, b :: rest =>
    if pending.low ≤ b.toNat ∧ b.toNat ≤ pending.high then
      if pending.left = 1 then
        Char.ofNat (pending.value * 64 + b.toNat % 64) :: decodeFrom none rest
      else
        decodeFrom
          (some ⟨pending.value * 64 + b.toNat % 64, pending.left - 1, 0x80, 0xBF⟩) rest
    else
      replacement ::
        match lead b with
        | .inl char => char :: decodeFrom none rest
        | .inr next => decodeFrom (some next) rest

def decodeLossy (bytes : List UInt8) : List Char := decodeFrom none bytes

theorem encode_append (first second : List Char) :
    encode (first ++ second) = encode first ++ encode second := flatMap_append

theorem toNat_byte {n : Nat} (small : n < 256) : (byte n).toNat = n := by
  exact Nat.mod_eq_of_lt small

theorem char_range (char : Char) :
    char.toNat < 0xD800 ∨ 0xDFFF < char.toNat ∧ char.toNat < 0x110000 := char.valid

section Decoding

theorem lead_two {q : Nat} (least : 2 ≤ q) (most : q < 32) :
    lead (byte (0xC0 + q)) = .inr ⟨q, 1, 0x80, 0xBF⟩ := by
  simp only [lead, toNat_byte (n := 0xC0 + q) (by omega)]
  rw [if_neg (by omega), if_neg (by omega), if_pos (by omega), Nat.add_sub_cancel_left]

theorem lead_three {q : Nat} (most : q < 16) :
    lead (byte (0xE0 + q)) =
      .inr ⟨q, 2, if q = 0 then 0xA0 else 0x80, if q = 0xD then 0x9F else 0xBF⟩ := by
  simp only [lead, toNat_byte (n := 0xE0 + q) (by omega)]
  rw [if_neg (by omega), if_neg (by omega), if_neg (by omega)]
  by_cases first : q = 0
  · rw [first]
    rfl
  · rw [if_neg (by omega)]
    by_cases surrogates : q = 0xD
    · rw [surrogates]
      rfl
    · rw [if_neg (by omega), if_pos (by omega), if_neg first, if_neg surrogates,
        Nat.add_sub_cancel_left]

theorem lead_four {q : Nat} (most : q ≤ 4) :
    lead (byte (0xF0 + q)) =
      .inr ⟨q, 3, if q = 0 then 0x90 else 0x80, if q = 4 then 0x8F else 0xBF⟩ := by
  have cases : q = 0 ∨ q = 1 ∨ q = 2 ∨ q = 3 ∨ q = 4 := by omega
  rcases cases with rfl | rfl | rfl | rfl | rfl <;> decide

/-- A byte in the range of an unfinished sequence contributes its six bits. -/
theorem decode_more (value left low high : Nat) {r : Nat} (small : r < 64) (rest : List UInt8)
    (above : low ≤ 0x80 + r) (below : 0x80 + r ≤ high) :
    decodeFrom (some ⟨value, left + 2, low, high⟩) (byte (0x80 + r) :: rest) =
      decodeFrom (some ⟨value * 64 + r, left + 1, 0x80, 0xBF⟩) rest := by
  have bits : (0x80 + r) % 64 = r := by omega
  rw [decodeFrom, toNat_byte (n := 0x80 + r) (by omega), if_pos ⟨above, below⟩, bits]
  rfl

theorem decode_last (value low high : Nat) {r : Nat} (small : r < 64) (rest : List UInt8)
    (above : low ≤ 0x80 + r) (below : 0x80 + r ≤ high) :
    decodeFrom (some ⟨value, 1, low, high⟩) (byte (0x80 + r) :: rest) =
      Char.ofNat (value * 64 + r) :: decodeFrom none rest := by
  have bits : (0x80 + r) % 64 = r := by omega
  rw [decodeFrom, toNat_byte (n := 0x80 + r) (by omega), if_pos ⟨above, below⟩, bits]
  rw [if_pos rfl]

theorem decode_lead {b : UInt8} {pending : Pending} (unfinished : lead b = .inr pending)
    (rest : List UInt8) : decodeFrom none (b :: rest) = decodeFrom (some pending) rest := by
  rw [decodeFrom, unfinished]

theorem decode_encodeChar (char : Char) (rest : List UInt8) :
    decodeFrom none (encodeChar char ++ rest) = char :: decodeFrom none rest := by
  have range := char_range char
  have restored : Char.ofNat char.toNat = char := Char.ofNat_toNat char
  generalize value : char.toNat = n at range restored
  simp only [encodeChar, value]
  split
  · rename_i one
    simp only [cons_append, nil_append, decodeFrom, lead, toNat_byte (n := n) (by omega),
      if_pos one, restored]
  · split
    · have joined : n / 64 * 64 + n % 64 = n := by omega
      simp only [cons_append, nil_append]
      rw [decode_lead (lead_two (by omega) (by omega)),
        decode_last _ _ _ (by omega) _ (by omega) (by omega), joined, restored]
    · split
      · have joined : (n / 4096 * 64 + n / 64 % 64) * 64 + n % 64 = n := by omega
        simp only [cons_append, nil_append]
        rw [decode_lead (lead_three (by omega)),
          decode_more _ 0 _ _ (by omega) _ (by split <;> omega) (by split <;> omega),
          decode_last _ _ _ (by omega) _ (by omega) (by omega), joined, restored]
      · have joined :
            ((n / 262144 * 64 + n / 4096 % 64) * 64 + n / 64 % 64) * 64 + n % 64 = n := by omega
        simp only [cons_append, nil_append]
        rw [decode_lead (lead_four (by omega)),
          decode_more _ 1 _ _ (by omega) _ (by split <;> omega) (by split <;> omega),
          decode_more _ 0 _ _ (by omega) _ (by omega) (by omega),
          decode_last _ _ _ (by omega) _ (by omega) (by omega), joined, restored]

theorem decode_encode (text : List Char) : decodeLossy (encode text) = text := by
  induction text with
  | nil => rfl
  | cons char rest ih =>
    rw [encode, flatMap_cons, decodeLossy, decode_encodeChar]
    exact congrArg (char :: ·) ih

end Decoding

section Ascii

/-- Whatever completes the sequence, it becomes a character that is not ASCII. -/
inductive Pending.Sound : Pending → Prop where
  | last {value low high : Nat} (lowest : 0x80 ≤ low) (highest : high ≤ 0xBF)
      (valid : ∀ r, low ≤ 0x80 + r → 0x80 + r ≤ high →
        0x80 ≤ value * 64 + r ∧ (value * 64 + r).isValidChar) :
      Pending.Sound ⟨value, 1, low, high⟩
  | more {value left low high : Nat} (lowest : 0x80 ≤ low) (highest : high ≤ 0xBF)
      (valid : ∀ r, low ≤ 0x80 + r → 0x80 + r ≤ high →
        Pending.Sound ⟨value * 64 + r, left + 1, 0x80, 0xBF⟩) :
      Pending.Sound ⟨value, left + 2, low, high⟩

variable {value : Nat}

section

variable {low high : Nat} (lowest : 0x80 ≤ low) (highest : high ≤ 0xBF)
include lowest highest

theorem sound_two (long : 0x80 ≤ value * 64 + (low - 0x80))
    (plain : value * 64 + (high - 0x80) < 0xD800 ∨ 0xDFFF < value * 64 + (low - 0x80) ∧
      value * 64 + (high - 0x80) < 0x110000) :
    Pending.Sound ⟨value, 1, low, high⟩ :=
  .last lowest highest fun r above below => ⟨by omega, by unfold Nat.isValidChar; omega⟩

theorem sound_three (long : 0x80 ≤ (value * 64 + (low - 0x80)) * 64)
    (plain : (value * 64 + (high - 0x80)) * 64 + 63 < 0xD800 ∨
      0xDFFF < (value * 64 + (low - 0x80)) * 64 ∧
      (value * 64 + (high - 0x80)) * 64 + 63 < 0x110000) :
    Pending.Sound ⟨value, 2, low, high⟩ :=
  .more lowest highest fun r above below =>
    sound_two (by omega) (by omega) (by omega) (by omega)

theorem sound_four (long : 0xDFFF < (value * 64 + (low - 0x80)) * 4096)
    (plain : (value * 64 + (high - 0x80)) * 4096 + 4095 < 0x110000) :
    Pending.Sound ⟨value, 3, low, high⟩ :=
  .more lowest highest fun r above below =>
    sound_three (by omega) (by omega) (by omega) (by omega)

end

theorem lead_sound {b : UInt8} {pending : Pending} (unfinished : lead b = .inr pending) :
    pending.Sound := by
  simp only [lead] at unfinished
  repeat' split at unfinished
  all_goals first
    | exact absurd unfinished Sum.inl_ne_inr
    | rw [← Sum.inr.inj unfinished]
  · exact sound_two (by omega) (by omega) (by omega) (by omega)
  · exact sound_three (by omega) (by omega) (by omega) (by omega)
  · exact sound_three (by omega) (by omega) (by omega) (by omega)
  · exact sound_three (by omega) (by omega) (by omega) (by omega)
  · exact sound_four (by omega) (by omega) (by omega) (by omega)
  · exact sound_four (by omega) (by omega) (by omega) (by omega)
  · exact sound_four (by omega) (by omega) (by omega) (by omega)

theorem toNat_ofNat {n : Nat} (valid : n.isValidChar) : (Char.ofNat n).toNat = n := by
  rw [Char.ofNat, dif_pos valid]
  rfl

variable {char : Char}

theorem lead_ascii {b : UInt8} (single : lead b = .inl char) (ascii : char.toNat < 0x80) :
    byte char.toNat = b := by
  simp only [lead] at single
  split at single
  · rename_i small
    rw [← Sum.inl.inj single, toNat_ofNat (.inl (by omega)), byte, UInt8.ofNat_toNat]
  · repeat' split at single
    all_goals first
      | exact absurd single Sum.inr_ne_inl
      | rw [← Sum.inl.inj single] at ascii
        exact absurd ascii (by decide)

theorem lead_of_ascii (ascii : char.toNat < 0x80) :
    lead (byte char.toNat) = .inl char := by
  simp only [lead, toNat_byte (n := char.toNat) (by omega), if_pos ascii, Char.ofNat_toNat]

theorem ascii_ne_replacement (ascii : char.toNat < 0x80) : replacement ≠ char := by
  intro same
  rw [← same] at ascii
  exact absurd ascii (by decide)

theorem ascii_ne_of_high {b : UInt8} (ascii : char.toNat < 0x80) (high : 0x80 ≤ b.toNat) :
    b ≠ byte char.toNat := by
  intro same
  rw [same, toNat_byte (by omega)] at high
  omega

/-- The first byte of a sequence counts as the character it is. -/
private theorem count_lead (ascii : char.toNat < 0x80) (b : UInt8) (rest : List UInt8)
    (later : ∀ pending, (∀ unfinished ∈ pending, unfinished.Sound) →
      (decodeFrom pending rest).count char = rest.count (byte char.toNat)) :
    (decodeFrom none (b :: rest)).count char = (b :: rest).count (byte char.toNat) := by
  rw [decodeFrom]
  split
  · rename_i single alone
    have tail := later none fun _ none => nomatch none
    by_cases same : single = char
    · rw [same] at alone ⊢
      rw [← lead_ascii alone ascii, count_cons_self, count_cons_self, tail]
    · have other : b ≠ byte char.toNat := by
        intro equal
        rw [equal, lead_of_ascii ascii] at alone
        exact same (Sum.inl.inj alone).symm
      rw [count_cons_of_ne same, count_cons_of_ne other, tail]
  · rename_i next unfinished
    have other : b ≠ byte char.toNat := by
      intro equal
      rw [equal, lead_of_ascii ascii] at unfinished
      exact absurd unfinished Sum.inl_ne_inr
    rw [count_cons_of_ne other]
    apply later (some next)
    intro pending same
    rw [← Option.some.inj same]
    exact lead_sound unfinished

section

variable (ascii : char.toNat < 0x80) (bytes : List UInt8)
include ascii bytes

theorem count_decodeFrom (pending : Option Pending)
    (sound : ∀ unfinished ∈ pending, unfinished.Sound) :
    (decodeFrom pending bytes).count char = bytes.count (byte char.toNat) := by
  induction bytes generalizing pending with
  | nil =>
    cases pending with
    | none => rfl
    | some unfinished =>
      rw [decodeFrom, count_cons_of_ne (ascii_ne_replacement ascii)]
      rfl
  | cons b rest ih =>
    cases pending with
    | none => exact count_lead ascii b rest ih
    | some unfinished =>
      rw [decodeFrom]
      split
      · rename_i inRange
        have bits : 0x80 + b.toNat % 64 = b.toNat := by
          cases sound unfinished rfl <;> simp only at inRange <;> omega
        have other : b ≠ byte char.toNat := ascii_ne_of_high ascii (by omega)
        rw [count_cons_of_ne other]
        cases sound unfinished rfl with
        | @last value low high lowest highest valid =>
          obtain ⟨long, isChar⟩ := valid (b.toNat % 64) (by rw [bits]; exact inRange.1)
            (by rw [bits]; exact inRange.2)
          have different : Char.ofNat (value * 64 + b.toNat % 64) ≠ char := by
            intro same
            rw [← same, toNat_ofNat isChar] at ascii
            omega
          rw [if_pos rfl, count_cons_of_ne different]
          exact ih none fun _ none => nomatch none
        | more lowest highest valid =>
          apply ih
          intro other same
          rw [← Option.some.inj same]
          exact valid _ (by rw [bits]; exact inRange.1) (by rw [bits]; exact inRange.2)
      · rw [count_cons_of_ne (ascii_ne_replacement ascii), ← count_lead ascii b rest ih,
          decodeFrom]

/-- ASCII characters are neither lost nor made up, whatever the bytes are. -/
theorem count_decodeLossy :
    (decodeLossy bytes).count char = bytes.count (byte char.toNat) :=
  count_decodeFrom ascii bytes none fun _ none => nomatch none

theorem mem_decodeLossy :
    char ∈ decodeLossy bytes ↔ byte char.toNat ∈ bytes := by
  rw [← count_pos_iff, ← count_pos_iff, count_decodeLossy ascii]

end

end Ascii

end OnlyJs.Lib.Utf8
