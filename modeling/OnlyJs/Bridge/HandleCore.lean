import Mathlib.Algebra.Order.Ring.Int
import Mathlib.Data.List.Basic

/-!
# Host-level credential handles

Cross-request handles share three things: an unguessable id, an owning subject
and two timers. Instants and durations are milliseconds; a duration since a
later instant saturates at zero, as in the source.
-/

namespace OnlyJs.Bridge.HandleCore

open List

/-- The owning subject. Only `tenant` and `user` take part in decisions;
`moduleName` and `source` are audit data. -/
structure Owner where
  tenant : Option String
  user : Option String
  moduleName : Option String
  source : String
deriving DecidableEq

def Owner.sameSubject (owner other : Owner) : Bool :=
  owner.tenant == other.tenant && owner.user == other.user

def Owner.hasIdentity (owner : Owner) : Bool :=
  owner.user.isSome || owner.tenant.isSome

def hexDigit (value : Nat) : Char :=
  "0123456789abcdef".toList.getD value '0'

def hexChars (bytes : List UInt8) : List Char :=
  bytes.flatMap fun byte => [hexDigit (byte.toNat / 16), hexDigit (byte.toNat % 16)]

def hex (bytes : List UInt8) : String :=
  String.ofList (hexChars bytes)

def isHexChar (c : Char) : Bool :=
  c.isDigit || ('a' ≤ c && c ≤ 'f')

def isHex (text : List Char) : Bool :=
  text.all isHexChar

structure BootTag where
  text : String
  short : text.toList.length = 4
  digits : isHex text.toList = true

/-- What one call of the random source fills: sixteen bytes. -/
structure RandomBytes where
  bytes : List UInt8
  full : bytes.length = 16

/-- Handle ids are `<pre><boot>_<32 hex>`; a failing random source is an error,
never a fallback to something guessable. -/
def newId (pre : String) (boot : BootTag) (random : Except String RandomBytes) :
    Except String String :=
  match random with
  | .error e => .error s!"os random unavailable: {e}"
  | .ok drawn => .ok (pre ++ boot.text ++ "_" ++ hex drawn.bytes)

/-- The shape whitelist `<pre><4 hex>_<32 hex>` for ids that come from outside. -/
def idIsWellformed (pre id : String) : Bool :=
  let expect := pre.utf8ByteSize + 4 + 1 + 32
  if id.utf8ByteSize ≠ expect || !pre.toList.isPrefixOf id.toList then false
  else
    let rest := id.toList.drop pre.toList.length
    let boot := rest.takeWhile (· ≠ '_')
    match rest.dropWhile (· ≠ '_') with
    | [] => false
    | _ :: tail => boot.length == 4 && tail.length == 32 && isHex boot && isHex tail

def idPrefix (pre id : String) : String :=
  if idIsWellformed pre id then String.ofList (id.toList.take 8) ++ "…"
  else s!"{pre}<malformed>"

def expiresIn (created lastUsed idleTimeout maxLifetime now : Nat) : Nat :=
  min (idleTimeout - (now - lastUsed)) (maxLifetime - (now - created))

def expiredReason (created lastUsed idleTimeout maxLifetime now : Nat) : Option String :=
  if maxLifetime ≤ now - created then some "max_lifetime"
  else if idleTimeout ≤ now - lastUsed then some "idle_timeout"
  else none

theorem utf8_size_hex (text : List Char) (digits : isHex text = true) :
    (String.ofList text).utf8ByteSize = text.length := by
  induction text with
  | nil => rfl
  | cons c rest ih =>
    simp only [isHex, all_cons, Bool.and_eq_true] at digits
    have single : (String.ofList [c]).utf8ByteSize = 1 := by
      have small : c.val ≤ 0x7f := by
        have range := digits.1
        simp only [isHexChar, Char.isDigit, Bool.or_eq_true, Bool.and_eq_true,
          decide_eq_true_eq] at range
        rcases range with ⟨_, upper⟩ | ⟨_, upper⟩
        · exact UInt32.le_trans upper (by decide)
        · exact UInt32.le_trans (show c.val ≤ 'f'.val from upper) (by decide)
      simp [Char.utf8Size, small]
    have split : String.ofList (c :: rest) = String.ofList [c] ++ String.ofList rest := by
      rw [← String.ofList_append]
      rfl
    rw [split, String.utf8ByteSize_append, ih digits.2, length_cons]
    omega

theorem hex_chars_digits (bytes : List UInt8) : isHex (hexChars bytes) = true := by
  induction bytes with
  | nil => rfl
  | cons byte rest ih =>
    have digit : ∀ value, value < 16 → isHexChar (hexDigit value) = true := by decide
    have high : byte.toNat / 16 < 16 := by
      have bound := byte.toNat_lt
      omega
    have low : byte.toNat % 16 < 16 := Nat.mod_lt _ (by decide)
    have expand : hexChars (byte :: rest) =
        hexDigit (byte.toNat / 16) :: hexDigit (byte.toNat % 16) :: hexChars rest := rfl
    rw [expand]
    simp only [isHex, all_cons, digit _ high, digit _ low]
    exact ih

theorem hex_chars_length (bytes : List UInt8) : (hexChars bytes).length = 2 * bytes.length := by
  induction bytes with
  | nil => rfl
  | cons byte rest ih =>
    have expand : hexChars (byte :: rest) =
        hexDigit (byte.toNat / 16) :: hexDigit (byte.toNat % 16) :: hexChars rest := rfl
    rw [expand, length_cons, length_cons, length_cons]
    omega

theorem new_id_wellformed (pre : String) (boot : BootTag) (drawn : RandomBytes) (id : String)
    (made : newId pre boot (.ok drawn) = .ok id) : idIsWellformed pre id = true := by
  cases made
  have digits := hex_chars_digits drawn.bytes
  have length : (hexChars drawn.bytes).length = 32 := by
    rw [hex_chars_length, drawn.full]
  have chars : (pre ++ boot.text ++ "_" ++ hex drawn.bytes).toList =
      pre.toList ++ (boot.text.toList ++ '_' :: hexChars drawn.bytes) := by
    simp [hex]
  have bytes : (pre ++ boot.text ++ "_" ++ hex drawn.bytes).utf8ByteSize =
      pre.utf8ByteSize + 4 + 1 + 32 := by
    have bootSize : boot.text.utf8ByteSize = 4 := by
      have size := utf8_size_hex boot.text.toList boot.digits
      rwa [String.ofList_toList, boot.short] at size
    have separator : ("_" : String).utf8ByteSize = 1 := rfl
    rw [String.utf8ByteSize_append, String.utf8ByteSize_append, String.utf8ByteSize_append,
      bootSize, separator, hex, utf8_size_hex _ digits, length]
  have plain : ∀ c ∈ boot.text.toList, decide (c ≠ '_') = true := by
    intro c member
    have digit : isHexChar c = true := all_eq_true.mp boot.digits c member
    rw [decide_eq_true_eq]
    rintro rfl
    exact absurd digit (by decide)
  have bootPart : (boot.text.toList ++ '_' :: hexChars drawn.bytes).takeWhile (· ≠ '_') =
      boot.text.toList := by
    rw [takeWhile_append_of_pos plain]
    simp
  have tailPart : (boot.text.toList ++ '_' :: hexChars drawn.bytes).dropWhile (· ≠ '_') =
      '_' :: hexChars drawn.bytes := by
    rw [dropWhile_append_of_pos plain]
    simp
  simp only [idIsWellformed, bytes, chars, drop_left, bootPart, tailPart, boot.short, length,
    boot.digits, digits]
  simp

theorem expired_reason_isSome_iff (created lastUsed idleTimeout maxLifetime now : Nat) :
    (expiredReason created lastUsed idleTimeout maxLifetime now).isSome ↔
      expiresIn created lastUsed idleTimeout maxLifetime now = 0 := by
  unfold expiredReason expiresIn
  by_cases old : maxLifetime ≤ now - created
  · rw [if_pos old]
    simp only [Option.isSome_some, true_iff]
    omega
  · rw [if_neg old]
    by_cases idle : idleTimeout ≤ now - lastUsed
    · rw [if_pos idle]
      simp only [Option.isSome_some, true_iff]
      omega
    · rw [if_neg idle]
      simp only [Option.isSome_none, Bool.false_eq_true, false_iff]
      omega

def sampleBoot : BootTag where
  text := "0000"
  short := by decide
  digits := by decide

def sampleBytes (value : UInt8) : RandomBytes where
  bytes := List.replicate 16 value
  full := rfl

def sampleOwner : Owner where
  tenant := none
  user := some "u1"
  moduleName := none
  source := "http"

end OnlyJs.Bridge.HandleCore
