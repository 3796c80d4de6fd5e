import OnlyJs.Lib.Fallible
import OnlyJs.Serve.Paths

/-!
# Sealed values in a configuration tree

A configuration may hold sealed texts, which only the private key opens. One walk over the tree
asks whether there is any, a second one opens them. Both visit values; they differ on keys.
-/

namespace OnlyJs.Secret.SealedTree

open Lib List Lib.Fallible

abbrev Text := List Char

abbrev Bytes := List UInt8

def sealedPrefix : Text := "ENC[".toList

def sealedSuffix : Text := "]".toList

def isSealed (text : Text) : Bool :=
  sealedPrefix.isPrefixOf text && sealedSuffix.isSuffixOf text

abbrev Key := { bytes : Bytes // bytes.length = 32 }

def versionRsa : UInt8 := 1
def versionEc : UInt8 := 2
def algX25519AesGcm : UInt8 := 1
def publicKeyLength : Nat := 32
def nonceLength : Nat := 12
def tagLength : Nat := 16

/-- The libraries behind the envelope. A text that stands for an error is the library's own. -/
structure Primitives (Cipher : Type) where
  publicOf : Key → Key
  diffieHellman : Key → Key → Key
  hkdf : (shared info : Bytes) → Option Bytes
  cipherOf : Bytes → Except Text Cipher
  encrypt : Cipher → (nonce plaintext : Bytes) → Except Text Bytes
  decrypt : Cipher → (nonce ciphertext : Bytes) → Except Text Bytes
  encode : Bytes → Text
  decode : Text → Except Text Bytes
  notUtf8 : Bytes → Text

/-- What the envelope relies on: both sides agree on a shared secret, decryption undoes
encryption, a ciphertext carries its tag, and decoding undoes encoding. -/
structure Primitives.Sound {Cipher : Type} (primitives : Primitives Cipher) : Prop where
  agree : ∀ first second, primitives.diffieHellman first (primitives.publicOf second) =
    primitives.diffieHellman second (primitives.publicOf first)
  undone : ∀ cipher nonce plaintext ciphertext,
    primitives.encrypt cipher nonce plaintext = .ok ciphertext →
      primitives.decrypt cipher nonce ciphertext = .ok plaintext
  tagged : ∀ cipher nonce plaintext ciphertext,
    primitives.encrypt cipher nonce plaintext = .ok ciphertext →
      ciphertext.length = plaintext.length + tagLength
  decoded : ∀ bytes, primitives.decode (primitives.encode bytes) = .ok bytes

variable {Cipher : Type} (primitives : Primitives Cipher)

def deriveCek (shared : Key) : Except Text Bytes :=
  match primitives.hkdf shared.1 (Utf8.encode "oj-sealed-v2".toList) with
  | some cek => .ok cek
  | none => .error "hkdf expand failed".toList

def sealEcPub (pk seed : Key) (nonce : Bytes) (plaintext : Text) : Except Text Text := do
  let shared := primitives.diffieHellman seed pk
  let cek ← deriveCek primitives shared
  let cipher ← (primitives.cipherOf cek).mapError fun e => "aes key failed: ".toList ++ e
  let ct ← (primitives.encrypt cipher nonce (Utf8.encode plaintext)).mapError
    fun e => "aes-gcm seal failed: ".toList ++ e
  let env := versionEc :: algX25519AesGcm :: (primitives.publicOf seed).1 ++ nonce ++ ct
  .ok (sealedPrefix ++ primitives.encode env ++ sealedSuffix)

/-- What stands between the marks; a text without them stands for itself. -/
def sealedBody (token : Text) : Text :=
  ((sealedPrefix.isPrefixOf? token).bind fun behind =>
    sealedSuffix.isSuffixOf? behind).getD token

section

variable {env : Bytes} (long : ¬ env.length < 2 + publicKeyLength + nonceLength + tagLength)
include long

theorem alg_within : 1 < env.length := by
  change ¬ env.length < 2 + 32 + 12 + 16 at long
  omega

theorem key_within : ((env.drop 2).take publicKeyLength).length = 32 := by
  rw [List.length_take, List.length_drop]
  change ¬ env.length < 2 + 32 + 12 + 16 at long
  change min 32 (env.length - 2) = 32
  omega

end

def openEcPem (key : Key) (env : Bytes) : Except Text Text :=
  let needed := 2 + publicKeyLength + nonceLength + tagLength
  if long : env.length < needed then
    .error ("sealed value truncated: ".toList ++ Nat.toDigits 10 env.length ++
      " bytes (needs at least ".toList ++ Nat.toDigits 10 needed ++ " bytes)".toList)
  else do
    let alg := env.get ⟨1, alg_within long⟩
    reject (alg ≠ algX25519AesGcm)
      ("sealed value alg ".toList ++ Nat.toDigits 10 alg.toNat ++
        " unsupported (this oj knows X25519+AES-GCM = ".toList ++
        Nat.toDigits 10 algX25519AesGcm.toNat ++ ")".toList)
    let pk : Key := ⟨(env.drop 2).take publicKeyLength, key_within long⟩
    let rest := (env.drop 2).drop publicKeyLength
    let cek ← deriveCek primitives (primitives.diffieHellman key pk)
    let cipher ← (primitives.cipherOf cek).mapError fun e => "aes key failed: ".toList ++ e
    let pt ← (primitives.decrypt cipher (rest.take nonceLength) (rest.drop nonceLength)).mapError
      fun e => "aes-gcm open failed (sealed value tampered?): ".toList ++ e
    match Serve.decodeUtf8 pt with
    | some text => .ok text
    | none => .error ("sealed value is not utf-8: ".toList ++ primitives.notUtf8 pt)

def openPem (key : Key) (token : Text) : Except Text Text := do
  let env ← (primitives.decode (sealedBody token)).mapError fun e =>
    "sealed value is not valid base64url: ".toList ++ e ++
      (" — 若这其实是**明文**却恰好以 \"ENC[\" 开头并以 \"]\" 结尾，" ++
        "请换个写法（如加个前缀/改写大小写），否则会被当密文硬失败").toList
  match env with
  | [] => .error "sealed value empty".toList
  | version :: _ =>
    if version = versionEc then openEcPem primitives key env
    else if version = versionRsa then
      .error ("sealed value is v1 (RSA) — v1 信封已移除；请用 `oj secret seal` 以 X25519 " ++
        "重新加密 （RSA(v1) 密钥不再被本版本支持）").toList
    else
      .error ("sealed value version ".toList ++ Nat.toDigits 10 version.toNat ++
        (" unsupported (this oj only knows X25519 envelope) — " ++
          "用 `oj secret seal` 重新加密（别手改密文）").toList)

inductive Yaml where
  | null
  | bool (value : Bool)
  | number (value : Text)
  | string (value : Text)
  | sequence (items : List Yaml)
  | mapping (entries : List (Yaml × Yaml))
  | tagged (tag : Text) (value : Yaml)

mutual

def hasSealed : Yaml → Bool
  | .string text => isSealed text
  | .mapping entries => hasSealedEntries entries
  | .sequence items => hasSealedItems items
  | .tagged _ value => hasSealed value
  | _ => false

def hasSealedItems : List Yaml → Bool
  | [] => false
  | item :: rest => hasSealed item || hasSealedItems rest

def hasSealedEntries : List (Yaml × Yaml) → Bool
  | [] => false
  | (k, v) :: rest => (hasSealed k || hasSealed v) || hasSealedEntries rest

end

attribute [grind =] hasSealed hasSealedItems hasSealedEntries

def sealedKey (text : Text) : Text :=
  "sealed value used as a mapping key (".toList ++ text ++
    "): ENC[...] may only appear as a value".toList

def checkKey : Yaml → Except Text Unit
  | .string text => reject (isSealed text) (sealedKey text)
  | _ => .ok ()

mutual

def decryptTree (key : Key) : Yaml → Except Text (Yaml × Nat)
  | .string text =>
    if isSealed text then do
      let plain ← openPem primitives key text
      .ok (.string plain, 1)
    else .ok (.string text, 0)
  | .mapping entries => do
      let (out, n) ← decryptEntries key entries
      .ok (.mapping out, n)
  | .sequence items => do
      let (out, n) ← decryptItems key items
      .ok (.sequence out, n)
  | .tagged tag value => do
      let (out, n) ← decryptTree key value
      .ok (.tagged tag out, n)
  | .null => .ok (.null, 0)
  | .bool value => .ok (.bool value, 0)
  | .number value => .ok (.number value, 0)

def decryptItems (key : Key) : List Yaml → Except Text (List Yaml × Nat)
  | [] => .ok ([], 0)
  | item :: rest => do
      let (first, n) ← decryptTree key item
      let (others, m) ← decryptItems key rest
      .ok (first :: others, n + m)

def decryptEntries (key : Key) : List (Yaml × Yaml) → Except Text (List (Yaml × Yaml) × Nat)
  | [] => .ok ([], 0)
  | (k, v) :: rest => do
      checkKey k
      let (first, n) ← decryptTree key v
      let (others, m) ← decryptEntries key rest
      .ok ((k, first) :: others, n + m)

end

attribute [grind =] decryptTree decryptItems decryptEntries

/-- A text stands for a value, is a key itself, or stands somewhere inside a key. -/
inductive Place where
  | value
  | key
  | inner
deriving DecidableEq

def Place.ofKey : Place → Yaml → Place
  | .value, .string _ => .key
  | _, _ => .inner

mutual

def Yaml.strings (place : Place) : Yaml → List (Place × Text)
  | .string text => [(place, text)]
  | .mapping entries => entryStrings place entries
  | .sequence items => itemStrings place items
  | .tagged _ value => value.strings place
  | _ => []

def itemStrings (place : Place) : List Yaml → List (Place × Text)
  | [] => []
  | item :: rest => item.strings place ++ itemStrings place rest

def entryStrings (place : Place) : List (Yaml × Yaml) → List (Place × Text)
  | [] => []
  | (k, v) :: rest => k.strings (place.ofKey k) ++ v.strings place ++ entryStrings place rest

end

attribute [grind =] Yaml.strings itemStrings entryStrings

mutual

def Yaml.mapValues (f : Text → Text) : Yaml → Yaml
  | .string text => .string (f text)
  | .mapping entries => .mapping (mapEntryValues f entries)
  | .sequence items => .sequence (mapItemValues f items)
  | .tagged tag value => .tagged tag (value.mapValues f)
  | .null => .null
  | .bool value => .bool value
  | .number value => .number value

def mapItemValues (f : Text → Text) : List Yaml → List Yaml
  | [] => []
  | item :: rest => item.mapValues f :: mapItemValues f rest

def mapEntryValues (f : Text → Text) : List (Yaml × Yaml) → List (Yaml × Yaml)
  | [] => []
  | (k, v) :: rest => (k, v.mapValues f) :: mapEntryValues f rest

end

attribute [grind =] Yaml.mapValues mapItemValues mapEntryValues

def Sealed (strings : List (Place × Text)) (place : Place) : Prop :=
  ∃ text, (place, text) ∈ strings ∧ isSealed text = true

def sealedValues (strings : List (Place × Text)) : Nat :=
  strings.countP fun entry => entry.1 = .value && isSealed entry.2

/-- What a sealed text stands for: what the key opens it to, which is the text it was made of. -/
def StandsFor (key : Key) (token text : Text) : Prop :=
  openPem primitives key token = .ok text ∧
    ∀ seed nonce plaintext, nonce.length = nonceLength →
      sealEcPub primitives (primitives.publicOf key) seed nonce plaintext = .ok token →
        text = plaintext

/-- Every sealed value of the tree is replaced, nothing else is, and no key holds a sealed
text at any depth. -/
structure Decrypted (key : Key) (v out : Yaml) (n : Nat) : Prop where
  replaced : ∃ f : Text → Text, out = v.mapValues f ∧
    ∀ text, (Place.value, text) ∈ v.strings .value →
      if isSealed text then StandsFor primitives key text (f text) else f text = text
  counted : n = sealedValues (v.strings .value)
  keysClear : ¬ Sealed (v.strings .value) .key ∧ ¬ Sealed (v.strings .value) .inner

/-- A tree is decrypted whole or not at all. -/
structure AllOrNothing (key : Key) (v : Yaml) : Prop where
  reported : hasSealed v = true ↔ ∃ place, Sealed (v.strings .value) place
  untouched : hasSealed v = false → decryptTree primitives key v = .ok (v, 0)
  decrypted : ∀ out n, decryptTree primitives key v = .ok (out, n) →
    Decrypted primitives key v out n

def Opens (key : Key) (token : Text) : Prop := ∃ text, openPem primitives key token = .ok text

theorem is_prefix_append (marks rest : Text) : marks.isPrefixOf? (marks ++ rest) = some rest := by
  induction marks with
  | nil => rfl
  | cons mark marks ih =>
    change (if mark == mark then marks.isPrefixOf? (marks ++ rest) else none) = some rest
    rw [if_pos (beq_self_eq_true mark), ih]

theorem is_suffix_append (body marks : Text) :
    marks.isSuffixOf? (body ++ marks) = some body := by
  unfold List.isSuffixOf?
  rw [reverse_append, is_prefix_append, Option.map_some, reverse_reverse]

theorem sealed_body (body : Text) : sealedBody (sealedPrefix ++ body ++ sealedSuffix) = body := by
  unfold sealedBody
  rw [append_assoc, is_prefix_append]
  change (sealedSuffix.isSuffixOf? (body ++ sealedSuffix)).getD _ = body
  rw [is_suffix_append]
  rfl

variable {key : Key} {text : Text}

theorem open_ec_pem_parts {pk : Key} {nonce ct plaintext : Bytes} {cek : Bytes} {cipher : Cipher}
    (size : nonce.length = nonceLength) (enough : tagLength ≤ ct.length)
    (derived : deriveCek primitives (primitives.diffieHellman key pk) = .ok cek)
    (ciphered : primitives.cipherOf cek = .ok cipher)
    (decrypted : primitives.decrypt cipher nonce ct = .ok plaintext)
    (valid : Serve.decodeUtf8 plaintext = some text) :
    openEcPem primitives key (versionEc :: algX25519AesGcm :: pk.1 ++ nonce ++ ct) = .ok text := by
  have parts : (versionEc :: algX25519AesGcm :: pk.1 ++ nonce ++ ct) =
      versionEc :: algX25519AesGcm :: (pk.1 ++ (nonce ++ ct)) := by
    rw [append_assoc]
    rfl
  have long : ¬ (versionEc :: algX25519AesGcm :: (pk.1 ++ (nonce ++ ct))).length <
      2 + publicKeyLength + nonceLength + tagLength := by
    simp only [length_cons, length_append, publicKeyLength]
    omega
  have pkBytes : (pk.1 ++ (nonce ++ ct)).take publicKeyLength = pk.1 := take_left' pk.2
  have behind : (pk.1 ++ (nonce ++ ct)).drop publicKeyLength = nonce ++ ct := drop_left' pk.2
  rw [parts]
  unfold openEcPem
  rw [dif_neg long, bind_ok]
  refine ⟨(), rfl, bind_ok.mpr ⟨cek, ?_, bind_ok.mpr ⟨cipher, ?_, bind_ok.mpr ⟨plaintext, ?_, ?_⟩⟩⟩⟩
  · rw [← derived]
    congr 2
    exact Subtype.ext pkBytes
  · rw [map_error_ok]
    exact ciphered
  · rw [map_error_ok, ← decrypted]
    change primitives.decrypt cipher
      (((pk.1 ++ (nonce ++ ct)).drop publicKeyLength).take nonceLength)
      (((pk.1 ++ (nonce ++ ct)).drop publicKeyLength).drop nonceLength) = _
    rw [behind, take_left' size, drop_left' size]
  · rw [valid]

theorem open_seal (sound : primitives.Sound) {seed : Key} {nonce : Bytes} {plaintext token : Text}
    (size : nonce.length = nonceLength)
    (made : sealEcPub primitives (primitives.publicOf key) seed nonce plaintext = .ok token) :
    openPem primitives key token = .ok plaintext := by
  obtain ⟨cek, derived, made⟩ := bind_ok.mp made
  obtain ⟨cipher, ciphered, made⟩ := bind_ok.mp made
  obtain ⟨ct, encrypted, made⟩ := bind_ok.mp made
  rw [map_error_ok] at ciphered encrypted
  cases made
  rw [sound.agree] at derived
  have enough : tagLength ≤ ct.length := by
    rw [sound.tagged _ _ _ _ encrypted]
    exact Nat.le_add_left _ _
  have valid : Serve.decodeUtf8 (Utf8.encode plaintext) = some plaintext := by
    unfold Serve.decodeUtf8
    rw [Utf8.decode_encode, if_pos rfl]
  have opened := open_ec_pem_parts primitives size enough derived ciphered
    (sound.undone _ _ _ _ encrypted) valid
  unfold openPem
  rw [sealed_body, sound.decoded]
  exact opened

mutual

theorem has_sealed_iff (place : Place) : ∀ v : Yaml,
    hasSealed v = true ↔ ∃ entry ∈ v.strings place, isSealed entry.2 = true
  | .string text => by simp [hasSealed, Yaml.strings]
  | .mapping entries => by
      rw [hasSealed, Yaml.strings]
      exact has_sealed_entries_iff place entries
  | .sequence items => by
      rw [hasSealed, Yaml.strings]
      exact has_sealed_items_iff place items
  | .tagged _ value => by
      rw [hasSealed, Yaml.strings]
      exact has_sealed_iff place value
  | .null | .bool _ | .number _ => by simp [hasSealed, Yaml.strings]

theorem has_sealed_items_iff (place : Place) : ∀ items : List Yaml,
    hasSealedItems items = true ↔ ∃ entry ∈ itemStrings place items, isSealed entry.2 = true
  | [] => by simp [hasSealedItems, itemStrings]
  | item :: rest => by
      rw [hasSealedItems, Bool.or_eq_true, has_sealed_iff place item,
        has_sealed_items_iff place rest, itemStrings]
      simp only [mem_append, or_and_right, exists_or]

theorem has_sealed_entries_iff (place : Place) : ∀ entries : List (Yaml × Yaml),
    hasSealedEntries entries = true ↔
      ∃ entry ∈ entryStrings place entries, isSealed entry.2 = true
  | [] => by simp [hasSealedEntries, entryStrings]
  | (k, v) :: rest => by
      rw [hasSealedEntries, Bool.or_eq_true, Bool.or_eq_true, has_sealed_iff (place.ofKey k) k,
        has_sealed_iff place v, has_sealed_entries_iff place rest, entryStrings]
      simp only [mem_append, or_and_right, exists_or]

end

def plainOf (key : Key) (text : Text) : Text :=
  if isSealed text then
    match openPem primitives key text with
    | .ok plain => plain
    | .error _ => text
  else text

/-- What lets the walk pass one text. -/
def Passes (key : Key) (entry : Place × Text) : Prop :=
  (entry.1 = .key → isSealed entry.2 = false) ∧
    (entry.1 = .value → isSealed entry.2 = true → Opens primitives key entry.2)

theorem passes_inner (key : Key) (text : Text) : Passes primitives key (.inner, text) := by
  constructor <;> intro absurd <;> cases absurd

mutual

theorem strings_inner : ∀ (v : Yaml), ∀ entry ∈ v.strings .inner, entry.1 = .inner
  | .string text, entry, listed => by
      rw [Yaml.strings, mem_singleton] at listed
      rw [listed]
  | .mapping entries, entry, listed => by
      rw [Yaml.strings] at listed
      exact entry_strings_inner entries entry listed
  | .sequence items, entry, listed => by
      rw [Yaml.strings] at listed
      exact item_strings_inner items entry listed
  | .tagged _ value, entry, listed => by
      rw [Yaml.strings] at listed
      exact strings_inner value entry listed
  | .null, entry, listed | .bool _, entry, listed | .number _, entry, listed => by cases listed

theorem item_strings_inner : ∀ (items : List Yaml), ∀ entry ∈ itemStrings .inner items,
    entry.1 = .inner
  | [], entry, listed => by cases listed
  | item :: rest, entry, listed => by
      rw [itemStrings, mem_append] at listed
      exact listed.elim (strings_inner item entry) (item_strings_inner rest entry)

theorem entry_strings_inner : ∀ (entries : List (Yaml × Yaml)),
    ∀ entry ∈ entryStrings .inner entries, entry.1 = .inner
  | [], entry, listed => by cases listed
  | (k, v) :: rest, entry, listed => by
      rw [entryStrings, mem_append, mem_append] at listed
      rcases listed with (first | second) | others
      · exact strings_inner k entry first
      · exact strings_inner v entry second
      · exact entry_strings_inner rest entry others

end

theorem not_value_of_key (k : Yaml) :
    ∀ entry ∈ k.strings (Place.ofKey .value k), entry.1 ≠ .value := by
  intro entry listed value
  cases k with
  | string text =>
    rw [Yaml.strings, mem_singleton] at listed
    rw [listed] at value
    cases value
  | null | bool | number => cases listed
  | sequence | mapping | tagged =>
    rw [strings_inner _ entry listed] at value
    cases value

theorem sealed_values_key (k : Yaml) : sealedValues (k.strings (Place.ofKey .value k)) = 0 := by
  apply countP_eq_zero.mpr
  intro entry listed counted
  rw [Bool.and_eq_true, decide_eq_true_eq] at counted
  exact not_value_of_key k entry listed counted.1

theorem check_key_ok (key : Key) (k : Yaml) :
    checkKey k = .ok () ↔
      ∀ entry ∈ k.strings (Place.ofKey .value k), Passes primitives key entry := by
  cases k with
  | string text =>
    rw [checkKey, reject_ok, Yaml.strings]
    constructor
    · intro clear entry listed
      rw [mem_singleton] at listed
      rw [listed]
      exact ⟨fun _ => clear, nofun⟩
    · intro passes
      exact (passes _ mem_cons_self).1 rfl
  | null | bool | number =>
    constructor
    · intro _ entry listed
      cases listed
    · intro _
      rfl
  | sequence | mapping | tagged =>
    constructor
    · intro _ entry listed
      have inner := strings_inner _ entry listed
      obtain ⟨place, text⟩ := entry
      cases inner
      exact passes_inner primitives key text
    · intro _
      rfl

theorem sealed_values_append (first second : List (Place × Text)) :
    sealedValues (first ++ second) = sealedValues first + sealedValues second :=
  countP_append

/-- A text for a value is opened if it is sealed, and kept otherwise. -/
theorem decrypt_string_ok {out : Yaml} {n : Nat} :
    decryptTree primitives key (.string text) = .ok (out, n) ↔
      Passes primitives key (.value, text) ∧ out = .string (plainOf primitives key text) ∧
        n = sealedValues [(.value, text)] := by
  rw [decryptTree]
  cases marked : isSealed text with
  | false =>
    have kept : plainOf primitives key text = text := by
      unfold plainOf
      rw [marked]
      rfl
    have counted : sealedValues [(.value, text)] = 0 := by
      simp [sealedValues, marked]
    rw [kept, counted]
    constructor
    · intro same
      cases same
      exact ⟨⟨nofun, fun _ sealed_ => absurd sealed_ (by rw [marked]; exact Bool.false_ne_true)⟩,
        rfl, rfl⟩
    · rintro ⟨_, rfl, rfl⟩
      rfl
  | true =>
    have counted : sealedValues [(.value, text)] = 1 := by
      simp [sealedValues, marked]
    rw [counted, if_pos rfl, bind_ok]
    constructor
    · rintro ⟨plain, opened, same⟩
      cases same
      refine ⟨⟨nofun, fun _ _ => ⟨plain, opened⟩⟩, ?_, rfl⟩
      unfold plainOf
      rw [marked, if_pos rfl, opened]
    · rintro ⟨passes, rfl, rfl⟩
      obtain ⟨plain, opened⟩ := passes.2 rfl marked
      refine ⟨plain, opened, ?_⟩
      unfold plainOf
      rw [marked, if_pos rfl, opened]

mutual

/-- The walk succeeds exactly if every text lets it pass, and then opens the sealed values. -/
theorem decrypt_tree_ok (key : Key) : ∀ (v out : Yaml) (n : Nat),
    decryptTree primitives key v = .ok (out, n) ↔
      (∀ entry ∈ v.strings .value, Passes primitives key entry) ∧
        out = v.mapValues (plainOf primitives key) ∧ n = sealedValues (v.strings .value)
  | .string text, out, n => by
      rw [decrypt_string_ok, Yaml.strings, Yaml.mapValues, forall_mem_singleton]
  | .mapping entries, out, n => by
      rw [decryptTree, bind_ok, Yaml.strings, Yaml.mapValues]
      constructor
      · rintro ⟨⟨inner, m⟩, walked, same⟩
        cases same
        obtain ⟨passes, rfl, rfl⟩ := (decrypt_entries_ok key entries _ _).mp walked
        exact ⟨passes, rfl, rfl⟩
      · rintro ⟨passes, rfl, rfl⟩
        exact ⟨_, (decrypt_entries_ok key entries _ _).mpr ⟨passes, rfl, rfl⟩, rfl⟩
  | .sequence items, out, n => by
      rw [decryptTree, bind_ok, Yaml.strings, Yaml.mapValues]
      constructor
      · rintro ⟨⟨inner, m⟩, walked, same⟩
        cases same
        obtain ⟨passes, rfl, rfl⟩ := (decrypt_items_ok key items _ _).mp walked
        exact ⟨passes, rfl, rfl⟩
      · rintro ⟨passes, rfl, rfl⟩
        exact ⟨_, (decrypt_items_ok key items _ _).mpr ⟨passes, rfl, rfl⟩, rfl⟩
  | .tagged tag value, out, n => by
      rw [decryptTree, bind_ok, Yaml.strings, Yaml.mapValues]
      constructor
      · rintro ⟨⟨inner, m⟩, walked, same⟩
        cases same
        obtain ⟨passes, rfl, rfl⟩ := (decrypt_tree_ok key value _ _).mp walked
        exact ⟨passes, rfl, rfl⟩
      · rintro ⟨passes, rfl, rfl⟩
        exact ⟨_, (decrypt_tree_ok key value _ _).mpr ⟨passes, rfl, rfl⟩, rfl⟩
  | .null, out, n | .bool _, out, n | .number _, out, n => by
      simp [decryptTree, Yaml.strings, Yaml.mapValues, sealedValues, eq_comm]

theorem decrypt_items_ok (key : Key) : ∀ (items out : List Yaml) (n : Nat),
    decryptItems primitives key items = .ok (out, n) ↔
      (∀ entry ∈ itemStrings .value items, Passes primitives key entry) ∧
        out = mapItemValues (plainOf primitives key) items ∧
        n = sealedValues (itemStrings .value items)
  | [], out, n => by
      simp [decryptItems, itemStrings, mapItemValues, sealedValues, eq_comm]
  | item :: rest, out, n => by
      rw [decryptItems, bind_ok, itemStrings, mapItemValues, forall_mem_append,
        sealed_values_append]
      constructor
      · rintro ⟨⟨first, m⟩, walked, continued⟩
        obtain ⟨⟨others, k⟩, remaining, same⟩ := bind_ok.mp continued
        cases same
        obtain ⟨passes, rfl, rfl⟩ := (decrypt_tree_ok key item _ _).mp walked
        obtain ⟨pass, rfl, rfl⟩ := (decrypt_items_ok key rest _ _).mp remaining
        exact ⟨⟨passes, pass⟩, rfl, rfl⟩
      · rintro ⟨⟨passes, pass⟩, rfl, rfl⟩
        exact ⟨_, (decrypt_tree_ok key item _ _).mpr ⟨passes, rfl, rfl⟩,
          bind_ok.mpr ⟨_, (decrypt_items_ok key rest _ _).mpr ⟨pass, rfl, rfl⟩, rfl⟩⟩

theorem decrypt_entries_ok (key : Key) : ∀ (entries out : List (Yaml × Yaml)) (n : Nat),
    decryptEntries primitives key entries = .ok (out, n) ↔
      (∀ entry ∈ entryStrings .value entries, Passes primitives key entry) ∧
        out = mapEntryValues (plainOf primitives key) entries ∧
        n = sealedValues (entryStrings .value entries)
  | [], out, n => by
      simp [decryptEntries, entryStrings, mapEntryValues, sealedValues, eq_comm]
  | (k, v) :: rest, out, n => by
      rw [decryptEntries, bind_ok, entryStrings, mapEntryValues, forall_mem_append,
        forall_mem_append, sealed_values_append, sealed_values_append, sealed_values_key,
        Nat.zero_add, ← check_key_ok primitives key k]
      constructor
      · rintro ⟨_, checked, continued⟩
        obtain ⟨⟨first, m⟩, walked, continued⟩ := bind_ok.mp continued
        obtain ⟨⟨others, j⟩, remaining, same⟩ := bind_ok.mp continued
        cases same
        obtain ⟨passes, rfl, rfl⟩ := (decrypt_tree_ok key v _ _).mp walked
        obtain ⟨pass, rfl, rfl⟩ := (decrypt_entries_ok key rest _ _).mp remaining
        exact ⟨⟨⟨checked, passes⟩, pass⟩, rfl, rfl⟩
      · rintro ⟨⟨⟨checked, passes⟩, pass⟩, rfl, rfl⟩
        exact ⟨(), checked, bind_ok.mpr ⟨_, (decrypt_tree_ok key v _ _).mpr ⟨passes, rfl, rfl⟩,
          bind_ok.mpr ⟨_, (decrypt_entries_ok key rest _ _).mpr ⟨pass, rfl, rfl⟩, rfl⟩⟩⟩

end

mutual

theorem map_values_kept (f : Text → Text) : ∀ v : Yaml,
    (∀ entry ∈ v.strings .value, entry.1 = .value → f entry.2 = entry.2) → v.mapValues f = v
  | .string text, kept => by
      rw [Yaml.mapValues, kept (.value, text) mem_cons_self rfl]
  | .mapping entries, kept => by
      rw [Yaml.strings] at kept
      rw [Yaml.mapValues, map_entry_values_kept f entries kept]
  | .sequence items, kept => by
      rw [Yaml.strings] at kept
      rw [Yaml.mapValues, map_item_values_kept f items kept]
  | .tagged tag value, kept => by
      rw [Yaml.strings] at kept
      rw [Yaml.mapValues, map_values_kept f value kept]
  | .null, _ | .bool _, _ | .number _, _ => by rw [Yaml.mapValues]

theorem map_item_values_kept (f : Text → Text) : ∀ items : List Yaml,
    (∀ entry ∈ itemStrings .value items, entry.1 = .value → f entry.2 = entry.2) →
      mapItemValues f items = items
  | [], _ => by rw [mapItemValues]
  | item :: rest, kept => by
      rw [itemStrings, forall_mem_append] at kept
      rw [mapItemValues, map_values_kept f item kept.1, map_item_values_kept f rest kept.2]

theorem map_entry_values_kept (f : Text → Text) : ∀ entries : List (Yaml × Yaml),
    (∀ entry ∈ entryStrings .value entries, entry.1 = .value → f entry.2 = entry.2) →
      mapEntryValues f entries = entries
  | [], _ => by rw [mapEntryValues]
  | (k, v) :: rest, kept => by
      rw [entryStrings, forall_mem_append, forall_mem_append] at kept
      rw [mapEntryValues, map_values_kept f v kept.1.2, map_entry_values_kept f rest kept.2]

end

theorem plain_of_clear (clear : isSealed text = false) :
    plainOf primitives key text = text := by
  rw [plainOf, clear]
  rfl

theorem plain_of_stands (sound : primitives.Sound) (marked : isSealed text = true)
    (opens : Opens primitives key text) :
    StandsFor primitives key text (plainOf primitives key text) := by
  obtain ⟨plain, opened⟩ := opens
  have same : plainOf primitives key text = plain := by
    rw [plainOf, marked, if_pos rfl, opened]
  rw [same]
  refine ⟨opened, ?_⟩
  intro seed nonce plaintext size made
  rw [open_seal primitives sound size made] at opened
  exact (Except.ok.inj opened).symm

theorem sealed_of_mem {strings : List (Place × Text)} {entry : Place × Text}
    (listed : entry ∈ strings) (marked : isSealed entry.2 = true) : Sealed strings entry.1 :=
  ⟨entry.2, listed, marked⟩

theorem reported_iff (v : Yaml) :
    hasSealed v = true ↔ ∃ place, Sealed (v.strings .value) place := by
  rw [has_sealed_iff .value]
  constructor
  · rintro ⟨entry, listed, marked⟩
    exact ⟨entry.1, sealed_of_mem listed marked⟩
  · rintro ⟨place, text, listed, marked⟩
    exact ⟨(place, text), listed, marked⟩

theorem untouched {v : Yaml} (clear : hasSealed v = false) :
    decryptTree primitives key v = .ok (v, 0) := by
  have unsealed : ∀ entry ∈ v.strings .value, isSealed entry.2 = false := by
    intro entry listed
    apply eq_false_of_ne_true
    intro marked
    rw [(has_sealed_iff .value v).mpr ⟨entry, listed, marked⟩] at clear
    cases clear
  apply (decrypt_tree_ok primitives key v v 0).mpr
  refine ⟨?_, ?_, ?_⟩
  · intro entry listed
    refine ⟨fun _ => unsealed entry listed, fun _ marked => ?_⟩
    rw [unsealed entry listed] at marked
    cases marked
  · apply Eq.symm
    apply map_values_kept
    intro entry listed _
    exact plain_of_clear primitives (unsealed entry listed)
  · apply Eq.symm
    apply countP_eq_zero.mpr
    intro entry listed
    rw [unsealed entry listed, Bool.and_false]
    exact Bool.false_ne_true

/-- The walk that opens does not look inside a key that is no text. A tree is therefore decrypted
whole or not at all exactly if no such key holds a sealed text, unless the walk fails for
another reason. -/
theorem all_or_nothing_iff (sound : primitives.Sound) (key : Key) (v : Yaml) :
    AllOrNothing primitives key v ↔
      ((¬ Sealed (v.strings .value) .key ∧
          ∀ text, (Place.value, text) ∈ v.strings .value → isSealed text = true →
            Opens primitives key text) →
        ¬ Sealed (v.strings .value) .inner) := by
  constructor
  · rintro whole ⟨clear, opens⟩
    have walked : decryptTree primitives key v =
        .ok (v.mapValues (plainOf primitives key), sealedValues (v.strings .value)) := by
      apply (decrypt_tree_ok primitives key v _ _).mpr
      refine ⟨?_, rfl, rfl⟩
      rintro ⟨place, text⟩ listed
      refine ⟨?_, ?_⟩
      · rintro rfl
        exact eq_false_of_ne_true fun marked => clear ⟨text, listed, marked⟩
      · rintro rfl marked
        exact opens text listed marked
    exact (whole.decrypted _ _ walked).keysClear.2
  · intro condition
    refine ⟨reported_iff v, untouched primitives, ?_⟩
    intro out n walked
    obtain ⟨passes, rfl, rfl⟩ := (decrypt_tree_ok primitives key v out n).mp walked
    have keys : ¬ Sealed (v.strings .value) .key := by
      rintro ⟨text, listed, marked⟩
      rw [(passes _ listed).1 rfl] at marked
      cases marked
    have opens : ∀ text, (Place.value, text) ∈ v.strings .value → isSealed text = true →
        Opens primitives key text := fun text listed => (passes _ listed).2 rfl
    refine ⟨⟨plainOf primitives key, rfl, ?_⟩, rfl, keys, condition ⟨keys, opens⟩⟩
    intro text listed
    split
    · rename_i marked
      exact plain_of_stands primitives sound marked (opens text listed marked)
    · rename_i clear
      exact plain_of_clear primitives (eq_false_of_ne_true clear)

def transparent : Primitives Unit where
  publicOf key := key
  diffieHellman _ _ := ⟨List.replicate 32 0, List.length_replicate⟩
  hkdf shared _ := some shared
  cipherOf _ := .ok ()
  encrypt _ _ plaintext := .ok (plaintext ++ List.replicate tagLength 0)
  decrypt _ _ ciphertext := .ok (ciphertext.take (ciphertext.length - tagLength))
  encode bytes := bytes.map fun byte => Char.ofNat byte.toNat
  decode text := .ok (text.map fun char => UInt8.ofNat char.toNat)
  notUtf8 _ := []

theorem transparent_sound : transparent.Sound where
  agree _ _ := rfl
  undone := by
    intro _ _ plaintext _ encrypted
    cases encrypted
    change Except.ok _ = _
    rw [length_append, length_replicate, Nat.add_sub_cancel, take_left]
  tagged := by
    intro _ _ plaintext _ encrypted
    cases encrypted
    rw [length_append, length_replicate]
  decoded := by
    intro bytes
    have same : ((bytes.map fun byte => Char.ofNat byte.toNat).map fun char =>
        UInt8.ofNat char.toNat) = bytes := by
      rw [map_map]
      apply map_id''
      intro byte
      have small : byte.toNat.isValidChar := Or.inl (by have := byte.toNat_lt; omega)
      rw [Function.comp_apply, Utf8.toNat_ofNat small, UInt8.ofNat_toNat]
    exact congrArg Except.ok same

def zeroKey : Key := ⟨List.replicate 32 0, List.length_replicate⟩

/-- `? [ENC[x]] : v`. -/
def nestedKey : Yaml :=
  .mapping [(.sequence [.string "ENC[x]".toList], .string "v".toList)]

/-- A sealed text inside a key is reported, and stays without an error. -/
theorem nested_key_kept : transparent.Sound ∧ hasSealed nestedKey = true ∧
    decryptTree transparent zeroKey nestedKey = .ok (nestedKey, 0) ∧
    ¬ AllOrNothing transparent zeroKey nestedKey := by
  have walked : decryptTree transparent zeroKey nestedKey = .ok (nestedKey, 0) := by rfl
  refine ⟨transparent_sound, by rfl, walked, ?_⟩
  intro whole
  exact (whole.decrypted _ _ walked).keysClear.2 ⟨"ENC[x]".toList, by decide, by decide⟩

/-- `db: v`. -/
def plainTree : Yaml := .mapping [(.string "db".toList, .string "v".toList)]

theorem all_or_nothing_plain : AllOrNothing transparent zeroKey plainTree := by
  apply (all_or_nothing_iff transparent transparent_sound zeroKey plainTree).mpr
  rintro _ ⟨text, listed, _⟩
  revert listed
  simp [plainTree, Yaml.strings, entryStrings, Place.ofKey]

end OnlyJs.Secret.SealedTree
