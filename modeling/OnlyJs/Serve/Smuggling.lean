import Mathlib.Data.List.Forall2
import OnlyJs.Serve.Routes

/-!
# Parameters of a path

What the route table hands to a handler as parameters. A placeholder for one segment binds
text without a slash, a catch-all binds the rest of the path as it stands there; both are
percent-decoded as a whole. A decoded text falls into pieces at its slashes, and each piece
comes from one segment of the raw text.
-/

namespace OnlyJs.Serve

open Lib List Option

def bindings (raw : Params) : Params :=
  raw.foldl (fun params entry => params.set entry.1 entry.2) []

/-- No parameter carries a separator of another system or a step up or along the tree, and one
segment stays one segment. -/
structure Unsmuggled (catchAll : List Char → Bool) (params : Params) : Prop where
  clean : ∀ entry ∈ params, hasForbidden entry.2 = false
  proper : ∀ entry ∈ params, ∀ piece ∈ entry.2.splitOn '/', isDots piece = false
  single : ∀ entry ∈ params, catchAll entry.1 = false → '/' ∉ entry.2

/-- No segment of the raw text, decoded by itself, is a dot segment or has one between
slashes that it encodes. -/
def Plain (raw : List Char) : Prop :=
  ∀ segment ∈ raw.splitOn '/', ∀ decoded, decodeSegment segment = some decoded →
    ∀ piece ∈ decoded.splitOn '/', isDots piece = false

/-- Placeholders for one segment bind raw text without a slash. -/
def Binds (table : RouteTable) (catchAll : Nat → List Char → Bool) : Prop :=
  ∀ path slot raw, table.matchAt path = some (slot, raw) →
    ∀ entry ∈ raw, catchAll slot entry.1 = false → '/' ∉ entry.2

def RouteTable.answer (table : RouteTable) (request : List Char) (verb : String) :
    Option Lookup :=
  (normalize request).map fun path => table.lookup path verb

theorem percent_decode_literal {high low : UInt8} (rest : List UInt8)
    (unread : ∀ h l, hexValue high = some h → hexValue low = some l → False) :
    percentDecode (0x25 :: high :: low :: rest) = 0x25 :: percentDecode (high :: low :: rest) := by
  rw [percentDecode]
  split
  · rename_i h l readHigh readLow
    exact (unread h l readHigh readLow).elim
  · rfl

theorem percent_decode_plain {b : UInt8} (rest : List UInt8) (other : b ≠ 0x25) :
    percentDecode (b :: rest) = b :: percentDecode rest := by
  rw [percentDecode]
  intro _ _ _ same
  exact absurd same other

theorem percent_decode_slash_cons (second : List UInt8) :
    percentDecode (0x2f :: second) = 0x2f :: percentDecode second :=
  percent_decode_plain second (by decide)

theorem percent_decode_slash (first second : List UInt8) :
    percentDecode (first ++ 0x2f :: second) =
      percentDecode first ++ 0x2f :: percentDecode second := by
  have unread (value : UInt8) (read : hexValue 0x2f = some value) : False := by
    cases (show hexValue 0x2f = none by decide).symm.trans read
  induction first using percentDecode.induct with
  | case1 high low rest h l readLow readHigh ih =>
    simp only [cons_append, percentDecode, readHigh, readLow, ih]
  | case2 high low rest unread ih =>
    rw [percent_decode_literal rest unread]
    change _ = 0x25 :: (percentDecode (high :: low :: rest) ++ 0x2f :: percentDecode second)
    rw [← ih]
    exact percent_decode_literal _ unread
  | case3 b rest other ih =>
    by_cases percent : b = 0x25
    · rw [percent] at other ⊢
      match rest with
      | [] =>
        cases second with
        | nil => rfl
        | cons low second =>
          rfl
      | [high] =>
        change percentDecode (0x25 :: high :: 0x2f :: second) = _
        rw [percent_decode_literal second fun h l _ readLow => unread l readLow]
        exact congrArg (0x25 :: ·) ih
      | high :: low :: rest => exact (other high low rest rfl rfl).elim
    · rw [cons_append, percent_decode_plain _ percent, percent_decode_plain _ percent, ih]
      rfl
  | case4 => exact percent_decode_slash_cons second

theorem byte_ne_slash {n : Nat} (high : 0x80 ≤ n) (small : n < 256) : 0x2f ≠ Utf8.byte n := by
  intro same
  have code := congrArg UInt8.toNat same
  rw [Utf8.toNat_byte small] at code
  change 47 = n at code
  omega

theorem slash_encoded (char : Char) : 0x2f ∈ Utf8.encodeChar char ↔ char = '/' := by
  constructor
  · intro member
    unfold Utf8.encodeChar at member
    dsimp only at member
    have range := Utf8.char_range char
    split_ifs at member
    · rw [mem_singleton] at member
      have code := congrArg UInt8.toNat member
      rw [Utf8.toNat_byte (by omega)] at code
      exact Char.toNat_inj.mp code.symm
    all_goals
      simp only [mem_cons, not_mem_nil, or_false] at member
      refine absurd member ?_
      simp only [not_or]
      refine ⟨?_, ?_⟩
      all_goals try refine ⟨?_, ?_⟩
      all_goals try refine ⟨?_, ?_⟩
      all_goals exact byte_ne_slash (by omega) (by omega)
  · rintro rfl
    decide

theorem encode_split {text : List Char} {first second : List UInt8}
    (encoded : Utf8.encode text = first ++ 0x2f :: second) :
    ∃ left right, text = left ++ '/' :: right ∧ Utf8.encode left = first ∧
      Utf8.encode right = second := by
  induction text generalizing first with
  | nil =>
    cases first <;> cases encoded
  | cons char text ih =>
    rw [Utf8.encode, flatMap_cons, append_eq_append_iff] at encoded
    rcases encoded with ⟨between, start, rest⟩ | ⟨between, start, rest⟩
    · obtain ⟨left, right, split_, before, after⟩ := ih rest
      refine ⟨char :: left, right, by rw [split_, cons_append], ?_, after⟩
      rw [Utf8.encode, flatMap_cons, ← Utf8.encode, before, start]
    · cases between with
      | nil =>
        obtain ⟨left, right, split_, before, after⟩ := @ih [] rest.symm
        refine ⟨char :: left, right, by rw [split_, cons_append], ?_, after⟩
        rw [Utf8.encode, flatMap_cons, ← Utf8.encode, before, start, append_nil,
          append_nil]
      | cons b tail =>
        obtain ⟨rfl, remaining⟩ := List.cons.inj rest
        have slash : char = '/' := by
          rw [← slash_encoded, start]
          exact mem_append_right _ mem_cons_self
        rw [slash] at start
        have alone : first = [] ∧ tail = [] := by
          have length := congrArg List.length start
          rw [length_append, length_cons] at length
          change 1 = _ at length
          exact ⟨length_eq_zero_iff.mp (by omega), length_eq_zero_iff.mp (by omega)⟩
        rw [alone.2] at remaining
        exact ⟨[], text, by rw [slash, nil_append], alone.1.symm, remaining.symm⟩

theorem decode_utf8_iff {bytes : List UInt8} {text : List Char} :
    decodeUtf8 bytes = some text ↔ Utf8.encode text = bytes := by
  unfold decodeUtf8
  dsimp only
  constructor
  · intro decoded
    split at decoded
    · rename_i valid
      rw [← Option.some.inj decoded]
      exact valid
    · cases decoded
  · rintro rfl
    rw [Utf8.decode_encode, if_pos rfl]

theorem decode_segment_slash {first second value : List Char} :
    decodeSegment (first ++ '/' :: second) = some value ↔
      ∃ left right, decodeSegment first = some left ∧ decodeSegment second = some right ∧
        value = left ++ '/' :: right := by
  have encoded : percentDecode (Utf8.encode (first ++ '/' :: second)) =
      percentDecode (Utf8.encode first) ++ 0x2f :: percentDecode (Utf8.encode second) := by
    rw [Utf8.encode_append]
    exact percent_decode_slash _ _
  simp only [decodeSegment, decode_utf8_iff, encoded]
  constructor
  · intro decoded
    obtain ⟨left, right, split_, before, after⟩ := encode_split decoded
    exact ⟨left, right, before, after, split_⟩
  · rintro ⟨left, right, before, after, rfl⟩
    rw [Utf8.encode_append, before, ← after]
    rfl

theorem decoded_pieces (raw : List Char) {value : List Char}
    (decoded : decodeSegment raw = some value) (accepts : List Char → Prop) :
    (∀ piece ∈ value.splitOn '/', accepts piece) ↔
      ∀ segment ∈ raw.splitOn '/', ∀ text, decodeSegment segment = some text →
        ∀ piece ∈ text.splitOn '/', accepts piece := by
  by_cases slash : '/' ∈ raw
  · obtain ⟨first, second, rfl, unslashed⟩ := eq_append_cons_of_mem slash
    obtain ⟨left, right, before, after, rfl⟩ := decode_segment_slash.mp decoded
    have rest := decoded_pieces second after accepts
    rw [splitOn_append_cons_self, splitOn_append_cons_self_of_not_mem unslashed,
      forall_mem_append, forall_mem_cons, rest]
    refine and_congr_left' ⟨fun held text read => ?_, fun held => held left before⟩
    rw [before] at read
    rw [← Option.some.inj read]
    exact held
  · rw [splitOn_eq_singleton slash, forall_mem_singleton]
    refine ⟨fun held text read => ?_, fun held => held value decoded⟩
    rw [decoded] at read
    rw [← Option.some.inj read]
    exact held
termination_by raw.length

/-- A parameter of the table is its raw text, decoded and accepted. -/
def Decodes (entry param : List Char × List Char) : Prop :=
  entry.1 = param.1 ∧ decodeParam entry.2 = some param.2

variable {before params : Params}

theorem decodes_set (decoded : List.Forall₂ Decodes before params) {name raw value : List Char}
    (read : decodeParam raw = some value) :
    List.Forall₂ Decodes (before.set name raw) (params.set name value) := by
  refine rel_append ?_ (.cons ⟨rfl, read⟩ .nil)
  induction decoded with
  | nil => exact .nil
  | cons same _ ih =>
    rw [filter_cons, filter_cons, same.1]
    split
    · exact .cons same ih
    · exact ih

variable {raw : Params}

theorem decodes_bindings (decoded : decodeParams raw = some params) :
    List.Forall₂ Decodes (bindings raw) params := by
  have general (entries : Params) (before so : Params) (already : List.Forall₂ Decodes before so)
      (read : entries.foldlM (fun params entry =>
        (decodeParam entry.2).map (Params.set params entry.1)) so = some params) :
      List.Forall₂ Decodes
        (entries.foldl (fun params entry => Params.set params entry.1 entry.2) before) params := by
    induction entries generalizing before so with
    | nil =>
      cases read
      exact already
    | cons entry entries ih =>
      rw [foldlM_cons] at read
      obtain ⟨next, first, read⟩ := bind_eq_some_iff.mp read
      obtain ⟨value, accepted, rfl⟩ := map_eq_some_iff.mp first
      exact ih _ _ (decodes_set already accepted) read
  exact general raw [] [] .nil decoded

variable {entry : List Char × List Char}

theorem mem_bindings (member : entry ∈ bindings raw) : entry ∈ raw := by
  have general (entries before : Params)
      (bound : entry ∈
        entries.foldl (fun params entry => Params.set params entry.1 entry.2) before) :
      entry ∈ before ∨ entry ∈ entries := by
    induction entries generalizing before with
    | nil => exact .inl bound
    | cons first entries ih =>
      rcases ih _ bound with bound | bound
      · rcases mem_append.mp bound with bound | bound
        · exact .inl (mem_of_mem_filter bound)
        · rw [mem_singleton] at bound
          exact .inr (bound ▸ mem_cons_self)
      · exact .inr (mem_cons_of_mem _ bound)
  exact (general raw [] member).resolve_left not_mem_nil

theorem decode_param_iff {raw value : List Char} :
    decodeParam raw = some value ↔
      decodeSegment raw = some value ∧ isDots value = false ∧ hasForbidden value = false ∧
        ('/' ∈ value → '/' ∈ raw) := by
  rw [decodeParam, filter_eq_some_iff]
  by_cases inRaw : '/' ∈ raw
  · by_cases inValue : '/' ∈ value <;> simp [inRaw]
  · by_cases inValue : '/' ∈ value <;> simp [inRaw, inValue]

theorem decodes_param (decoded : List.Forall₂ Decodes before params) {param : List Char × List Char}
    (member : param ∈ params) :
    ∃ entry ∈ before, Decodes entry param := by
  induction decoded with
  | nil => cases member
  | cons same _ ih =>
    rcases mem_cons.mp member with rfl | member
    · exact ⟨_, mem_cons_self, same⟩
    · obtain ⟨entry, inside, found⟩ := ih member
      exact ⟨entry, mem_cons_of_mem _ inside, found⟩

theorem decodes_entry (decoded : List.Forall₂ Decodes before params) (member : entry ∈ before) :
    ∃ param ∈ params, Decodes entry param := by
  induction decoded with
  | nil => cases member
  | cons same _ ih =>
    rcases mem_cons.mp member with rfl | member
    · exact ⟨_, mem_cons_self, same⟩
    · obtain ⟨param, inside, found⟩ := ih member
      exact ⟨param, mem_cons_of_mem _ inside, found⟩

theorem lookup_hit {table : RouteTable} {path : List Char} {verb : String} {slot : Nat}
    {file : FilePath} {handler : String} (matched : table.matchAt path = some (slot, raw))
    (hit : table.lookup path verb = .hit file params handler) :
    decodeParams raw = some params := by
  rw [RouteTable.lookup, matched] at hit
  dsimp only at hit
  split at hit
  · cases hit
  · split at hit
    · split at hit
      · rename_i decoded
        cases hit
        exact decoded
      · cases hit
    · cases hit
    · cases hit

theorem hit_unsmuggled_iff {table : RouteTable} {catchAll : Nat → List Char → Bool}
    (binds : Binds table catchAll) {request path : List Char} {verb : String} {slot : Nat}
    {raw params : Params} {file : FilePath} {handler : String}
    (accepted : normalize request = some path) (matched : table.matchAt path = some (slot, raw))
    (hit : table.answer request verb = some (.hit file params handler)) :
    Unsmuggled (catchAll slot) params ↔
      ∀ entry ∈ bindings raw, catchAll slot entry.1 = true → Plain entry.2 := by
  rw [RouteTable.answer, accepted] at hit
  have decoded := decodes_bindings (lookup_hit matched (Option.some.inj hit))
  constructor
  · intro unsmuggled entry member _
    obtain ⟨param, inside, _, read⟩ := decodes_entry decoded member
    have proper := unsmuggled.proper param inside
    exact (decoded_pieces entry.2 (decode_param_iff.mp read).1 _).mp proper
  · intro plain
    have inOne {entry param : List Char × List Char} (member : entry ∈ bindings raw)
        (same : Decodes entry param) (one : catchAll slot param.1 = false) : '/' ∉ param.2 := by
      intro slash
      rw [← same.1] at one
      have slashed := (decode_param_iff.mp same.2).2.2.2 slash
      exact binds path slot raw matched entry (mem_bindings member) one slashed
    refine ⟨fun param inside => ?_, fun param inside => ?_, fun param inside one => ?_⟩
    · obtain ⟨entry, member, same⟩ := decodes_param decoded inside
      exact (decode_param_iff.mp same.2).2.2.1
    · obtain ⟨entry, member, same⟩ := decodes_param decoded inside
      cases kind : catchAll slot param.1 with
      | true =>
        rw [← same.1] at kind
        exact (decoded_pieces entry.2 (decode_param_iff.mp same.2).1 _).mpr
          (plain entry member kind)
      | false =>
        rw [splitOn_eq_singleton (inOne member same kind), forall_mem_singleton]
        exact (decode_param_iff.mp same.2).2.1
    · obtain ⟨entry, member, same⟩ := decodes_param decoded inside
      exact inOne member same one

/-- A table with the one route `/files/{*rest}`. -/
def filesTable : RouteTable where
  matchAt path :=
    ((stripPrefix "/files/".toList path).filter fun rest => !rest.isEmpty).map fun rest =>
      (0, [("rest".toList, rest)])
  nodes _ method := if method = "get" then some (.file 0 "get") else none
  files := [["files".toList, "api.js".toList]]
  replaced := []

def filesCatchAll (_ : Nat) (name : List Char) : Bool := name = "rest".toList

theorem files_bind : Binds filesTable filesCatchAll := by
  intro path slot raw matched entry member single
  obtain ⟨rest, _, same⟩ := map_eq_some_iff.mp matched
  rw [Prod.mk.injEq] at same
  rw [← same.2, mem_singleton] at member
  rw [member] at single
  cases single

theorem hit_unsmuggled_files :
    Unsmuggled (filesCatchAll 0) [("rest".toList, "docs/a b.txt".toList)] := by
  have accepted : normalize "/files/docs/a%20b.txt".toList =
      some "/files/docs/a%20b.txt".toList := by
    decide +kernel
  have matched : filesTable.matchAt "/files/docs/a%20b.txt".toList =
      some (0, [("rest".toList, "docs/a%20b.txt".toList)]) := by
    decide +kernel
  have hit : filesTable.answer "/files/docs/a%20b.txt".toList "GET" =
      some (.hit ["files".toList, "api.js".toList] [("rest".toList, "docs/a b.txt".toList)]
        "get") := by
    decide +kernel
  have proper : ∀ segment ∈ List.splitOn '/' "docs/a%20b.txt".toList,
      ∀ decoded ∈ decodeSegment segment, ∀ piece ∈ decoded.splitOn '/', isDots piece = false := by
    decide +kernel
  apply (hit_unsmuggled_iff files_bind accepted matched hit).mpr
  intro entry member _
  rw [mem_singleton.mp member]
  exact proper

/-- Encoded dots between the slashes of a catch-all step up the tree. -/
theorem encoded_dots_step_up :
    Binds filesTable filesCatchAll ∧
      filesTable.answer "/files/a/%2e%2e/b".toList "GET" =
        some (.hit ["files".toList, "api.js".toList] [("rest".toList, "a/../b".toList)] "get") ∧
      ¬ Unsmuggled (filesCatchAll 0) [("rest".toList, "a/../b".toList)] := by
  refine ⟨files_bind, by decide +kernel, fun unsmuggled => ?_⟩
  have proper := unsmuggled.proper _ mem_cons_self ['.', '.'] (by decide +kernel)
  exact absurd proper (by decide)

end OnlyJs.Serve
