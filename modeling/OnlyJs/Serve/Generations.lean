import Mathlib.Data.Nat.Digits.Defs
import OnlyJs.Lib.Association
import OnlyJs.Serve.Encodings

/-!
# Generations of the compression cache

A compressed body is kept under a name made of the path, the metadata of the file and the
algorithm with its quality. Writing a new body removes the names of its shard that begin
like its own up to the algorithm: these are the older generations of the same thing.
-/

namespace OnlyJs.Serve.Generations

open Lib Serve.Encodings List

abbrev Text := List Char

abbrev Bytes := List UInt8

structure Metadata where
  ino : Nat
  /-- Nanoseconds since the epoch, where the system has a time and it is not before. -/
  modified : Option Nat
  len : Nat
deriving DecidableEq

structure StaticLayerOpts where
  brotliQuality : Nat
  gzipLevel : Nat
deriving DecidableEq

def hex (number : Nat) : Text :=
  if number = 0 then ['0'] else (Nat.digits 16 number).reverse.map Nat.digitChar

def hexByte (byte : UInt8) : Text :=
  [Nat.digitChar (byte.toNat / 16), Nat.digitChar (byte.toNat % 16)]

def fingerprint (sha1 : Bytes → Bytes) (file : Text) : Text :=
  (sha1 (Utf8.encode file)).flatMap hexByte

def mtimeNs (metadata : Metadata) : Nat :=
  match metadata.modified with
  | some elapsed => elapsed % 2 ^ 64
  | none => 0

def algorithm : Encoding → Text
  | .br => "br".toList
  | .gzip => "gz".toList
  | .identity => "id".toList

def quality (opts : StaticLayerOpts) : Encoding → Nat
  | .br => opts.brotliQuality
  | .gzip => opts.gzipLevel
  | .identity => 0

def stamped (sha1 : Bytes → Bytes) (file : Text) (metadata : Metadata) : Text :=
  fingerprint sha1 file ++ '-' :: hex metadata.ino ++ '-' :: hex (mtimeNs metadata) ++
    '-' :: hex metadata.len

def cacheKey (sha1 : Bytes → Bytes) (file : Text) (metadata : Metadata) (enc : Encoding)
    (opts : StaticLayerOpts) : Text :=
  stamped sha1 file metadata ++ '-' :: algorithm enc ++ Nat.toDigits 10 (quality opts enc)

abbrev Place := Text × Text

def cachePath (key : Text) : Place := (key.take 2, key)

abbrev Cache := List (Place × Bytes)

/-- What the file system answers to a call. -/
structure Disk where
  body : Option Bytes
  created : Bool
  wrote : Bool
  renamed : Bool
  listed : Bool
  pid : Nat

structure Call where
  file : Text
  metadata : Metadata
  enc : Encoding
  opts : StaticLayerOpts
  disk : Disk

structure Libraries where
  sha1 : Bytes → Bytes
  brotli : Nat → Bytes → Option Bytes
  gzip : Nat → Bytes → Option Bytes

def compressBody (libraries : Libraries) (enc : Encoding) (body : Bytes)
    (opts : StaticLayerOpts) : Option Bytes :=
  match enc with
  | .br => (libraries.brotli opts.brotliQuality body).filter fun out => out.length < body.length
  | .gzip => (libraries.gzip opts.gzipLevel body).filter fun out => out.length < body.length
  | .identity => none

def beforeLast (key : Text) : Text :=
  match key.reverse.dropWhile (· ≠ '-') with
  | [] => key
  | _ :: rest => rest.reverse

def generationPrefix (key : Text) (enc : Encoding) : Text :=
  beforeLast key ++ '-' :: (if enc = .br then "br".toList else "gz".toList)

def evicts (key : Text) (enc : Encoding) (place : Place) : Bool :=
  place.1 = key.take 2 && place.2 != key && (generationPrefix key enc).isPrefixOf place.2

def evict (cache : Cache) (key : Text) (enc : Encoding) : Cache :=
  cache.filter fun entry => !evicts key enc entry.1

def remove (cache : Cache) (place : Place) : Cache := cache.filter fun entry => entry.1 != place

def tmpPath (key : Text) (pid : Nat) : Place :=
  (key.take 2, key ++ ".tmp-".toList ++ Nat.toDigits 10 pid)

def store (cache : Cache) (key : Text) (enc : Encoding) (disk : Disk) (out : Bytes) : Cache :=
  if disk.created && disk.wrote then
    let written := Association.put cache (tmpPath key disk.pid) out
    if disk.renamed then
      let renamed := Association.put (remove written (tmpPath key disk.pid)) (cachePath key) out
      if disk.listed then evict renamed key enc else renamed
    else written
  else cache

def compressedBodyOrCache (libraries : Libraries) (cache : Cache) (call : Call) :
    Option Bytes × Cache :=
  let key := cacheKey libraries.sha1 call.file call.metadata call.enc call.opts
  match cache.lookup (cachePath key) with
  | some body => (some body, cache)
  | none =>
    match call.disk.body.bind fun body =>
        compressBody libraries call.enc body call.opts with
    | none => (none, cache)
    | some out => (some out, store cache key call.enc call.disk out)

variable (libraries : Libraries)

def Call.key (call : Call) : Text :=
  cacheKey libraries.sha1 call.file call.metadata call.enc call.opts

def Call.place (call : Call) : Place := cachePath (call.key libraries)

def step (cache : Cache) (call : Call) : Cache := (compressedBodyOrCache libraries cache call).2

def after (calls : List Call) : Cache := calls.foldl (step libraries) []

/-- The call misses, its file compresses, and the disk does all it is asked. -/
structure Written (cache : Cache) (call : Call) : Prop where
  missed : cache.lookup (call.place libraries) = none
  compressed : ∃ body out, call.disk.body = some body ∧
    compressBody libraries call.enc body call.opts = some out
  created : call.disk.created = true
  wrote : call.disk.wrote = true
  renamed : call.disk.renamed = true
  listed : call.disk.listed = true

/-- Every call of the run is a successful write. -/
def Successful (calls : List Call) : Prop :=
  ∀ before call rest, calls = before ++ call :: rest →
    Written libraries (after libraries before) call

/-- A place for the file under the algorithm, whatever its metadata and the quality. -/
def IsEntry (file : Text) (enc : Encoding) (place : Place) : Prop :=
  ∃ metadata opts, place = cachePath (cacheKey libraries.sha1 file metadata enc opts)

/-- The new body is the only one of its file and algorithm, and all others stay. -/
structure Kept (before : Cache) (call : Call) (cache : Cache) : Prop where
  one : ∀ place, (cache.lookup place).isSome = true ∧
    IsEntry libraries call.file call.enc place ↔ place = call.place libraries
  untouched : ∀ place, ¬IsEntry libraries call.file call.enc place →
    cache.lookup place = before.lookup place

def OneGeneration (calls : List Call) : Prop :=
  ∀ before call rest, calls = before ++ call :: rest →
    Kept libraries (after libraries before) call (after libraries (before ++ [call]))

def stamp (metadata : Metadata) : Nat × Nat × Nat :=
  (metadata.ino, mtimeNs metadata, metadata.len)

/-- No file is written under an algorithm with two stamps. -/
def OneStamp (calls : List Call) : Prop :=
  ∀ first ∈ calls, ∀ second ∈ calls,
    fingerprint libraries.sha1 first.file = fingerprint libraries.sha1 second.file →
      first.enc = second.enc → stamp first.metadata = stamp second.metadata

section Fields

variable {libraries}

theorem digit_char : ∀ digit < 16, Nat.digitChar digit ≠ '-' ∧ Nat.digitChar digit ≠ '.' := by
  decide

def undigit (char : Char) : Nat :=
  ((List.range 16).find? fun digit => Nat.digitChar digit = char).getD 0

theorem undigit_digit : ∀ digit < 16, undigit (Nat.digitChar digit) = digit := by
  decide

variable {char : Char}

theorem hex_chars {number : Nat} (member : char ∈ hex number) :
    char ≠ '-' ∧ char ≠ '.' := by
  unfold hex at member
  split at member
  · rw [mem_singleton.mp member]
    decide
  · obtain ⟨digit, inside, rfl⟩ := mem_map.mp member
    exact digit_char digit (Nat.digits_lt_base (by decide) (mem_reverse.mp inside))

theorem hex_injective {number other : Nat} (same : hex number = hex other) : number = other := by
  have back (number : Nat) : Nat.ofDigits 16 ((hex number).map undigit).reverse = number := by
    unfold hex
    split
    · rename_i zero
      rw [zero]
      rfl
    · have undone : ((Nat.digits 16 number).reverse.map Nat.digitChar).map undigit =
          (Nat.digits 16 number).reverse.map id := by
        rw [map_map]
        apply map_congr_left
        intro digit inside
        exact undigit_digit digit
          (Nat.digits_lt_base (by decide) (mem_reverse.mp inside))
      rw [undone, map_id, reverse_reverse, Nat.ofDigits_digits]
  rw [← back number, same, back]

theorem fingerprint_chars {sha1 : Bytes → Bytes} {file : Text}
    (member : char ∈ fingerprint sha1 file) : char ≠ '-' ∧ char ≠ '.' := by
  obtain ⟨byte, _, inside⟩ := mem_flatMap.mp member
  have small := byte.toNat_lt
  rcases mem_pair.mp inside with rfl | rfl
  · exact digit_char _ (by omega)
  · exact digit_char _ (by omega)

def coded (enc : Encoding) (opts : StaticLayerOpts) : Text :=
  algorithm enc ++ Nat.toDigits 10 (quality opts enc)

variable {enc : Encoding} {opts : StaticLayerOpts}

theorem coded_chars (member : char ∈ coded enc opts) : char ≠ '-' ∧ char ≠ '.' := by
  rcases mem_append.mp member with named | digit
  · have plain : (algorithm enc).all (fun char => char != '-' && char != '.') = true := by
      cases enc <;> rfl
    have both := all_eq_true.mp plain char named
    rw [Bool.and_eq_true, bne_iff_ne, bne_iff_ne] at both
    exact both
  · have digits := Decimal.isDigit_toDigits digit
    refine ⟨?_, ?_⟩
    · rintro rfl
      cases digits
    · rintro rfl
      cases digits

variable (sha1 : Bytes → Bytes) (file : Text)

theorem key_fields (metadata : Metadata) (enc : Encoding) (opts : StaticLayerOpts) :
    cacheKey sha1 file metadata enc opts = fingerprint sha1 file ++ '-' :: (hex metadata.ino ++
      '-' :: (hex (mtimeNs metadata) ++ '-' :: (hex metadata.len ++ '-' :: coded enc opts))) := by
  simp only [cacheKey, stamped, coded, append_assoc, cons_append]

theorem prefix_field {first second rest more : Text} (plain : '-' ∉ first)
    (plainToo : '-' ∉ second) :
    first ++ '-' :: rest <+: second ++ '-' :: more ↔ first = second ∧ rest <+: more := by
  induction first generalizing second with
  | nil =>
    cases second with
    | nil => simp only [nil_append, cons_prefix_cons]
    | cons char second =>
      rw [nil_append, cons_append, cons_prefix_cons]
      constructor
      · rintro ⟨rfl, _⟩
        exact absurd mem_cons_self plainToo
      · rintro ⟨same, _⟩
        cases same
  | cons char first ih =>
    rw [mem_cons, not_or] at plain
    cases second with
    | nil =>
      rw [nil_append, cons_append, cons_prefix_cons]
      constructor
      · rintro ⟨rfl, _⟩
        exact absurd rfl plain.1
      · rintro ⟨same, _⟩
        cases same
    | cons other second =>
      rw [mem_cons, not_or] at plainToo
      rw [cons_append, cons_append, cons_prefix_cons, ih plain.2 plainToo.2,
        List.cons.injEq, and_assoc]

theorem algorithm_prefix {other : Encoding} :
    algorithm enc <+: coded other opts ↔ enc = other := by
  constructor
  · intro inside
    cases enc <;> cases other <;> first | rfl | skip
    all_goals
      obtain ⟨rest, same⟩ := inside
      cases same
  · rintro rfl
    exact prefix_append _ _

theorem before_last {front back : Text} (plain : '-' ∉ back) :
    beforeLast (front ++ '-' :: back) = front := by
  have solid : ∀ char ∈ back.reverse, decide (char ≠ '-') = true := by
    intro char member
    apply decide_eq_true
    rintro rfl
    exact plain (mem_reverse.mp member)
  rw [beforeLast, reverse_append, reverse_cons, append_assoc,
    dropWhile_append_of_pos solid]
  exact reverse_reverse front

theorem not_mem_coded (enc : Encoding) (opts : StaticLayerOpts) : '-' ∉ coded enc opts :=
  fun member => (coded_chars member).1 rfl

theorem not_mem_hex (number : Nat) : '-' ∉ hex number := fun member => (hex_chars member).1 rfl

theorem not_mem_fingerprint : '-' ∉ fingerprint sha1 file :=
  fun member => (fingerprint_chars member).1 rfl

theorem prefix_iff {sha1 : Bytes → Bytes} {file other : Text} {metadata stale : Metadata}
    {code : Encoding} {settings : StaticLayerOpts} (proper : enc ≠ .identity) :
    generationPrefix (cacheKey sha1 file metadata enc opts) enc <+:
        cacheKey sha1 other stale code settings ↔
      fingerprint sha1 file = fingerprint sha1 other ∧ stamp metadata = stamp stale ∧
        enc = code := by
  have own : generationPrefix (cacheKey sha1 file metadata enc opts) enc =
      fingerprint sha1 file ++ '-' :: (hex metadata.ino ++ '-' :: (hex (mtimeNs metadata) ++
        '-' :: (hex metadata.len ++ '-' :: algorithm enc))) := by
    have tag : (if enc = .br then "br".toList else "gz".toList) = algorithm enc := by
      cases enc
      · rfl
      · rfl
      · exact absurd rfl proper
    have cut : beforeLast (cacheKey sha1 file metadata enc opts) = stamped sha1 file metadata := by
      rw [cacheKey, append_assoc]
      exact before_last (not_mem_coded enc opts)
    rw [generationPrefix, cut, tag]
    simp only [stamped, append_assoc, cons_append]
  rw [own, key_fields, prefix_field (not_mem_fingerprint _ _) (not_mem_fingerprint _ _),
    prefix_field (not_mem_hex _) (not_mem_hex _), prefix_field (not_mem_hex _) (not_mem_hex _),
    prefix_field (not_mem_hex _) (not_mem_hex _), algorithm_prefix, stamp, stamp, Prod.mk.injEq,
    Prod.mk.injEq]
  constructor
  · rintro ⟨path, ino, time, len, code⟩
    exact ⟨path, ⟨hex_injective ino, hex_injective time, hex_injective len⟩, code⟩
  · rintro ⟨path, ⟨ino, time, len⟩, code⟩
    exact ⟨path, by rw [ino], by rw [time], by rw [len], code⟩

end Fields

section Writes

variable {libraries} {cache : Cache} {call : Call}

theorem lookup_kept (keep : Place → Bool) (cache : Cache) (place : Place) :
    List.lookup place (cache.filter fun entry => keep entry.1) =
      if keep place then cache.lookup place else none := by
  induction cache with
  | nil => split <;> rfl
  | cons entry cache ih =>
    obtain ⟨other, body⟩ := entry
    rw [filter_cons]
    by_cases same : place = other
    · subst same
      by_cases kept : keep place = true
      · rw [if_pos kept, if_pos kept, lookup_cons_self, lookup_cons_self]
      · rw [if_neg kept, ih, if_neg kept, if_neg kept]
    · have missed : (place == other) = false := beq_eq_false_iff_ne.mpr same
      by_cases kept : keep other = true
      · rw [if_pos kept, lookup_cons, lookup_cons, missed]
        exact ih
      · rw [if_neg kept, lookup_cons, missed]
        exact ih

/-- Every place of the cache is one that some call has. -/
def Named (libraries : Libraries) (cache : Cache) : Prop :=
  ∀ place, (cache.lookup place).isSome = true → ∃ call : Call, place = call.place libraries

theorem key_same {sha1 : Bytes → Bytes} {file other : Text} {metadata stale : Metadata}
    {enc code : Encoding} {opts settings : StaticLayerOpts}
    (same : cacheKey sha1 file metadata enc opts = cacheKey sha1 other stale code settings) :
    fingerprint sha1 file = fingerprint sha1 other ∧ stamp metadata = stamp stale ∧ enc = code := by
  have inside : cacheKey sha1 file metadata enc opts <+: cacheKey sha1 other stale code settings :=
    same ▸ prefix_rfl
  rw [key_fields, key_fields, prefix_field (not_mem_fingerprint _ _) (not_mem_fingerprint _ _),
    prefix_field (not_mem_hex _) (not_mem_hex _), prefix_field (not_mem_hex _) (not_mem_hex _),
    prefix_field (not_mem_hex _) (not_mem_hex _)] at inside
  obtain ⟨path, ino, time, len, tail⟩ := inside
  refine ⟨path, ?_, algorithm_prefix.mp ((prefix_append _ _).trans tail)⟩
  rw [stamp, stamp, hex_injective ino, hex_injective time, hex_injective len]

theorem is_entry_iff (file : Text) (enc : Encoding) (call : Call) :
    IsEntry libraries file enc (call.place libraries) ↔
      fingerprint libraries.sha1 file = fingerprint libraries.sha1 call.file ∧ enc = call.enc := by
  constructor
  · rintro ⟨metadata, opts, same⟩
    obtain ⟨path, _, code⟩ := key_same (Prod.mk.inj same).2
    exact ⟨path.symm, code.symm⟩
  · rintro ⟨path, rfl⟩
    refine ⟨call.metadata, call.opts, ?_⟩
    rw [Call.place, Call.key, key_fields, key_fields, path]

theorem is_entry_own (call : Call) :
    IsEntry libraries call.file call.enc (call.place libraries) :=
  (is_entry_iff call.file call.enc call).mpr ⟨rfl, rfl⟩

/-- Two calls whose bodies have one stamp, file and algorithm. -/
def SameGroup (libraries : Libraries) (first second : Call) : Prop :=
  fingerprint libraries.sha1 first.file = fingerprint libraries.sha1 second.file ∧
    stamp first.metadata = stamp second.metadata ∧ first.enc = second.enc

instance (libraries : Libraries) (first second : Call) :
    Decidable (SameGroup libraries first second) :=
  inferInstanceAs (Decidable (_ ∧ _ ∧ _))

theorem Written.proper (written : Written libraries cache call) : call.enc ≠ .identity := by
  obtain ⟨body, out, _, compressed⟩ := written.compressed
  intro identity
  rw [identity] at compressed
  cases compressed

theorem not_tmp (call other : Call) (pid : Nat) :
    call.place libraries ≠ tmpPath (other.key libraries) pid := by
  intro same
  have dot : '.' ∈ call.key libraries := by
    rw [(Prod.mk.inj same).2]
    exact mem_append_left _ (mem_append_right _ (by decide))
  rw [Call.key, key_fields] at dot
  simp only [mem_append, mem_cons] at dot
  rcases dot with path | equal | ino | equal | time | equal | len | equal | code
  · exact (fingerprint_chars path).2 rfl
  · cases equal
  · exact (hex_chars ino).2 rfl
  · cases equal
  · exact (hex_chars time).2 rfl
  · cases equal
  · exact (hex_chars len).2 rfl
  · cases equal
  · exact (coded_chars code).2 rfl

theorem shard_same {key other : Text} {enc : Encoding}
    (own : generationPrefix key enc <+: key) (inside : generationPrefix key enc <+: other) :
    other.take 2 = key.take 2 := by
  have long : 2 ≤ (generationPrefix key enc).length := by
    unfold generationPrefix
    split <;> (rw [length_append]; exact Nat.le_add_left_of_le (by decide))
  have start {text : Text} (inside : generationPrefix key enc <+: text) :
      text.take 2 = (generationPrefix key enc).take 2 := by
    obtain ⟨rest, rfl⟩ := inside
    exact take_append_of_le_length long
  rw [start own, start inside]

theorem evicted_iff (written : Written libraries cache call) (other : Call) :
    evicts (call.key libraries) call.enc (other.place libraries) = true ↔
      other.place libraries ≠ call.place libraries ∧ SameGroup libraries call other := by
  have found : generationPrefix (call.key libraries) call.enc <+: other.key libraries ↔
      SameGroup libraries call other := prefix_iff written.proper
  rw [evicts, Bool.and_eq_true, Bool.and_eq_true, isPrefixOf_iff_prefix,
    decide_eq_true_iff, bne_iff_ne]
  constructor
  · rintro ⟨⟨_, different⟩, inside⟩
    exact ⟨fun same => different (Prod.mk.inj same).2, found.mp inside⟩
  · rintro ⟨different, group⟩
    have inside := found.mpr group
    have own : generationPrefix (call.key libraries) call.enc <+: call.key libraries :=
      (prefix_iff written.proper).mpr ⟨rfl, rfl, rfl⟩
    have shard : (other.place libraries).1 = (call.key libraries).take 2 := shard_same own inside
    refine ⟨⟨shard, fun same => different ?_⟩, inside⟩
    exact Prod.ext (shard.trans rfl) same

theorem lookup_evict (key : Text) (enc : Encoding) (place : Place) :
    (evict cache key enc).lookup place =
      if evicts key enc place = true then none else cache.lookup place := by
  rw [evict, lookup_kept (fun place => !evicts key enc place)]
  cases evicts key enc place <;> rfl

theorem lookup_remove (gone place : Place) :
    (remove cache gone).lookup place = if place = gone then none else cache.lookup place := by
  rw [remove, lookup_kept (fun place => place != gone)]
  by_cases same : place = gone
  · rw [if_pos same, if_neg fun kept => bne_iff_ne.mp kept same]
  · rw [if_neg same, if_pos (bne_iff_ne.mpr same)]

section

variable (written : Written libraries cache call)
include written

theorem lookup_written :
    ∃ out, ∀ place, (step libraries cache call).lookup place =
      if evicts (call.key libraries) call.enc place = true then none
      else if place = call.place libraries then some out
      else if place = tmpPath (call.key libraries) call.disk.pid then none
      else cache.lookup place := by
  obtain ⟨body, out, read, compressed⟩ := written.compressed
  refine ⟨out, fun place => ?_⟩
  have bound : (call.disk.body.bind fun body =>
      compressBody libraries call.enc body call.opts) = some out := by
    rw [read, Option.bind_some, compressed]
  have missed : List.lookup (cachePath (cacheKey libraries.sha1 call.file call.metadata call.enc
      call.opts)) cache = none := written.missed
  unfold step compressedBodyOrCache
  dsimp only
  rw [missed, bound]
  unfold store
  rw [written.created, written.wrote, written.renamed, written.listed]
  simp only [Bool.and_true, if_true]
  have key : cacheKey libraries.sha1 call.file call.metadata call.enc call.opts =
      call.key libraries := rfl
  have own : cachePath (call.key libraries) = call.place libraries := rfl
  rw [key, own, lookup_evict, Association.lookup_put, lookup_remove, Association.lookup_put]
  by_cases stale : place = tmpPath (call.key libraries) call.disk.pid
  · rw [if_pos stale, if_pos stale]
  · rw [if_neg stale, if_neg stale, if_neg stale]

theorem lookup_step :
    ∃ out, ∀ other : Call, (step libraries cache call).lookup (other.place libraries) =
      if other.place libraries = call.place libraries then some out
      else if SameGroup libraries call other then none
      else cache.lookup (other.place libraries) := by
  obtain ⟨out, places⟩ := lookup_written written
  refine ⟨out, fun other => ?_⟩
  rw [places, if_neg (not_tmp other call call.disk.pid)]
  by_cases own : other.place libraries = call.place libraries
  · rw [if_pos own, if_neg fun evicted => ((evicted_iff written other).mp evicted).1 own,
      if_pos own]
  · rw [if_neg own, if_neg own]
    by_cases group : SameGroup libraries call other
    · rw [if_pos ((evicted_iff written other).mpr ⟨own, group⟩), if_pos group]
    · rw [if_neg fun evicted => group ((evicted_iff written other).mp evicted).2, if_neg group]

theorem named_step (named : Named libraries cache) :
    Named libraries (step libraries cache call) := by
  obtain ⟨out, places⟩ := lookup_written written
  intro place present
  rw [places] at present
  split at present
  · cases present
  · split at present
    · rename_i own
      exact ⟨call, own⟩
    · split at present
      · cases present
      · exact named place present

theorem untouched_step (named : Named libraries cache) {place : Place}
    (foreign : ¬IsEntry libraries call.file call.enc place) :
    (step libraries cache call).lookup place = cache.lookup place := by
  by_cases caller : ∃ other : Call, place = other.place libraries
  · obtain ⟨other, rfl⟩ := caller
    obtain ⟨out, found⟩ := lookup_step written
    rw [found, if_neg, if_neg]
    · intro group
      exact foreign ((is_entry_iff call.file call.enc other).mpr ⟨group.1, group.2.2⟩)
    · intro own
      exact foreign (own ▸ is_entry_own call)
  · have absent {cache : Cache} (named : Named libraries cache) : cache.lookup place = none := by
      rw [← Option.not_isSome_iff_eq_none]
      exact fun present => caller (named place present)
    rw [absent named, absent (named_step written named)]

end

end Writes

section Condition

variable {libraries} {calls : List Call}

theorem after_append (before : List Call) (call : Call) :
    after libraries (before ++ [call]) = step libraries (after libraries before) call := by
  rw [after, foldl_append]
  rfl

variable {before : List Call}

theorem successful_front {rest : List Call} (successful : Successful libraries (before ++ rest)) :
    Successful libraries before := by
  intro front call back same
  apply successful front call (back ++ rest)
  rw [same, append_assoc, cons_append]

theorem successful_last {call : Call} (successful : Successful libraries (before ++ [call])) :
    Written libraries (after libraries before) call :=
  successful before call [] rfl

theorem successful_append {call : Call} (successful : Successful libraries before)
    (written : Written libraries (after libraries before) call) :
    Successful libraries (before ++ [call]) := by
  intro front other rest same
  rcases eq_nil_or_concat rest with rfl | ⟨middle, last, rfl⟩
  · obtain ⟨rfl, single⟩ := append_inj' same rfl
    cases single
    exact written
  · rw [concat_eq_append, ← cons_append, ← append_assoc] at same
    obtain ⟨whole, _⟩ := append_inj' same rfl
    exact successful front other middle whole

theorem named_after (successful : Successful libraries calls) :
    Named libraries (after libraries calls) := by
  induction calls using List.reverseRecOn with
  | nil => exact fun place present => nomatch present
  | append_singleton before call ih =>
    rw [after_append]
    exact named_step (successful_last successful) (ih (successful_front successful))

theorem present_written (successful : Successful libraries calls) {other : Call}
    (present : ((after libraries calls).lookup (other.place libraries)).isSome = true) :
    ∃ call ∈ calls, other.place libraries = call.place libraries := by
  induction calls using List.reverseRecOn with
  | nil => cases present
  | append_singleton before call ih =>
    obtain ⟨out, found⟩ := lookup_step (successful_last successful)
    rw [after_append, found] at present
    split at present
    · rename_i own
      exact ⟨call, mem_append_right _ (mem_singleton_self _), own⟩
    · split at present
      · cases present
      · obtain ⟨first, member, same⟩ := ih (successful_front successful) present
        exact ⟨first, mem_append_left _ member, same⟩

variable {first : Call}

theorem group_present (successful : Successful libraries calls) (member : first ∈ calls) :
    ∃ call, SameGroup libraries call first ∧
      ((after libraries calls).lookup (call.place libraries)).isSome = true := by
  induction calls using List.reverseRecOn with
  | nil => cases member
  | append_singleton before call ih =>
    obtain ⟨out, found⟩ := lookup_step (successful_last successful)
    rw [after_append]
    by_cases group : SameGroup libraries call first
    · exact ⟨call, group, by rw [found, if_pos rfl]; rfl⟩
    · rcases mem_append.mp member with member | member
      · obtain ⟨other, same, present⟩ := ih (successful_front successful) member
        refine ⟨other, same, ?_⟩
        rw [found]
        split
        · rfl
        · rw [if_neg]
          · exact present
          · intro own
            exact group ⟨own.1.trans same.1, own.2.1.trans same.2.1, own.2.2.trans same.2.2⟩
      · rw [mem_singleton.mp member] at group
        exact absurd ⟨rfl, rfl, rfl⟩ group

theorem place_group {second : Call} (same : first.place libraries = second.place libraries) :
    SameGroup libraries first second :=
  key_same (Prod.mk.inj same).2

theorem two_stamps (successful : Successful libraries calls) (kept : OneGeneration libraries calls)
    {rest : List Call} {second : Call} (whole : calls = before ++ second :: rest)
    (member : first ∈ before)
    (path : fingerprint libraries.sha1 first.file = fingerprint libraries.sha1 second.file)
    (code : first.enc = second.enc) : stamp first.metadata = stamp second.metadata := by
  by_contra apart
  have written := successful before second rest whole
  have front : Successful libraries before := by
    rw [whole] at successful
    exact successful_front successful
  obtain ⟨call, group, present⟩ := group_present front member
  obtain ⟨out, found⟩ := lookup_step written
  have different : ¬SameGroup libraries second call := by
    intro same
    exact apart (group.2.1.symm.trans same.2.1.symm)
  have foreign : call.place libraries ≠ second.place libraries :=
    fun own => different (place_group own.symm)
  apply foreign
  apply ((kept before second rest whole).one (call.place libraries)).mp
  refine ⟨?_, (is_entry_iff second.file second.enc call).mpr ?_⟩
  · rw [after_append, found, if_neg foreign, if_neg different]
    exact present
  · exact ⟨path.symm.trans group.1.symm, code.symm.trans group.2.2.symm⟩

/-- In every run of writes one generation is kept of each file and algorithm exactly if no file
is written under an algorithm with two stamps. -/
theorem one_generation_iff (successful : Successful libraries calls) :
    OneGeneration libraries calls ↔ OneStamp libraries calls := by
  constructor
  · intro kept first member second memberToo path code
    obtain ⟨before, rest, whole⟩ := append_of_mem memberToo
    rw [whole] at member
    rcases mem_append.mp member with earlier | member
    · exact two_stamps successful kept whole earlier path code
    · rcases mem_cons.mp member with rfl | later
      · rfl
      · obtain ⟨middle, last, split_⟩ := append_of_mem later
        have wholeToo : calls = (before ++ second :: middle) ++ first :: last := by
          rw [whole, split_, append_assoc, cons_append]
        have inside : second ∈ before ++ second :: middle :=
          mem_append_right _ mem_cons_self
        exact (two_stamps successful kept wholeToo inside path.symm code.symm).symm
  · intro stamps before call rest whole
    have written := successful before call rest whole
    have front : Successful libraries before := by
      rw [whole] at successful
      exact successful_front successful
    obtain ⟨out, found⟩ := lookup_step written
    rw [after_append]
    refine { one := fun place => ⟨?_, ?_⟩, untouched := fun place foreign =>
               untouched_step written (named_after front) foreign }
    · rintro ⟨present, metadata, opts, rfl⟩
      have named : cachePath (cacheKey libraries.sha1 call.file metadata call.enc opts) =
          ({ call with metadata := metadata, opts := opts } : Call).place libraries := rfl
      rw [named] at present ⊢
      rw [found] at present
      split at present
      · assumption
      · split at present
        · cases present
        · rename_i different
          obtain ⟨other, member, same⟩ := present_written front present
          have group := place_group same
          exfalso
          apply different
          refine ⟨rfl, ?_, rfl⟩
          have inside : other ∈ calls := whole ▸ mem_append_left _ member
          have own : call ∈ calls := whole ▸ mem_append_right _ mem_cons_self
          exact (stamps call own other inside group.1 group.2.2).trans group.2.1.symm
    · rintro rfl
      refine ⟨?_, is_entry_own call⟩
      rw [found, if_pos rfl]
      rfl

end Condition

/-- The digest of `/site/app.js`, and compressors that keep one byte. -/
def plainLibraries : Libraries where
  sha1 _ := [71, 173, 171, 186, 48, 37, 154, 124, 57, 90, 205, 254,
    194, 16, 95, 148, 53, 32, 9, 235]
  brotli _ body := some (body.take 1)
  gzip _ body := some (body.take 1)

def appCall (modified quality : Nat) : Call where
  file := "/site/app.js".toList
  metadata := { ino := 7, modified := some modified, len := 4 }
  enc := .br
  opts := { brotliQuality := quality, gzipLevel := 6 }
  disk :=
    { body := some [1, 2, 3, 4]
      created := true
      wrote := true
      renamed := true
      listed := true
      pid := 1 }

theorem app_written {cache : Cache} {modified quality : Nat}
    (missed : cache.lookup ((appCall modified quality).place plainLibraries) = none) :
    Written plainLibraries cache (appCall modified quality) where
  missed := missed
  compressed := ⟨[1, 2, 3, 4], [1], rfl, rfl⟩
  created := rfl
  wrote := rfl
  renamed := rfl
  listed := rfl

theorem app_successful {modified changed quality other : Nat}
    (different : (appCall changed other).place plainLibraries ≠
      (appCall modified quality).place plainLibraries) :
    Successful plainLibraries [appCall modified quality, appCall changed other] := by
  have first : Written plainLibraries (after plainLibraries []) (appCall modified quality) :=
    app_written rfl
  have none_before : Successful plainLibraries [] := by
    intro before call rest same
    exact absurd same.symm (append_ne_nil_of_right_ne_nil _ (cons_ne_nil _ _))
  have single := successful_append none_before first
  apply successful_append single
  apply app_written
  obtain ⟨out, found⟩ := lookup_step first
  rw [after_append, found, if_neg different]
  split <;> rfl

/-- Another quality takes the place of the first. -/
theorem one_generation_quality :
    OneGeneration plainLibraries [appCall 100 5, appCall 100 6] := by
  apply (one_generation_iff (app_successful ?_)).mpr
  · intro first member second memberToo _ _
    rcases mem_pair.mp member with rfl | rfl <;>
      rcases mem_pair.mp memberToo with rfl | rfl <;> rfl
  · intro same
    have keys := (Prod.mk.inj same).2
    exact absurd (append_cancel_left keys) (by decide)

/-- A file that was changed leaves its old body behind. -/
theorem changed_file_leaves_two :
    Successful plainLibraries [appCall 100 5, appCall 200 5] ∧
      ¬OneGeneration plainLibraries [appCall 100 5, appCall 200 5] := by
  have different : (appCall 200 5).place plainLibraries ≠ (appCall 100 5).place plainLibraries := by
    intro same
    exact absurd (place_group same).2.1 (by decide)
  have successful := app_successful different
  refine ⟨successful, fun kept => ?_⟩
  have whole : [appCall 100 5, appCall 200 5] = [appCall 100 5] ++ appCall 200 5 :: [] := rfl
  have same := two_stamps successful kept whole mem_cons_self rfl rfl
  exact absurd same (by decide)

end OnlyJs.Serve.Generations
