import Mathlib.Data.List.DropRight
import OnlyJs.Lib.Utf8

/-!
# Request paths

The readers of a request path that the server shares: the wildcard match of the
anonymous lists, the guard in front of the route table, the mount prefix, and the
percent decoding of one segment. A path is its characters, still percent encoded.
-/

namespace OnlyJs.Serve

open Lib List

def isSlash (c : Char) : Bool := c = '/'

def trimStart (text : List Char) : List Char := text.dropWhile isSlash

def trimEnd (text : List Char) : List Char := text.rdropWhile isSlash

def trim (text : List Char) : List Char := trimEnd (trimStart text)

def splitSegments (path : List Char) : List (List Char) :=
  (path.splitOn '/').filter fun segment => !segment.isEmpty

/-- `*` stands for one segment and `**` for any number of them. -/
def segmentsMatch : List (List Char) → List (List Char) → Bool
  | [], [] => true
  | [], _ :: _ => false
  | piece :: pattern, path =>
    if piece = ['*', '*'] then path.tails.any fun rest => segmentsMatch pattern rest
    else
      match path with
      | [] => false
      | segment :: rest => (piece = segment || piece = ['*']) && segmentsMatch pattern rest

def pathMatches (list : List (List Char)) (path : List Char) : Bool :=
  list.any fun pattern => segmentsMatch (splitSegments pattern) (splitSegments path)

def hasForbidden (text : List Char) : Bool :=
  text.any fun c => c = '\x5c' || c = '\x00'

def isDots (segment : List Char) : Bool := segment = ['.'] || segment = ['.', '.']

def normalize (path : List Char) : Option (List Char) :=
  if hasForbidden path || path.head? != some '/' then none
  else
    let trimmed := trimEnd path
    if trimmed.isEmpty then some ['/']
    else if ((trimmed.drop 1).splitOn '/').any fun segment => segment.isEmpty || isDots segment then
      none
    else some trimmed

def stripPrefix : List Char → List Char → Option (List Char)
  | [], text => some text
  | _ :: _, [] => none
  | c :: start, d :: text => if c = d then stripPrefix start text else none

/-- The path below the mount that answers it; `none` outside of the mount. -/
def stripAppPrefix (start path : List Char) : Option (List Char) :=
  if start = ['/'] then some path
  else if path = start then some ['/']
  else (stripPrefix start path).filter fun rest => rest.head? = some '/'

def resolveAppPrefix (cfg : List Char) : Option (List Char) :=
  if cfg.head? = some '/' then
    let trimmed := trimEnd cfg
    some (if trimmed.isEmpty then ['/'] else trimmed)
  else none

def hexValue (b : UInt8) : Option UInt8 :=
  if 0x30 ≤ b ∧ b ≤ 0x39 then some (b - 0x30)
  else if 0x41 ≤ b ∧ b ≤ 0x46 then some (b - 0x37)
  else if 0x61 ≤ b ∧ b ≤ 0x66 then some (b - 0x57)
  else none

/-- A `%` that two hexadecimal digits do not follow stands for itself. -/
@[grind =]
def percentDecode : List UInt8 → List UInt8
  | 0x25 :: high :: low :: rest =>
    match hexValue high, hexValue low with
    | some h, some l => (h * 16 + l) :: percentDecode rest
    | _, _ => 0x25 :: percentDecode (high :: low :: rest)
  | b :: rest => b :: percentDecode rest
  | [] => []

/-- The text that valid UTF-8 encodes; anything else is refused, not repaired. -/
def decodeUtf8 (bytes : List UInt8) : Option (List Char) :=
  let text := Utf8.decodeLossy bytes
  if Utf8.encode text = bytes then some text else none

def decodeSegment (raw : List Char) : Option (List Char) :=
  decodeUtf8 (percentDecode (Utf8.encode raw))

theorem isSlash_iff {c : Char} : isSlash c = true ↔ c = '/' := decide_eq_true_iff

variable {start : List Char}

theorem stripPrefix_eq_some {text rest : List Char} :
    stripPrefix start text = some rest ↔ text = start ++ rest := by
  induction start generalizing text with
  | nil =>
    exact Option.some_inj
  | cons c start ih =>
    cases text with
    | nil => simp [stripPrefix]
    | cons d text =>
      rw [stripPrefix, cons_append, List.cons.injEq]
      by_cases same : c = d
      · rw [if_pos same, ih]
        exact ⟨fun found => ⟨same.symm, found⟩, fun found => found.2⟩
      · rw [if_neg same]
        constructor
        · intro found
          cases found
        · intro found
          exact absurd found.1.symm same

theorem trimEnd_append {before after : List Char} (kept : trimEnd after ≠ []) :
    trimEnd (before ++ after) = before ++ trimEnd after := by
  induction after using List.reverseRecOn with
  | nil => exact absurd (rdropWhile_nil _) kept
  | append_singleton after c ih =>
    rw [trimEnd] at kept
    rw [trimEnd, trimEnd, ← append_assoc, rdropWhile_concat, rdropWhile_concat]
    by_cases slash : isSlash c = true
    · rw [if_pos slash, if_pos slash]
      rw [rdropWhile_concat_pos _ _ _ slash] at kept
      exact ih kept
    · rw [if_neg slash, if_neg slash, append_assoc]

theorem trimEnd_append_slashes {before after : List Char} (slashes : trimEnd after = []) :
    trimEnd (before ++ after) = trimEnd before := by
  induction after using List.reverseRecOn with
  | nil => rw [append_nil]
  | append_singleton after c ih =>
    have each := rdropWhile_eq_nil_iff.mp slashes
    have slash : isSlash c = true := each c (by simp)
    rw [trimEnd, ← append_assoc, rdropWhile_concat_pos _ _ _ slash]
    apply ih
    exact rdropWhile_eq_nil_iff.mpr fun d inside => each d (by simp [inside])

variable {path : List Char}

theorem mem_segments {c : Char} (solid : c ≠ '/') :
    (∃ segment ∈ path.splitOn '/', c ∈ segment) ↔ c ∈ path := by
  induction path with
  | nil => simp
  | cons d path ih =>
    rw [splitOn_cons_eq_if_modifyHead]
    by_cases slash : (d == '/') = true
    · rw [if_pos slash, mem_cons, ← ih]
      have other : c ≠ d := fun same => solid (same.trans (beq_iff_eq.mp slash))
      simp [other]
    · rw [if_neg slash]
      obtain ⟨first, others, split⟩ :=
        exists_cons_of_ne_nil (splitOn_ne_nil '/' path)
      rw [split] at ih ⊢
      rw [modifyHead_cons, mem_cons, ← ih]
      simp only [mem_cons, exists_eq_or_imp]
      exact or_assoc

theorem hasForbidden_eq_false {text : List Char} :
    hasForbidden text = false ↔ ∀ segment ∈ text.splitOn '/', hasForbidden segment = false := by
  simp only [hasForbidden, any_eq_false]
  constructor
  · intro clean segment member c inside
    by_cases slash : c = '/'
    · rw [slash]
      decide
    · exact clean c ((mem_segments slash).mp ⟨segment, member, inside⟩)
  · intro clean c inside
    by_cases slash : c = '/'
    · rw [slash]
      decide
    · obtain ⟨segment, member, found⟩ := (mem_segments slash).mpr inside
      exact clean segment member c found

theorem normalize_isSome :
    (normalize path).isSome = true ↔
      hasForbidden path = false ∧ path.head? = some '/' ∧
        (trimEnd path = [] ∨
          ∀ segment ∈ ((trimEnd path).drop 1).splitOn '/',
            segment ≠ [] ∧ isDots segment = false) := by
  rw [normalize]
  by_cases clean : hasForbidden path = true
  · simp [clean]
  · by_cases rooted : path.head? = some '/'
    · by_cases root : trimEnd path = []
      · simp [root]
      · simp [clean, rooted, root]
    · simp [rooted]

theorem normalize_eq {normal : List Char} (read : normalize path = some normal) :
    normal = if trimEnd path = [] then ['/'] else trimEnd path := by
  rw [normalize] at read
  split at read
  · cases read
  · dsimp only at read
    by_cases root : trimEnd path = []
    · rw [if_pos (List.isEmpty_iff.mpr root)] at read
      rw [if_pos root]
      exact (Option.some.inj read).symm
    · rw [if_neg fun empty => root (List.isEmpty_iff.mp empty)] at read
      rw [if_neg root]
      split at read
      · cases read
      · exact (Option.some.inj read).symm

theorem resolveAppPrefix_shape {cfg : List Char} (configured : resolveAppPrefix cfg = some start) :
    start = ['/'] ∨ start ≠ [] ∧ trimEnd start = start := by
  rw [resolveAppPrefix] at configured
  split at configured
  · dsimp only at configured
    split at configured
    · exact .inl (Option.some.inj configured).symm
    · rename_i solid
      right
      rw [← Option.some.inj configured]
      exact ⟨fun empty => solid (by rw [empty]; rfl), rdropWhile_idempotent _ _⟩
  · cases configured

theorem normalize_below {cfg rel normal : List Char}
    (configured : resolveAppPrefix cfg = some start)
    (dispatched : stripAppPrefix start path = some rel) (read : normalize path = some normal) :
    ∃ below, normal = start ++ below := by
  have trimmed := normalize_eq read
  rcases resolveAppPrefix_shape configured with root | ⟨nonempty, solid⟩
  · have rooted := (normalize_isSome.mp (Option.isSome_of_eq_some read)).2.1
    rw [root, trimmed]
    split
    · exact ⟨[], rfl⟩
    · rename_i kept
      obtain ⟨rest, covered⟩ := rdropWhile_prefix isSlash path
      rw [← trimEnd] at covered
      rw [← covered, head?_append_of_ne_nil _ kept] at rooted
      obtain ⟨below, shape⟩ := head?_eq_some_iff.mp rooted
      exact ⟨below, shape⟩
  · have beneath : ∃ rest, path = start ++ rest := by
      rw [stripAppPrefix] at dispatched
      split at dispatched
      · rename_i root
        rw [root] at solid
        cases solid
      · split at dispatched
        · rename_i same
          exact ⟨[], by rw [same, append_nil]⟩
        · obtain ⟨stripped, _⟩ := Option.filter_eq_some_iff.mp dispatched
          exact ⟨rel, stripPrefix_eq_some.mp stripped⟩
    obtain ⟨rest, shape⟩ := beneath
    rw [trimmed, shape]
    by_cases slashes : trimEnd rest = []
    · rw [trimEnd_append_slashes slashes, solid, if_neg nonempty]
      exact ⟨[], (append_nil start).symm⟩
    · rw [trimEnd_append slashes,
        if_neg fun empty => nonempty (append_eq_nil_iff.mp empty).1]
      exact ⟨trimEnd rest, rfl⟩

end OnlyJs.Serve
