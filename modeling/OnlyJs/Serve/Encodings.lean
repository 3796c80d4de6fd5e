import Mathlib.Algebra.Order.Ring.Rat
import OnlyJs.Lib.Binary64
import OnlyJs.Lib.Text
import OnlyJs.Serve.Dispatch

/-!
# Content negotiation

Which coding a static file is sent in. The `Accept-Encoding` lines are read element by
element, once as the server does it and once by the grammar of the header, where the weight
is whichever parameter is named `q`. A weight is the rational number its decimal denotes.
-/

namespace OnlyJs.Serve.Encodings

open Lib List

def scale (negative : Bool) (number places : Nat) (exponent : Int) : ℚ :=
  let power := exponent - (places : Int)
  let magnitude := mkRat (number * 10 ^ power.toNat) (10 ^ (-power).toNat)
  if negative then -magnitude else magnitude

def unsignedDecimal (negative : Bool) (text : List Char) : Option ℚ :=
  match Binary64.takeDigits 0 0 text with
  | (whole, count, '.' :: rest) =>
    match Binary64.takeDigits whole 0 rest with
    | (number, places, tail) =>
      if count + places = 0 then none
      else (Binary64.parseExponent tail).map (scale negative number places)
  | (whole, count, tail) =>
    if count = 0 then none else (Binary64.parseExponent tail).map (scale negative whole 0)

def decimal : List Char → Option ℚ
  | '-' :: rest => unsignedDecimal true rest
  | '+' :: rest => unsignedDecimal false rest
  | text => unsignedDecimal false text

inductive Encoding where
  | br
  | gzip
  | identity
deriving DecidableEq

def lower (text : List Char) : List Char := text.map Char.toLower

def elementParts (part : List Char) : List Char × Option (List Char) :=
  match Text.splitOnce ';' part with
  | some (token, params) => (token, some params)
  | none => (part, none)

def codingOf (part : List Char) : List Char := lower (Text.trim (elementParts part).1)

/-- The parameters begin with `q=`, or the weight is one. -/
def readWeight (part : List Char) : ℚ :=
  match (elementParts part).2 with
  | some params =>
    ((stripPrefix ['q', '='] (Text.trim params)).bind fun q => decimal (Text.trim q)).getD 1
  | none => 1

def brCoding : List Char := "br".toList

def gzipCoding : List Char := "gzip".toList

def anyCoding : List Char := "*".toList

/-- The greatest weights so far, of `br` and of `gzip`. -/
def weigh (best : ℚ × ℚ) (part : List Char) : ℚ × ℚ :=
  let q := readWeight part
  if codingOf part = brCoding ∧ 0 < q then (max best.1 q, best.2)
  else if codingOf part = gzipCoding ∧ 0 < q then (best.1, max best.2 q)
  else if codingOf part = anyCoding ∧ 0 < q then (best.1, max best.2 q)
  else best

def acceptEncoding (headers : HeaderMap) : List (List UInt8) :=
  (headers.filter fun line => line.1 = "accept-encoding").map Prod.snd

/-- The elements of all lines; `none` when a line is not text. -/
def elements (headers : HeaderMap) : Option (List (List Char)) :=
  ((acceptEncoding headers).mapM toStr).map fun lines =>
    lines.flatMap fun line => line.toList.splitOn ','

def negotiateEncoding (headers : HeaderMap) : Encoding :=
  match elements headers with
  | none => .identity
  | some parts =>
    let best := parts.foldl weigh (0, 0)
    if 0 < best.1 then .br else if 0 < best.2 then .gzip else .identity

/-- A parameter named `q` in either letter case, with white space around name and value. -/
def qualityOf (param : List Char) : Option (List Char) :=
  (Text.splitOnce '=' param).bind fun sides =>
    if lower (Text.trim sides.1) = ['q'] then some (Text.trim sides.2) else none

/-- The weight of an element that names none is one. -/
def weight (part : List Char) : ℚ :=
  match (elementParts part).2 with
  | some params => (((params.splitOn ';').findSome? qualityOf).bind decimal).getD 1
  | none => 1

def Listed (parts : List (List Char)) (coding : List Char) : Prop :=
  ∃ part ∈ parts, codingOf part = coding

def Wanted (parts : List (List Char)) (coding : List Char) : Prop :=
  ∃ part ∈ parts, codingOf part = coding ∧ 0 < weight part

/-- A coding that is listed is acceptable by its own weight, any other by that of `*`. -/
def Acceptable (parts : List (List Char)) (coding : List Char) : Prop :=
  Wanted parts coding ∨ ¬ Listed parts coding ∧ Wanted parts anyCoding

/-- The coding that is chosen is one the client accepts. -/
def Sound (headers : HeaderMap) : Prop :=
  ∀ parts, elements headers = some parts →
    (negotiateEncoding headers = .br → Acceptable parts brCoding) ∧
    (negotiateEncoding headers = .gzip → Acceptable parts gzipCoding)

/-- The element excludes its coding, and the server takes it for a wish. -/
def Misread (part : List Char) : Prop := weight part ≤ 0 ∧ 0 < readWeight part

def NoneMisread (parts : List (List Char)) (coding : List Char) : Prop :=
  ∀ part ∈ parts, codingOf part = coding → ¬ Misread part

/-- No exclusion is misread, unless the coding is wished for elsewhere; and where `gzip` is
listed only to be excluded, `*` is not offered. What is said of `gzip` and `*` counts only
where `br` is not chosen. -/
structure Careful (parts : List (List Char)) : Prop where
  br : Wanted parts brCoding ∨ NoneMisread parts brCoding
  gzip : Wanted parts brCoding ∨ Wanted parts gzipCoding ∨ NoneMisread parts gzipCoding
  excluded : Wanted parts brCoding ∨ Wanted parts gzipCoding ∨ ¬ Listed parts gzipCoding ∨
    ∀ part ∈ parts, codingOf part = anyCoding → readWeight part ≤ 0
  any : Wanted parts brCoding ∨ Listed parts gzipCoding ∨ Wanted parts anyCoding ∨
    NoneMisread parts anyCoding

/-- What a decimal is written with. -/
def IsNumeral (char : Char) : Prop :=
  ('0' ≤ char ∧ char ≤ '9') ∨ char ∈ ['+', '-', '.', 'e', 'E']

variable {text : List Char}

theorem take_digits_numeral {value count : Nat} {rest : List Char} (found : Nat × Nat)
    (taken : Binary64.takeDigits value count text = (found.1, found.2, rest)) :
    ∃ front, text = front ++ rest ∧ ∀ char ∈ front, IsNumeral char := by
  induction text generalizing value count with
  | nil =>
    refine ⟨[], ?_, nofun⟩
    cases taken
    rfl
  | cons char text ih =>
    rw [Binary64.takeDigits] at taken
    split at taken
    · rename_i d digit
      obtain ⟨front, split_, numeral⟩ := ih taken
      refine ⟨char :: front, by rw [split_, cons_append], ?_⟩
      intro other member
      rcases mem_cons.mp member with rfl | member
      · rw [Decimal.digit] at digit
        split at digit
        · rename_i inside
          exact .inl inside
        · cases digit
      · exact numeral other member
    · cases taken
      exact ⟨[], rfl, nofun⟩

theorem parse_int_numeral {number : Int} (read : Decimal.parseInt text = some number) :
    ∀ char ∈ text, IsNumeral char := by
  have digits {rest : List Char} {value : Nat} (parsed : Decimal.parseNat rest = some value) :
      ∀ char ∈ rest, IsNumeral char :=
    fun char member => .inl ((Decimal.parse_nat_digit parsed).2 char member)
  unfold Decimal.parseInt at read
  split at read
  all_goals
    obtain ⟨value, parsed, _⟩ := Option.map_eq_some_iff.mp read
    intro char member
  · obtain ⟨magnitude, parsed, _⟩ := Option.bind_eq_some_iff.mp parsed
    rcases mem_cons.mp member with rfl | member
    · exact .inr (by decide)
    · exact digits parsed char member
  · rcases mem_cons.mp member with rfl | member
    · exact .inr (by decide)
    · exact digits parsed char member
  · exact digits parsed char member

theorem parse_exponent_numeral {tail : List Char} {exponent : Int}
    (read : Binary64.parseExponent tail = some exponent) : ∀ char ∈ tail, IsNumeral char := by
  cases tail with
  | nil => nofun
  | cons mark rest =>
    rw [Binary64.parseExponent] at read
    split at read
    · rename_i marked
      intro char member
      rcases mem_cons.mp member with rfl | member
      · rcases marked with rfl | rfl
        · exact .inr (by decide)
        · exact .inr (by decide)
      · exact parse_int_numeral read char member
    · cases read

theorem unsigned_decimal_numeral {negative : Bool} {value : ℚ}
    (read : unsignedDecimal negative text = some value) : ∀ char ∈ text, IsNumeral char := by
  unfold unsignedDecimal at read
  split at read
  · rename_i whole count rest taken
    split at read
    rename_i number places tail takenRest
    split at read
    · cases read
    · obtain ⟨exponent, parsed, _⟩ := Option.map_eq_some_iff.mp read
      obtain ⟨front, split_, numeral⟩ := take_digits_numeral (whole, count) taken
      obtain ⟨middle, splitRest, numeralRest⟩ :=
        take_digits_numeral (number, places) takenRest
      intro char member
      rw [split_, splitRest] at member
      simp only [mem_append, mem_cons] at member
      rcases member with member | rfl | member | member
      · exact numeral char member
      · exact .inr (by decide)
      · exact numeralRest char member
      · exact parse_exponent_numeral parsed char member
  · rename_i whole count tail _ taken
    split at read
    · cases read
    · obtain ⟨exponent, parsed, _⟩ := Option.map_eq_some_iff.mp read
      obtain ⟨front, split_, numeral⟩ := take_digits_numeral (whole, count) taken
      intro char member
      rw [split_] at member
      rcases mem_append.mp member with member | member
      · exact numeral char member
      · exact parse_exponent_numeral parsed char member

theorem decimal_numeral {value : ℚ} (read : decimal text = some value) :
    ∀ char ∈ text, IsNumeral char := by
  unfold decimal at read
  intro char member
  split at read
  · rcases mem_cons.mp member with rfl | member
    · exact .inr (by decide)
    · exact unsigned_decimal_numeral read char member
  · rcases mem_cons.mp member with rfl | member
    · exact .inr (by decide)
    · exact unsigned_decimal_numeral read char member
  · exact unsigned_decimal_numeral read char member

theorem space_ne {space : List Char} {char : Char} (solid : Text.isWhitespace char = false)
    (blank : ∀ other ∈ space, Text.isWhitespace other = true) : char ∉ space := by
  intro member
  rw [blank char member] at solid
  cases solid

/-- The server reads an element's own weight, or one. -/
theorem read_weight (part : List Char) : readWeight part = 1 ∨ readWeight part = weight part := by
  unfold readWeight weight
  cases (elementParts part).2 with
  | none => exact .inl rfl
  | some params =>
    dsimp only
    cases stripped : stripPrefix ['q', '='] (Text.trim params) with
    | none => exact .inl rfl
    | some q =>
      rw [Option.bind_some]
      cases read : decimal (Text.trim q) with
      | none => exact .inl rfl
      | some value =>
        right
        obtain ⟨before, after, outer, blank, blankAfter⟩ := Text.trim_between params
        obtain ⟨left, right, inner, blankLeft, blankRight⟩ := Text.trim_between q
        rw [stripPrefix_eq_some.mp stripped] at outer
        have single : ';' ∉ params := by
          intro member
          rw [outer, inner] at member
          simp only [mem_append, mem_cons, not_mem_nil, or_false] at member
          rcases member with
            ((member | (other | other) | (member | member) | member) | member)
          · exact space_ne (by decide) blank member
          · cases other
          · cases other
          · exact space_ne (by decide) blankLeft member
          · rcases decimal_numeral read _ member with digit | sign
            · exact absurd digit (by decide)
            · exact absurd sign (by decide)
          · exact space_ne (by decide) blankRight member
          · exact space_ne (by decide) blankAfter member
        have sides : Text.splitOnce '=' params = some (before ++ ['q'], q ++ after) := by
          rw [outer, append_assoc, append_assoc]
          have unmarked : '=' ∉ before ++ ['q'] := by
            rw [mem_append, not_or]
            exact ⟨space_ne (by decide) blank, by decide⟩
          rw [← Text.split_once_append (q ++ after) unmarked, append_assoc]
          rfl
        have named : lower (Text.trim (before ++ ['q'])) = ['q'] := by
          rw [Text.trim_space_append _ blank]
          rfl
        have found : qualityOf params = some (Text.trim q) := by
          rw [qualityOf, sides, Option.bind_some, if_pos named,
            Text.trim_append_space _ blankAfter]
        rw [splitOn_eq_singleton single, findSome?_cons, found]
        rw [Option.bind_some, read]

theorem read_wanted {part : List Char} (wanted : 0 < weight part) : 0 < readWeight part := by
  rcases read_weight part with one | same
  · rw [one]
    exact rfl
  · rw [same]
    exact wanted

/-- The server takes an element for a wish for the coding. -/
def ReadWanted (parts : List (List Char)) (coding : List Char) : Prop :=
  ∃ part ∈ parts, codingOf part = coding ∧ 0 < readWeight part

variable {parts : List (List Char)}

theorem read_wanted_iff {coding : List Char} :
    ReadWanted parts coding ↔ Wanted parts coding ∨ ¬ NoneMisread parts coding := by
  constructor
  · rintro ⟨part, member, named, read⟩
    by_cases wanted : 0 < weight part
    · exact .inl ⟨part, member, named, wanted⟩
    · exact .inr fun none_ => none_ part member named ⟨not_lt.mp wanted, read⟩
  · rintro (⟨part, member, named, wanted⟩ | misread)
    · exact ⟨part, member, named, read_wanted wanted⟩
    · unfold NoneMisread at misread
      push Not at misread
      obtain ⟨part, member, named, _, read⟩ := misread
      exact ⟨part, member, named, read⟩

theorem weigh_pos (best : ℚ × ℚ) (part : List Char) :
    (0 < (weigh best part).1 ↔
      0 < best.1 ∨ codingOf part = brCoding ∧ 0 < readWeight part) ∧
    (0 < (weigh best part).2 ↔
      0 < best.2 ∨ (codingOf part = gzipCoding ∨ codingOf part = anyCoding) ∧
        0 < readWeight part) := by
  have apart : brCoding ≠ gzipCoding ∧ brCoding ≠ anyCoding ∧ gzipCoding ≠ anyCoding := by
    decide
  unfold weigh
  dsimp only
  split_ifs with br gzip any
  · rw [lt_max_iff]
    grind
  · rw [lt_max_iff]
    grind
  · rw [lt_max_iff]
    grind
  · grind

theorem read_wanted_cons (part : List Char) (parts : List (List Char)) (coding : List Char) :
    ReadWanted (part :: parts) coding ↔
      codingOf part = coding ∧ 0 < readWeight part ∨ ReadWanted parts coding := by
  unfold ReadWanted
  rw [exists_mem_cons_iff]

theorem foldl_weigh_pos (parts : List (List Char)) (best : ℚ × ℚ) :
    (0 < (parts.foldl weigh best).1 ↔ 0 < best.1 ∨ ReadWanted parts brCoding) ∧
    (0 < (parts.foldl weigh best).2 ↔
      0 < best.2 ∨ ReadWanted parts gzipCoding ∨ ReadWanted parts anyCoding) := by
  induction parts generalizing best with
  | nil => simp [ReadWanted]
  | cons part parts ih =>
    rw [foldl_cons]
    rw [(ih _).1, (ih _).2, (weigh_pos best part).1, (weigh_pos best part).2]
    rw [read_wanted_cons, read_wanted_cons, read_wanted_cons]
    constructor
    · rw [or_assoc]
    · tauto

theorem negotiate_iff {headers : HeaderMap} (read : elements headers = some parts) :
    (negotiateEncoding headers = .br ↔ ReadWanted parts brCoding) ∧
    (negotiateEncoding headers = .gzip ↔
      ¬ ReadWanted parts brCoding ∧
        (ReadWanted parts gzipCoding ∨ ReadWanted parts anyCoding)) := by
  obtain ⟨br, gzip⟩ := foldl_weigh_pos parts (0, 0)
  simp only [lt_irrefl, false_or] at br gzip
  rw [negotiateEncoding, read]
  dsimp only
  rw [← br, ← gzip]
  split_ifs with first second
  · simp [first]
  · simp [first, second]
  · simp [first, second]

theorem not_acceptable_br (read : ReadWanted parts brCoding)
    (acceptable : Acceptable parts brCoding) : Wanted parts brCoding := by
  rcases acceptable with wanted | ⟨unlisted, _⟩
  · exact wanted
  · obtain ⟨part, member, named, _⟩ := read
    exact absurd ⟨part, member, named⟩ unlisted

theorem careful_of_sound (soundBr : ReadWanted parts brCoding → Acceptable parts brCoding)
    (soundGzip : ¬ ReadWanted parts brCoding →
      ReadWanted parts gzipCoding ∨ ReadWanted parts anyCoding → Acceptable parts gzipCoding) :
    Careful parts := by
  by_cases wantedBr : Wanted parts brCoding
  · exact ⟨.inl wantedBr, .inl wantedBr, .inl wantedBr, .inl wantedBr⟩
  · have unread : ¬ ReadWanted parts brCoding :=
      fun read => wantedBr (not_acceptable_br read (soundBr read))
    have br : NoneMisread parts brCoding := by
      by_contra misread
      exact unread (read_wanted_iff.mpr (.inr misread))
    by_cases wanted : Wanted parts gzipCoding
    · exact ⟨.inr br, .inr (.inl wanted), .inr (.inl wanted),
        .inr (.inl (wanted.imp fun _ found => ⟨found.1, found.2.1⟩))⟩
    · refine ⟨.inr br, .inr (.inr ?_), .inr (.inr ?_), .inr ?_⟩
      · by_contra misread
        have read := read_wanted_iff.mpr (.inr misread)
        rcases soundGzip unread (.inl read) with found | ⟨unlisted, _⟩
        · exact wanted found
        · obtain ⟨part, member, named, _⟩ := read
          exact unlisted ⟨part, member, named⟩
      · by_cases listed : Listed parts gzipCoding
        · right
          intro part member named
          by_contra positive
          rcases soundGzip unread (.inr ⟨part, member, named, not_le.mp positive⟩)
            with found | ⟨unlisted, _⟩
          · exact wanted found
          · exact unlisted listed
        · exact .inl listed
      · by_cases listed : Listed parts gzipCoding
        · exact .inl listed
        · right
          by_cases wantedAny : Wanted parts anyCoding
          · exact .inl wantedAny
          · right
            by_contra misread
            have read := read_wanted_iff.mpr (.inr misread)
            rcases soundGzip unread (.inr read) with found | ⟨_, found⟩
            · exact wanted found
            · exact wantedAny found

theorem acceptable_gzip (careful : Careful parts) (unread : ¬ ReadWanted parts brCoding)
    (read : ReadWanted parts gzipCoding ∨ ReadWanted parts anyCoding) :
    Acceptable parts gzipCoding := by
  have unwanted : ¬ Wanted parts brCoding :=
    fun wanted => unread (read_wanted_iff.mpr (.inl wanted))
  by_cases wanted : Wanted parts gzipCoding
  · exact .inl wanted
  · have honest := (careful.gzip.resolve_left unwanted).resolve_left wanted
    have readAny : ReadWanted parts anyCoding := by
      rcases read with read | read
      · exact absurd honest ((read_wanted_iff.mp read).resolve_left wanted)
      · exact read
    have unlisted : ¬ Listed parts gzipCoding := by
      rcases (careful.excluded.resolve_left unwanted).resolve_left wanted with unlisted | excluded
      · exact unlisted
      · obtain ⟨part, member, named, positive⟩ := readAny
        exact absurd positive (not_lt.mpr (excluded part member named))
    refine .inr ⟨unlisted, ?_⟩
    rcases (careful.any.resolve_left unwanted).resolve_left unlisted with found | honestAny
    · exact found
    · exact (read_wanted_iff.mp readAny).resolve_right fun misread => misread honestAny

def acceptLine (text : String) : HeaderMap :=
  [("accept-encoding", text.toList.map fun char => UInt8.ofNat char.toNat)]

end OnlyJs.Serve.Encodings
