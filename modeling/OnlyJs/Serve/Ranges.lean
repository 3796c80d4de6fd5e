import OnlyJs.Lib.Decimal
import OnlyJs.Lib.Text
import OnlyJs.Serve.Dispatch

/-!
# Byte ranges

The `Range` header of a read of a blob, as the server reads it and as the grammar of byte
ranges means it. A range is the positions it selects in the body; one that selects none
cannot be satisfied, and a text that is no range asks for the whole body.
-/

namespace OnlyJs.Serve.Ranges

open Lib Option

abbrev Usize := Fin (2 ^ 64)

inductive RangeSpec where
  | full
  | part (first last : Nat)
  | unsatisfiable
deriving DecidableEq

def parseUsize (text : List Char) : Option Nat :=
  let digits := match text with
    | '+' :: rest => rest
    | _ => text
  (Decimal.parseNat digits).filter (· < 2 ^ 64)

def parsePosition (side : List Char) : Option Nat := parseUsize (Text.trim side)

def rangeText (header : Option (List UInt8)) : Option (List Char) := do
  let value ← header
  let text ← toStr value
  let rest ← stripPrefix "bytes=".toList (Text.trim text.toList)
  if rest.contains ',' then none else some rest

def choose (len : Nat) : Option Nat → Option Nat → RangeSpec
  | some start, some stop =>
    if start ≤ stop then
      if len = 0 ∨ len ≤ start then .unsatisfiable else .part start (min stop (len - 1))
    else .full
  | some start, none =>
    if len = 0 ∨ len ≤ start then .unsatisfiable else .part start (len - 1)
  | none, some count =>
    if len = 0 ∨ count = 0 then .unsatisfiable else .part (len - count) (len - 1)
  | none, none => .full

def parseRange (header : Option (List UInt8)) (len : Nat) : RangeSpec :=
  match (rangeText header).bind (Text.splitOnce '-') with
  | none => .full
  | some (first, last) => choose len (parsePosition first) (parsePosition last)

structure RangeResponse where
  status : Nat
  contentRange : Option String
  body : List UInt8
deriving DecidableEq

/-- Slicing panics unless the slice lies inside. -/
def slice (bytes : List UInt8) (first last : Nat) : Option (List UInt8) :=
  if first ≤ last + 1 ∧ last < bytes.length then some ((bytes.take (last + 1)).drop first)
  else none

def rangeResponse (header : Option (List UInt8)) (bytes : List UInt8) : Option RangeResponse :=
  match parseRange header bytes.length with
  | .part first last =>
    (slice bytes first last).map fun body =>
      { status := 206
        contentRange := some ("bytes " ++ toString first ++ "-" ++ toString last ++ "/" ++
          toString bytes.length)
        body := body }
  | .unsatisfiable =>
    some {
      status := 416
      contentRange := some ("bytes */" ++ toString bytes.length)
      body := [] }
  | .full =>
    some {
      status := 200
      contentRange := none
      body := bytes }

inductive ByteRange where
  | closed (first last : Nat)
  | «open» (first : Nat)
  | suffix (count : Nat)
deriving DecidableEq

def ByteRange.ofSides (first last : List Char) : Option ByteRange :=
  match Decimal.parseNat first, Decimal.parseNat last with
  | some start, some stop => if start ≤ stop then some (.closed start stop) else none
  | some start, none => if last = [] then some (.open start) else none
  | none, some count => if first = [] then some (.suffix count) else none
  | none, none => none

def ByteRange.read (text : List Char) : Option ByteRange :=
  (Text.splitOnce '-' text).bind fun sides => ofSides sides.1 sides.2

/-- The positions of a body of that length which a range selects. -/
def ByteRange.selects (len : Nat) : ByteRange → Nat → Prop
  | .closed first last, position => first ≤ position ∧ position ≤ last ∧ position < len
  | .open first, position => first ≤ position ∧ position < len
  | .suffix count, position => len ≤ position + count ∧ position < len

/-- What the header means: the selected positions, or that there are none; the whole body for
a text that is no range. -/
def Means (len : Nat) : Option ByteRange → RangeSpec → Prop
  | none, spec => spec = .full
  | some range, .part first last =>
    first ≤ last ∧ ∀ position, range.selects len position ↔ first ≤ position ∧ position ≤ last
  | some range, .unsatisfiable => ∀ position, ¬ range.selects len position
  | some _, .full => False

/-- A slice always lies inside the body, and one range is read as the grammar has it. -/
structure Faithful (header : Option (List UInt8)) (len : Nat) : Prop where
  inside : ∀ first last, parseRange header len = .part first last → first ≤ last ∧ last < len
  meaning : ∀ text, rangeText header = some text →
    Means len (ByteRange.read text) (parseRange header len)

/-- A side is left out or decimal digits. -/
def WellFormed (side : List Char) : Prop := side = [] ∨ (Decimal.parseNat side).isSome

/-- Two proper sides are misread when a number that counts does not fit a machine word. With
another text on a side, a number on one side is taken for the whole range. -/
def Careful (first last : List Char) : Prop :=
  (WellFormed first → WellFormed last →
    match Decimal.parseNat first, Decimal.parseNat last with
    | some start, some stop => start < 2 ^ 64 ∨ 2 ^ 64 ≤ stop ∧ stop < start
    | some start, none => start < 2 ^ 64
    | none, some count => count < 2 ^ 64
    | none, none => True) ∧
  (¬ (WellFormed first ∧ WellFormed last) →
    match parsePosition first, parsePosition last with
    | some start, some stop => stop < start
    | none, none => True
    | _, _ => False)

theorem solid_of_digit {char : Char} (digit : '0' ≤ char ∧ char ≤ '9') :
    Text.isWhitespace char = false := by
  have lowest : 48 ≤ char.toNat := digit.1
  have highest : char.toNat ≤ 57 := digit.2
  simp [Text.isWhitespace]
  omega

theorem trim_solid {text : List Char}
    (solid : ∀ char ∈ text, Text.isWhitespace char = false) : Text.trim text = text := by
  have start : text.dropWhile Text.isWhitespace = text := by
    cases text with
    | nil => rfl
    | cons char rest =>
      rw [List.dropWhile_cons_of_neg]
      rw [solid char List.mem_cons_self]
      exact Bool.false_ne_true
  rw [Text.trim, Text.trimStart, start]
  refine List.rdropWhile_eq_self_iff.mpr fun nonempty space => ?_
  rw [solid _ (List.getLast_mem nonempty)] at space
  exact Bool.false_ne_true space

theorem parse_position_proper {side : List Char} (proper : WellFormed side) :
    parsePosition side = (Decimal.parseNat side).filter (· < 2 ^ 64) := by
  rcases proper with rfl | number
  · rfl
  · obtain ⟨value, read⟩ := isSome_iff_exists.mp number
    obtain ⟨nonempty, digit⟩ := Decimal.parse_nat_digit read
    rw [parsePosition, trim_solid fun char member => solid_of_digit (digit char member)]
    unfold parseUsize
    split
    · have plus := (digit '+' List.mem_cons_self).1
      exact absurd plus (by decide)
    · rfl

theorem left_out {side : List Char} (proper : WellFormed side)
    (unread : Decimal.parseNat side = none) : side = [] := by
  rcases proper with empty | number
  · exact empty
  · rw [unread] at number
    cases number

theorem of_sides_improper {first last : List Char}
    (improper : ¬ (WellFormed first ∧ WellFormed last)) :
    ByteRange.ofSides first last = none := by
  rw [ByteRange.ofSides]
  split
  · rename_i start stop readFirst readLast
    exact absurd ⟨.inr (by rw [readFirst]; rfl), .inr (by rw [readLast]; rfl)⟩ improper
  · rename_i start readFirst readLast
    refine if_neg fun empty => improper ⟨.inr (by rw [readFirst]; rfl), .inl empty⟩
  · rename_i count readFirst readLast
    refine if_neg fun empty => improper ⟨.inl empty, .inr (by rw [readLast]; rfl)⟩
  · rfl

variable {len : Nat}

theorem choose_inside {start stop : Option Nat} {first last : Nat}
    (chosen : choose len start stop = .part first last) : first ≤ last ∧ last < len := by
  cases start <;> cases stop <;> simp only [choose] at chosen
  · cases chosen
  all_goals
    split_ifs at chosen
    all_goals
      cases chosen
      omega

theorem choose_full {start stop : Option Nat} :
    choose len start stop = .full ↔
      match start, stop with
      | some first, some last => last < first
      | none, none => True
      | _, _ => False := by
  cases start <;> cases stop <;> simp only [choose]
  all_goals
    split_ifs <;> simp <;> omega

theorem filter_word (number : Nat) :
    (some number).filter (fun n => decide (n < 2 ^ 64)) =
      if number < 2 ^ 64 then some number else none := by
  by_cases fits : number < 2 ^ 64
  · rw [if_pos fits, filter_some, decide_eq_true fits]
    rfl
  · rw [if_neg fits, filter_some, decide_eq_false fits]
    rfl

theorem means_closed {start stop : Nat} (fits : len < 2 ^ 64) :
    Means len (if start ≤ stop then some (.closed start stop) else none)
        (choose len (if start < 2 ^ 64 then some start else none)
          (if stop < 2 ^ 64 then some stop else none)) ↔
      start < 2 ^ 64 ∨ 2 ^ 64 ≤ stop ∧ stop < start := by
  by_cases ordered : start ≤ stop
  · rw [if_pos ordered]
    by_cases small : start < 2 ^ 64
    · refine iff_of_true ?_ (.inl small)
      rw [if_pos small]
      by_cases smallStop : stop < 2 ^ 64
      · rw [if_pos smallStop, choose]
        split_ifs with none_
        · intro position selected
          obtain ⟨_, _, _⟩ := selected
          omega
        · refine ⟨by omega, fun position => ?_⟩
          rw [ByteRange.selects]
          omega
      · rw [if_neg smallStop, choose]
        split_ifs with none_
        · intro position selected
          obtain ⟨_, _, _⟩ := selected
          omega
        · refine ⟨by omega, fun position => ?_⟩
          rw [ByteRange.selects]
          omega
    · rw [if_neg small, if_neg (by omega : ¬ stop < 2 ^ 64)]
      refine iff_of_false (fun meant => meant) ?_
      omega
  · rw [if_neg ordered]
    change choose _ _ _ = _ ↔ _
    rw [choose_full]
    by_cases small : start < 2 ^ 64
    · rw [if_pos small, if_pos (by omega : stop < 2 ^ 64)]
      exact iff_of_true (by dsimp only; omega) (.inl small)
    · rw [if_neg small]
      by_cases smallStop : stop < 2 ^ 64
      · rw [if_pos smallStop]
        exact iff_of_false (fun read => read) (by omega)
      · rw [if_neg smallStop]
        exact iff_of_true trivial (by omega)

theorem means_open {start : Nat} (fits : len < 2 ^ 64) :
    Means len (some (.open start))
        (choose len (if start < 2 ^ 64 then some start else none) none) ↔ start < 2 ^ 64 := by
  by_cases small : start < 2 ^ 64
  · refine iff_of_true ?_ small
    rw [if_pos small, choose]
    split_ifs with none_
    · intro position selected
      obtain ⟨_, _⟩ := selected
      omega
    · refine ⟨by omega, fun position => ?_⟩
      rw [ByteRange.selects]
      omega
  · rw [if_neg small]
    exact iff_of_false (fun meant => meant) small

theorem means_suffix {count : Nat} :
    Means len (some (.suffix count))
        (choose len none (if count < 2 ^ 64 then some count else none)) ↔ count < 2 ^ 64 := by
  by_cases small : count < 2 ^ 64
  · refine iff_of_true ?_ small
    rw [if_pos small, choose]
    split_ifs with none_
    · intro position selected
      obtain ⟨_, _⟩ := selected
      omega
    · refine ⟨by omega, fun position => ?_⟩
      rw [ByteRange.selects]
      omega
  · rw [if_neg small]
    exact iff_of_false (fun meant => meant) small

theorem means_proper {first last : List Char} (proper : WellFormed first)
    (properLast : WellFormed last) (fits : len < 2 ^ 64) :
    Means len (ByteRange.ofSides first last)
        (choose len (parsePosition first) (parsePosition last)) ↔
      Careful first last := by
  have careful : Careful first last ↔
      match Decimal.parseNat first, Decimal.parseNat last with
      | some start, some stop => start < 2 ^ 64 ∨ 2 ^ 64 ≤ stop ∧ stop < start
      | some start, none => start < 2 ^ 64
      | none, some count => count < 2 ^ 64
      | none, none => True :=
    ⟨fun held => held.1 proper properLast,
      fun held => ⟨fun _ _ => held, fun improper => absurd ⟨proper, properLast⟩ improper⟩⟩
  rw [careful, parse_position_proper proper, parse_position_proper properLast, ByteRange.ofSides]
  cases readFirst : Decimal.parseNat first with
  | none =>
    cases readLast : Decimal.parseNat last with
    | none => exact iff_of_true rfl trivial
    | some count =>
      dsimp only
      rw [if_pos (left_out proper readFirst), filter_word]
      exact means_suffix
  | some start =>
    cases readLast : Decimal.parseNat last with
    | none =>
      dsimp only
      rw [if_pos (left_out properLast readLast), filter_word]
      exact means_open fits
    | some stop =>
      rw [filter_word, filter_word]
      exact means_closed fits

theorem means_iff (first last : List Char) (fits : len < 2 ^ 64) :
    Means len (ByteRange.ofSides first last)
        (choose len (parsePosition first) (parsePosition last)) ↔
      Careful first last := by
  by_cases proper : WellFormed first ∧ WellFormed last
  · exact means_proper proper.1 proper.2 fits
  · rw [of_sides_improper proper]
    refine choose_full.trans ⟨fun held => ⟨?_, fun _ => held⟩, fun held => held.2 proper⟩
    exact fun left right => absurd ⟨left, right⟩ proper

theorem parse_range_inside {header : Option (List UInt8)} {first last : Nat}
    (parsed : parseRange header len = .part first last) : first ≤ last ∧ last < len := by
  rw [parseRange] at parsed
  split at parsed
  · cases parsed
  · exact choose_inside parsed

theorem range_response_total (header : Option (List UInt8)) (bytes : List UInt8) :
    (rangeResponse header bytes).isSome := by
  unfold rangeResponse
  split
  · rename_i first last parsed
    obtain ⟨ordered, inside⟩ := parse_range_inside parsed
    rw [slice, if_pos ⟨Nat.le_succ_of_le ordered, inside⟩]
    rfl
  · rfl
  · rfl

theorem range_faithful_iff (header : Option (List UInt8)) (len : Usize) :
    Faithful header len ↔
      ∀ text first last, rangeText header = some text →
        Text.splitOnce '-' text = some (first, last) → Careful first last := by
  constructor
  · intro faithful text first last named sides
    have meant := faithful.meaning text named
    rw [parseRange, named, bind_some, ByteRange.read, sides] at meant
    exact (means_iff first last len.isLt).mp meant
  · intro careful
    refine ⟨fun first last parsed => parse_range_inside parsed, fun text named => ?_⟩
    rw [parseRange, named, ByteRange.read, bind_some]
    cases sides : Text.splitOnce '-' text with
    | none => rfl
    | some found =>
      obtain ⟨first, last⟩ := found
      exact (means_iff first last len.isLt).mpr (careful text first last named sides)

def headerOf (text : String) : Option (List UInt8) :=
  some (text.toList.map fun char => UInt8.ofNat char.toNat)

/-- A first position that does not fit turns a range in the wrong order into the last five
bytes. -/
theorem overflow_becomes_suffix :
    ¬ Faithful (headerOf "bytes=99999999999999999999-5") (100 : Fin (2 ^ 64)) := by
  intro faithful
  have meant := faithful.meaning "99999999999999999999-5".toList (by decide +kernel)
  have unread : ByteRange.read "99999999999999999999-5".toList = none := by decide +kernel
  have parsed : parseRange (headerOf "bytes=99999999999999999999-5") 100 = .part 95 99 := by
    decide +kernel
  rw [unread] at meant
  change parseRange _ 100 = _ at meant
  rw [parsed] at meant
  cases meant

end OnlyJs.Serve.Ranges
