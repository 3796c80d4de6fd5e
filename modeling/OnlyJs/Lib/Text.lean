import Mathlib.Algebra.Order.Ring.Int
import Mathlib.Data.List.DropRight

/-!
# Characters and trimming

The character classes of the host language's text functions, on Lean's own
characters, and where one text first stands in another.
-/

namespace OnlyJs.Lib.Text

open List

set_option autoImplicit false

/-- The Unicode `White_Space` property. -/
def isWhitespace (char : Char) : Bool :=
  let code := char.toNat
  (9 ≤ code && code ≤ 13) || code == 0x20 || code == 0x85 || code == 0xA0 ||
    code == 0x1680 || (0x2000 ≤ code && code ≤ 0x200A) || code == 0x2028 ||
    code == 0x2029 || code == 0x202F || code == 0x205F || code == 0x3000

def trimStart (text : List Char) : List Char := text.dropWhile isWhitespace

def isBlank (text : List Char) : Bool := (trimStart text).isEmpty

def trim (text : List Char) : List Char := (trimStart text).rdropWhile isWhitespace

/-- The text before and after the first `mark`. -/
@[grind =]
def splitOnce (mark : Char) : List Char → Option (List Char × List Char)
  | [] => none
  | char :: rest =>
    if char = mark then some ([], rest)
    else (splitOnce mark rest).map fun parts => (char :: parts.1, parts.2)

variable {mark : Char} {before : List Char}

theorem split_once_append (after : List Char) (unmarked : mark ∉ before) :
    splitOnce mark (before ++ mark :: after) = some (before, after) := by
  induction before with
  | nil => exact if_pos rfl
  | cons char before ih =>
    have other : char ≠ mark := fun same => unmarked (same ▸ mem_cons_self)
    rw [cons_append, splitOnce, if_neg other,
      ih fun member => unmarked (mem_cons_of_mem _ member)]
    rfl

variable {text : List Char}

/-- The mark does not stand before itself. -/
theorem split_once_before {after : List Char} (split : splitOnce mark text = some (before, after)) :
    mark ∉ before := by
  induction text generalizing before with
  | nil => cases split
  | cons char rest ih =>
    rw [splitOnce] at split
    by_cases same : char = mark
    · rw [if_pos same] at split
      cases split
      exact not_mem_nil
    · rw [if_neg same] at split
      obtain ⟨⟨first, last⟩, found, equal⟩ := Option.map_eq_some_iff.mp split
      cases equal
      rw [mem_cons, not_or]
      exact ⟨fun equal => same equal.symm, ih found⟩

theorem split_once_none (split : splitOnce mark text = none) :
    mark ∉ text := by
  induction text with
  | nil => exact not_mem_nil
  | cons char rest ih =>
    rw [splitOnce] at split
    by_cases same : char = mark
    · rw [if_pos same] at split
      cases split
    · rw [if_neg same, Option.map_eq_none_iff] at split
      rw [mem_cons, not_or]
      exact ⟨fun equal => same equal.symm, ih split⟩

theorem split_once_whole {after : List Char} (split : splitOnce mark text = some (before, after)) :
    text = before ++ mark :: after := by
  induction text generalizing before with
  | nil => cases split
  | cons char rest ih =>
    rw [splitOnce] at split
    by_cases same : char = mark
    · rw [if_pos same] at split
      cases split
      rw [same]
      rfl
    · rw [if_neg same] at split
      obtain ⟨⟨first, last⟩, found, equal⟩ := Option.map_eq_some_iff.mp split
      cases equal
      rw [ih found]
      rfl

theorem trim_space_append {space : List Char} (text : List Char)
    (blank : ∀ char ∈ space, isWhitespace char = true) : trim (space ++ text) = trim text := by
  rw [trim, trimStart, dropWhile_append_of_pos blank]
  rfl

theorem trim_append_space {space : List Char} (text : List Char)
    (blank : ∀ char ∈ space, isWhitespace char = true) : trim (text ++ space) = trim text := by
  have dropped (front : List Char) :
      (front ++ space).rdropWhile isWhitespace = front.rdropWhile isWhitespace := by
    rw [List.rdropWhile, reverse_append, dropWhile_append_of_pos]
    · rfl
    · intro char member
      exact blank char (mem_reverse.mp member)
  rw [trim, trim, trimStart, trimStart, dropWhile_append]
  split
  · rename_i empty
    have nothing : space.dropWhile isWhitespace = [] := dropWhile_eq_nil_iff.mpr blank
    rw [nothing, List.isEmpty_iff.mp empty]
  · exact dropped _

/-- A text is its trimmed text between white space. -/
theorem trim_between (text : List Char) :
    ∃ before after, text = before ++ trim text ++ after ∧
      (∀ char ∈ before, isWhitespace char = true) ∧
      ∀ char ∈ after, isWhitespace char = true := by
  refine ⟨text.takeWhile isWhitespace, (trimStart text).rtakeWhile isWhitespace, ?_, ?_, ?_⟩
  · have tail : trim text ++ (trimStart text).rtakeWhile isWhitespace = trimStart text := by
      rw [trim, List.rdropWhile, List.rtakeWhile, ← reverse_append,
        takeWhile_append_dropWhile, reverse_reverse]
    rw [append_assoc, tail, trimStart, takeWhile_append_dropWhile]
  · intro char member
    exact mem_takeWhile_imp member
  · intro char member
    exact mem_rtakeWhile_imp member

section Searching

variable {α : Type} (same : α → α → Bool)

@[grind =]
def starts : List α → List α → Bool
  | [], _ => true
  | _ :: _, [] => false
  | mark :: needle, item :: text => same mark item && starts needle text

/-- Where a needle first stands in a text. -/
@[grind =]
def find (needle : List α) : List α → Option Nat
  | [] => none
  | item :: text =>
    if starts same needle (item :: text) then some 0
    else (find needle text).map (· + 1)

/-- The needle starts nowhere in `before`, with `after` behind it. -/
@[grind =]
def Clear (needle : List α) : List α → List α → Prop
  | [], _ => True
  | item :: before, after =>
    starts same needle (item :: (before ++ after)) = false ∧ Clear needle before after

instance instDecidableClear (needle : List α) :
    ∀ before after : List α, Decidable (Clear same needle before after)
  | [], _ => inferInstanceAs (Decidable True)
  | _ :: before, after =>
    have := instDecidableClear needle before after
    inferInstanceAs (Decidable (_ ∧ _))

variable {same}

variable {before needle : List α}

theorem find_clear {after : List α} (some_ : needle ≠ []) (clear : Clear same needle before after)
    (here : starts same needle after = true) :
    find same needle (before ++ after) = some before.length := by
  induction before with
  | nil =>
    cases after with
    | nil =>
      cases needle with
      | nil => exact absurd rfl some_
      | cons _ _ => cases here
    | cons item text => exact if_pos here
  | cons item before ih =>
    rw [cons_append, find, clear.1, ih clear.2]
    rfl

section

variable {mark : α} (after : List α) (other : ∀ item ∈ before, same mark item = false)
include after other

/-- A needle is not where its first item is not. -/
theorem clear_of_first :
    Clear same (mark :: needle) before after := by
  induction before with
  | nil => exact trivial
  | cons item before ih =>
    obtain ⟨head, rest⟩ := forall_mem_cons.mp other
    refine ⟨?_, ih rest⟩
    rw [starts, head, Bool.false_and]

theorem find_skip :
    find same (mark :: needle) (before ++ after) =
      (find same (mark :: needle) after).map (before.length + ·) := by
  induction before with
  | nil =>
    rw [nil_append, length_nil]
    cases find same (mark :: needle) after with
    | none => rfl
    | some place => rw [Option.map_some, Nat.zero_add]
  | cons item before ih =>
    obtain ⟨head, rest⟩ := forall_mem_cons.mp other
    rw [cons_append, find, starts, head,
      ih rest, Option.map_map]
    apply Option.map_congr
    intro place _
    rw [Function.comp_apply, length_cons]
    omega

end

/-- Behind a text that is long enough nothing counts. -/
theorem starts_append {text : List α} (after : List α) (long : needle.length ≤ text.length) :
    starts same needle (text ++ after) = starts same needle text := by
  induction needle generalizing text with
  | nil => rfl
  | cons mark needle ih =>
    cases text with
    | nil => exact absurd long (Nat.not_succ_le_zero _)
    | cons item text =>
      rw [cons_append, starts, starts, ih (Nat.le_of_succ_le_succ long)]

theorem starts_both {first second text : List α} (long : first.length = second.length) :
    starts same (first ++ needle) (second ++ text) =
      (starts same first second && starts same needle text) := by
  induction first generalizing second with
  | nil =>
    rw [eq_nil_of_length_eq_zero long.symm]
    rfl
  | cons mark first ih =>
    cases second with
    | nil => cases long
    | cons item second =>
      rw [cons_append, cons_append, starts, starts,
        ih (Nat.succ_inj.mp long), Bool.and_assoc]

theorem clear_behind {middle : List α} (after : List α) (long : needle.length ≤ middle.length)
    (clear : Clear same needle before middle) :
    Clear same needle before (middle ++ after) := by
  induction before with
  | nil => exact trivial
  | cons item before ih =>
    refine ⟨?_, ih clear.2⟩
    have reach : needle.length ≤ (item :: (before ++ middle)).length := by
      rw [length_cons, length_append]
      omega
    rw [← append_assoc, ← cons_append, starts_append after reach]
    exact clear.1

end Searching

theorem find_mark (after : List Char) (unmarked : mark ∉ before) :
    find (· == ·) [mark] (before ++ mark :: after) = some before.length := by
  apply find_clear (cons_ne_nil _ _)
  · apply clear_of_first
    intro item member
    rw [beq_eq_false_iff_ne]
    intro same
    exact unmarked (same ▸ member)
  · rw [starts, starts, beq_self_eq_true, Bool.and_true]

end OnlyJs.Lib.Text
