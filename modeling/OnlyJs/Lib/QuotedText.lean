import Mathlib.Algebra.Order.Ring.Int
import Mathlib.Data.List.Basic

/-!
# Separators outside quotation marks

A text over any alphabet with a quotation mark and a separator. A mark opens or
closes a quotation; only separators outside one count. A doubled mark closes and
reopens, so it needs no treatment of its own.
-/

namespace OnlyJs.Lib.QuotedText

open List Option

set_option autoImplicit false

universe u

variable {α : Type u} [DecidableEq α]

/-- Whether a quotation is open after `text`, when `quoted` says so before it. -/
def inside (mark : α) (quoted : Bool) : List α → Bool
  | [] => quoted
  | a :: rest => inside mark (if a = mark then !quoted else quoted) rest

/-- The position of the first separator outside quotation marks. -/
@[grind =]
def firstStop (mark stop : α) (quoted : Bool) : List α → Option Nat
  | [] => none
  | a :: rest =>
    if a = stop ∧ quoted = false then some 0
    else (firstStop mark stop (if a = mark then !quoted else quoted) rest).map (· + 1)

/-- The position of the last separator, inside quotation marks or not. -/
@[grind =]
def lastStop (stop : α) : List α → Option Nat
  | [] => none
  | a :: rest =>
    match lastStop stop rest with
    | some position => some (position + 1)
    | none => if a = stop then some 0 else none

variable {mark stop : α}

theorem inside_append (quoted : Bool) (text more : List α) :
    inside mark quoted (text ++ more) = inside mark (inside mark quoted text) more := by
  induction text generalizing quoted with
  | nil => rfl
  | cons a rest ih => exact ih _

section

variable (quoted : Bool) (text : List α)
include quoted text

theorem inside_of_not_mem (plain : mark ∉ text) :
    inside mark quoted text = quoted := by
  induction text generalizing quoted with
  | nil => rfl
  | cons a rest ih =>
    rw [mem_cons, not_or] at plain
    obtain ⟨other, later⟩ := plain
    rw [inside, if_neg fun same => other same.symm]
    exact ih quoted later

theorem inside_not :
    inside mark (!quoted) text = !inside mark quoted text := by
  induction text generalizing quoted with
  | nil => rfl
  | cons a rest ih =>
    rw [inside, inside]
    by_cases same : a = mark
    · rw [if_pos same, if_pos same]
      exact ih (!quoted)
    · rw [if_neg same, if_neg same]
      exact ih quoted

/-- Only the parity of the number of marks matters. -/
theorem inside_eq_count :
    inside mark quoted text = xor quoted (decide (text.count mark % 2 = 1)) := by
  induction text generalizing quoted with
  | nil =>
    exact (Bool.xor_false quoted).symm
  | cons a rest ih =>
    rw [inside, ih]
    by_cases same : a = mark
    · rw [if_pos same, same, count_cons_self]
      rcases Nat.mod_two_eq_zero_or_one (rest.count mark) with even | odd
      · have next : (rest.count mark + 1) % 2 = 1 := by omega
        rw [even, next]
        cases quoted <;> rfl
      · have next : (rest.count mark + 1) % 2 = 0 := by omega
        rw [odd, next]
        cases quoted <;> rfl
    · rw [if_neg same, count_cons_of_ne same]

theorem firstStop_of_not_mem (plain : stop ∉ text) :
    firstStop mark stop quoted text = none := by
  induction text generalizing quoted with
  | nil => rfl
  | cons a rest ih =>
    rw [mem_cons, not_or] at plain
    obtain ⟨other, later⟩ := plain
    rw [firstStop, if_neg fun both => other both.1.symm, ih _ later]
    rfl

end

theorem firstStop_inside (text : List α) (unmarked : mark ∉ text) :
    firstStop mark stop true text = none := by
  induction text with
  | nil => rfl
  | cons a rest ih =>
    rw [mem_cons, not_or] at unmarked
    obtain ⟨other, later⟩ := unmarked
    have unmarked : ¬a = mark := fun same => other same.symm
    rw [firstStop, if_neg fun both => nomatch both.2]
    simp only [if_neg unmarked, ih later, map_none]

variable {quoted : Bool} {text : List α} {position : Nat}

theorem firstStop_append_of_some (found : firstStop mark stop quoted text = some position)
    (more : List α) :
    firstStop mark stop quoted (text ++ more) = some position := by
  induction text generalizing quoted position with
  | nil => cases found
  | cons a rest ih =>
    rw [firstStop] at found
    rw [cons_append, firstStop]
    split at found
    · rename_i here
      rw [if_pos here]
      exact found
    · rename_i elsewhere
      obtain ⟨later, same, rfl⟩ := map_eq_some_iff.mp found
      rw [if_neg elsewhere, ih same]
      rfl

theorem firstStop_append_of_none (absent : firstStop mark stop quoted text = none) (more : List α) :
    firstStop mark stop quoted (text ++ more) =
      (firstStop mark stop (inside mark quoted text) more).map (· + text.length) := by
  induction text generalizing quoted with
  | nil =>
    rw [nil_append, inside]
    cases firstStop mark stop quoted more <;> rfl
  | cons a rest ih =>
    rw [firstStop] at absent
    split at absent
    · cases absent
    · rename_i elsewhere
      rw [cons_append, firstStop, if_neg elsewhere, ih (map_eq_none_iff.mp absent),
        Option.map_map]
      congr 1

theorem firstStop_lt (found : firstStop mark stop quoted text = some position) :
    position < text.length := by
  induction text generalizing quoted position with
  | nil => cases found
  | cons a rest ih =>
    rw [firstStop] at found
    split at found
    · cases found
      exact Nat.succ_pos rest.length
    · obtain ⟨later, same, rfl⟩ := map_eq_some_iff.mp found
      exact Nat.succ_lt_succ (ih same)

/-- The text around the first separator: nothing before it separates, and no
quotation is open there. -/
theorem firstStop_split (found : firstStop mark stop quoted text = some position) :
    text = text.take position ++ stop :: text.drop (position + 1) ∧
      firstStop mark stop quoted (text.take position) = none ∧
      inside mark quoted (text.take position) = false := by
  induction text generalizing quoted position with
  | nil => cases found
  | cons a rest ih =>
    rw [firstStop] at found
    split at found
    · rename_i here
      cases found
      rw [here.1, here.2]
      exact ⟨rfl, rfl, rfl⟩
    · rename_i elsewhere
      obtain ⟨later, same, rfl⟩ := map_eq_some_iff.mp found
      obtain ⟨around, before, closed⟩ := ih same
      refine ⟨?_, ?_, ?_⟩
      · rw [take_succ_cons, drop_succ_cons, cons_append, ← around]
      · rw [take_succ_cons, firstStop, if_neg elsewhere, before]
        rfl
      · rw [take_succ_cons]
        exact closed

theorem firstStop_here (absent : firstStop mark stop quoted text = none)
    (closed : inside mark quoted text = false) (more : List α) :
    firstStop mark stop quoted (text ++ stop :: more) = some text.length := by
  rw [firstStop_append_of_none absent, closed, firstStop, if_pos ⟨rfl, rfl⟩, map_some,
    Nat.zero_add]

theorem firstStop_take_of_lt (found : firstStop mark stop quoted text = some position) {size : Nat}
    (within : position < size) : firstStop mark stop quoted (text.take size) = some position := by
  have joined := take_append_drop size text
  cases there : firstStop mark stop quoted (text.take size) with
  | some other =>
    have same := firstStop_append_of_some there (text.drop size)
    rw [joined, found] at same
    exact same.symm
  | none =>
    have beyond := firstStop_append_of_none there (text.drop size)
    rw [joined, found] at beyond
    obtain ⟨later, _, sum⟩ := map_eq_some_iff.mp beyond.symm
    have short := firstStop_lt found
    rw [length_take] at sum
    omega

theorem firstStop_take_of_le {size : Nat}
    (beyond : ∀ position, firstStop mark stop quoted text = some position → size ≤ position) :
    firstStop mark stop quoted (text.take size) = none := by
  cases there : firstStop mark stop quoted (text.take size) with
  | none => rfl
  | some position =>
    have same := firstStop_append_of_some there (text.drop size)
    rw [take_append_drop] at same
    have short := firstStop_lt there
    have long := beyond position same
    rw [length_take] at short
    omega

theorem lastStop_none : lastStop stop text = none ↔ stop ∉ text := by
  induction text with
  | nil => exact iff_of_true rfl not_mem_nil
  | cons a rest ih =>
    rw [lastStop, mem_cons, not_or]
    cases found : lastStop stop rest with
    | some position =>
      rw [found] at ih
      exact iff_of_false (fun absent => nomatch absent)
        fun both => nomatch ih.mpr both.2
    | none =>
      have later : stop ∉ rest := ih.mp found
      by_cases same : a = stop
      · rw [if_pos same]
        exact iff_of_false (fun absent => nomatch absent) fun both => both.1 same.symm
      · rw [if_neg same]
        exact iff_of_true rfl ⟨fun equal => same equal.symm, later⟩

section

variable (found : lastStop stop text = some position)
include found

theorem lastStop_split :
    text = text.take position ++ stop :: text.drop (position + 1) ∧
      stop ∉ text.drop (position + 1) := by
  induction text generalizing position with
  | nil => cases found
  | cons a rest ih =>
    rw [lastStop] at found
    split at found
    · rename_i later there
      cases found
      obtain ⟨around, last⟩ := ih there
      refine ⟨?_, last⟩
      rw [take_succ_cons, drop_succ_cons, cons_append, ← around]
    · rename_i absent
      split at found
      · rename_i here
        cases found
        rw [here]
        exact ⟨rfl, lastStop_none.mp absent⟩
      · cases found

theorem lastStop_lt : position < text.length := by
  have lengths := congrArg List.length (lastStop_split found).1
  rw [length_append, length_take, length_cons] at lengths
  omega

theorem take_lastStop :
    text.take (position + 1) = text.take position ++ [stop] := by
  have short := lastStop_lt found
  conv_lhs => rw [(lastStop_split found).1]
  rw [take_append, take_of_length_le (by rw [length_take]; omega),
    length_take, Nat.min_eq_left (by omega), Nat.add_sub_cancel_left]
  rfl

end

/-- A text cut after its last separator has the same first separator. -/
theorem firstStop_cut (quoted : Bool) (found : lastStop stop text = some position) :
    firstStop mark stop quoted (text.take (position + 1)) = firstStop mark stop quoted text := by
  obtain ⟨around, last⟩ := lastStop_split found
  have whole : text.take (position + 1) ++ text.drop (position + 1) = text :=
    take_append_drop (position + 1) text
  cases there : firstStop mark stop quoted (text.take (position + 1)) with
  | some first =>
    rw [← firstStop_append_of_some there (text.drop (position + 1)), whole]
  | none =>
    have later := firstStop_append_of_none there (text.drop (position + 1))
    rw [whole, firstStop_of_not_mem _ _ last] at later
    exact later.symm

/-- When it has none, the separator it is cut after is inside a quotation. -/
theorem inside_cut (distinct : mark ≠ stop) (found : lastStop stop text = some position)
    (absent : firstStop mark stop quoted (text.take (position + 1)) = none) :
    inside mark quoted (text.take (position + 1)) = true := by
  rw [take_lastStop found] at absent ⊢
  have before : firstStop mark stop quoted (text.take position) = none := by
    cases there : firstStop mark stop quoted (text.take position) with
    | none => rfl
    | some first =>
      rw [firstStop_append_of_some there [stop]] at absent
      cases absent
  rw [inside_append, inside, if_neg fun same => distinct same.symm]
  cases state : inside mark quoted (text.take position) with
  | true => rfl
  | false =>
    rw [firstStop_here before state []] at absent
    cases absent

end OnlyJs.Lib.QuotedText
