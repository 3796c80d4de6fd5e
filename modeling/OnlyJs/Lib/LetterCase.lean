import Mathlib.Algebra.Order.Ring.Int
import Mathlib.Data.List.Forall2

/-!
# The case of ASCII letters

Two characters are the same letter when they agree in lower case. A character that is no
letter is the same letter as itself only.
-/

namespace OnlyJs.Lib.LetterCase

open List

set_option autoImplicit false

def SameLetter (c d : Char) : Prop := c.toLower = d.toLower

instance (c d : Char) : Decidable (SameLetter c d) := inferInstanceAs (Decidable (_ = _))

section Codes

theorem lower_code (c : Char) :
    c.toLower.toNat = if 65 ≤ c.toNat ∧ c.toNat ≤ 90 then c.toNat + 32 else c.toNat := by
  have range : (c.val ≥ 'A'.val ∧ c.val ≤ 'Z'.val) ↔ 65 ≤ c.toNat ∧ c.toNat ≤ 90 := Iff.rfl
  unfold Char.toLower
  split
  · rename_i upper
    rw [if_pos (range.mp upper)]
    have bound := (range.mp upper).2
    change (c.toNat + 32) % _ = _
    omega
  · rename_i other
    rw [if_neg fun inside => other (range.mpr inside)]

theorem upper_code (c : Char) :
    c.toUpper.toNat = if 97 ≤ c.toNat ∧ c.toNat ≤ 122 then c.toNat - 32 else c.toNat := by
  have range : ('a'.val ≤ c.val ∧ c.val ≤ 'z'.val) ↔ 97 ≤ c.toNat ∧ c.toNat ≤ 122 := Iff.rfl
  unfold Char.toUpper
  split
  · rename_i lower
    rw [if_pos (range.mp lower)]
    have bounds := range.mp lower
    change (c.val + ('A'.val - 'a'.val)).toNat = _
    rw [UInt32.toNat_add]
    change (c.toNat + 4294967264) % _ = _
    omega
  · rename_i other
    rw [if_neg fun inside => other (range.mpr inside)]

theorem alpha_code (c : Char) :
    c.isAlpha = true ↔ (65 ≤ c.toNat ∧ c.toNat ≤ 90) ∨ (97 ≤ c.toNat ∧ c.toNat ≤ 122) := by
  unfold Char.isAlpha Char.isUpper Char.isLower
  rw [Bool.or_eq_true, decide_eq_true_eq, Bool.and_eq_true, decide_eq_true_eq, decide_eq_true_eq]
  exact Iff.rfl

theorem code_injective {c d : Char} (same : c.toNat = d.toNat) : c = d :=
  Char.ext (UInt32.toNat_inj.mp same)

end Codes

section Letters

theorem SameLetter.refl (c : Char) : SameLetter c c := rfl

variable {c d : Char}

theorem SameLetter.symm (same : SameLetter c d) : SameLetter d c := Eq.symm same

theorem same_letter_code (same : SameLetter c d) :
    c.toLower.toNat = d.toLower.toNat := congrArg Char.toNat same

theorem same_letter_lower (c : Char) : SameLetter c.toLower c := by
  apply code_injective
  rw [lower_code, lower_code]
  split_ifs <;> omega

theorem same_letter_upper (c : Char) : SameLetter c.toUpper c := by
  apply code_injective
  rw [lower_code, lower_code, upper_code]
  split_ifs <;> omega

theorem SameLetter.alpha (same : SameLetter c d) : c.isAlpha = d.isAlpha := by
  have code := same_letter_code same
  rw [lower_code, lower_code] at code
  rw [Bool.eq_iff_iff, alpha_code, alpha_code]
  split_ifs at code <;> omega

/-- Only a letter is the same letter as another character. -/
theorem SameLetter.eq (same : SameLetter c d) (plain : c.isAlpha = false) :
    c = d := by
  have other : d.isAlpha = false := same.alpha.symm.trans plain
  rw [Bool.eq_false_iff, Ne, alpha_code] at plain other
  have code := same_letter_code same
  rw [lower_code, lower_code] at code
  apply code_injective
  split_ifs at code <;> omega

theorem SameLetter.upper (same : SameLetter c d) : c.toUpper = d.toUpper := by
  have code := same_letter_code same
  rw [lower_code, lower_code] at code
  apply code_injective
  rw [upper_code, upper_code]
  split_ifs at code ⊢ <;> omega

/-- No letter is in both cases. -/
theorem not_alpha_of_both (lower : c.toLower = c) (upper : c.toUpper = c) :
    c.isAlpha = false := by
  rw [Bool.eq_false_iff, Ne, alpha_code]
  have low := congrArg Char.toNat lower
  have high := congrArg Char.toNat upper
  rw [lower_code] at low
  rw [upper_code] at high
  split_ifs at low high <;> omega

theorem lower_lower (c : Char) : c.toLower.toLower = c.toLower := same_letter_lower c

theorem upper_upper (c : Char) : c.toUpper.toUpper = c.toUpper := (same_letter_upper c).upper

end Letters

section Words

/-- Two texts that differ in the case of their letters at most. -/
def SameLetters (first second : List Char) : Prop := List.Forall₂ SameLetter first second

theorem SameLetters.map {α : Type} {f g : α → Char} (word : List α)
    (same : ∀ a ∈ word, SameLetter (f a) (g a)) : SameLetters (word.map f) (word.map g) := by
  induction word with
  | nil => exact .nil
  | cons a rest ih =>
    exact .cons (same a mem_cons_self)
      (ih fun b member => same b (mem_cons_of_mem a member))

variable {first second : List Char}

theorem SameLetters.upper (same : SameLetters first second) :
    first.map Char.toUpper = second.map Char.toUpper := by
  induction same with
  | nil => rfl
  | cons letter _ ih => rw [map_cons, map_cons, letter.upper, ih]

theorem SameLetters.lower (same : SameLetters first second) :
    first.map Char.toLower = second.map Char.toLower := by
  induction same with
  | nil => rfl
  | cons letter _ ih => rw [map_cons, map_cons, show _ = _ from letter, ih]

theorem SameLetters.refl (word : List Char) : SameLetters word word :=
  List.forall₂_same.mpr fun c _ => SameLetter.refl c

section

variable (same : SameLetters first second)
include same

theorem SameLetters.symm :
    SameLetters second first := by
  induction same with
  | nil => exact .nil
  | cons letter _ ih => exact .cons letter.symm ih

/-- A word in lower case is the lower case of every word with its letters. -/
theorem SameLetters.eq_lower (lower : ∀ c ∈ first, c.toLower = c) :
    first = second.map Char.toLower := by
  have kept : first.map Char.toLower = first := by
    conv_rhs => rw [← map_id first]
    exact map_congr_left lower
  rw [← kept, same.lower]

/-- Without letters, nothing differs. -/
theorem SameLetters.eq (plain : first.any Char.isAlpha = false) :
    first = second := by
  induction same with
  | nil => rfl
  | cons letter _ ih =>
    rw [any_cons, Bool.or_eq_false_iff] at plain
    rw [letter.eq plain.1, ih plain.2]

theorem SameLetters.any_alpha :
    first.any Char.isAlpha = second.any Char.isAlpha := by
  induction same with
  | nil => rfl
  | cons letter _ ih => rw [any_cons, any_cons, letter.alpha, ih]

section

variable (p : Char → Bool) (blind : ∀ c d, SameLetter c d → p c = p d)
include p blind

/-- A predicate that depends on letters only cuts two such words alike. -/
theorem SameLetters.dropWhile :
    SameLetters (first.dropWhile p) (second.dropWhile p) := by
  induction same with
  | nil => exact .nil
  | @cons c d _ _ letter rest ih =>
    rw [dropWhile_cons, dropWhile_cons, blind c d letter]
    split
    · exact ih
    · exact .cons letter rest

theorem SameLetters.takeWhile :
    SameLetters (first.takeWhile p) (second.takeWhile p) := by
  induction same with
  | nil => exact .nil
  | @cons c d _ _ letter rest ih =>
    rw [takeWhile_cons, takeWhile_cons, blind c d letter]
    split
    · exact .cons letter ih
    · exact .nil

end

theorem SameLetters.reverse :
    SameLetters first.reverse second.reverse := rel_reverse same

end

end Words

end OnlyJs.Lib.LetterCase
