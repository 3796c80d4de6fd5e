import Mathlib.Algebra.Order.Ring.Int
import Mathlib.Data.List.Basic

/-!
# Bounded queues with an age limit

Entries join a queue at its end, leave it at the front once there are more than a cap, and
leave it wherever they stand once they are too old. An entry that is young enough, with
fewer than cap entries after it, is still there; what is kept is a suffix of all entries
that ever joined.
-/

namespace OnlyJs.Lib.Retention

open List

set_option autoImplicit false

universe u

variable {Entry : Type u}

/-- Pops the front while more than `cap` entries are there. -/
def evict (cap : Nat) (entries : List Entry) : List Entry :=
  entries.drop (entries.length - cap)

def join (cap : Nat) (entries : List Entry) (entry : Entry) : List Entry :=
  evict cap (entries ++ [entry])

theorem evict_sublist (cap : Nat) (entries : List Entry) :
    (evict cap entries).Sublist entries := drop_sublist _ _

variable {entries kept : List Entry}

/-- Eviction spares a suffix that fits the cap. -/
theorem suffix_evict {cap : Nat} (suffix : kept <:+ entries) (fits : kept.length ≤ cap) :
    kept <:+ evict cap entries := by
  apply suffix_of_suffix_length_le suffix (drop_suffix _ _)
  have shorter := suffix.length_le
  rw [length_drop]
  omega

theorem suffix_join {cap : Nat} (entry : Entry) (suffix : kept <:+ entries)
    (room : kept.length < cap) :
    kept ++ [entry] <:+ join cap entries entry := by
  apply suffix_evict
  · obtain ⟨front, rfl⟩ := suffix
    exact ⟨front, by rw [append_assoc]⟩
  · rw [length_append]
    exact room

/-- Purging by age spares a suffix of young entries. -/
theorem suffix_purge {young : Entry → Bool} (suffix : kept <:+ entries)
    (fresh : ∀ entry ∈ kept, young entry = true) :
    kept <:+ entries.filter young := by
  obtain ⟨front, rfl⟩ := suffix
  rw [filter_append, filter_eq_self.mpr fresh]
  exact suffix_append _ _

/-- A suffix of what has joined before and after one more. -/
theorem suffix_snoc {entry last : Entry} (suffix : entry :: kept <:+ entries ++ [last]) :
    kept = [] ∧ entry = last ∨ ∃ before, kept = before ++ [last] ∧ entry :: before <:+ entries := by
  obtain ⟨front, same⟩ := suffix
  rcases eq_nil_or_concat kept with rfl | ⟨before, final, rfl⟩
  · obtain ⟨_, same⟩ := append_inj' same rfl
    cases same
    exact .inl ⟨rfl, rfl⟩
  · rw [concat_eq_append, ← cons_append, ← append_assoc] at same
    obtain ⟨whole, ended⟩ := append_inj' same rfl
    cases ended
    exact .inr ⟨before, concat_eq_append, front, whole⟩

end OnlyJs.Lib.Retention
