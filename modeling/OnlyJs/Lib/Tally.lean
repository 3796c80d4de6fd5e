import Mathlib.Algebra.Order.Ring.Int
import Mathlib.Algebra.Order.BigOperators.Group.List
import Mathlib.Algebra.Order.Group.Nat

/-!
# Tallies

A tally is the sum of what the entries of a list weigh. One entry is changed, two entries are
weighed together, and the tally is that of one entry alone.
-/

namespace OnlyJs.Lib.Tally

open List

set_option autoImplicit false

universe u

variable {ω : Type u} (weight : ω → Nat)

def tally (list : List ω) : Nat := (list.map weight).sum

@[simp] theorem tally_nil : tally weight [] = 0 := rfl

@[simp] theorem tally_cons (entry : ω) (rest : List ω) :
    tally weight (entry :: rest) = weight entry + tally weight rest := by
  rw [tally, map_cons, sum_cons, tally]

@[simp] theorem tally_append (first second : List ω) :
    tally weight (first ++ second) = tally weight first + tally weight second := by
  rw [tally, map_append, sum_append, tally, tally]

theorem tally_replicate (count : Nat) (entry : ω) :
    tally weight (List.replicate count entry) = count * weight entry := by
  induction count with
  | zero => rw [replicate_zero, tally_nil, Nat.zero_mul]
  | succ count ih =>
    rw [replicate_succ, tally_cons, ih, Nat.succ_mul, Nat.add_comm]

variable {list : List ω}

theorem tally_congr {other : ω → Nat} (same : ∀ entry ∈ list, weight entry = other entry) :
    tally weight list = tally other list :=
  congrArg List.sum (map_congr_left same)

/-- Entries that weigh something are no more than the tally. -/
theorem countP_le_tally {counts : ω → Bool}
    (heavy : ∀ entry ∈ list, counts entry = true → 1 ≤ weight entry) :
    list.countP counts ≤ tally weight list := by
  induction list with
  | nil => exact Nat.le_refl 0
  | cons entry rest ih =>
    have later := ih fun other member => heavy other (mem_cons_of_mem entry member)
    rw [countP_cons, tally_cons]
    by_cases counted : counts entry = true
    · have own := heavy entry mem_cons_self counted
      rw [if_pos counted]
      omega
    · rw [if_neg counted]
      omega

theorem weight_le_tally {entry : ω} (member : entry ∈ list) :
    weight entry ≤ tally weight list :=
  le_sum_of_mem (mem_map_of_mem member)

/-- What one entry gains or loses, the tally does. -/
theorem tally_set {index : Nat} {old : ω} (found : list[index]? = some old) (new : ω) :
    tally weight (list.set index new) + weight old =
      tally weight list + weight new := by
  induction list generalizing index with
  | nil => cases found
  | cons entry rest ih =>
    cases index with
    | zero =>
      cases found
      rw [set_cons_zero, tally_cons, tally_cons]
      omega
    | succ index =>
      have later := ih found
      rw [set_cons_succ, tally_cons, tally_cons]
      omega

theorem tally_zero (none : ∀ entry ∈ list, weight entry = 0) :
    tally weight list = 0 := by
  induction list with
  | nil => rfl
  | cons entry rest ih =>
    rw [tally_cons, none entry mem_cons_self,
      ih fun other member => none other (mem_cons_of_mem entry member)]

/-- Where entries weigh one at most, a full tally has no other. -/
theorem one_of_full (light : ∀ entry ∈ list, weight entry ≤ 1)
    (full : list.length ≤ tally weight list) : ∀ entry ∈ list, weight entry = 1 := by
  induction list with
  | nil => nofun
  | cons entry rest ih =>
    have lightRest : ∀ other ∈ rest, weight other ≤ 1 := fun other member =>
      light other (mem_cons_of_mem entry member)
    have own := light entry mem_cons_self
    have bounded : tally weight rest ≤ rest.length := by
      have sum := sum_le_card_nsmul (rest.map weight) 1 fun number listed => by
        obtain ⟨other, member, rfl⟩ := mem_map.mp listed
        exact lightRest other member
      simpa [tally] using sum
    rw [tally_cons, length_cons] at full
    intro other member
    cases member with
    | head => omega
    | tail _ member => exact ih lightRest (by omega) other member

/-- Where no two entries weigh anything, one entry weighs as much as all. -/
theorem alone_of_tally (positive : 0 < tally weight list)
    (apart : ∀ (first second : Nat) (one other : ω), first ≠ second → list[first]? = some one →
      list[second]? = some other → weight one = 0 ∨ weight other = 0) :
    ∃ entry ∈ list, weight entry = tally weight list := by
  induction list with
  | nil => cases positive
  | cons entry rest ih =>
    rw [tally_cons] at positive ⊢
    by_cases own : weight entry = 0
    · have later : 0 < tally weight rest := by omega
      obtain ⟨other, member, same⟩ := ih later fun first second one other different found =>
        apart (first + 1) (second + 1) one other (by omega) found
      refine ⟨other, mem_cons_of_mem entry member, ?_⟩
      omega
    · refine ⟨entry, mem_cons_self, ?_⟩
      have others : tally weight rest = 0 := by
        apply tally_zero
        intro other member
        obtain ⟨index, found⟩ := getElem?_of_mem member
        exact (apart 0 (index + 1) entry other (by omega) rfl found).resolve_left own
      omega

end OnlyJs.Lib.Tally
