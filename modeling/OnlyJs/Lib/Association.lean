import Mathlib.Algebra.Order.Ring.Int
import Mathlib.Data.List.Nodup

/-!
# Association lists

A list of keys with values, read at the first entry of a key. `put` replaces whatever
a key had before.
-/

namespace OnlyJs.Lib.Association

open List

set_option autoImplicit false

universe u v

variable {Key : Type u} {Value : Type v} [BEq Key] [LawfulBEq Key]

def put (entries : List (Key × Value)) (key : Key) (value : Value) : List (Key × Value) :=
  (key, value) :: entries.filter fun entry => entry.1 != key

variable {key : Key}

theorem lookup_filter_ne {other : Key} (different : other ≠ key) (entries : List (Key × Value)) :
    (entries.filter fun entry => entry.1 != key).lookup other = entries.lookup other := by
  induction entries with
  | nil => rfl
  | cons entry rest ih =>
    obtain ⟨name, value⟩ := entry
    rw [filter_cons]
    by_cases kept : (name != key) = true
    · rw [if_pos kept, lookup_cons, lookup_cons, ih]
    · have same : name = key := by
        by_contra apart
        exact kept (bne_iff_ne.mpr apart)
      have missed : (other == name) = false :=
        beq_eq_false_iff_ne.mpr fun found => different (found.trans same)
      rw [if_neg kept, lookup_cons, missed, ih]

theorem lookup_put [DecidableEq Key] (entries : List (Key × Value)) (key other : Key)
    (value : Value) :
    (put entries key value).lookup other = if other = key then some value
      else entries.lookup other := by
  unfold put
  by_cases same : other = key
  · subst same
    rw [if_pos rfl, lookup_cons_self]
  · rw [if_neg same, lookup_cons, beq_eq_false_iff_ne.mpr same]
    exact lookup_filter_ne same entries

variable {entries : List (Key × Value)}

/-- Keys stay distinct. -/
theorem put_distinct (distinct : (entries.map Prod.fst).Nodup) (key : Key) (value : Value) :
    ((put entries key value).map Prod.fst).Nodup := by
  have fewer : (entries.filter fun entry => entry.1 != key).Sublist entries := filter_sublist
  refine nodup_cons.mpr ⟨?_, distinct.sublist (fewer.map Prod.fst)⟩
  intro listed
  obtain ⟨entry, found, same⟩ := mem_map.mp listed
  have other := (mem_filter.mp found).2
  rw [same] at other
  exact absurd rfl (bne_iff_ne.mp other)

/-- A list in which no key is found has no entry. -/
theorem eq_nil_of_lookup (nothing : ∀ key, entries.lookup key = none) : entries = [] := by
  cases entries with
  | nil => rfl
  | cons entry rest =>
    obtain ⟨key, value⟩ := entry
    have absent := nothing key
    rw [lookup_cons_self] at absent
    cases absent

/-- A key is found exactly if some entry has it. -/
theorem lookup_isSome :
    (entries.lookup key).isSome = true ↔ ∃ value, (key, value) ∈ entries := by
  induction entries with
  | nil => simp
  | cons entry rest ih =>
    obtain ⟨name, value⟩ := entry
    rw [lookup_cons]
    by_cases same : key = name
    · subst same
      simp
    · rw [beq_eq_false_iff_ne.mpr same]
      simp [ih, same]

/-- With distinct keys an entry is what its key finds. -/
theorem lookup_of_mem {value : Value} (distinct : (entries.map Prod.fst).Nodup)
    (listed : (key, value) ∈ entries) :
    entries.lookup key = some value := by
  induction entries with
  | nil => cases listed
  | cons entry rest ih =>
    obtain ⟨name, first⟩ := entry
    obtain ⟨fresh, distinct⟩ := nodup_cons.mp distinct
    rw [lookup_cons]
    rcases mem_cons.mp listed with same | later
    · cases same
      rw [beq_self_eq_true]
    · have different : key ≠ name := by
        intro same
        subst same
        exact fresh (mem_map.mpr ⟨(key, value), later, rfl⟩)
      rw [beq_eq_false_iff_ne.mpr different]
      exact ih distinct later

theorem mem_of_lookup {value : Value} (found : entries.lookup key = some value) :
    (key, value) ∈ entries := by
  induction entries with
  | nil => cases found
  | cons entry rest ih =>
    obtain ⟨name, first⟩ := entry
    rw [lookup_cons] at found
    by_cases same : key = name
    · subst same
      rw [beq_self_eq_true] at found
      cases found
      exact mem_cons_self
    · rw [beq_eq_false_iff_ne.mpr same] at found
      exact mem_cons_of_mem _ (ih found)

end OnlyJs.Lib.Association
