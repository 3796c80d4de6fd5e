import Mathlib.Algebra.Order.Ring.Int
import Mathlib.Data.Finmap

/-!
# Finite maps: weights and retained entries

The weight of a finite map sums a number over its entries. Sizes, counts of
the entries with a property and totals of stored numbers are all weights, so
the lemmas on insertion and removal account for each of them. `retain` keeps
the entries with a property.
-/

namespace OnlyJs.Lib.FiniteMap

open Finmap

set_option autoImplicit false

universe u v

variable {Key : Type u} {Value : Type v}

/-- The sum of `measure` over the entries of a finite map. -/
def weight (measure : Key → Value → Nat) (table : Finmap fun _ : Key => Value) : Nat :=
  (table.entries.map fun entry => measure entry.1 entry.2).sum

/-- The number of entries. -/
def size (table : Finmap fun _ : Key => Value) : Nat :=
  table.entries.card

theorem size_eq_weight (table : Finmap fun _ : Key => Value) :
    size table = weight (fun _ _ => 1) table := by
  simp [size, weight]

theorem weight_add (first second : Key → Value → Nat) (table : Finmap fun _ : Key => Value) :
    weight (fun key value => first key value + second key value) table =
      weight first table + weight second table :=
  Multiset.sum_map_add

variable [DecidableEq Key]

theorem weight_insert_fresh (measure : Key → Value → Nat) (key : Key) (value : Value)
    (table : Finmap fun _ : Key => Value) (fresh : key ∉ table) :
    weight measure (table.insert key value) = measure key value + weight measure table := by
  unfold weight
  rw [entries_insert_of_notMem fresh, Multiset.map_cons, Multiset.sum_cons]

/-- A map with a known entry is that entry inserted into the rest. -/
theorem insert_erase_of_lookup (key : Key) (value : Value)
    (table : Finmap fun _ : Key => Value) (found : table.lookup key = some value) :
    (table.erase key).insert key value = table := by
  apply ext_lookup
  intro other
  by_cases same : other = key
  · subst same
    rw [lookup_insert, found]
  · rw [lookup_insert_of_ne _ same, lookup_erase_ne same]

theorem weight_erase_of_lookup (measure : Key → Value → Nat) (key : Key) (value : Value)
    (table : Finmap fun _ : Key => Value) (found : table.lookup key = some value) :
    weight measure table = measure key value + weight measure (table.erase key) := by
  have split := insert_erase_of_lookup key value table found
  calc
    weight measure table = weight measure ((table.erase key).insert key value) := by rw [split]
    _ = measure key value + weight measure (table.erase key) :=
      weight_insert_fresh measure key value (table.erase key) notMem_erase_self

theorem erase_of_notMem (key : Key) (table : Finmap fun _ : Key => Value)
    (absent : key ∉ table) : table.erase key = table := by
  apply ext_lookup
  intro other
  by_cases same : other = key
  · subst same
    rw [lookup_erase, lookup_eq_none.mpr absent]
  · rw [lookup_erase_ne same]

/-- Inserting under any key first drops what the key held. -/
theorem insert_erase (key : Key) (value : Value) (table : Finmap fun _ : Key => Value) :
    (table.erase key).insert key value = table.insert key value := by
  apply ext_lookup
  intro other
  by_cases same : other = key
  · subst same
    rw [lookup_insert, lookup_insert]
  · rw [lookup_insert_of_ne _ same, lookup_erase_ne same, lookup_insert_of_ne _ same]

section

variable (measure : Key → Value → Nat) (key : Key)
include measure key

theorem weight_insert (value : Value) (table : Finmap fun _ : Key => Value) :
    weight measure (table.insert key value) =
      measure key value + weight measure (table.erase key) := by
  rw [← insert_erase]
  exact weight_insert_fresh measure key value (table.erase key) notMem_erase_self

theorem weight_erase_le (table : Finmap fun _ : Key => Value) :
    weight measure (table.erase key) ≤ weight measure table := by
  cases found : table.lookup key with
  | none => rw [erase_of_notMem key table (lookup_eq_none.mp found)]
  | some value =>
    have split := weight_erase_of_lookup measure key value table found
    omega

theorem weight_insert_le (value : Value) (table : Finmap fun _ : Key => Value) :
    weight measure (table.insert key value) ≤ measure key value + weight measure table := by
  rw [weight_insert]
  have smaller := weight_erase_le measure key table
  omega

/-- Replacing an entry trades its measure for the new one. -/
theorem weight_replace (old value : Value) (table : Finmap fun _ : Key => Value)
    (found : table.lookup key = some old) :
    weight measure (table.insert key value) + measure key old =
      weight measure table + measure key value := by
  have inserted := weight_insert measure key value table
  have erased := weight_erase_of_lookup measure key old table found
  omega

end

/-- Inserting the entry that is there changes nothing. -/
theorem insert_of_lookup (key : Key) (value : Value) (table : Finmap fun _ : Key => Value)
    (found : table.lookup key = some value) : table.insert key value = table := by
  rw [← insert_erase, insert_erase_of_lookup key value table found]

/-- The entries with a property. -/
def retain (keep : Key → Value → Bool) (table : Finmap fun _ : Key => Value) :
    Finmap fun _ : Key => Value where
  entries := table.entries.filter fun entry => keep entry.1 entry.2
  nodupKeys := by
    refine induction_on table fun list => ?_
    exact List.NodupKeys.sublist List.filter_sublist list.nodupKeys

theorem lookup_eq_some_iff (table : Finmap fun _ : Key => Value) (key : Key) (value : Value) :
    table.lookup key = some value ↔ (⟨key,
      value⟩ : Sigma fun _ : Key => Value) ∈ table.entries := by
  refine induction_on table fun list => ?_
  exact AList.mem_lookup_iff

theorem lookup_retain (keep : Key → Value → Bool) (table : Finmap fun _ : Key => Value)
    (key : Key) : (retain keep table).lookup key = (table.lookup key).filter (keep key) := by
  ext value
  rw [Option.filter_eq_some_iff, lookup_eq_some_iff, lookup_eq_some_iff]
  exact Multiset.mem_filter

theorem weight_eq_zero_iff (measure : Key → Value → Nat) (table : Finmap fun _ : Key => Value) :
    weight measure table = 0 ↔
      ∀ key value, table.lookup key = some value → measure key value = 0 := by
  constructor
  · intro zero key value found
    have split := weight_erase_of_lookup measure key value table found
    omega
  · intro zero
    apply Multiset.sum_eq_zero
    intro number listed
    obtain ⟨⟨key, value⟩, member, rfl⟩ := Multiset.mem_map.mp listed
    exact zero key value ((lookup_eq_some_iff table key value).mpr member)

end OnlyJs.Lib.FiniteMap
