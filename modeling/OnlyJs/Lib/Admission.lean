import Mathlib.Algebra.Order.Ring.Int
import Mathlib.Data.List.Induction
import Mathlib.Data.List.Perm.Basic

/-!
# Admission in order

Items come in one after the other. An item that is sound by itself is admitted unless it
clashes with one that is admitted already; an item that was turned away is turned away every
time. Only items that clash with some other item care about the order.
-/

namespace OnlyJs.Lib.Admission

open List

set_option autoImplicit false

universe u

variable {Item : Type u} (sound : Item → Bool) (clash : Item → Item → Bool)

def admits (held : List Item) (item : Item) : Bool :=
  sound item && held.all fun other => !clash other item

theorem admits_iff (held : List Item) (item : Item) :
    admits sound clash held item = true ↔
      sound item = true ∧ ∀ other ∈ held, clash other item = false := by
  rw [admits, Bool.and_eq_true, all_eq_true]
  simp only [Bool.not_eq_true']

variable [DecidableEq Item]

def takeIn (held : List Item) (item : Item) : List Item :=
  if item ∈ held then held else if admits sound clash held item then held ++ [item] else held

def admitted (items : List Item) : List Item := items.foldl (takeIn sound clash) []

/-- The item clashes, one way or the other, with a different one. -/
def entangled (items : List Item) (item : Item) : Bool :=
  items.any fun other => other != item && (clash other item || clash item other)

variable {sound clash} {items others : List Item} {item : Item}

theorem mem_takeIn {held : List Item} {next : Item} :
    item ∈ takeIn sound clash held next ↔
      item ∈ held ∨ item = next ∧ admits sound clash held next = true := by
  unfold takeIn
  split
  · rename_i already
    exact ⟨.inl, fun either => either.elim id fun both => both.1 ▸ already⟩
  · split
    · rename_i admitted
      rw [mem_append, mem_singleton]
      exact or_congr_right ⟨fun same => ⟨same, admitted⟩, And.left⟩
    · rename_i refused
      exact ⟨.inl, fun either => either.resolve_right fun both => refused both.2⟩

theorem admitted_append (items : List Item) (item : Item) :
    admitted sound clash (items ++ [item]) =
      takeIn sound clash (admitted sound clash items) item := by
  rw [admitted, foldl_append]
  rfl

theorem mem_of_admitted (member : item ∈ admitted sound clash items) :
    item ∈ items ∧ sound item = true := by
  induction items using List.reverseRecOn with
  | nil => cases member
  | append_singleton items last ih =>
    rw [admitted_append, mem_takeIn] at member
    rcases member with member | ⟨rfl, admitted⟩
    · exact ⟨mem_append_left _ (ih member).1, (ih member).2⟩
    · have good := ((admits_iff _ _ _ _).mp admitted).1
      exact ⟨mem_append_right _ (mem_singleton_self _), good⟩

/-- What is not there in the end would not get in now. -/
theorem refused_of_not_admitted (member : item ∈ items)
    (absent : item ∉ admitted sound clash items) :
    admits sound clash (admitted sound clash items) item = false := by
  induction items using List.reverseRecOn with
  | nil => cases member
  | append_singleton items last ih =>
    rw [admitted_append] at absent ⊢
    rw [mem_takeIn, not_or] at absent
    have refused : admits sound clash (admitted sound clash items) item = false := by
      rcases mem_append.mp member with member | member
      · exact ih member absent.1
      · rw [← mem_singleton.mp member] at absent
        exact Bool.eq_false_iff.mpr fun gets => absent.2 ⟨rfl, gets⟩
    rw [Bool.eq_false_iff] at refused ⊢
    intro gets
    apply refused
    obtain ⟨good, free⟩ := (admits_iff _ _ _ _).mp gets
    refine (admits_iff _ _ _ _).mpr ⟨good, fun other held => ?_⟩
    exact free other (mem_takeIn.mpr (.inl held))

/-- Later items do not change the fate of one that has been seen. -/
theorem admitted_settled (member : item ∈ items) (next : Item) :
    item ∈ admitted sound clash (items ++ [next]) ↔ item ∈ admitted sound clash items := by
  rw [admitted_append, mem_takeIn]
  refine ⟨fun either => either.elim id fun ⟨same, gets⟩ => ?_, .inl⟩
  by_contra absent
  have refused := refused_of_not_admitted member absent
  rw [same, gets] at refused
  cases refused

/-- A sound item without a clash gets in wherever it stands. -/
theorem admitted_of_free (free : entangled clash items item = false) :
    item ∈ admitted sound clash items ↔ item ∈ items ∧ sound item = true := by
  refine ⟨mem_of_admitted, fun ⟨member, good⟩ => ?_⟩
  by_contra absent
  have refused := refused_of_not_admitted member absent
  rw [Bool.eq_false_iff] at refused
  apply refused
  refine (admits_iff _ _ _ _).mpr ⟨good, fun other held => ?_⟩
  have apart : other ≠ item := fun same => absent (same ▸ held)
  have pair := any_eq_false.mp free other (mem_of_admitted held).1
  rw [bne_iff_ne.mpr apart, Bool.true_and, Bool.or_eq_true, not_or] at pair
  exact Bool.eq_false_iff.mpr pair.1

/-- For the entangled ones only the entangled ones count. -/
theorem admitted_entangled (part : ∀ item ∈ items, item ∈ others)
    (entangling : entangled clash others item = true) :
    item ∈ admitted sound clash items ↔
      item ∈ admitted sound clash (items.filter (entangled clash others)) := by
  induction items using List.reverseRecOn generalizing item with
  | nil => rfl
  | append_singleton items last ih =>
    have inner (item : Item) := @ih item fun other member =>
      part other (mem_append_left _ member)
    have among : last ∈ others := part last (mem_append_right _ (mem_singleton_self _))
    rw [filter_append, filter_singleton, admitted_append, mem_takeIn]
    cases tangled : entangled clash others last with
    | true =>
      rw [cond_true, admitted_append, mem_takeIn, inner item entangling]
      apply or_congr_right'
      intro fresh
      apply and_congr_right
      rintro rfl
      rw [admits_iff, admits_iff]
      apply and_congr_right
      intro _
      refine ⟨fun free other held => ?_, fun free other held => ?_⟩
      · have both := (mem_of_admitted held).1
        exact free other ((inner other (mem_filter.mp both).2).mpr held)
      · by_contra clashing
        rw [Bool.not_eq_false] at clashing
        have apart : other ≠ item :=
          fun same => fresh ((inner item tangled).mp (same ▸ held))
        have tangledToo : entangled clash others other = true := by
          apply any_eq_true.mpr
          refine ⟨item, among, ?_⟩
          rw [bne_iff_ne.mpr apart.symm, clashing, Bool.or_true]
          rfl
        have clear := free other ((inner other tangledToo).mp held)
        rw [clashing] at clear
        cases clear
    | false =>
      rw [cond_false, append_nil, ← inner item entangling]
      refine ⟨fun either => either.resolve_right fun both => ?_, .inl⟩
      rw [both.1, tangled] at entangling
      cases entangling

/-- Who gets in is the same for every order that keeps the entangled items in theirs. -/
theorem mem_admitted_of_perm (same : items.Perm others)
    (order : items.filter (entangled clash items) = others.filter (entangled clash items)) :
    item ∈ admitted sound clash items ↔ item ∈ admitted sound clash others := by
  have sameTangle : entangled clash others = entangled clash items := by
    funext item
    exact (same.any_eq (f := fun other =>
      other != item && (clash other item || clash item other))).symm
  cases tangled : entangled clash items item with
  | true =>
    rw [admitted_entangled (fun _ => id) tangled, order]
    exact (admitted_entangled (fun _ => same.mem_iff.mpr) tangled).symm
  | false =>
    rw [admitted_of_free tangled, admitted_of_free (sameTangle ▸ tangled), same.mem_iff]

end OnlyJs.Lib.Admission
