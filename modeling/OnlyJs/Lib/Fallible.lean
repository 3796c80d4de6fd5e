import Mathlib.Algebra.Order.Ring.Int
import Mathlib.Data.List.Forall2

/-!
# Fallible computations

Inversion of a successful computation in `Except`: what the parts of a sequence,
of an error translation or of a traversal returned.
-/

namespace OnlyJs.Lib.Fallible

open List

set_option autoImplicit false

universe u v w

variable {ε : Type u} {δ : Type w} {α β : Type v}

theorem bind_ok {first : Except ε α} {rest : α → Except ε β} {result : β} :
    (first >>= rest) = .ok result ↔ ∃ value, first = .ok value ∧ rest value = .ok result := by
  cases first with
  | error e =>
    constructor
    · intro absurd
      cases absurd
    · rintro ⟨value, absurd, _⟩
      cases absurd
  | ok value =>
    constructor
    · intro continued
      exact ⟨value, rfl, continued⟩
    · rintro ⟨other, same, continued⟩
      cases same
      exact continued

variable {computation : Except ε α}

theorem map_error_ok {translate : ε → δ} {result : α} :
    computation.mapError translate = .ok result ↔ computation = .ok result := by
  cases computation with
  | error e =>
    constructor <;> intro absurd <;> cases absurd
  | ok value =>
    constructor <;> intro same <;> cases same <;> rfl

theorem map_error {f : α → β} {error : ε} :
    computation.map f = .error error ↔ computation = .error error := by
  cases computation with
  | error e =>
    constructor <;> intro same <;> cases same <;> rfl
  | ok value =>
    constructor <;> intro absurd <;> cases absurd

theorem map_ok {first : Except ε α} {f : α → β} {result : β} :
    first.map f = .ok result ↔ ∃ value, first = .ok value ∧ f value = result := by
  cases first with
  | error e =>
    constructor
    · intro absurd
      cases absurd
    · rintro ⟨_, absurd, _⟩
      cases absurd
  | ok value =>
    constructor
    · intro same
      exact ⟨value, rfl, Except.ok.inj same⟩
    · rintro ⟨_, same, rfl⟩
      cases same
      rfl

variable {Element : Type w}

/-- A check of every element passes exactly if it passes on each one. -/
theorem forM_ok {check : Element → Except ε Unit} (list : List Element) :
    list.forM check = .ok () ↔ ∀ element ∈ list, check element = .ok () := by
  induction list with
  | nil =>
    constructor
    · intro _ element listed
      cases listed
    · intro _
      rfl
  | cons head tail ih =>
    change (check head >>= fun _ => tail.forM check) = .ok () ↔ _
    rw [bind_ok, forall_mem_cons]
    constructor
    · rintro ⟨_, passed, rest⟩
      exact ⟨passed, ih.mp rest⟩
    · rintro ⟨passed, rest⟩
      exact ⟨(), passed, ih.mpr rest⟩

/-- Stops with an error if a condition holds. -/
def reject (condition : Bool) (error : ε) : Except ε Unit :=
  if condition then .error error else .ok ()

@[simp] theorem reject_ok {condition : Bool} {error : ε} :
    reject condition error = .ok () ↔ condition = false := by
  cases condition <;> simp [reject]

variable {f : Element → Except ε α}

/-- A traversal succeeds exactly if it succeeds on each element. -/
theorem mapM_ok {list : List Element} {results : List α} : list.mapM f = .ok results ↔
      List.Forall₂ (fun element result => f element = .ok result) list results := by
  induction list generalizing results with
  | nil =>
    rw [List.forall₂_nil_left_iff]
    constructor
    · intro same
      cases same
      rfl
    · intro same
      rw [same]
      rfl
  | cons element rest ih =>
    rw [mapM_cons, bind_ok, List.forall₂_cons_left_iff]
    constructor
    · rintro ⟨result, first, continued⟩
      obtain ⟨others, traversed, same⟩ := bind_ok.mp continued
      cases same
      exact ⟨result, others, first, ih.mp traversed, rfl⟩
    · rintro ⟨result, others, first, related, rfl⟩
      exact ⟨result, first, bind_ok.mpr ⟨others, ih.mpr related, rfl⟩⟩

theorem mapM_same {First Second : Type w} {f : First → Except ε α} {g : Second → Except ε α}
    {left : List First} {right : List Second}
    (same : List.Forall₂ (fun first second => f first = g second) left right) :
    left.mapM f = right.mapM g := by
  induction same with
  | nil => rfl
  | cons head _ ih => rw [mapM_cons, mapM_cons, head, ih]

/-- A traversal whose steps succeed where an option has a value succeeds where it always has
one, with all the values. -/
theorem mapM_ok_filterMap {g : Element → Option α}
    (steps : ∀ element result, f element = .ok result ↔ g element = some result)
    {list : List Element} {results : List α} : list.mapM f = .ok results ↔
      (∀ element ∈ list, (g element).isSome = true) ∧ results = list.filterMap g := by
  rw [mapM_ok]
  simp only [steps]
  induction list generalizing results with
  | nil =>
    rw [List.forall₂_nil_left_iff]
    exact ⟨fun same => ⟨nofun, same⟩, And.right⟩
  | cons element rest ih =>
    rw [List.forall₂_cons_left_iff, forall_mem_cons]
    constructor
    · rintro ⟨result, others, first, related, rfl⟩
      obtain ⟨each, same⟩ := ih.mp related
      rw [filterMap_cons_some first, ← same, first]
      exact ⟨⟨rfl, each⟩, rfl⟩
    · rintro ⟨⟨first, each⟩, same⟩
      obtain ⟨result, found⟩ := Option.isSome_iff_exists.mp first
      rw [filterMap_cons_some found] at same
      exact ⟨result, _, found, ih.mpr ⟨each, rfl⟩, same⟩

theorem mapM_total {list : List Element}
    (each : ∀ element ∈ list, ∃ result, f element = .ok result) :
    ∃ results, list.mapM f = .ok results := by
  induction list with
  | nil => exact ⟨[], rfl⟩
  | cons element rest ih =>
    obtain ⟨result, first⟩ := each element mem_cons_self
    obtain ⟨results, others⟩ := ih fun other member => each other (mem_cons_of_mem _ member)
    refine ⟨result :: results, ?_⟩
    rw [mapM_cons]
    exact bind_ok.mpr ⟨result, first, bind_ok.mpr ⟨results, others, rfl⟩⟩

section Related

variable {First Second Third : Type u} {related : First → Second → Prop}
variable {list : List First} {results : List Second}

theorem forall₂_mem_right (pairs : List.Forall₂ related list results) {result : Second}
    (member : result ∈ results) : ∃ element ∈ list, related element result := by
  induction pairs with
  | nil => cases member
  | cons first _ ih =>
    rcases mem_cons.mp member with rfl | member
    · exact ⟨_, mem_cons_self, first⟩
    · obtain ⟨element, inside, found⟩ := ih member
      exact ⟨element, mem_cons_of_mem _ inside, found⟩

theorem forall₂_mem_left (pairs : List.Forall₂ related list results) {element : First}
    (member : element ∈ list) : ∃ result ∈ results, related element result := by
  induction pairs with
  | nil => cases member
  | cons first _ ih =>
    rcases mem_cons.mp member with rfl | member
    · exact ⟨_, mem_cons_self, first⟩
    · obtain ⟨result, inside, found⟩ := ih member
      exact ⟨result, mem_cons_of_mem _ inside, found⟩

/-- What related elements share, both lists share. -/
theorem forall₂_map {left : First → Third} {right : Second → Third}
    (pairs : List.Forall₂ related list results)
    (same : ∀ element ∈ list, ∀ result, related element result → right result = left element) :
    results.map right = list.map left := by
  induction pairs with
  | nil => rfl
  | cons first _ ih =>
    rw [map_cons, map_cons, same _ mem_cons_self _ first,
      ih fun element member => same element (mem_cons_of_mem _ member)]

end Related

end OnlyJs.Lib.Fallible
