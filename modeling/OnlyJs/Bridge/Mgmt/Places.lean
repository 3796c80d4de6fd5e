import OnlyJs.Bridge.Mgmt.Registry

/-!
# Where a handle is

Every handle that the plugin has returned is with one entry of the registry, with one request
that answers for it, or with one `__disconnect__`. A call that has its clone of an entry has a
handle that is not with a registration, and no `__disconnect__` has it yet.
-/

namespace OnlyJs.Bridge.Mgmt

open Lib.FiniteMap List Lib.Tally

def Stage.fresh : Stage → Option Nat
  | .pinging _ handle | .inserting _ handle => some handle
  | _ => none

def Stage.answersFor : Stage → Option Nat
  | .pinging _ handle | .inserting _ handle | .removed handle => some handle
  | _ => none

def Stage.clone : Stage → Option MgmtEntry
  | .cleared entry | .gated entry => some entry
  | _ => none

def Request.answers (handle : Nat) (request : Request) : Nat :=
  if request.stage.answersFor = some handle then 1 else 0

def held (handle : Nat) (entries : Entries) : Nat :=
  weight (fun _ entry => if entry.handle = handle then 1 else 0) entries

structure Places (entries : Entries) (requests : List Request) (handles : Nat)
    (disconnected : List Nat) : Prop where
  accounted : ∀ handle, held handle entries + tally (Request.answers handle) requests +
    disconnected.count handle = if handle < handles then 1 else 0
  pending : ∀ request ∈ requests, ∀ entry, request.stage.clone = some entry →
    entry.handle < handles ∧ entry.handle ∉ disconnected ∧
      ∀ other ∈ requests, other.stage.fresh ≠ some entry.handle

variable {entries : Entries} {requests : List Request} {handles : Nat} {disconnected : List Nat}

variable {handle : Nat}

theorem Stage.answersFor_of_fresh {stage : Stage} (fresh : stage.fresh = some handle) :
    stage.answersFor = some handle := by
  cases stage with
  | pinging ops other | inserting ops other => exact fresh
  | _ => cases fresh

variable {entry : MgmtEntry}

theorem Stage.fresh_of_clone {stage : Stage} (clone : stage.clone = some entry) :
    stage.fresh = none := by
  cases stage with
  | cleared other => rfl
  | gated other => rfl
  | _ => cases clone

variable {request : Request}

theorem Request.answers_none (idle : request.stage.answersFor = none) (handle : Nat) :
    request.answers handle = 0 := by
  unfold Request.answers
  rw [idle]
  rfl

theorem Request.answers_some {own : Nat} (some : request.stage.answersFor = some own)
    (handle : Nat) :
    request.answers handle = if own = handle then 1 else 0 := by
  unfold Request.answers
  rw [some]
  by_cases same : own = handle
  · rw [if_pos same, same, if_pos rfl]
  · rw [if_neg same, if_neg fun found => same (Option.some.inj found)]

variable {name : String}

theorem held_insert (free : name ∉ entries) (entry : MgmtEntry) (handle : Nat) :
    held handle (entries.insert name entry) =
      (if entry.handle = handle then 1 else 0) + held handle entries :=
  weight_insert_fresh _ name entry entries free

theorem held_erase (there : entries.lookup name = some entry) (handle : Nat) : held handle entries =
      (if entry.handle = handle then 1 else 0) + held handle (entries.erase name) :=
  weight_erase_of_lookup _ name entry entries there

theorem Places.registered (places : Places entries requests handles disconnected)
    (found : entries.lookup name = some entry) :
    entry.handle < handles ∧ entry.handle ∉ disconnected ∧
      ∀ other ∈ requests, other.stage.fresh ≠ some entry.handle := by
  have accounted := places.accounted entry.handle
  have one : 1 ≤ held entry.handle entries := by
    rw [held_erase found, if_pos rfl]
    exact Nat.le_add_right 1 _
  have there : entry.handle < handles := by
    by_contra beyond
    rw [if_neg beyond] at accounted
    omega
  rw [if_pos there] at accounted
  refine ⟨there, ?_, ?_⟩
  · apply count_eq_zero.mp
    omega
  · intro other member fresh
    have answers := Request.answers_some (Stage.answersFor_of_fresh fresh) entry.handle
    rw [if_pos rfl] at answers
    have bound := weight_le_tally (Request.answers entry.handle) member
    omega

theorem Places.unreturned (places : Places entries requests handles disconnected)
    (beyond : handles ≤ handle) : handle ∉ disconnected := by
  have accounted := places.accounted handle
  rw [if_neg (Nat.not_lt.mpr beyond)] at accounted
  apply count_eq_zero.mp
  omega

variable {index : Nat} {new old : Request}

section

variable (places : Places entries requests handles disconnected)
include places

/-- One request moves, and what it answered for comes to its next place. -/
theorem Places.set (found : requests[index]? = some old) {entries' : Entries} {handles' : Nat}
    {disconnected' : List Nat}
    (moved : ∀ handle, held handle entries' + new.answers handle + disconnected'.count handle +
      (if handle < handles then 1 else 0) =
      held handle entries + old.answers handle + disconnected.count handle + if handle < handles'
      then 1 else 0)
    (grows : handles ≤ handles')
    (issued : ∀ handle ∈ disconnected', handle ∈ disconnected ∨
      ∀ other ∈ requests, ∀ entry, other.stage.clone = some entry → entry.handle ≠ handle)
    (fresh : ∀ handle, new.stage.fresh = some handle →
      old.stage.fresh = some handle ∨ handles ≤ handle)
    (clone : ∀ entry, new.stage.clone = some entry →
      old.stage.clone = some entry ∨ disconnected' = disconnected ∧
      ∃ name, entries.lookup name = some entry) :
    Places entries' (requests.set index new) handles' disconnected' where
  accounted := by
    intro handle
    have accounted := places.accounted handle
    have same := moved handle
    have changed := tally_set (Request.answers handle) found new
    omega
  pending := by
    have stays : ∀ entry : MgmtEntry, (entry.handle < handles ∧ entry.handle ∉ disconnected ∧
        ∀ other ∈ requests, other.stage.fresh ≠ some entry.handle) →
        entry.handle ∉ disconnected' → entry.handle < handles' ∧
          entry.handle ∉ disconnected' ∧
            ∀ other ∈ requests.set index new, other.stage.fresh ≠ some entry.handle := by
      rintro entry ⟨there, _, others⟩ open_
      refine ⟨Nat.lt_of_lt_of_le there grows, open_, fun other member => ?_⟩
      rcases mem_or_eq_of_mem_set member with before | rfl
      · exact others other before
      · intro same
        rcases fresh entry.handle same with earlier | beyond
        · exact others old (mem_of_getElem? found) earlier
        · omega
    have kept : ∀ request ∈ requests, ∀ entry, request.stage.clone = some entry →
        entry.handle < handles' ∧ entry.handle ∉ disconnected' ∧
          ∀ other ∈ requests.set index new, other.stage.fresh ≠ some entry.handle := by
      intro request member entry has
      have before := places.pending request member entry has
      apply stays entry before
      intro gone
      rcases issued entry.handle gone with earlier | apart
      · exact before.2.1 earlier
      · exact apart request member entry has rfl
    intro request member entry has
    rcases mem_or_eq_of_mem_set member with before | rfl
    · exact kept request before entry has
    · rcases clone entry has with earlier | ⟨same, name, there⟩
      · exact kept old (mem_of_getElem? found) entry earlier
      · apply stays entry (places.registered there)
        rw [same]
        exact (places.registered there).2.1

theorem Places.enter (entered : request.stage = .entered) :
    Places entries (requests ++ [request]) handles disconnected where
  accounted := by
    intro handle
    rw [tally_append, tally_cons, Request.answers_none (by rw [entered]; rfl)]
    exact places.accounted handle
  pending := by
    intro present member entry has
    rcases mem_append.mp member with before | new
    · obtain ⟨there, open_, others⟩ := places.pending present before entry has
      refine ⟨there, open_, fun other among => ?_⟩
      rcases mem_append.mp among with earlier | new
      · exact others other earlier
      · rw [mem_singleton.mp new, entered]
        nofun
    · rw [mem_singleton.mp new, entered] at has
      cases has

theorem Places.turn (found : requests[index]? = some old)
    (answers : new.stage.answersFor = old.stage.answersFor)
    (fresh : ∀ handle, new.stage.fresh = some handle → old.stage.fresh = some handle)
    (clone : ∀ entry, new.stage.clone = some entry →
      old.stage.clone = some entry ∨ ∃ name, entries.lookup name = some entry) :
    Places entries (requests.set index new) handles disconnected := by
  apply places.set found
  · intro handle
    unfold Request.answers
    rw [answers]
  · exact Nat.le_refl _
  · exact fun _ => Or.inl
  · exact fun handle same => Or.inl (fresh handle same)
  · intro entry has
    rcases clone entry has with before | there
    · exact Or.inl before
    · exact Or.inr ⟨rfl, there⟩

theorem Places.disconnect (found : requests[index]? = some old)
    (answers : old.stage.answersFor = some handle) (ended : new.stage.answersFor = none)
    (away : new.stage.clone = none)
    (apart : ∀ other ∈ requests, ∀ entry, other.stage.clone = some entry → entry.handle ≠ handle) :
    Places entries (requests.set index new) handles (disconnected ++ [handle]) := by
  apply places.set found
  · intro other
    rw [Request.answers_some answers, Request.answers_none ended, count_append,
      count_singleton]
    by_cases same : handle = other
    · rw [if_pos same, same, if_pos (beq_self_eq_true other)]
      omega
    · rw [if_neg same, if_neg (by simpa using same)]
      omega
  · exact Nat.le_refl _
  · intro other member
    rcases mem_append.mp member with before | new
    · exact Or.inl before
    · rw [mem_singleton.mp new]
      exact Or.inr apart
  · intro other same
    rw [Stage.answersFor_of_fresh same] at ended
    cases ended
  · intro entry has
    rw [away] at has
    cases has

theorem Places.apart_of_fresh (member : request ∈ requests)
    (fresh : request.stage.fresh = some handle) :
    ∀ other ∈ requests, ∀ entry, other.stage.clone = some entry → entry.handle ≠ handle := by
  intro other among entry has same
  apply (places.pending other among entry has).2.2 request member
  rw [same]
  exact fresh

section

variable (found : requests[index]? = some old)
include found

theorem Places.connect (idle : old.stage.answersFor = none)
    (answers : new.stage.answersFor = some handles) (fresh : new.stage.fresh = some handles) :
    Places entries (requests.set index new) (handles + 1) disconnected := by
  apply places.set found
  · intro handle
    rw [Request.answers_none idle, Request.answers_some answers]
    by_cases same : handles = handle
    · rw [if_pos same, if_neg (by omega), if_pos (by omega)]
      omega
    · rw [if_neg same]
      by_cases before : handle < handles
      · rw [if_pos before, if_pos (by omega)]
      · rw [if_neg before, if_neg (by omega)]
  · exact Nat.le_succ _
  · exact fun _ => Or.inl
  · intro handle same
    rw [fresh] at same
    cases same
    exact Or.inr (Nat.le_refl _)
  · intro entry has
    rw [Stage.fresh_of_clone has] at fresh
    cases fresh

theorem Places.insert (answers : old.stage.answersFor = some entry.handle)
    (ended : new.stage.answersFor = none) (away : new.stage.clone = none) (free : name ∉ entries) :
    Places (entries.insert name entry) (requests.set index new) handles disconnected := by
  apply places.set found
  · intro handle
    rw [Request.answers_some answers, Request.answers_none ended, held_insert free]
    omega
  · exact Nat.le_refl _
  · exact fun _ => Or.inl
  · intro other same
    rw [Stage.answersFor_of_fresh same] at ended
    cases ended
  · intro other has
    rw [away] at has
    cases has

theorem Places.erase (there : entries.lookup name = some entry) (idle : old.stage.answersFor = none)
    (answers : new.stage.answersFor = some entry.handle) (stale : new.stage.fresh = none)
    (away : new.stage.clone = none) :
    Places (entries.erase name) (requests.set index new) handles disconnected := by
  apply places.set found
  · intro handle
    rw [Request.answers_none idle, Request.answers_some answers, held_erase there]
    omega
  · exact Nat.le_refl _
  · exact fun _ => Or.inl
  · intro other same
    rw [stale] at same
    cases same
  · intro other has
    rw [away] at has
    cases has

end

end

end OnlyJs.Bridge.Mgmt
