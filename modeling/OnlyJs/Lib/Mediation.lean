import Mathlib.Algebra.Order.Ring.Int
import Mathlib.Data.List.Basic

/-!
# Mediated operations

An operation is a list of actions that are taken in their order until one refuses. A check
of a resource that passes leaves an event, and so does every message that is sent to one.
The operation is mediated when each message comes after a check of its resource.
-/

namespace OnlyJs.Lib.Mediation

open List

set_option autoImplicit false

variable {Resource Message : Type}

inductive Action (Resource Message : Type) where
  | gate (passes : Bool)
  | check (resource : Resource) (passes : Bool)
  | send (resource : Resource) (message : Message)

inductive Event (Resource Message : Type) where
  | passed (resource : Resource)
  | sent (resource : Resource) (message : Message)

def perform : List (Action Resource Message) → List (Event Resource Message)
  | [] => []
  | .gate passes :: rest => if passes then perform rest else []
  | .check resource passes :: rest => if passes then .passed resource :: perform rest else []
  | .send resource message :: rest => .sent resource message :: perform rest

/-- Every message to a guarded resource comes after a check of the resource and is fine by
`ok`; what follows a gate or a check is only asked for where it passes. -/
def Mediates (guarded : Resource → Prop) (ok : Resource → Message → Prop) :
    List Resource → List (Action Resource Message) → Prop
  | _, [] => True
  | checked, .gate passes :: rest => passes = true → Mediates guarded ok checked rest
  | checked, .check resource passes :: rest =>
    passes = true → Mediates guarded ok (resource :: checked) rest
  | checked, .send resource message :: rest =>
    (guarded resource → resource ∈ checked ∧ ok resource message) ∧
      Mediates guarded ok checked rest

variable {guarded : Resource → Prop} {ok : Resource → Message → Prop}

variable {checked : List Resource} {actions : List (Action Resource Message)}

theorem mediates_perform (mediates : Mediates guarded ok checked actions)
    {earlier later : List (Event Resource Message)} {resource : Resource} {message : Message}
    (performed : perform actions = earlier ++ .sent resource message :: later)
    (kept : guarded resource) :
    (resource ∈ checked ∨ .passed resource ∈ earlier) ∧ ok resource message := by
  induction actions generalizing checked earlier with
  | nil => cases append_eq_nil_iff.mp performed.symm |>.2
  | cons action rest ih =>
    cases action with
    | gate passes =>
      cases passes with
      | false => cases append_eq_nil_iff.mp performed.symm |>.2
      | true => exact ih (mediates rfl) performed
    | check own passes =>
      cases passes with
      | false => cases append_eq_nil_iff.mp performed.symm |>.2
      | true =>
        rcases cons_eq_append_iff.mp performed with ⟨_, same⟩ | ⟨tail, rfl, split⟩
        · cases same
        · obtain ⟨seen, fine⟩ := ih (mediates rfl) split
          refine ⟨?_, fine⟩
          rcases seen with known | passed
          · rcases mem_cons.mp known with rfl | old
            · exact .inr mem_cons_self
            · exact .inl old
          · exact .inr (mem_cons_of_mem _ passed)
    | send own content =>
      obtain ⟨sound, others⟩ := mediates
      rcases cons_eq_append_iff.mp performed with ⟨rfl, same⟩ | ⟨tail, rfl, split⟩
      · cases same
        obtain ⟨known, fine⟩ := sound kept
        exact ⟨.inl known, fine⟩
      · obtain ⟨seen, fine⟩ := ih others split
        refine ⟨seen.imp_right ?_, fine⟩
        exact mem_cons_of_mem _

/-- Sending to a checked resource again and again. -/
theorem mediates_replicate {resource : Resource} {message : Message}
    (sound : guarded resource → resource ∈ checked ∧ ok resource message) (count : Nat) :
    Mediates guarded ok checked (List.replicate count (.send resource message)) := by
  induction count with
  | zero => trivial
  | succ count ih =>
    exact ⟨sound, ih⟩

/-- An operation that only sends to resources without a guard. -/
theorem mediates_of_unguarded
    (free : ∀ resource message, .send resource message ∈ actions → ¬ guarded resource) :
    Mediates guarded ok checked actions := by
  induction actions generalizing checked with
  | nil => trivial
  | cons action rest ih =>
    have others : ∀ {known : List Resource}, Mediates guarded ok known rest :=
      ih fun resource message mem => free resource message (mem_cons_of_mem _ mem)
    cases action with
    | gate passes | check own passes => exact fun _ => others
    | send own content =>
      exact ⟨fun kept => absurd kept (free own content mem_cons_self), others⟩

end OnlyJs.Lib.Mediation
