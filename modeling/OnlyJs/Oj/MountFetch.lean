import OnlyJs.Lib.StepSystem

/-!
# The cache of remote mounts

Processes materialize the archive of one digest in one cache directory. Inside a process a
lock makes its calls follow one another; between processes only the file system decides.
A step is one access to the target directory, or one part of the work in the temporary file
and the staging directory, which carry the process id and so belong to one process. Every
access may fail, and a directory may be removed in part.
-/

namespace OnlyJs.Oj.MountFetch

open Lib Option Lib.StepSystem

set_option autoImplicit false

variable {Digest : Type}

structure Dir (Digest : Type) where
  complete : Bool
  archive : Option Digest
  manifest : Bool
  others : Bool

def Dir.empty (dir : Dir Digest) : Bool :=
  !dir.complete && dir.archive.isNone && !dir.manifest && !dir.others

/-- A directory that is complete and whose stored archive has the declared digest. -/
def Good (sha : Digest) (target : Option (Dir Digest)) : Prop :=
  ∃ dir, target = some dir ∧ dir.complete = true ∧ dir.archive = some sha

/-- How far `remove_dir_all` comes. -/
inductive Removal where
  | whole
  | part (complete archive manifest others : Bool)

def Removal.left (target : Option (Dir Digest)) : Removal → Option (Dir Digest)
  | .whole => none
  | .part complete archive manifest others =>
    target.map fun dir =>
      { complete := dir.complete && complete
        archive := if archive then dir.archive else none
        manifest := dir.manifest && manifest
        others := dir.others && others }

inductive ErrorKind where
  | alreadyExists
  | directoryNotEmpty
  | other

/-- Where a call of `materialize` stands. -/
inductive Phase (Digest : Type) where
  | idle
  /-- About to look for the marker. -/
  | looking
  | reverifying
  /-- About to remove a directory that failed `reverify`. -/
  | clearing
  /-- About to ask whether the target exists. -/
  | probing
  /-- About to remove what is left of an earlier run. -/
  | sweeping
  | downloading
  | extracting
  | copying (stage : Dir Digest)
  | marking (stage : Dir Digest)
  | renaming (stage : Dir Digest)
  /-- The rename said `AlreadyExists`: about to look for the marker. -/
  | disputed (lost : Bool)
  /-- The rename failed otherwise: about to remove the target. -/
  | cleaning (lost : Bool)
  /-- About to return; `lost` tells that the rename met a good directory. -/
  | answering (ok lost : Bool)

inductive Action (Digest : Type) where
  | begin
  | look (failed : Bool)
  | reverify (failed : Bool)
  | remove (removal : Removal)
  | probe (failed : Bool)
  /-- The digest of what was downloaded, unless the download failed. -/
  | download (received : Option Digest)
  /-- What is in the stage after the extraction, unless it failed. -/
  | extract (unpacked : Option (Dir Digest))
  /-- Copies the archive; a failed copy leaves something or nothing. -/
  | copy (copied : Bool) (left : Option Digest)
  | mark (failed : Bool)
  | rename (failed : Bool)
  | answer

inductive Event (Digest : Type) where
  /-- `remove_dir_all` was run on the target. -/
  | removed (target : Option (Dir Digest))
  /-- A call returned, with the target as it was then. -/
  | returned (ok lost : Bool) (target : Option (Dir Digest))

def renameError (target : Option (Dir Digest)) (failed : Bool) : Option ErrorKind :=
  if target.any (fun dir => !dir.empty) then some .directoryNotEmpty
  else if failed then some .other
  else none

def isGood [DecidableEq Digest] (sha : Digest) (target : Option (Dir Digest)) : Bool :=
  target.any fun dir => dir.complete && dir.archive == some sha

section Calls

variable [DecidableEq Digest] (sha : Digest)

def next (target : Option (Dir Digest)) :
    Phase Digest → Action Digest → Option (Phase Digest × Option (Dir Digest))
  | .idle, .begin => some (.looking, target)
  | .looking, .look failed =>
    if target.any Dir.complete && !failed then some (.reverifying, target)
    else some (.probing, target)
  | .reverifying, .reverify failed =>
    if target.any (fun dir => dir.archive == some sha) && !failed then
      some (.answering true false, target)
    else some (.clearing, target)
  | .clearing, .remove removal => some (.probing, removal.left target)
  | .probing, .probe failed =>
    if target.isSome && !failed then some (.sweeping, target)
    else some (.downloading, target)
  | .sweeping, .remove removal => some (.downloading, removal.left target)
  | .downloading, .download none => some (.answering false false, target)
  | .downloading, .download (some received) =>
    if received = sha then some (.extracting, target)
    else some (.answering false false, target)
  | .extracting, .extract none => some (.answering false false, target)
  | .extracting, .extract (some unpacked) =>
    if unpacked.manifest then some (.copying unpacked, target)
    else some (.answering false false, target)
  | .copying stage, .copy copied left =>
    some (.marking { stage with archive := if copied then some sha else left }, target)
  | .marking stage, .mark failed =>
    if failed then some (.answering false false, target)
    else some (.renaming { stage with complete := true }, target)
  | .renaming stage, .rename failed =>
    match renameError target failed with
    | none => some (.answering true false, some stage)
    | some .alreadyExists => some (.disputed (isGood sha target), target)
    | some _ => some (.cleaning (isGood sha target), target)
  | .disputed lost, .look failed =>
    some (.answering (target.any Dir.complete && !failed) lost, target)
  | .cleaning lost, .remove removal => some (.answering false lost, removal.left target)
  | .answering _ _, .answer => some (.idle, target)
  | _, _ => none

end Calls

def events (target : Option (Dir Digest)) : Phase Digest → Action Digest → List (Event Digest)
  | _, .remove _ => [.removed target]
  | .answering ok lost, .answer => [.returned ok lost target]
  | _, _ => []

structure State (Digest : Type) where
  target : Option (Dir Digest)
  calls : Nat → Phase Digest
  history : List (Event Digest)

structure Label (Digest : Type) where
  process : Nat
  action : Action Digest

def step [DecidableEq Digest] (sha : Digest) (state : State Digest) (label : Label Digest) :
    Option (State Digest) :=
  (next sha state.target (state.calls label.process) label.action).map fun (phase, target) =>
    { target
      calls := Function.update state.calls label.process phase
      history := events state.target (state.calls label.process) label.action ++ state.history }

def init (target : Option (Dir Digest)) : State Digest where
  target := target
  calls := fun _ => .idle
  history := []

def system [DecidableEq Digest] (sha : Digest) (target : Option (Dir Digest)) :
    System (State Digest) (Label Digest) where
  init := init target
  step := step sha

/-- Nothing good is removed; a path is returned as good at that time; and a call that lost
the race for the target returns the winner's directory. -/
def Event.Safe (sha : Digest) : Event Digest → Prop
  | .removed target => ¬ Good sha target
  | .returned ok lost target => (ok = true → Good sha target) ∧ (lost = true → ok = true)

def Phase.condemns : Phase Digest → Bool
  | .clearing => true
  | .probing => true
  | .sweeping => true
  | .cleaning _ => true
  | _ => false

/-- Looking at a good directory does not fail; no rename is tried on a good directory; and
one that succeeds moves a stage that holds the archive, while no other call has condemned
the target. -/
def Orderly (sha : Digest) (state : State Digest) (label : Label Digest) : Prop :=
  match state.calls label.process, label.action with
  | .looking, .look failed => failed = true → ¬ Good sha state.target
  | .reverifying, .reverify failed => failed = true → ¬ Good sha state.target
  | .renaming stage, .rename failed =>
    ¬ Good sha state.target ∧
      (renameError state.target failed = none → stage.archive = some sha ∧
        ∀ other, other ≠ label.process → (state.calls other).condemns = false)
  | _, _ => True

variable {sha : Digest} {target after : Option (Dir Digest)} {phase moved : Phase Digest}
  {action : Action Digest} {state following : State Digest} {label : Label Digest}

theorem good_of_left {removal : Removal} (good : Good sha (removal.left target)) :
    Good sha target := by
  cases removal with
  | whole =>
    obtain ⟨dir, present, _⟩ := good
    cases present
  | part complete archive manifest others =>
    obtain ⟨left, present, marked, stored⟩ := good
    obtain ⟨dir, found, rfl⟩ := map_eq_some_iff.mp present
    obtain ⟨marked, _⟩ := Bool.and_eq_true_iff.mp marked
    obtain ⟨_, stored⟩ := ite_none_right_eq_some.mp stored
    exact ⟨dir, found, marked, stored⟩

/-- The archive of the target, where there is one. -/
def Stores (sha : Digest) (target : Option (Dir Digest)) : Prop :=
  ∃ dir, target = some dir ∧ dir.archive = some sha

theorem stores_of_left {removal : Removal} (stores : Stores sha (removal.left target)) :
    Stores sha target := by
  cases removal with
  | whole =>
    obtain ⟨dir, present, _⟩ := stores
    cases present
  | part complete archive manifest others =>
    obtain ⟨left, present, stored⟩ := stores
    obtain ⟨dir, found, rfl⟩ := map_eq_some_iff.mp present
    obtain ⟨_, stored⟩ := ite_none_right_eq_some.mp stored
    exact ⟨dir, found, stored⟩

theorem good_of_marked (marked : target.any Dir.complete = true) (stores : Stores sha target) :
    Good sha target := by
  obtain ⟨dir, present, stored⟩ := stores
  refine ⟨dir, present, ?_, stored⟩
  rw [present] at marked
  exact marked

/-- What holds of a call in a phase. -/
def Stands (sha : Digest) (target : Option (Dir Digest)) : Phase Digest → Prop
  | .reverifying => Stores sha target → Good sha target
  | .clearing => ¬ Good sha target
  | .probing => ¬ Good sha target
  | .sweeping => ¬ Good sha target
  | .renaming stage => stage.complete = true
  | .disputed _ => False
  | .cleaning lost => ¬ Good sha target ∧ lost = false
  | .answering ok lost => (ok = true → Good sha target) ∧ lost = false
  | _ => True

structure Invariant (sha : Digest) (state : State Digest) : Prop where
  stands : ∀ process, Stands sha state.target (state.calls process)
  safe : ∀ event ∈ state.history, event.Safe sha

theorem condemned (stands : Stands sha target phase) (condemns : phase.condemns = true) :
    ¬ Good sha target := by
  cases phase <;> simp only [Phase.condemns, reduceCtorEq] at condemns
  case cleaning lost => exact stands.1
  all_goals exact stands

theorem stands_removed (removal : Removal) (useless : ¬ Good sha target)
    (stands : Stands sha target phase) : Stands sha (removal.left target) phase := by
  have still : ¬ Good sha (removal.left target) := fun good => useless (good_of_left good)
  cases phase
  case reverifying => exact fun stores => (useless (stands (stores_of_left stores))).elim
  case clearing => exact still
  case probing => exact still
  case sweeping => exact still
  case cleaning lost => exact ⟨still, stands.2⟩
  case answering ok lost => exact ⟨fun success => (useless (stands.1 success)).elim, stands.2⟩
  all_goals exact stands

theorem stands_committed (good : Good sha after) (spared : phase.condemns = false)
    (stands : Stands sha target phase) : Stands sha after phase := by
  cases phase <;> simp only [Phase.condemns, reduceCtorEq] at spared
  case reverifying => exact fun _ => good
  case answering ok lost => exact ⟨fun _ => good, stands.2⟩
  all_goals exact stands

variable [DecidableEq Digest]

theorem is_good_iff : isGood sha target = true ↔ Good sha target := by
  simp only [isGood, Good, any_eq_true, Bool.and_eq_true, beq_iff_eq]

/-- A step leaves the target alone, removes it for a call that has condemned it, or puts a
stage in its place. -/
theorem next_target (fired : next sha target phase action = some (moved, after)) :
    after = target ∨
      (∃ removal, action = .remove removal ∧ phase.condemns = true ∧
        after = removal.left target) ∨
      ∃ stage failed, phase = .renaming stage ∧ action = .rename failed ∧
        renameError target failed = none ∧ moved = .answering true false ∧
        after = some stage := by
  cases phase <;> cases action <;> simp only [next, reduceCtorEq] at fired
  case clearing.remove removal =>
    cases fired
    exact .inr (.inl ⟨removal, rfl, rfl, rfl⟩)
  case sweeping.remove removal =>
    cases fired
    exact .inr (.inl ⟨removal, rfl, rfl, rfl⟩)
  case cleaning.remove lost removal =>
    cases fired
    exact .inr (.inl ⟨removal, rfl, rfl, rfl⟩)
  case renaming.rename stage failed =>
    split at fired
    · rename_i free
      cases fired
      exact .inr (.inr ⟨stage, failed, rfl, rfl, free, rfl, rfl⟩)
    · cases fired
      exact .inl rfl
    · cases fired
      exact .inl rfl
  case downloading.download received =>
    cases received with
    | none =>
      cases fired
      exact .inl rfl
    | some digest =>
      simp only at fired
      split at fired <;> cases fired <;> exact .inl rfl
  case extracting.extract unpacked =>
    cases unpacked with
    | none =>
      cases fired
      exact .inl rfl
    | some dir =>
      simp only at fired
      split at fired <;> cases fired <;> exact .inl rfl
  all_goals
    left
    first
    | cases fired
      rfl
    | split at fired <;> cases fired <;> rfl

/-- Where the call itself goes. -/
theorem stands_next (stands : Stands sha state.target (state.calls label.process))
    (permitted : Orderly sha state label)
    (fired : next sha state.target (state.calls label.process) label.action =
      some (moved, after)) : Stands sha after moved := by
  unfold Orderly at permitted
  cases stood : state.calls label.process <;> cases acted : label.action <;>
    simp only [stood, acted, next, reduceCtorEq] at fired stands permitted
  case looking.look failed =>
    split at fired
    · rename_i found
      cases fired
      exact fun stores => good_of_marked (Bool.and_eq_true_iff.mp found).1 stores
    · rename_i missing
      cases fired
      intro good
      have works : failed = false := by
        rw [← Bool.not_eq_true]
        exact fun failure => permitted failure good
      rw [works] at missing
      obtain ⟨dir, present, marked, _⟩ := good
      exact missing (by simp [present, marked])
  case reverifying.reverify failed =>
    split at fired
    · rename_i found
      cases fired
      obtain ⟨dir, present, stored⟩ :=
        (any_eq_true _ _).mp (Bool.and_eq_true_iff.mp found).1
      exact ⟨fun _ => stands ⟨dir, present, beq_iff_eq.mp stored⟩, rfl⟩
    · rename_i missing
      cases fired
      intro good
      have works : failed = false := by
        rw [← Bool.not_eq_true]
        exact fun failure => permitted failure good
      rw [works] at missing
      obtain ⟨dir, present, _, stored⟩ := good
      exact missing (by simp [present, stored])
  case clearing.remove removal =>
    cases fired
    exact fun good => stands (good_of_left good)
  case probing.probe failed =>
    split at fired <;> cases fired
    · exact stands
    · trivial
  case downloading.download received =>
    cases received with
    | none =>
      cases fired
      exact ⟨nofun, rfl⟩
    | some digest =>
      simp only at fired
      split at fired <;> cases fired
      · trivial
      · exact ⟨nofun, rfl⟩
  case extracting.extract unpacked =>
    cases unpacked with
    | none =>
      cases fired
      exact ⟨nofun, rfl⟩
    | some dir =>
      simp only at fired
      split at fired <;> cases fired
      · trivial
      · exact ⟨nofun, rfl⟩
  case marking.mark stage failed =>
    split at fired <;> cases fired
    · exact ⟨nofun, rfl⟩
    · rfl
  case renaming.rename stage failed =>
    obtain ⟨unmet, commits⟩ := permitted
    have clear : isGood sha state.target = false := by
      rw [← Bool.not_eq_true]
      exact fun good => unmet (is_good_iff.mp good)
    split at fired
    · rename_i free
      cases fired
      exact ⟨fun _ => ⟨stage, rfl, stands, (commits free).1⟩, rfl⟩
    · rename_i exists_
      unfold renameError at exists_
      split at exists_
      · cases exists_
      · split at exists_ <;> cases exists_
    · cases fired
      exact ⟨unmet, clear⟩
  case cleaning.remove lost removal =>
    cases fired
    exact ⟨nofun, stands.2⟩
  all_goals
    cases fired
    trivial

theorem events_safe (stands : Stands sha target phase)
    (fired : next sha target phase action = some (moved, after)) :
    ∀ event ∈ events target phase action, event.Safe sha := by
  intro event mem
  cases action <;> cases phase <;> simp only [events, List.not_mem_nil, List.mem_singleton] at mem
  case answer.answering ok lost =>
    subst mem
    refine ⟨stands.1, ?_⟩
    rw [stands.2]
    nofun
  case remove.clearing removal =>
    subst mem
    exact stands
  case remove.sweeping removal =>
    subst mem
    exact stands
  case remove.cleaning removal lost =>
    subst mem
    exact stands.1
  all_goals
    cases fired

theorem step_invariant : Preserved (system sha target) (Orderly sha) (Invariant sha) := by
  intro state label following invariant permitted fired
  obtain ⟨⟨moved, after⟩, taken, rfl⟩ := map_eq_some_iff.mp fired
  have self := stands_next (invariant.stands label.process) permitted taken
  constructor
  · intro process
    by_cases same : process = label.process
    · subst same
      simpa only [Function.update_self] using self
    · simp only [Function.update_of_ne same]
      have stands := invariant.stands process
      rcases next_target taken with rfl | ⟨removal, _, condemns, rfl⟩ |
        ⟨stage, failed, stood, acted, free, rfl, rfl⟩
      · exact stands
      · exact stands_removed removal (condemned (invariant.stands label.process) condemns) stands
      · rw [Orderly, stood, acted] at permitted
        exact stands_committed (self.1 rfl) ((permitted.2 free).2 process same) stands
  · intro event mem
    cases List.mem_append.mp mem with
    | inl new => exact events_safe (invariant.stands label.process) taken event new
    | inr old => exact invariant.safe event old

/-- Where no look at a good directory fails, no rename meets one, and none is committed
without its archive or under the eyes of a call about to remove the target, the cache keeps
its promises in every run, whatever else fails and whatever was there before. -/
theorem cache_safe (sha : Digest) (target : Option (Dir Digest)) (state : State Digest)
    (reached : Reachable (system sha target) (Orderly sha) state) :
    ∀ event ∈ state.history, event.Safe sha := by
  have initial : Invariant sha (system sha target).init := ⟨fun _ => trivial, nofun⟩
  exact (invariant_of_step initial step_invariant reached).safe

def unpacked : Dir Nat where
  complete := false
  archive := none
  manifest := true
  others := true

/-- One process fills the cache, and the next finds it. -/
theorem cache_safe_hit :
    let stored : Dir Nat := { unpacked with complete := true, archive := some 7 }
    ∀ event ∈ [Event.returned true false (some stored), .returned true false (some stored)],
      event.Safe 7 := by
  intro stored
  let labels : List (Label Nat) := [⟨0, .begin⟩, ⟨0, .look false⟩, ⟨0, .probe false⟩,
    ⟨0, .download (some 7)⟩, ⟨0, .extract (some unpacked)⟩, ⟨0, .copy true none⟩,
    ⟨0, .mark false⟩, ⟨0, .rename false⟩, ⟨0, .answer⟩, ⟨1, .begin⟩, ⟨1, .look false⟩,
    ⟨1, .reverify false⟩, ⟨1, .answer⟩]
  let state := ((system 7 none).run (init none) labels).getD (init none)
  have path : Path (system 7 none) (Orderly 7) (init none) labels state := by
    refine ⟨trivial, _, rfl, nofun, _, rfl, trivial, _, rfl, trivial, _, rfl, ?_⟩
    refine ⟨trivial, _, rfl, trivial, _, rfl, trivial, _, rfl, ⟨?_, ?_⟩, _, rfl, ?_⟩
    · rintro ⟨dir, present, _⟩
      cases present
    · intro _
      refine ⟨rfl, ?_⟩
      intro other differs
      simp [init, Function.update_of_ne differs, Phase.condemns]
    · exact ⟨trivial, _, rfl, trivial, _, rfl, nofun, _, rfl, nofun, _, rfl, trivial, _, rfl, rfl⟩
  exact cache_safe 7 none state ⟨labels, path⟩

/-- Two processes miss the cache. The first commits; the rename of the second is refused
because the directory is not empty, the winner's directory is removed, and the second
returns an error. -/
theorem winner_removed :
    ∃ labels finish, Path (system 7 none) Unrestricted (init none) labels finish ∧
      ¬ ∀ event ∈ finish.history, event.Safe 7 := by
  have ran := path_of_run (init none) _
    [⟨0, .begin⟩, ⟨0, .look false⟩, ⟨0, .probe false⟩, ⟨1, .begin⟩, ⟨1, .look false⟩,
      ⟨1, .probe false⟩, ⟨0, .download (some 7)⟩, ⟨0, .extract (some unpacked)⟩,
      ⟨0, .copy true none⟩, ⟨0, .mark false⟩, ⟨0, .rename false⟩, ⟨0, .answer⟩,
      ⟨1, .download (some 7)⟩, ⟨1, .extract (some unpacked)⟩, ⟨1, .copy true none⟩,
      ⟨1, .mark false⟩, ⟨1, .rename false⟩, ⟨1, .remove .whole⟩, ⟨1, .answer⟩]
    (rfl : (system 7 none).run (init none) _ = some _)
  refine ⟨_, _, ran, ?_⟩
  intro safe
  have refused : (Event.returned false true none).Safe 7 := safe _ List.mem_cons_self
  cases refused.2 rfl

end OnlyJs.Oj.MountFetch
