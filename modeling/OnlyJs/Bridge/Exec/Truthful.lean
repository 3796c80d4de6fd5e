import OnlyJs.Bridge.Exec.Run

/-!
# Exec tells how the child ended

The handle of a spawned child and the call that runs one to its end, together.
-/

namespace OnlyJs.Bridge.Exec

open Lib.StepSystem

/-- In every orderly run the exit code of a spawned child is truthful, and a call that runs a
child answers as the child ended and does return once it has ended. -/
theorem exec_truthful (timeoutMs : Nat) (input : Option Bytes) :
    (∀ labels state, Path Spawn.system Spawn.Orderly Spawn.initial labels state →
      Spawn.Truthful state) ∧
    ∀ labels state, Path (Run.system timeoutMs input) Run.Orderly (Run.initial input) labels state →
      Run.Truthful state ∧ Run.Returns timeoutMs state :=
  ⟨fun _ _ path => Spawn.exit_truthful path, fun _ _ path => Run.run_truthful path⟩

/-- A child that writes one byte and exits, spawned and run. -/
theorem exec_truthful_one_byte :
    (∃ state, Reachable Spawn.system Spawn.Orderly state ∧
      (state.streams .stdout).finished = true ∧
      (state.streams .stdout).received = (state.streams .stdout).pipe.written) ∧
    ∃ state, Reachable (Run.system 60000 (some [120])) Run.Orderly state ∧
      state.result = some (.ok (Run.execResult (.exited 3) [65] [])) := by
  refine ⟨?_, ?_⟩
  · let labels : List Spawn.Label :=
      [.write .stdout [65], .read .stdout 1, .send .stdout, .exit (.exited 0), .supervise,
        .eof .stdout, .receive .stdout, .receive .stdout]
    let state := (Spawn.system.run Spawn.initial labels).getD Spawn.initial
    have path : Path Spawn.system Spawn.Orderly Spawn.initial labels state :=
      ⟨trivial, _, rfl, trivial, _, rfl, trivial, _, rfl, fun _ => rfl, _, rfl,
        fun _ _ _ => .inr rfl, _, rfl, trivial, _, rfl, trivial, _, rfl, trivial, _, rfl, rfl⟩
    have truthful := (exec_truthful 60000 none).1 labels state path
    have ended : state.code = some 0 := rfl
    have read : (state.streams .stdout).finished = true := rfl
    exact ⟨state, ⟨labels, path⟩, read,
      (truthful 0 ended (by decide)).2.2 .stdout read⟩
  · let labels : List Run.Label :=
      [.feed 1 "", .fed, .write .stdout [65], .read .stdout 1, .exit (.exited 3), .eof .stdout,
        .eof .stderr, .join .stdout, .join .stderr, .wait]
    let start := Run.initial (some [120])
    let state := ((Run.system 60000 (some [120])).run start labels).getD start
    have path : Path (Run.system 60000 (some [120])) Run.Orderly start labels state :=
      ⟨fun _ => trivial, _, rfl, fun _ => trivial, _, rfl, fun _ => trivial, _, rfl,
        fun _ => trivial, _, rfl, fun _ => ⟨rfl, rfl⟩, _, rfl, fun _ => trivial, _, rfl,
        fun _ => trivial, _, rfl, fun _ => trivial, _, rfl, fun _ => trivial, _, rfl,
        fun _ => trivial, _, rfl, rfl⟩
    refine ⟨state, ⟨labels, path⟩, ?_⟩
    rfl

end OnlyJs.Bridge.Exec
