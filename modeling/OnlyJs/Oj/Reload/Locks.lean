import Mathlib.Data.List.Perm.Subperm
import Std.Data.TreeMap.Lemmas
import OnlyJs.Lib.Association
import OnlyJs.Serve.Table.ModuleIndex

/-!
# Module locks

A release tree pins its modules in a lock file. A reload keeps what every lock file held,
compares the files one by one to see whether anything changed, and names the modules that
came and went over all of them.
-/

namespace OnlyJs.Oj.Reload

open Lib Serve List

set_option autoImplicit false

abbrev Lock := Std.TreeMap String String

structure Locks where
  files : List (FilePath × Lock)
  distinct : (files.map Prod.fst).Nodup

namespace Locks

def empty : Locks := ⟨[], List.nodup_nil⟩

def get (locks : Locks) (path : FilePath) : Option Lock := locks.files.lookup path

def insert (locks : Locks) (path : FilePath) (lock : Lock) : Locks where
  files := Association.put locks.files path lock
  distinct := Association.put_distinct locks.distinct path lock

def merged (locks : Locks) : Lock :=
  locks.files.foldl (fun union file => union.insertMany file.2.toList) ∅

end Locks

inductive MountKind where
  | api (dir : FilePath) (ts : Bool)
  | web (root : FilePath)
deriving DecidableEq

structure ResolvedMount where
  mountPrefix : List Char
  kind : MountKind
deriving DecidableEq

def ResolvedMount.api (mount : ResolvedMount) : Option (FilePath × Bool) :=
  match mount.kind with
  | .api dir ts => some (dir, ts)
  | .web _ => none

def lockPath (dir : FilePath) : FilePath := dir ++ ["manifests.yaml".toList]

def releaseLocks (loadLock : FilePath → Except String Lock) :
    Locks → List ResolvedMount → Except String Locks
  | locks, [] => .ok locks
  | locks, mount :: rest =>
    match mount.api with
    | some (dir, false) =>
      (loadLock (lockPath dir)).bind fun lock =>
        releaseLocks loadLock (locks.insert (lockPath dir) lock) rest
    | _ => releaseLocks loadLock locks rest

def sameLock (first second : Lock) : Bool := first.toList = second.toList

def locksChanged (old new : Locks) : Bool :=
  old.files.length ≠ new.files.length ||
    old.files.any fun file => (new.get file.1).all fun lock => !sameLock file.2 lock

/-- Both hold the same lock files with the same entries. -/
def SameLocks (old new : Locks) : Prop :=
  ∀ path, (old.get path).map Std.TreeMap.toList = (new.get path).map Std.TreeMap.toList

def lockChanges (old new : Lock) : List (String × Bool × String) :=
  let gone := old.toList.flatMap fun entry =>
    match new[entry.1]? with
    | none => [(entry.1, true, s!"-{entry.1}@{entry.2}")]
    | some version =>
      if version ≠ entry.2 then
        [(entry.1, true, s!"-{entry.1}@{entry.2}"), (entry.1, false, s!"+{entry.1}@{version}")]
      else []
  let come := new.toList.filterMap fun entry =>
    if old.contains entry.1 then none else some (entry.1, false, s!"+{entry.1}@{entry.2}")
  gone ++ come

def lockDiff (old new : Lock) : List String :=
  ((lockChanges old new).mergeSort fun first second =>
    decide (first.1 < second.1) ||
      (first.1 = second.1 && (first.2.1 || !second.2.1))).map fun change => change.2.2

def lockUnionNames (locks : Locks) : List String :=
  locks.merged.toList.map fun entry => s!"{entry.1}@{entry.2}"

theorem mem_paths {locks : Locks} {path : FilePath} :
    path ∈ locks.files.map Prod.fst ↔ (locks.get path).isSome = true := by
  rw [Locks.get, Association.lookup_isSome, mem_map]
  constructor
  · rintro ⟨⟨_, lock⟩, listed, rfl⟩
    exact ⟨lock, listed⟩
  · rintro ⟨lock, listed⟩
    exact ⟨(path, lock), listed, rfl⟩

/-- No difference is found exactly if there is none. -/
theorem locksChanged_eq_false {old new : Locks} :
    locksChanged old new = false ↔ SameLocks old new := by
  unfold locksChanged SameLocks
  rw [Bool.or_eq_false_iff, decide_eq_false_iff_not, not_not, any_eq_false]
  constructor
  · rintro ⟨length, agree⟩ path
    have found : ∀ path lock, old.get path = some lock →
        ∃ other, new.get path = some other ∧ other.toList = lock.toList := by
      intro path lock held
      have same := agree (path, lock) (Association.mem_of_lookup held)
      cases looked : new.get path with
      | none => simp [looked] at same
      | some other =>
        simp only [looked, Option.all_some, sameLock, Bool.not_eq_true', decide_eq_false_iff_not,
          not_not] at same
        exact ⟨other, rfl, same.symm⟩
    cases held : old.get path with
    | some lock =>
      obtain ⟨other, looked, same⟩ := found path lock held
      rw [looked, Option.map_some, Option.map_some, same]
    | none =>
      -- As many files, and each of the old ones is there: the new ones are no others.
      have listed : old.files.map Prod.fst ⊆ new.files.map Prod.fst := by
        intro known member
        obtain ⟨lock, held⟩ := Option.isSome_iff_exists.mp (mem_paths.mp member)
        obtain ⟨other, looked, _⟩ := found known lock held
        exact mem_paths.mpr (by rw [looked]; rfl)
      have within := subperm_of_subset old.distinct listed
      have all := within.perm_of_length_le (by rw [length_map, length_map, length])
      cases looked : new.get path with
      | none => rfl
      | some other =>
        have member := all.mem_iff.mpr (mem_paths.mpr (by rw [looked]; rfl))
        have absent := mem_paths.mp member
        rw [held] at absent
        cases absent
  · intro same
    have all : (old.files.map Prod.fst).Perm (new.files.map Prod.fst) := by
      refine (perm_ext_iff_of_nodup old.distinct new.distinct).mpr fun path => ?_
      have agree := congrArg Option.isSome (same path)
      rw [Option.isSome_map, Option.isSome_map] at agree
      rw [mem_paths, mem_paths, agree]
    have length := all.length_eq
    rw [length_map, length_map] at length
    refine ⟨length, ?_⟩
    rintro ⟨path, lock⟩ listed
    have held : old.get path = some lock := Association.lookup_of_mem old.distinct listed
    have agree := same path
    rw [held] at agree
    cases looked : new.get path with
    | none =>
      rw [looked] at agree
      cases agree
    | some other =>
      rw [looked] at agree
      have entries : lock.toList = other.toList := Option.some.inj agree
      simp [sameLock, entries]

end OnlyJs.Oj.Reload
