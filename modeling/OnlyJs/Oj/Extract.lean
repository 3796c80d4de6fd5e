import Mathlib.Data.List.Infix
import OnlyJs.Lib.Fallible

/-!
# Unpacking the archive of a mount

The entries are placed one by one below the destination. An entry comes with its header and
with the bytes that the archive reader gives for it, the number of which a pax record before
the entry may set.
-/

namespace OnlyJs.Oj.Extract

open List Lib.Fallible Function

set_option autoImplicit false

abbrev Bytes := List UInt8

abbrev Path := List Bytes

inductive EntryType where
  | regular
  | directory
  | symlink
  | link
  | char
  | block
  | fifo
  | continuous
  | gnuLongName
  | gnuLongLink
  | gnuSparse
  | xGlobalHeader
  | xHeader
  | unknown (flag : UInt8)
deriving DecidableEq

/-- Whether an entry of the type holds the bytes of a file. A type that is not known counts
as a regular file. -/
def EntryType.isFile : EntryType → Bool
  | .regular | .continuous | .gnuSparse | .unknown _ => true
  | _ => false

structure Entry where
  entryType : EntryType
  name : Bytes
  /-- The size that the header announces, if it can be read. -/
  size : Option Nat
  data : Bytes
  readable : Bool

inductive Component where
  | rootDir
  | curDir
  | parentDir
  | normal (name : Bytes)

def slash : UInt8 := 0x2f

def backslash : UInt8 := 0x5c

def dot : UInt8 := 0x2e

def component (part : Bytes) : Option Component :=
  if part = [] then none
  else if part = [dot] then some .curDir
  else if part = [dot, dot] then some .parentDir
  else some (.normal part)

def components (name : Bytes) : List Component :=
  (if name.head? = some slash then [.rootDir] else []) ++
    (name.splitOn slash).filterMap component

inductive Rejection where
  | unsupportedType
  | backslashInPath
  | unsafeComponent
  | escaped
  | entrySize
  | singleEntry
  | uncompressedTotal
  | tooManyEntries
  | mkdir
  | readEntry
  | write

def pushComponent (rel : Path) : Component → Except Rejection Path
  | .rootDir | .parentDir => .error .unsafeComponent
  | .curDir => .ok rel
  | .normal name => .ok (rel ++ [name])

def maxUncompressedBytes : Nat := 4 * 1024 * 1024 * 1024

def maxEntries : Nat := 100000

def maxEntryBytes : Nat := 1024 * 1024 * 1024

inductive Node where
  | dir
  | file (data : Bytes)
deriving DecidableEq

abbrev Disk := Path → Option Node

structure State where
  disk : Disk
  count : Nat
  total : Nat
  /-- The most bytes that were read into memory for one entry. -/
  largest : Nat
  written : Nat

def check (dest : Path) (state : State) (entry : Entry) : Except Rejection (State × Path) := do
  reject (entry.name.contains backslash) .backslashInPath
  let rel ← (components entry.name).foldlM pushComponent []
  let out := dest ++ rel
  reject (!dest.isPrefixOf out) .escaped
  let size ← entry.size.elim (.error .entrySize) .ok
  let total := min (state.total + size) (2 ^ 64 - 1)
  reject (maxEntryBytes < size) .singleEntry
  reject (maxUncompressedBytes < total) .uncompressedTotal
  let count := state.count + 1
  reject (maxEntries < count) .tooManyEntries
  .ok ({ state with total, count }, out)

def createDirAll (disk : Disk) : List Path → Disk × Bool
  | [] => (disk, true)
  | path :: rest =>
    match disk path with
    | some (.file _) => (disk, false)
    | some .dir => createDirAll disk rest
    | none => createDirAll (Function.update disk path (some .dir)) rest

def placeDirectory (state : State) (out : Path) : State × Option Rejection :=
  let made := createDirAll state.disk out.inits
  ({ state with disk := made.1 }, if made.2 then none else some .mkdir)

def placeRegular (state : State) (out : Path) (entry : Entry) : State × Option Rejection :=
  let made := createDirAll state.disk out.dropLast.inits
  let read := { state with disk := made.1, largest := max state.largest entry.data.length }
  if made.2 = false then ({ state with disk := made.1 }, some .mkdir)
  else if entry.readable = false then (read, some .readEntry)
  else if made.1 out = some .dir then (read, some .write)
  else
    ({ read with
        disk := Function.update made.1 out (some (.file entry.data))
        written := state.written + entry.data.length }, none)

def step (dest : Path) (state : State) (entry : Entry) : State × Option Rejection :=
  match entry.entryType with
  | .symlink | .link | .char | .block | .fifo => (state, some .unsupportedType)
  | .regular =>
    match check dest state entry with
    | .error rejection => (state, some rejection)
    | .ok (state, out) => placeRegular state out entry
  | .directory =>
    match check dest state entry with
    | .error rejection => (state, some rejection)
    | .ok (state, out) => placeDirectory state out
  | _ => (state, none)

def extract (dest : Path) (state : State) : List Entry → State × Option Rejection
  | [] => (state, none)
  | entry :: rest =>
    match step dest state entry with
    | (next, none) => extract dest next rest
    | failed => failed

structure Site where
  disk : Disk
  dest : Path
  standing : ∀ path, path <+: dest → disk path = some .dir
  empty : ∀ rel data, disk (dest ++ rel) ≠ some (.file data)

def Site.start (site : Site) : State := ⟨site.disk, 0, 0, 0, 0⟩

def extractTarball (site : Site) (entries : List Entry) : State × Option Rejection :=
  extract site.dest site.start entries

/-- The path below the destination that a name stands for. -/
def relOf (name : Bytes) : Path :=
  (components name).filterMap fun
    | .normal name => some name
    | _ => none

structure Sound (site : Site) (entries : List Entry) (outcome : State × Option Rejection) :
    Prop where
  confined : ∀ path, ¬ site.dest <+: path → outcome.1.disk path = site.disk path
  memory : outcome.1.largest ≤ maxEntryBytes
  bounded : outcome.1.written ≤ maxUncompressedBytes
  complete : outcome.2 = none → ∀ entry ∈ entries, entry.entryType.isFile = true →
    outcome.1.disk (site.dest ++ relOf entry.name) = some (.file entry.data)

/-- A regular file that passes the checks is no longer than they allow, and goes to no file
with other bytes. What another type holds of a file is there already. -/
def Careful (dest : Path) (state : State) (entry : Entry) : Prop :=
  if entry.entryType = .regular then
    ∀ next out, check dest state entry = .ok (next, out) →
      (createDirAll state.disk out.dropLast.inits).2 = true →
      entry.data.length ≤ maxEntryBytes ∧
        (entry.readable = true → state.disk out ≠ some .dir →
          state.written + entry.data.length ≤ maxUncompressedBytes ∧
            ∀ data, state.disk out = some (.file data) → data = entry.data)
  else entry.entryType.isFile = true →
    state.disk (dest ++ relOf entry.name) = some (.file entry.data)

/-- Every step is careful, up to the first rejection. -/
def EachCareful (dest : Path) (state : State) : List Entry → Prop
  | [] => True
  | entry :: rest => Careful dest state entry ∧
      ((step dest state entry).2 = none → EachCareful dest (step dest state entry).1 rest)

theorem createDirAll_at (paths : List Path) (disk : Disk) (path : Path) :
    (createDirAll disk paths).1 path = disk path ∨
      path ∈ paths ∧ disk path = none ∧ (createDirAll disk paths).1 path = some .dir := by
  induction paths generalizing disk with
  | nil => exact .inl rfl
  | cons head rest hypothesis =>
    rw [createDirAll]
    split
    · exact .inl rfl
    · exact (hypothesis disk).imp_right fun made => ⟨mem_cons_of_mem _ made.1, made.2⟩
    · rename_i missing
      by_cases same : path = head
      · subst same
        refine .inr ⟨mem_cons_self, missing, ?_⟩
        rcases hypothesis (Function.update disk path (some .dir)) with stays | ⟨-, absent, -⟩
        · rw [stays, update_self]
        · simp at absent
      · rcases hypothesis (Function.update disk head (some .dir)) with
          stays | ⟨member, absent, made⟩
        · exact .inl (stays.trans (update_of_ne same _ _))
        · exact .inr ⟨mem_cons_of_mem _ member,
            (update_of_ne same _ _).symm.trans absent, made⟩

theorem pushComponents {parts : List Component} {rel : Path} (before : Path)
    (pushed : parts.foldlM pushComponent before = .ok rel) :
    rel = before ++ parts.filterMap fun
      | .normal name => some name
      | _ => none := by
  induction parts generalizing before with
  | nil =>
    cases pushed
    simp
  | cons part rest hypothesis =>
    obtain ⟨next, one, more⟩ := bind_ok.mp (foldlM_cons.symm.trans pushed)
    cases part with
    | rootDir | parentDir => cases one
    | curDir =>
      cases one
      exact hypothesis _ more
    | normal name =>
      cases one
      simpa using hypothesis _ more

theorem check_ok {dest out : Path} {state next : State} {entry : Entry}
    (admitted : check dest state entry = .ok (next, out)) :
    out = dest ++ relOf entry.name ∧ next.disk = state.disk ∧ next.largest = state.largest ∧
      next.written = state.written := by
  obtain ⟨-, -, admitted⟩ := bind_ok.mp admitted
  obtain ⟨rel, pushed, admitted⟩ := bind_ok.mp admitted
  obtain ⟨-, -, admitted⟩ := bind_ok.mp admitted
  obtain ⟨size, -, admitted⟩ := bind_ok.mp admitted
  iterate 3 obtain ⟨-, -, admitted⟩ := bind_ok.mp admitted
  cases admitted
  exact ⟨congrArg (dest ++ ·) (pushComponents [] pushed), rfl, rfl, rfl⟩

/-- What holds of the disk and of the counts after any number of steps. -/
structure Within (site : Site) (state : State) : Prop where
  confined : ∀ path, ¬ site.dest <+: path → state.disk path = site.disk path
  standing : ∀ path, path <+: site.dest → state.disk path = some .dir
  memory : state.largest ≤ maxEntryBytes
  bounded : state.written ≤ maxUncompressedBytes

/-- The files below the destination are those of the entries. -/
structure Kept (site : Site) (entries : List Entry) (state : State) : Prop
    extends Within site state where
  complete : ∀ entry ∈ entries, entry.entryType.isFile = true →
    state.disk (site.dest ++ relOf entry.name) = some (.file entry.data)
  origin : ∀ rel data, state.disk (site.dest ++ rel) = some (.file data) →
    ∃ entry ∈ entries, entry.entryType.isFile = true ∧ relOf entry.name = rel ∧ entry.data = data

variable {site : Site} {entries : List Entry} {state : State} {entry : Entry}

section

variable (kept : Kept site entries state)
include kept

theorem Kept.makeDirs {paths : List Path} {rel : Path}
    (above : ∀ path ∈ paths, path <+: site.dest ++ rel) :
    Kept site entries { state with disk := (createDirAll state.disk paths).1 } := by
  have at_ := createDirAll_at paths state.disk
  refine { kept with confined := fun path outside => ?_, standing := fun path inside => ?_,
                     complete := fun entry member file => ?_, origin := fun rel data placed => ?_ }
  · rcases at_ path with stays | ⟨member, absent, -⟩
    · exact stays.trans (kept.confined path outside)
    · have inside : path <+: site.dest := ( prefix_or_prefix_of_prefix (above path member)
        (prefix_append site.dest rel)).resolve_right outside
      exact absurd (kept.standing path inside) (by simp [absent])
  · rcases at_ path with stays | ⟨-, absent, -⟩
    · exact stays.trans (kept.standing path inside)
    · exact absurd (kept.standing path inside) (by simp [absent])
  · rcases at_ (site.dest ++ relOf entry.name) with stays | ⟨-, absent, -⟩
    · exact stays.trans (kept.complete entry member file)
    · exact absurd (kept.complete entry member file) (by simp [absent])
  · rcases at_ (site.dest ++ rel) with stays | ⟨-, -, made⟩
    · exact kept.origin rel data (stays.symm.trans placed)
    · exact absurd placed (by simp [made])

theorem Kept.skip
    (there : entry.entryType.isFile = true →
      state.disk (site.dest ++ relOf entry.name) = some (.file entry.data)) :
    Kept site (entries ++ [entry]) state :=
  { kept with
    complete := by
      intro other member file
      rcases mem_append.mp member with before | last
      · exact kept.complete other before file
      · cases mem_singleton.mp last
        exact there file
    origin := fun rel data placed => by
      obtain ⟨other, member, found⟩ := kept.origin rel data placed
      exact ⟨other, mem_append_left _ member, found⟩ }

/-- A file is written below the destination, over no other bytes. -/
theorem Kept.write (file : entry.entryType.isFile = true)
    (free : state.disk (site.dest ++ relOf entry.name) ≠ some .dir)
    (same : ∀ data, state.disk (site.dest ++ relOf entry.name) = some (.file data) →
      data = entry.data)
    (fits : state.written + entry.data.length ≤ maxUncompressedBytes) :
    Kept site (entries ++ [entry])
      { state with
        disk := Function.update state.disk (site.dest ++ relOf entry.name)
          (some (.file entry.data))
        written := state.written + entry.data.length } := by
  refine { kept with confined := fun path outside => ?_, standing := fun path inside => ?_,
                     bounded := fits, complete := fun other member isFile => ?_,
                     origin := fun rel data placed => ?_ }
  · have other : path ≠ site.dest ++ relOf entry.name := by
      rintro rfl
      exact outside (prefix_append _ _)
    exact (update_of_ne other _ _).trans (kept.confined path outside)
  · have other : path ≠ site.dest ++ relOf entry.name := by
      rintro rfl
      exact free (kept.standing _ inside)
    exact (update_of_ne other _ _).trans (kept.standing path inside)
  · rcases mem_append.mp member with before | last
    · have stood := kept.complete other before isFile
      by_cases here : relOf other.name = relOf entry.name
      · rw [here] at stood ⊢
        exact (update_self ..).trans (by rw [same _ stood])
      · exact (update_of_ne (by simpa using here) _ _).trans stood
    · cases mem_singleton.mp last
      exact update_self ..
  · by_cases here : rel = relOf entry.name
    · subst here
      cases (update_self ..).symm.trans placed
      exact ⟨entry, mem_append_right _ mem_cons_self, file, rfl, rfl⟩
    · have there : site.dest ++ rel ≠ site.dest ++ relOf entry.name := by simpa using here
      obtain ⟨other, member, found⟩ :=
        kept.origin rel data ((update_of_ne there _ _).symm.trans placed)
      exact ⟨other, mem_append_left _ member, found⟩

theorem Kept.counted {next : State} (disk : next.disk = state.disk)
    (largest : next.largest = state.largest) (written : next.written = state.written) :
    Kept site entries next where
  confined := disk ▸ kept.confined
  standing := disk ▸ kept.standing
  memory := largest ▸ kept.memory
  bounded := written ▸ kept.bounded
  complete := disk ▸ kept.complete
  origin := disk ▸ kept.origin

theorem Kept.place_stays (rel : Path) :
    (createDirAll state.disk (site.dest ++ rel).dropLast.inits).1 (site.dest ++ rel) =
      state.disk (site.dest ++ rel) := by
  rcases createDirAll_at (site.dest ++ rel).dropLast.inits state.disk (site.dest ++ rel) with
    stays | ⟨member, absent, -⟩
  · exact stays
  · have shorter := ((mem_inits _ _).mp member).length_le
    have root : site.dest ++ rel = [] := by
      rw [length_dropLast] at shorter
      exact length_eq_zero_iff.mp (by omega)
    have inside : site.dest ++ rel <+: site.dest := root ▸ nil_prefix
    exact absurd (kept.standing _ inside) (by simp [absent])

theorem placeRegular_kept (file : entry.entryType.isFile = true)
    (careful : (createDirAll state.disk (site.dest ++ relOf entry.name).dropLast.inits).2 = true →
      entry.data.length ≤ maxEntryBytes ∧ (entry.readable = true →
      state.disk (site.dest ++ relOf entry.name) ≠ some .dir →
      state.written + entry.data.length ≤ maxUncompressedBytes ∧
      ∀ data, state.disk (site.dest ++ relOf entry.name) = some (.file data) → data = entry.data)) :
    Within site (placeRegular state (site.dest ++ relOf entry.name) entry).1 ∧
      ((placeRegular state (site.dest ++ relOf entry.name) entry).2 = none →
        Kept site (entries ++ [entry])
          (placeRegular state (site.dest ++ relOf entry.name) entry).1) := by
  have above : ∀ path ∈ (site.dest ++ relOf entry.name).dropLast.inits,
      path <+: site.dest ++ relOf entry.name :=
    fun path member => ((mem_inits _ _).mp member).trans ( dropLast_prefix _)
  have dirs := kept.makeDirs above
  have stays := kept.place_stays (relOf entry.name)
  unfold placeRegular
  dsimp only
  split_ifs with failed unread taken
  · exact ⟨dirs.toWithin, nofun⟩
  all_goals
    obtain ⟨short, more⟩ := careful (eq_true_of_ne_false failed)
    have read : Kept site entries { state with
        disk := (createDirAll state.disk (site.dest ++ relOf entry.name).dropLast.inits).1
        largest := max state.largest entry.data.length } :=
      { dirs with memory := max_le dirs.memory short }
  · exact ⟨read.toWithin, nofun⟩
  · exact ⟨read.toWithin, nofun⟩
  · obtain ⟨fits, same⟩ := more (eq_true_of_ne_false unread) (stays ▸ taken)
    have written := read.write file taken (fun data stood => same data (stays ▸ stood)) fits
    exact ⟨written.toWithin, fun _ => written⟩

/-- A careful step keeps what is known, up to a rejection. -/
theorem step_kept (careful : Careful site.dest state entry) :
    Within site (step site.dest state entry).1 ∧
      ((step site.dest state entry).2 = none →
        Kept site (entries ++ [entry]) (step site.dest state entry).1) := by
  cases type : entry.entryType
  case regular =>
    rw [Careful, if_pos type] at careful
    cases admitted : check site.dest state entry with
    | error rejection =>
      simp only [step, type, admitted]
      exact ⟨kept.toWithin, nofun⟩
    | ok placed =>
      obtain ⟨next, out⟩ := placed
      obtain ⟨rfl, disk, largest, written⟩ := check_ok admitted
      have careful := careful _ _ admitted
      rw [← disk, ← written] at careful
      simp only [step, type, admitted]
      exact placeRegular_kept (kept.counted disk largest written) (by rw [type]; rfl) careful
  case directory =>
    cases admitted : check site.dest state entry with
    | error rejection =>
      simp only [step, type, admitted]
      exact ⟨kept.toWithin, nofun⟩
    | ok placed =>
      obtain ⟨next, out⟩ := placed
      obtain ⟨rfl, disk, largest, written⟩ := check_ok admitted
      have dirs := (kept.counted disk largest written).makeDirs
        fun path => (mem_inits path (site.dest ++ relOf entry.name)).mp
      simp only [step, type, admitted, placeDirectory]
      exact ⟨dirs.toWithin, fun _ => dirs.skip fun file => by rw [type] at file; cases file⟩
  all_goals
    rw [Careful, if_neg (by simp [type])] at careful
    simp only [step, type]
    exact ⟨kept.toWithin, fun _ => kept.skip careful⟩

theorem sound_of_kept : Sound site entries (state, none) :=
  ⟨kept.confined, kept.memory, kept.bounded, fun _ => kept.complete⟩

/-- After a sound step it is known that the step was careful. -/
theorem step_careful (sound : Sound site (entries ++ [entry]) (step site.dest state entry)) :
    Careful site.dest state entry := by
  have last : entry ∈ entries ++ [entry] := mem_append_right _ mem_cons_self
  by_cases type : entry.entryType = .regular
  · rw [Careful, if_pos type]
    rintro next out admitted made
    obtain ⟨rfl, disk, largest, written⟩ := check_ok admitted
    have stays := kept.place_stays (relOf entry.name)
    have ready : ¬ (createDirAll state.disk
        (site.dest ++ relOf entry.name).dropLast.inits).2 = false := by simp [made]
    simp only [step, type, admitted, placeRegular, disk, largest, written, if_neg ready] at sound
    have short : entry.data.length ≤ maxEntryBytes := by
      refine (le_max_right state.largest _).trans (le_trans (le_of_eq ?_) sound.memory)
      split_ifs <;> rfl
    refine ⟨short, fun readable free => ?_⟩
    rw [if_neg (by simp [readable]), if_neg (stays ▸ free)] at sound
    refine ⟨sound.bounded, fun data stood => ?_⟩
    obtain ⟨other, member, file, same, rfl⟩ := kept.origin _ data stood
    have placed := sound.complete rfl other (mem_append_left _ member) file
    rw [same] at placed
    simpa using ((update_self ..).symm.trans placed).symm
  · rw [Careful, if_neg type]
    intro file
    have passed : step site.dest state entry = (state, none) := by
      unfold step
      cases kind : entry.entryType <;> simp_all [EntryType.isFile]
    rw [passed] at sound
    exact sound.complete rfl entry last file

end

theorem extract_one (dest : Path) (state : State) (entry : Entry) :
    extract dest state [entry] = step dest state entry := by
  rw [extract]
  rcases step dest state entry with ⟨next, _ | rejection⟩ <;> rfl

theorem careful_run (kept : Kept site entries state) (rest : List Entry) :
    (∀ part, part <+: rest → Sound site (entries ++ part) (extract site.dest state part)) ↔
      EachCareful site.dest state rest := by
  induction rest generalizing entries state with
  | nil =>
    refine ⟨fun _ => trivial, fun _ part front => ?_⟩
    cases prefix_nil.mp front
    exact (append_nil entries).symm ▸ sound_of_kept kept
  | cons entry rest hypothesis =>
    have goesOn (part : List Entry) (none_ : (step site.dest state entry).2 = none) :
        extract site.dest state (entry :: part) =
          extract site.dest (step site.dest state entry).1 part := by
      rw [extract]
      rcases stepped : step site.dest state entry with ⟨next, _ | rejection⟩
      · rfl
      · simp [stepped] at none_
    constructor
    · intro sound
      have careful := step_careful kept
        (extract_one site.dest state entry ▸ sound [entry] (prefix_append [entry] rest))
      refine ⟨careful, fun none_ => (hypothesis ((step_kept kept careful).2 none_)).mp ?_⟩
      intro part front
      have whole := sound (entry :: part) (cons_prefix_cons.mpr ⟨rfl, front⟩)
      rwa [goesOn part none_, append_cons] at whole
    · rintro ⟨careful, later⟩ part front
      cases part with
      | nil => exact (append_nil entries).symm ▸ sound_of_kept kept
      | cons first part =>
        obtain ⟨rfl, inner⟩ := cons_prefix_cons.mp front
        cases stopped : (step site.dest state first).2 with
        | none =>
          rw [goesOn part stopped, append_cons]
          have next := (step_kept kept careful).2 stopped
          exact (hypothesis next).mpr (later stopped) part inner
        | some rejection =>
          have within := (step_kept kept careful).1
          have stays : extract site.dest state (first :: part) =
              step site.dest state first := by
            rw [extract]
            rcases stepped : step site.dest state first with ⟨next, _ | rejection⟩
            · simp [stepped] at stopped
            · rfl
          rw [stays]
          exact ⟨within.confined, within.memory, within.bounded,
            fun none_ => absurd (stopped.symm.trans none_) nofun⟩

/-- Unpacking does what is asked of it, whatever initial part of the archive there is, exactly
if every step is careful. -/
theorem unpacked_iff (site : Site) (entries : List Entry) :
    (∀ part, part <+: entries → Sound site part (extractTarball site part)) ↔
      EachCareful site.dest site.start entries := by
  have kept : Kept site [] site.start :=
    { confined := fun _ _ => rfl
      standing := site.standing
      memory := Nat.zero_le _
      bounded := Nat.zero_le _
      complete := nofun
      origin := fun rel data placed => absurd placed (site.empty rel data) }
  exact careful_run kept entries

def bare : Site where
  disk := fun path => if path = [] then some .dir else none
  dest := []
  standing := fun path inside => by simp [prefix_nil.mp inside]
  empty := fun rel data => by split_ifs <;> simp

/-- A contiguous file is passed over, a second file of one name replaces the first, and what a
pax record makes of the length is read although the header says less. -/
theorem unpacked_wrong :
    ¬ Sound bare [⟨.continuous, [97], some 1, [1], true⟩]
        (extractTarball bare [⟨.continuous, [97], some 1, [1], true⟩]) ∧
      ¬ Sound bare [⟨.regular, [97], some 1, [1], true⟩, ⟨.regular, [97], some 1, [2], true⟩]
        (extractTarball bare
          [⟨.regular, [97], some 1, [1], true⟩, ⟨.regular, [97], some 1, [2], true⟩]) ∧
      ¬ Sound bare [⟨.regular, [97], some 0, replicate (maxEntryBytes + 1) 0, true⟩]
        (extractTarball bare
          [⟨.regular, [97], some 0, replicate (maxEntryBytes + 1) 0, true⟩]) := by
  refine ⟨fun sound => ?_, fun sound => ?_, fun sound => ?_⟩
  · exact absurd (sound.complete rfl _ mem_cons_self rfl) (by decide)
  · exact absurd (sound.complete (by decide) _ mem_cons_self rfl) (by decide)
  · have read (data : Bytes) :
        (extractTarball bare [⟨.regular, [97], some 0, data, true⟩]).1.largest = data.length :=
      max_eq_right (Nat.zero_le data.length)
    exact absurd sound.memory (by rw [read, length_replicate]; omega)

end OnlyJs.Oj.Extract
