import Mathlib.Data.List.TakeWhile
import OnlyJs.Lib.FileTree
import OnlyJs.Lib.Fallible

/-!
# The file jail

How the file system facade and the path arguments of `exec` decide on a path: a relative
path is folded below the root without looking at the disk, the result is resolved as far as
it exists, and what comes out has to lie below the root or a trusted path. The decision is
compared with the location that opening the returned path leads to.
-/

namespace OnlyJs.Bridge.Fs

open Lib List Lib.FileTree

def component (segment : List Char) : Option Component :=
  if segment = [] then none
  else if segment = ['.'] then some .current
  else if segment = ['.', '.'] then some .parent
  else some (.normal (String.ofList segment))

/-- A path text as the kernel reads it: empty segments go, but an empty one at the end asks
for a directory as `.` does. -/
def parsePath (text : String) : Path :=
  let segments := text.toList.splitOn '/'
  { absolute := text.toList.head? = some '/'
    components := segments.dropLast.filterMap component ++
      [((segments.getLast?.bind component).getD .current)] }

/-- Pops for `..` and pushes a name; the top stays where it is. -/
def fold : Location → List Component → Location
  | current, [] => current
  | current, .current :: rest => fold current rest
  | current, .parent :: rest => fold current.dropLast rest
  | current, .normal name :: rest => fold (current ++ [name]) rest

def joinJailed (root : Location) (path : Path) : List Component :=
  if path.absolute then path.components
  else (fold root path.components).map Component.normal

inductive JailError where
  | notConfigured
  | doesNotResolve
  | escapesRoot (path : String)
  | outside (path : String) (resolved : Location)

section Decision

variable (tree : Tree) (links : Nat)

/-- `file_name` and `parent` of a path, last component first; both pass over `.` and slashes
at the end. -/
def splitName (reversed : List Component) : Option (String × List Component) :=
  match reversed.dropWhile (· = .current) with
  | .normal name :: rest => some (name, rest.dropWhile (· = .current))
  | _ => none

theorem splitName_shorter {reversed rest : List Component} {name : String}
    (split : splitName reversed = some (name, rest)) : rest.length < reversed.length := by
  unfold splitName at split
  have whole := (dropWhile_sublist (l := reversed) (· = Component.current)).length_le
  split at split
  · rename_i inner stripped
    cases split
    rw [stripped] at whole
    have part := (dropWhile_sublist (l := inner) (· = Component.current)).length_le
    rw [length_cons] at whole
    omega
  · cases split

def canonicalAncestor (reversed : List Component) : Option Location :=
  canonicalize tree links reversed.reverse

def resolveUp (reversed : List Component) (suffix : List String) : Except JailError Location :=
  match canonicalAncestor tree links reversed with
  | some base => .ok (base ++ suffix)
  | none =>
    match _split : splitName reversed with
    | some (name, rest) => resolveUp rest (name :: suffix)
    | none => .error .doesNotResolve
termination_by reversed.length
decreasing_by exact splitName_shorter _split

def resolveExisting (components : List Component) : Except JailError Location :=
  resolveUp tree links components.reverse []

/-- Component-wise, as `Path::starts_with`. -/
def startsWith (location area : Location) : Bool := area.isPrefixOf location

structure FsGrant where
  root : Location

structure PlatformGrant where
  modules : List String
  trusted : List Location

def trustedFor (platform : Option PlatformGrant) (moduleName : Option String) : List Location :=
  match platform, moduleName with
  | some grant, some name => if grant.modules.contains name then grant.trusted else []
  | _, _ => []

def opFsResolve (grant : Option FsGrant) (platform : Option PlatformGrant)
    (moduleName : Option String) (path : String) : Except JailError Location := do
  let grant ← grant.elim (.error .notConfigured) .ok
  let trusted := trustedFor platform moduleName
  let resolved ← resolveExisting tree links (joinJailed grant.root (parsePath path))
  if !startsWith resolved grant.root && !trusted.any (startsWith resolved) then
    .error (.escapesRoot path)
  else .ok resolved

def resolveAllowed (root : Location) (trusted : List Location) (path : String) :
    Except JailError Location := do
  let resolved ← resolveExisting tree links (joinJailed root (parsePath path))
  if startsWith resolved root || trusted.any (startsWith resolved) then .ok resolved
  else .error (.outside path resolved)

end Decision

/-- Below the root or a trusted path. -/
def InArea (root : Location) (trusted : List Location) (location : Location) : Prop :=
  startsWith location root = true ∨ ∃ area ∈ trusted, startsWith location area = true

/-- What is there under a path. An absolute path is what the kernel makes of it. A relative
path is its folding below the root, and so what the kernel makes of it from there, unless it
has a `..` and crosses a link. -/
inductive Denotes (tree : Tree) (links : Nat) (root : Location) (path : Path) :
    Location → Prop
  | absolute {location : Location} : path.absolute = true →
      canonicalize tree links path.components = some location →
      Denotes tree links root path location
  | folded {location : Location} : path.absolute = false →
      canonicalize tree links ((fold root path.components).map Component.normal) =
        some location →
      Denotes tree links root path location
  | descending {location : Location} : path.absolute = false → Real tree root →
      .parent ∉ path.components →
      openFrom tree false links root path.components = some location →
      Denotes tree links root path location
  | linkless {location : Location} : path.absolute = false → Real tree root →
      openFrom tree false 0 root path.components = some location →
      Denotes tree links root path location

/-- Opening what the jail returns, to read or to create, leads below the root or a trusted
path of the caller; what is there in this area is not refused; and both decisions agree. -/
structure Decides (tree : Tree) (links : Nat) (root : Location)
    (platform : Option PlatformGrant) (moduleName : Option String) (path : String) : Prop where
  confined : ∀ resolved, opFsResolve tree links (some ⟨root⟩) platform moduleName path =
      .ok resolved → ∀ creating location,
    openFrom tree creating links [] (resolved.map Component.normal) = some location →
      InArea root (trustedFor platform moduleName) location
  complete : ∀ location, Denotes tree links root (parsePath path) location →
    InArea root (trustedFor platform moduleName) location →
      ∃ resolved, opFsResolve tree links (some ⟨root⟩) platform moduleName path = .ok resolved
  agrees : ∀ resolved,
    opFsResolve tree links (some ⟨root⟩) platform moduleName path = .ok resolved ↔
      resolveAllowed tree links root (trustedFor platform moduleName) path = .ok resolved

/-- `base` is where the nearest ancestor that resolves leads, and `names` come after it. The
path stands with its last component first. -/
inductive Nearest (tree : Tree) (links : Nat) : List Component → Location → List String → Prop
  | here {reversed : List Component} {base : Location} :
      canonicalAncestor tree links reversed = some base → Nearest tree links reversed base []
  | above {reversed rest : List Component} {base : Location} {names : List String}
      {name : String} : canonicalAncestor tree links reversed = none →
      splitName reversed = some (name, rest) → Nearest tree links rest base names →
      Nearest tree links reversed base (names ++ [name])

/-- The name after the nearest ancestor that resolves is a link, and its target, with the
names that come after the link, leads out of the area. -/
def Stray (tree : Tree) (links : Nat) (root : Location) (trusted : List Location)
    (path : String) : Prop :=
  ∃ base name names target creating left location,
    Nearest tree links (joinJailed root (parsePath path)).reverse base (name :: names) ∧
      InArea root trusted (base ++ name :: names) ∧
      find tree (base ++ [name]) = some (.link target) ∧ links = left + 1 ∧
      openFrom tree creating left (if target.absolute then [] else base)
        (target.components ++ names.map Component.normal) = some location ∧
      ¬ InArea root trusted location

variable {tree : Tree} {links : Nat} {creating : Bool} {root base location : Location}
  {reversed : List Component} {names suffix : List String} {trusted : List Location}

variable {resolved : Location}

theorem resolve_up_iff :
    resolveUp tree links reversed suffix = .ok resolved ↔
      ∃ base names, Nearest tree links reversed base names ∧
        resolved = base ++ names ++ suffix := by
  induction reversed, suffix using resolveUp.induct tree links with
  | case1 reversed suffix base found =>
    rw [resolveUp, found]
    constructor
    · intro same
      cases same
      exact ⟨base, [], .here found, by rw [append_nil]⟩
    · rintro ⟨other, names, nearest, rfl⟩
      cases nearest with
      | here also =>
        cases found.symm.trans also
        rw [append_nil]
      | above missing => cases found.symm.trans missing
  | case2 reversed suffix missing name rest split ih =>
    have up : resolveUp tree links reversed suffix =
        resolveUp tree links rest (name :: suffix) := by
      rw [resolveUp, missing]
      dsimp only
      split
      · rename_i other parent also
        cases split.symm.trans also
        rfl
      · rename_i nothing
        cases split.symm.trans nothing
    rw [up, ih]
    constructor
    · rintro ⟨base, names, nearest, rfl⟩
      exact ⟨base, names ++ [name], .above missing split nearest, by simp⟩
    · rintro ⟨base, names, nearest, rfl⟩
      cases nearest with
      | here found => cases missing.symm.trans found
      | above _ also nearest =>
        cases split.symm.trans also
        exact ⟨base, _, nearest, by simp⟩
  | case3 reversed suffix missing split =>
    have stuck : resolveUp tree links reversed suffix = .error .doesNotResolve := by
      rw [resolveUp, missing]
      dsimp only
      split
      · rename_i other parent also
        cases split.symm.trans also
      · rfl
    rw [stuck]
    constructor
    · nofun
    · rintro ⟨base, names, nearest, _⟩
      cases nearest with
      | here found => cases missing.symm.trans found
      | above _ also _ => cases split.symm.trans also

variable {rest : List Component} {name : String}

theorem split_name_parts (split : splitName reversed = some (name, rest)) :
    ∃ after before, (∀ component ∈ after, component = Component.current) ∧
      (∀ component ∈ before, component = Component.current) ∧
      reversed = after ++ .normal name :: (before ++ rest) := by
  unfold splitName at split
  split at split
  · rename_i found inner stripped
    cases split
    refine ⟨reversed.takeWhile (· = .current), inner.takeWhile (· = .current), ?_, ?_, ?_⟩
    · intro component mem
      have plain := mem_takeWhile_imp mem
      exact of_decide_eq_true plain
    · intro component mem
      have plain := mem_takeWhile_imp mem
      exact of_decide_eq_true plain
    · rw [takeWhile_append_dropWhile, ← stripped, takeWhile_append_dropWhile]
  · cases split

theorem open_currents (links : Nat) {dots : List Component}
    (directory : isDirectory tree base = true)
    (plain : ∀ component ∈ dots, component = Component.current) :
    openFrom tree creating links base (dots ++ rest) = openFrom tree creating links base rest := by
  induction dots with
  | nil => rfl
  | cons component dots ih =>
    cases plain component mem_cons_self
    have step : openFrom tree creating links base (.current :: (dots ++ rest)) =
        openFrom tree creating links base (dots ++ rest) := by
      cases links <;> exact if_pos directory
    exact step.trans (ih fun other mem => plain other (mem_cons_of_mem _ mem))

theorem is_directory_of_find {entries : List (String × Node)}
    (present : find tree base = some (.directory entries)) : isDirectory tree base = true := by
  rw [isDirectory, present]

theorem nearest_nil (nearest : Nearest tree links reversed base names) (none_left : names = []) :
    canonicalAncestor tree links reversed = some base := by
  cases nearest with
  | here found => exact found
  | above => simp at none_left

theorem nearest_no_directory {rest : List String} (nearest : Nearest tree links reversed base names)
    (same : names = name :: rest) (entries : List (String × Node)) :
    find tree (base ++ [name]) ≠ some (.directory entries) := by
  induction nearest generalizing name rest with
  | here => cases same
  | above missing split nearest ih =>
    rename_i reversed parent base names last
    cases names with
    | cons first others =>
      cases same
      exact ih rfl
    | nil =>
      cases same
      intro present
      have found := nearest_nil nearest rfl
      obtain ⟨after, before, plainAfter, plainBefore, whole⟩ := split_name_parts split
      obtain ⟨holder, held⟩ := directory_of_find present
      have goes (left : Nat) : openFrom tree false left base
          (before.reverse ++ .normal last :: after.reverse) = some (base ++ [last]) := by
        have dots : openFrom tree false left (base ++ [last]) (after.reverse ++ []) =
            openFrom tree false left (base ++ [last]) [] :=
          open_currents left (is_directory_of_find present)
            (fun component mem => plainAfter component (mem_reverse.mp mem))
        rw [open_currents left (is_directory_of_find held)
          (fun component mem => plainBefore component (mem_reverse.mp mem)),
          open_step left ⟨_, present, rfl⟩, ← append_nil after.reverse, dots, open_nil]
      have resolves := open_continue goes found
      unfold canonicalAncestor canonicalize at missing
      rw [whole] at missing
      simp only [reverse_append, reverse_cons, append_assoc] at missing resolves
      cases missing.symm.trans resolves

theorem nearest_real (nearest : Nearest tree links reversed base names) : Real tree base := by
  induction nearest with
  | here found => exact open_real real_top found
  | above _ _ _ ih => exact ih

/-- Opening a name after the nearest ancestor leads to the name itself, or through a link. -/
theorem open_after_nearest {rest : List String} {location : Location}
    (nearest : Nearest tree links reversed base (name :: rest))
    (opened : openFrom tree creating links base ((name :: rest).map Component.normal) =
      some location) :
    location = base ++ name :: rest ∨
      ∃ target left, find tree (base ++ [name]) = some (.link target) ∧ links = left + 1 ∧
        openFrom tree creating left (if target.absolute then [] else base)
          (target.components ++ rest.map Component.normal) = some location := by
  rw [map_cons] at opened
  cases present : find tree (base ++ [name]) with
  | none =>
    have created : (if (creating && (rest.map Component.normal).isEmpty &&
        isDirectory tree base) = true then some (base ++ [name]) else none) = some location := by
      cases links <;> simpa only [openFrom, walk, present] using opened
    obtain ⟨last, same⟩ := Option.ite_none_right_eq_some.mp created
    cases same
    have ended : rest = [] := by
      cases rest with
      | nil => rfl
      | cons => simp at last
    exact .inl (by rw [ended])
  | some node =>
    cases node with
    | directory entries => exact absurd present (nearest_no_directory nearest rfl entries)
    | file =>
      left
      rw [open_step links ⟨_, present, rfl⟩] at opened
      cases rest with
      | nil =>
        rw [map_nil, open_nil] at opened
        exact (Option.some.inj opened).symm
      | cons next rest =>
        have leaf : isDirectory tree (base ++ [name]) = false := by
          rw [isDirectory, present]
        have nothing : find tree (base ++ [name] ++ [next]) = none := by
          rw [find_append, present]
          rfl
        rw [map_cons] at opened
        cases links <;> simp only [openFrom, walk, nothing, leaf] at opened <;>
          simp at opened
    | link target =>
      right
      cases links with
      | zero =>
        simp only [openFrom, walk, present] at opened
        cases opened
      | succ left =>
        simp only [openFrom, walk, present] at opened
        exact ⟨target, left, rfl, rfl, opened⟩

theorem in_area_iff {location : Location} :
    (startsWith location root || trusted.any (startsWith location)) = true ↔
      InArea root trusted location := by
  rw [Bool.or_eq_true, any_eq_true]
  rfl

theorem resolve_allowed_iff {path : String} :
    resolveAllowed tree links root trusted path = .ok resolved ↔
      resolveExisting tree links (joinJailed root (parsePath path)) = .ok resolved ∧
        InArea root trusted resolved := by
  unfold resolveAllowed
  rw [Fallible.bind_ok]
  constructor
  · rintro ⟨location, found, checked⟩
    split at checked
    · rename_i inside
      cases checked
      exact ⟨found, in_area_iff.mp inside⟩
    · cases checked
  · rintro ⟨found, inside⟩
    exact ⟨resolved, found, if_pos (in_area_iff.mpr inside)⟩

theorem op_fs_resolve_iff {platform : Option PlatformGrant} {moduleName : Option String}
    {path : String} :
    opFsResolve tree links (some ⟨root⟩) platform moduleName path = .ok resolved ↔
      resolveExisting tree links (joinJailed root (parsePath path)) = .ok resolved ∧
        InArea root (trustedFor platform moduleName) resolved := by
  have granted : opFsResolve tree links (some ⟨root⟩) platform moduleName path =
      resolveExisting tree links (joinJailed root (parsePath path)) >>= fun found =>
        if !startsWith found root && !(trustedFor platform moduleName).any (startsWith found) then
          .error (.escapesRoot path)
        else .ok found := rfl
  rw [granted, Fallible.bind_ok]
  constructor
  · rintro ⟨location, found, checked⟩
    split at checked
    · cases checked
    · rename_i inside
      cases checked
      rw [← Bool.not_or, Bool.not_eq_true', Bool.not_eq_false] at inside
      exact ⟨found, in_area_iff.mp inside⟩
  · rintro ⟨found, inside⟩
    refine ⟨resolved, found, if_neg ?_⟩
    rw [← Bool.not_or, in_area_iff.mpr inside]
    nofun

variable {components : List Component}

theorem resolve_existing_iff :
    resolveExisting tree links components = .ok resolved ↔
      ∃ base names, Nearest tree links components.reverse base names ∧
        resolved = base ++ names := by
  rw [resolveExisting, resolve_up_iff]
  simp only [append_nil]

theorem fold_descending (down : .parent ∉ components) :
    (fold base components).map Component.normal =
      base.map Component.normal ++ solid components := by
  induction components generalizing base with
  | nil => simp [fold, solid]
  | cons component rest ih =>
    have below : .parent ∉ rest := fun mem => down (mem_cons_of_mem _ mem)
    cases component with
    | current => exact ih below
    | parent => exact absurd mem_cons_self down
    | normal name =>
      have deeper : (fold (base ++ [name]) rest).map Component.normal =
          (base ++ [name]).map Component.normal ++ solid rest := ih below
      rw [fold, deeper, map_append, append_assoc]
      rfl

theorem fold_linkless {location : Location}
    (found : openFrom tree false 0 base components = some location) :
    fold base components = location := by
  induction components generalizing base with
  | nil => exact Option.some.inj found
  | cons component rest ih =>
    cases component with
    | current | parent =>
      obtain ⟨_, found⟩ := Option.ite_none_right_eq_some.mp found
      exact ih found
    | normal name =>
      simp only [openFrom, walk] at found
      cases present : find tree (base ++ [name]) with
      | none =>
        rw [present] at found
        cases found
      | some node =>
        rw [present] at found
        cases node with
        | link target => cases found
        | file | directory entries => exact ih found

theorem canonicalize_of_denotes {path : Path} {location : Location}
    (denotes : Denotes tree links root path location) :
    canonicalize tree links (joinJailed root path) = some location := by
  cases denotes with
  | absolute absolute found =>
    rw [joinJailed, if_pos absolute]
    exact found
  | folded relative found =>
    rw [joinJailed, relative]
    exact found
  | descending relative real down found =>
    rw [joinJailed, relative, if_neg Bool.false_ne_true, fold_descending down, canonicalize,
      open_location links real]
    exact open_lighter (lighter_solid _) found
  | linkless relative real found =>
    rw [joinJailed, relative, fold_linkless found]
    exact canonicalize_real links (open_real real found)

/-- The jail decides on the location that will be touched, unless the part of the path that
does not resolve begins with a link that leads out of the area. -/
theorem jail_decides_iff (tree : Tree) (links : Nat) (root : Location)
    (platform : Option PlatformGrant) (moduleName : Option String) (path : String) :
    Decides tree links root platform moduleName path ↔
      ¬ Stray tree links root (trustedFor platform moduleName) path := by
  constructor
  · rintro decides ⟨base, name, names, target, creating, left, location, nearest, inside, linked,
      rfl, leads, out⟩
    have found := resolve_existing_iff.mpr ⟨base, _, nearest, rfl⟩
    have resolved := op_fs_resolve_iff.mpr ⟨found, inside⟩
    apply out
    apply decides.confined _ resolved creating
    rw [map_append, open_location _ (nearest_real nearest), map_cons]
    simp only [openFrom, walk, linked]
    exact leads
  · intro straight
    constructor
    · intro resolved accepted creating location opened
      obtain ⟨found, inside⟩ := op_fs_resolve_iff.mp accepted
      obtain ⟨base, names, nearest, rfl⟩ := resolve_existing_iff.mp found
      rw [map_append, open_location _ (nearest_real nearest)] at opened
      cases names with
      | nil =>
        rw [map_nil, open_nil] at opened
        cases opened
        rwa [append_nil] at inside
      | cons name names =>
        rcases open_after_nearest nearest opened with rfl | ⟨target, left, linked, budget, leads⟩
        · exact inside
        · by_contra out
          exact straight ⟨base, name, names, target, creating, left, location, nearest, inside,
            linked, budget, leads, out⟩
    · intro location denotes inside
      have found := canonicalize_of_denotes denotes
      refine ⟨location, op_fs_resolve_iff.mpr ⟨resolve_existing_iff.mpr ?_, inside⟩⟩
      refine ⟨location, [], .here ?_, (append_nil _).symm⟩
      rw [canonicalAncestor, reverse_reverse]
      exact found
    · intro resolved
      rw [op_fs_resolve_iff, resolve_allowed_iff]

/-- In the root stands a link to a file outside that does not exist yet. The jail returns the
link, and opening it to create a file creates the one outside. -/
theorem jail_creates_outside :
    ¬ Decides [("jail", .directory [("new", .link ⟨true, [.normal "out", .normal "new"]⟩)]),
      ("out", .directory [])] 40 ["jail"] none none "new" := by
  intro decides
  have accepted : resolveExisting [("jail",
      .directory [("new", .link ⟨true, [.normal "out", .normal "new"]⟩)]), ("out", .directory [])]
      40 (joinJailed ["jail"] (parsePath "new")) = .ok ["jail", "new"] :=
    resolve_existing_iff.mpr ⟨["jail"], ["new"], .above rfl rfl (.here rfl), rfl⟩
  have confined := decides.confined _ (op_fs_resolve_iff.mpr ⟨accepted, in_area_iff.mp rfl⟩)
    true ["out", "new"] rfl
  cases in_area_iff.mpr confined

end OnlyJs.Bridge.Fs
