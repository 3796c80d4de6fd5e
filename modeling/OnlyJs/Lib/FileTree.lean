import Mathlib.Algebra.Order.Ring.Int
import Mathlib.Data.List.Basic

/-!
# File trees and path resolution

A finite tree of directories, regular files and symbolic links, and the resolution of a
path in it: a name leads into a directory, `..` leads out of one, `.` and a slash at the end
ask for one, and a link puts its target in front of what is left of the path. The number of
links a resolution may follow is limited, as a kernel limits it, so a loop fails. Locations
are names from the top.
-/

namespace OnlyJs.Lib.FileTree

open List Option

set_option autoImplicit false

inductive Component where
  | current
  | parent
  | normal (name : String)
deriving DecidableEq

structure Path where
  absolute : Bool
  components : List Component

inductive Node where
  | file
  | link (target : Path)
  | directory (entries : List (String × Node))

/-- The entries of the top directory. -/
abbrev Tree := List (String × Node)

abbrev Location := List String

def Node.isLink : Node → Bool
  | .link _ => true
  | _ => false

/-- The node a location names, without following links. -/
def Node.find : Node → Location → Option Node
  | node, [] => some node
  | .directory entries, name :: rest => (entries.lookup name).bind fun node => node.find rest
  | _, _ :: _ => none

def find (tree : Tree) (location : Location) : Option Node := (Node.directory tree).find location

def isDirectory (tree : Tree) (location : Location) : Bool :=
  match find tree location with
  | some (.directory _) => true
  | _ => false

section Resolution

variable (tree : Tree) (creating : Bool)

/-- Resolves components from a location; `follow` resolves what a link stands for. With
`creating` a missing last component is a new entry of its directory. -/
@[grind =]
def walk (follow : Location → List Component → Option Location) :
    Location → List Component → Option Location
  | current, [] => some current
  | current, .current :: rest =>
    if isDirectory tree current then walk follow current rest else none
  | current, .parent :: rest =>
    if isDirectory tree current then walk follow current.dropLast rest else none
  | current, .normal name :: rest =>
    match find tree (current ++ [name]) with
    | none =>
      if creating && rest.isEmpty && isDirectory tree current then some (current ++ [name])
      else none
    | some (.link target) =>
      follow (if target.absolute then [] else current) (target.components ++ rest)
    | some _ => walk follow (current ++ [name]) rest

/-- The location that opening a path leads to, following at most so many links. -/
@[grind =]
def openFrom : Nat → Location → List Component → Option Location
  | 0 => walk tree creating fun _ _ => none
  | links + 1 => walk tree creating (openFrom links)

end Resolution

/-- The canonical location of what exists. -/
def canonicalize (tree : Tree) (links : Nat) (components : List Component) : Option Location :=
  openFrom tree false links [] components

/-- The location is there and no link. -/
def Real (tree : Tree) (location : Location) : Prop :=
  ∃ node, find tree location = some node ∧ node.isLink = false

variable {tree : Tree} {creating : Bool} {links : Nat} {current location : Location}
  {components rest : List Component}

/-- What a path asks for without `.` and slashes at its end. -/
def solid (components : List Component) : List Component :=
  components.filter (· ≠ .current)

theorem node_find_append (node : Node) (front back : Location) :
    node.find (front ++ back) = (node.find front).bind fun inner => inner.find back := by
  induction front generalizing node with
  | nil => rfl
  | cons name front ih =>
    cases node with
    | file => rfl
    | link target => rfl
    | directory entries =>
      simp only [cons_append, Node.find]
      cases entries.lookup name with
      | none => rfl
      | some inner => exact ih inner

theorem find_append (tree : Tree) (front back : Location) :
    find tree (front ++ back) = (find tree front).bind fun inner => inner.find back :=
  node_find_append _ front back

/-- What contains an entry is a directory. -/
theorem directory_of_find {name : String} {back : Location} {node : Node}
    (present : find tree (current ++ name :: back) = some node) :
    ∃ entries, find tree current = some (.directory entries) := by
  rw [find_append] at present
  obtain ⟨holder, held, present⟩ := bind_eq_some_iff.mp present
  cases holder with
  | file | link target => cases present
  | directory entries => exact ⟨entries, held⟩

theorem real_top : Real tree [] := ⟨.directory tree, rfl, rfl⟩

theorem real_dropLast (real : Real tree current) : Real tree current.dropLast := by
  rcases eq_nil_or_concat current with rfl | ⟨front, name, rfl⟩
  · exact real
  · obtain ⟨node, present, _⟩ := real
    rw [concat_eq_append] at present ⊢
    rw [dropLast_concat]
    obtain ⟨entries, held⟩ := directory_of_find present
    exact ⟨.directory entries, held, rfl⟩

/-- Every location on the way to one that is there is there, and no link. -/
theorem real_front {back : Location} (real : Real tree (current ++ back)) : Real tree current := by
  cases back with
  | nil => rwa [append_nil] at real
  | cons name back =>
    obtain ⟨node, present, _⟩ := real
    obtain ⟨entries, held⟩ := directory_of_find present
    exact ⟨.directory entries, held, rfl⟩

section Walk

variable {follow : Location → List Component → Option Location}

theorem open_nil (links : Nat) : openFrom tree creating links current [] = some current := by
  cases links <;> rfl

theorem open_step (links : Nat) {name : String} (real : Real tree (current ++ [name])) :
    openFrom tree creating links current (.normal name :: rest) =
      openFrom tree creating links (current ++ [name]) rest := by
  obtain ⟨node, present, unlinked⟩ := real
  cases node with
  | link target => cases unlinked
  | file | directory entries => cases links <;> simp only [openFrom, walk, present]

/-- What resolves without creating is there and no link. -/
theorem walk_real
    (real_follow : ∀ origin list location, Real tree origin →
      follow origin list = some location → Real tree location)
    (real : Real tree current) (found : walk tree false follow current components = some location) :
    Real tree location := by
  induction components generalizing current with
  | nil =>
    cases found
    exact real
  | cons component rest ih =>
    cases component with
    | current =>
      obtain ⟨_, found⟩ := ite_none_right_eq_some.mp found
      exact ih real found
    | parent =>
      obtain ⟨_, found⟩ := ite_none_right_eq_some.mp found
      exact ih (real_dropLast real) found
    | normal name =>
      simp only [walk] at found
      cases present : find tree (current ++ [name]) with
      | none =>
        rw [present] at found
        cases found
      | some node =>
        rw [present] at found
        cases node with
        | file | directory entries => exact ih ⟨_, present, rfl⟩ found
        | link target =>
          refine real_follow _ _ _ ?_ found
          split
          · exact real_top
          · exact real

theorem open_real (real : Real tree current)
    (found : openFrom tree false links current components = some location) :
    Real tree location := by
  induction links generalizing current components location with
  | zero =>
    refine walk_real ?_ real found
    intro _ _ _ _ absurd
    cases absurd
  | succ links ih => exact walk_real (fun _ _ _ real found => ih real found) real found

/-- A location that is there resolves to itself, whatever comes after it. -/
theorem open_append (links : Nat) {front back : Location} (real : Real tree (front ++ back))
    (rest : List Component) :
    openFrom tree creating links front (back.map Component.normal ++ rest) =
      openFrom tree creating links (front ++ back) rest := by
  induction back generalizing front with
  | nil => rw [append_nil, map_nil, nil_append]
  | cons name back ih =>
    have split : front ++ name :: back = (front ++ [name]) ++ back := by simp
    rw [split] at real ⊢
    rw [← ih real, map_cons, cons_append, open_step links (real_front real)]

theorem open_location (links : Nat) (real : Real tree location) (rest : List Component) :
    openFrom tree creating links [] (location.map Component.normal ++ rest) =
      openFrom tree creating links location rest :=
  open_append links real rest

/-- A canonical location is its own canonical location. -/
theorem canonicalize_real (links : Nat) (real : Real tree location) :
    canonicalize tree links (location.map Component.normal) = some location := by
  have resolved : openFrom tree false links [] (location.map Component.normal ++ []) =
      openFrom tree false links location [] := open_location links real []
  rwa [append_nil, open_nil] at resolved

/-- A resolution goes on where it has arrived, if it does so with any number of links left. -/
theorem walk_continue {middle : Location}
    (continue_follow : ∀ origin list, follow origin list = some middle →
      follow origin (list ++ rest) = some location)
    (goes : walk tree false follow middle rest = some location)
    (found : walk tree false follow current components = some middle) :
    walk tree false follow current (components ++ rest) = some location := by
  induction components generalizing current with
  | nil =>
    cases found
    exact goes
  | cons component components ih =>
    cases component with
    | current | parent =>
      obtain ⟨directory, found⟩ := ite_none_right_eq_some.mp found
      exact (if_pos directory).trans (ih found)
    | normal name =>
      simp only [cons_append, walk] at found ⊢
      cases present : find tree (current ++ [name]) with
      | none =>
        rw [present] at found
        cases found
      | some node =>
        rw [present] at found
        cases node with
        | file | directory entries => exact ih found
        | link target =>
          dsimp only
          rw [← append_assoc]
          exact continue_follow _ _ found

theorem open_continue {middle : Location}
    (goes : ∀ left, openFrom tree false left middle rest = some location)
    (found : openFrom tree false links current components = some middle) :
    openFrom tree false links current (components ++ rest) = some location := by
  induction links generalizing current components with
  | zero =>
    refine walk_continue ?_ (goes 0) found
    intro _ _ absurd
    cases absurd
  | succ links ih => exact walk_continue (fun _ _ found => ih found) (goes (links + 1)) found

/-- The second path is the first without some of its `.` components. -/
inductive Lighter : List Component → List Component → Prop
  | nil : Lighter [] []
  | keep (component : Component) {first second : List Component} :
      Lighter first second → Lighter (component :: first) (component :: second)
  | drop {first second : List Component} : Lighter first second →
      Lighter (.current :: first) second

variable {first second : List Component}

theorem lighter_append (front : List Component) (lighter : Lighter first second) :
    Lighter (front ++ first) (front ++ second) := by
  induction front with
  | nil => exact lighter
  | cons component front ih => exact .keep component ih

theorem lighter_solid (components : List Component) : Lighter components (solid components) := by
  induction components with
  | nil => exact .nil
  | cons component rest ih =>
    cases component with
    | current => exact .drop ih
    | parent | normal name => exact .keep _ ih

/-- What resolves resolves without a `.` too: only fewer directories are asked for. -/
theorem walk_lighter
    (lighter_follow : ∀ origin first second, Lighter first second →
      follow origin first = some location → follow origin second = some location)
    (lighter : Lighter first second)
    (found : walk tree false follow current first = some location) :
    walk tree false follow current second = some location := by
  induction lighter generalizing current with
  | nil => exact found
  | drop lighter ih =>
    obtain ⟨_, found⟩ := ite_none_right_eq_some.mp found
    exact ih found
  | keep component lighter ih =>
    cases component with
    | current | parent =>
      obtain ⟨directory, found⟩ := ite_none_right_eq_some.mp found
      exact (if_pos directory).trans (ih found)
    | normal name =>
      simp only [walk] at found ⊢
      cases present : find tree (current ++ [name]) with
      | none =>
        rw [present] at found
        cases found
      | some node =>
        rw [present] at found
        cases node with
        | file | directory entries => exact ih found
        | link target => exact lighter_follow _ _ _ (lighter_append _ lighter) found

theorem open_lighter (lighter : Lighter first second)
    (found : openFrom tree false links current first = some location) :
    openFrom tree false links current second = some location := by
  induction links generalizing current first second with
  | zero =>
    refine walk_lighter ?_ lighter found
    intro _ _ _ _ absurd
    cases absurd
  | succ links ih => exact walk_lighter (fun _ _ _ thinner found => ih thinner found) lighter found

end Walk

end OnlyJs.Lib.FileTree
