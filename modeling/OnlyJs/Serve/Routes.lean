import Mathlib.Data.Char
import Mathlib.Data.List.Lex
import OnlyJs.Serve.Paths

/-!
# Routes

The two ways a request path leads to a module file: the route table, and the dev
fallback that mirrors the directory tree below the api root. The pattern matcher
behind the table and the file system behind the fallback are given by their answers.
-/

namespace OnlyJs.Serve

abbrev Params := List (List Char × List Char)

def Params.set (params : Params) (name value : List Char) : Params :=
  params.filter (fun entry => entry.1 != name) ++ [(name, value)]

def decodeParam (raw : List Char) : Option (List Char) :=
  (decodeSegment raw).filter fun value =>
    let smuggled := !raw.contains '/' && value.contains '/'
    !isDots value && !hasForbidden value && !smuggled

/-- One parameter that does not decode, or decodes to more than its segment, refuses the
whole request. -/
def decodeParams (pairs : Params) : Option Params :=
  pairs.foldlM (fun params entry => (decodeParam entry.2).map (params.set entry.1)) []

abbrev FilePath := List (List Char)

structure FileTree where
  isFile : FilePath → Bool
  isDir : FilePath → Bool
  /-- The names in a directory in the order they are read; `none` when it cannot be read. -/
  readDir : FilePath → Option (List (List Char))
  /-- `none` when the path does not resolve. -/
  canonicalize : FilePath → Option FilePath

structure Routes where
  base : List Char
  tree : FileTree
  ts : Bool

def Routes.baseOf (start : List Char) : List Char := '/' :: trim start ++ ['/']

def Routes.new (start : List Char) (tree : FileTree) (ts : Bool) : Routes :=
  { base := Routes.baseOf start, tree, ts }

def looksLikeUnderscoreParam (segment : List Char) : Bool :=
  decide (2 < segment.length) && segment.head? == some '_' && segment.getLast? == some '_'

/-- `_name_` becomes `{name}`; any other segment stays what it is. -/
def fsSegToPattern (segment : List Char) : List Char :=
  let inner := (segment.drop 1).dropLast
  if looksLikeUnderscoreParam segment && inner.head? != some '_' && inner.getLast? != some '_' &&
      !inner.any (fun c => c = '\x7b' || c = '\x7d') then
    '\x7b' :: inner ++ ['\x7d']
  else segment

/-- The first parameter directory below `dir` in sorted order, with its parameter's name. -/
def underscoreChild (tree : FileTree) (dir : FilePath) : Option (List Char × FilePath) := do
  let names ← tree.readDir dir
  let candidates := names.filterMap fun name =>
    let pattern := fsSegToPattern name
    if tree.isDir (dir ++ [name]) && pattern != name then
      some ((pattern.dropWhile (· = '\x7b')).rdropWhile (· = '\x7d'), dir ++ [name])
    else none
  (candidates.mergeSort fun first second => decide (first.1 ≤ second.1)).head?

def Routes.api (routes : Routes) : List Char :=
  if routes.ts then "api.ts".toList else "api.js".toList

/-- The literal directory first, then the first parameter directory; what a failed attempt
collected is dropped. -/
def Routes.descend (routes : Routes) :
    FilePath → List (List Char) → Params → Option (FilePath × Params)
  | dir, [], raw =>
    let file := dir ++ [routes.api]
    if routes.tree.isFile file then some (file, raw) else none
  | dir, segment :: rest, raw =>
    let literal := dir ++ [segment]
    let found := if routes.tree.isDir literal then routes.descend literal rest raw else none
    match found with
    | some answer => some answer
    | none =>
      (underscoreChild routes.tree dir).bind fun child =>
        routes.descend child.2 rest (raw ++ [(child.1, segment)])

def isProper (segment : List Char) : Bool :=
  !segment.isEmpty && !isDots segment && !hasForbidden segment

def Routes.resolve (routes : Routes) (httpPath : List Char) : Option (FilePath × Params) := do
  let below ← stripPrefix routes.base httpPath
  let rel := trim below
  if rel.isEmpty then none
  else
    let segments := rel.splitOn '/'
    if !segments.all isProper then none
    else
      let file := segments ++ [routes.api]
      if routes.tree.isFile file then some (file, [])
      else
        let (file, raw) ← routes.descend [] segments []
        (decodeParams raw).map fun params => (file, params)

def methodName (verb : String) : Option String :=
  match verb with
  | "GET" => some "get"
  | "POST" => some "post"
  | "PUT" => some "put"
  | "DELETE" => some "del"
  | "PATCH" => some "patch"
  | "HEAD" => some "head"
  | "OPTIONS" => some "options"
  | _ => none

inductive Entry where
  | file (id : Nat) (handler : String)
  | conflict (message : String)
deriving DecidableEq

inductive Lookup where
  | hit (file : FilePath) (params : Params) (handler : String)
  | conflict (message : String)
  | methodNotAllowed
  | notFound
deriving DecidableEq

structure RouteTable where
  /-- The pattern matcher: the node a path leads to, with the raw parameters. -/
  matchAt : List Char → Option (Nat × Params)
  /-- The methods of a node. -/
  nodes : Nat → String → Option Entry
  files : List FilePath
  /-- The methods of a file whose mirrored path a declared route replaces. -/
  replaced : List (Nat × String)

def RouteTable.lookup (table : RouteTable) (path : List Char) (verb : String) : Lookup :=
  match table.matchAt path with
  | none => .notFound
  | some (slot, raw) =>
    match methodName verb with
    | none => .methodNotAllowed
    | some name =>
      match table.nodes slot name with
      | some (.file id handler) =>
        match table.files[id]?, decodeParams raw with
        | some file, some params => .hit file params handler
        | _, _ => .notFound
      | some (.conflict message) => .conflict message
      | none => .methodNotAllowed

def RouteTable.isReplaced (table : RouteTable) (file : FilePath) (method : String) : Bool :=
  match table.files.findIdx? (· = file) with
  | some id => table.replaced.contains (id, method)
  | none => false

theorem resolve_below {routes : Routes} {path : List Char} {found : FilePath × Params}
    (served : routes.resolve path = some found) :
    ∃ below, path = routes.base ++ below ∧ trim below ≠ [] ∧
      ∀ segment ∈ (trim below).splitOn '/', isProper segment = true := by
  obtain ⟨below, stripped, served⟩ := Option.bind_eq_some_iff.mp served
  refine ⟨below, stripPrefix_eq_some.mp stripped, ?_⟩
  dsimp only at served
  split at served
  · cases served
  · rename_i nonempty
    split at served
    · cases served
    · rename_i proper
      rw [Bool.not_eq_true', Bool.not_eq_false, List.all_eq_true] at proper
      exact ⟨fun empty => nonempty (by rw [empty]; rfl), proper⟩

end OnlyJs.Serve
