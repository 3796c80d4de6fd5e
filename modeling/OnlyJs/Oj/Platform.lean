import Mathlib.Data.List.Nodup
import OnlyJs.Lib.StepSystem

/-!
# Platform modules

Platform privileges are granted to modules by name when the server starts. A start finds
each of them in the tree that is mounted at the platform root; a reload keeps the names
that were granted and looks at the modules of the generation before it. Module names are
unique over all trees of a generation.
-/

namespace OnlyJs.Oj.Platform

open Lib

set_option autoImplicit false

abbrev Path := List String

def display (path : Path) : String := "/" ++ "/".intercalate path

structure Manifest where
  name : String
deriving DecidableEq

structure Disk where
  canonicalize : Path → Except String Path
  readDir : Path → Except String (Option (List String))
  isDir : Path → Bool
  isFile : Path → Bool
  parseOne : Path → Except String Manifest
  loadLock : Path → Except String (List (String × String))
  schema : String → Path → Except String Unit
  canonical : ∀ path real, canonicalize path = .ok real → canonicalize real = .ok real

structure ModuleIndex where
  base : Path
  modules : List (String × Path)
  inside : ∀ entry ∈ modules, base <+: entry.2

def covers (disk : Disk) (index : Option ModuleIndex) (dir : Path) : Option ModuleIndex :=
  index.filter fun index =>
    (match disk.canonicalize dir with
      | .ok real => real
      | .error _ => dir) = index.base

def loadEach (disk : Disk) (dir : Path) (skip : Option String) :
    List String → Except String (List Manifest)
  | [] => .ok []
  | dirname :: rest =>
    let path := dir ++ [dirname]
    if !disk.isDir path then loadEach disk dir skip rest
    else if some dirname = skip then loadEach disk dir skip rest
    else if !disk.isFile (path ++ ["manifest.yaml"]) then
      .error s!"module '{dirname}' missing manifest.yaml"
    else
      (disk.parseOne (path ++ ["manifest.yaml"])).bind fun manifest =>
        if manifest.name ≠ dirname then
          .error (s!"manifest name {manifest.name.quote} != directory name {dirname.quote} " ++
            s!"(in {display path})")
        else (loadEach disk dir skip rest).map fun rest => manifest :: rest

/-- The first level of a source tree, where the index does not cover it. -/
def loadModules (disk : Disk) (dir : Path) (skip : Option String) :
    Except String (List Manifest) :=
  (disk.readDir dir).bind fun listing => loadEach disk dir skip (listing.getD [])

def lockedModules (disk : Disk) (dir : Path) :
    List (String × String) → Except String (List (String × Path))
  | [] => .ok []
  | (name, version) :: rest =>
    let path := dir ++ [s!"{name}-{version}"]
    if !disk.isDir path then
      .error s!"lock points to missing version dir: {display path}（先 oj build）"
    else (lockedModules disk dir rest).map fun rest => (name, path) :: rest

def discover (disk : Disk) (index : Option ModuleIndex) (dir : Path) (ts : Bool) :
    Except String (List (String × Path)) :=
  match covers disk index dir with
  | some index => .ok index.modules
  | none =>
    if ts then
      (loadModules disk dir (some "tasks")).map fun manifests =>
        (manifests.map fun manifest => (manifest.name, dir ++ [manifest.name])).mergeSort
          fun first second => first.1 ≤ second.1
    else
      (disk.loadLock (dir ++ ["manifests.yaml"])).bind (lockedModules disk dir)

def declare (disk : Disk) (owners : List (String × Path)) :
    List (String × Path) → Except String (List (String × Path))
  | [] => .ok owners
  | (name, dir) :: rest =>
    match owners.lookup name with
    | some previous =>
      .error (s!"module {name.quote} declared in multiple places ({display previous} and " ++
        s!"{display dir}) — module names must be unique across api mounts")
    | none =>
      (disk.parseOne (dir ++ ["manifest.yaml"])).bind fun _ =>
        (disk.schema name dir).bind fun _ => declare disk (owners ++ [(name, dir)]) rest

/-- `build_schema_and_modules`: the owners of the module names. -/
def buildModules (disk : Disk) (index : Option ModuleIndex) (owners : List (String × Path)) :
    List (Path × Bool) → Except String (List (String × Path))
  | [] => .ok owners
  | (dir, ts) :: rest =>
    (discover disk index dir ts).bind fun found =>
      (declare disk owners found).bind fun owners => buildModules disk index owners rest

def moduleMap (owners : List (String × Path)) : List (Path × String) :=
  owners.foldl (fun modules entry =>
    (modules.filter fun other => other.1 ≠ entry.2) ++ [(entry.2, entry.1)]) []

def names (modules : List (Path × String)) : List String := modules.map Prod.snd

/-- `root` is the path that the configuration gives, seen from its directory. -/
structure PlatformConfig where
  modules : List String
  root : Option Path
  trusted : List Path

def platformNames (disk : Disk) (index : Option ModuleIndex) (trees : List (Path × Bool))
    (platform : PlatformConfig) : Except String (Option (List String)) :=
  if platform.modules = [] then .ok none
  else
    match platform.root with
    | none =>
      .error ("platform.modules is set but platform.root is missing — " ++
        "privileged modules need a controlled mount root")
    | some raw =>
      match disk.canonicalize raw with
      | .error error => .error s!"platform.root canonicalize failed ({display raw}): {error}"
      | .ok root =>
        match trees.find? fun tree =>
          tree.1 ≠ root && (root.isPrefixOf tree.1 || tree.1.isPrefixOf root) with
        | some tree =>
          .error (s!"platform.root ({display root}) must not overlap another api mount " ++
            s!"({display tree.1}) — the anti-squatting tripwire would be silently disabled")
        | none =>
          match trees.find? fun tree => tree.1 = root with
          | none =>
            .error (s!"platform.root ({display root}) must be mounted as an api mount " ++
              "to give platform modules routes and ownership")
          | some tree =>
            (discover disk index tree.1 tree.2).map fun found => some (found.map Prod.fst)

def trust (disk : Disk) : List Path → Except String Unit
  | [] => .ok ()
  | path :: rest =>
    match disk.canonicalize path with
    | .error error =>
      .error s!"platform.trusted_paths canonicalize failed ({display path}): {error}"
    | .ok _ => trust disk rest

/-- `build_platform_grants`: the names that are granted. -/
def buildPlatformGrants (disk : Disk) (index : Option ModuleIndex) (trees : List (Path × Bool))
    (installed : List String) : Option PlatformConfig → Except String (Option (List String))
  | none => .ok none
  | some platform =>
    (platformNames disk index trees platform).bind fun controlled =>
      match platform.modules.find? fun name =>
        installed.contains name && !(controlled.any fun names => names.contains name) with
      | some name =>
        .error (s!"platform module '{name}' must not come from an install tree " ++
          "(deploy it in a platform-controlled directory under platform.root)")
      | none =>
        match platform.modules.find? fun name =>
          controlled.any fun names => !names.contains name with
        | some name =>
          .error (s!"platform module '{name}' is not deployed under platform.root " ++
            "(dangling privilege: no module implementation)")
        | none => (trust disk platform.trusted).map fun _ => some platform.modules

/-- `check_platform_squatting`: a granted name that the generation before did not have. -/
def checkPlatformSquatting (granted : Option (List String)) (before after : List (Path × String)) :
    Except String Unit :=
  match granted with
  | none => .ok ()
  | some granted =>
    match (names after).find? fun name =>
      granted.contains name && !(names before).contains name with
    | some name =>
      .error (s!"platform module '{name}' must not be hot-installed " ++
        "(deploy it in a platform-controlled directory under platform.root, then restart)")
    | none => .ok ()

/-- What an assembly is given; `others` is how its other steps end. -/
structure Input where
  disk : Disk
  index : Option ModuleIndex
  trees : List (Path × Bool)
  platform : Option PlatformConfig
  others : Except String Unit

structure Server where
  granted : Option (List String)
  modules : List (Path × String)
  input : Input

def start (input : Input) : Except String Server :=
  (buildModules input.disk input.index [] input.trees).bind fun owners =>
    (buildPlatformGrants input.disk input.index input.trees (names (moduleMap owners))
      input.platform).bind fun granted =>
        input.others.map fun _ => { granted, modules := moduleMap owners, input }

def reload (server : Server) (input : Input) : Except String Server :=
  (buildModules input.disk input.index [] input.trees).bind fun owners =>
    (checkPlatformSquatting server.granted server.modules (moduleMap owners)).bind fun _ =>
      input.others.map fun _ => { server with modules := moduleMap owners, input }

inductive Label where
  | start (input : Input)
  | reload (input : Input)

def step (server : Option Server) : Label → Option (Option Server)
  | .start input =>
    match server with
    | none => some (start input).toOption
    | some _ => none
  | .reload input =>
    server.map fun server =>
      match reload server input with
      | .ok next => some next
      | .error _ => some server

def system : StepSystem.System (Option Server) Label := ⟨none, step⟩

end OnlyJs.Oj.Platform
