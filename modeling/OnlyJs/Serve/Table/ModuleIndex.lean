import OnlyJs.Serve.Routes

/-!
# The module index

Which directories of a source tree are module roots, and which module a file belongs to.
The name of a module is its identity, its prefix is where its routes begin.
-/

namespace OnlyJs.Serve

def below (dir : FilePath) (file : FilePath) : Option FilePath :=
  if dir.isPrefixOf file then some (file.drop dir.length) else none

def parentOf (file : FilePath) : FilePath := file.dropLast

def pathText (path : FilePath) : List Char := ['/'].intercalate path

def display (path : FilePath) : String := String.ofList (pathText path)

structure ModuleEntry where
  root : FilePath
  version : String
  urlPrefix : List Char
deriving DecidableEq

structure ModuleIndex where
  base : FilePath
  /-- The modules in the order of their names. -/
  modules : List (String × ModuleEntry)
  /-- Where the directory of a file really is. -/
  canonical : FilePath → FilePath

namespace ModuleIndex

def get (index : ModuleIndex) (name : String) : Option ModuleEntry := index.modules.lookup name

def inside (index : ModuleIndex) (entry : ModuleEntry) (file : FilePath) : Option FilePath :=
  (below entry.root file).orElse fun _ => below entry.root (index.canonical file)

def locate (index : ModuleIndex) (file : FilePath) : Option (String × ModuleEntry × FilePath) :=
  index.modules.foldl
    (fun best candidate =>
      match index.inside candidate.2 file with
      | none => best
      | some rel =>
        match best with
        | none => some (candidate.1, candidate.2, rel)
        | some chosen =>
          if chosen.2.1.root.length < candidate.2.root.length then
            some (candidate.1, candidate.2, rel)
          else some chosen)
    none

end ModuleIndex

end OnlyJs.Serve
