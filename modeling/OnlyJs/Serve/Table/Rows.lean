import OnlyJs.Serve.Table.ModuleIndex
import OnlyJs.Bridge.Value
import OnlyJs.Lib.Association

/-!
# Building the route table

The table is built from the declarations of the module files in a source tree, or from
the rows that a build has written down. Either way a row is registered under its pattern:
the methods of one pattern are kept together, a method declared twice is a conflict, and a
pattern that the matcher refuses is dropped.
-/

namespace OnlyJs.Serve

open Bridge Lib

def methodNames : List String := ["get", "post", "put", "del", "patch", "head", "options"]

def chainSegments (chain : String) : List (List Char) := chain.toList.splitOn '.'

def methodOf (chain : String) : String := String.ofList ((chainSegments chain).getLastD [])

def legalSegment (segment : List Char) : Bool :=
  !segment.isEmpty && !segment.contains '/' && segment != "__proto__".toList &&
    segment != "constructor".toList && segment != "prototype".toList

def legalHandlerChain (chain : String) : Bool :=
  !chain.isEmpty && (chainSegments chain).all legalSegment

structure RouteRow where
  method : String
  pattern : List Char
  file : Nat
  handler : String
  schema : Option Value

/-- What the introspection of a file says about one handler. -/
structure Declaration where
  chain : String
  route : Option (List Char)
  schema : Option Value

structure RouteEntry where
  method : String
  pattern : List Char
  file : List Char
  handler : Option String
  schema : Option Value

structure Node where
  pattern : List Char
  methods : List (String × Entry)
deriving DecidableEq

structure Matcher where
  insert : List (List Char) → List Char → Except String Unit
  matchAt : List (List Char) → List Char → Option (Nat × Params)

structure Table where
  nodes : List Node
  replaced : List (Nat × String)
  rows : List RouteRow
  files : List FilePath
  root : FilePath
  release : Bool
  modules : Option ModuleIndex

namespace Table

def new (root : FilePath) (release : Bool) (modules : Option ModuleIndex) : Table where
  nodes := []
  replaced := []
  rows := []
  files := []
  root := root
  release := release
  modules := modules

def patterns (table : Table) : List (List Char) := table.nodes.map Node.pattern

def filePath (table : Table) (id : Nat) : FilePath := table.files.getD id []

def relFile (table : Table) (id : Nat) : FilePath :=
  (below table.root (table.filePath id)).getD (table.filePath id)

def intern (table : Table) (file : FilePath) : Nat × Table :=
  match table.files.findIdx? (· = file) with
  | some id => (id, table)
  | none => (table.files.length, { table with files := table.files ++ [file] })

def setMethod (node : Node) (method : String) (entry : Entry) : Node :=
  { node with methods := Association.put node.methods method entry }

def addRow (table : Table) (row : RouteRow) : Table := { table with rows := table.rows ++ [row] }

def registerKnown (table : Table) (slot : Nat) (node : Node) (row : RouteRow) (file : FilePath) :
    Table × List String :=
  let shown := String.ofList row.pattern
  match node.methods.lookup row.method with
  | some (.file first _) =>
    let message := "route conflict: " ++ row.method ++ " " ++ shown ++ " declared in " ++
      display (table.filePath first) ++ " and " ++ display file
    let conflicting := setMethod node row.method (.conflict message)
    ({ table with nodes := table.nodes.set slot conflicting }, [message])
  | some (.conflict _) =>
    (table, ["route conflict: " ++ row.method ++ " " ++ shown ++
      " declared in more than two files (also " ++ display file ++ ")"])
  | none =>
    let joined := setMethod node row.method (.file row.file row.handler)
    (({ table with nodes := table.nodes.set slot joined }).addRow row, [])

def registerNew (matcher : Matcher) (table : Table) (row : RouteRow) (file : FilePath) :
    Table × List String :=
  match matcher.insert table.patterns row.pattern with
  | .ok () =>
    let node : Node := {
      pattern := row.pattern
      methods := [(row.method, .file row.file row.handler)] }
    (({ table with nodes := table.nodes ++ [node] }).addRow row, [])
  | .error e =>
    (table, ["invalid route " ++ row.method ++ " " ++ String.ofList row.pattern ++ " from " ++
      display file ++ ": " ++ e])

/-- The same pattern is found by its text: matching it as a path would take `/x/me` for an
argument of `/x/{pk}`. -/
def register (matcher : Matcher) (table : Table) (method : String) (pattern : List Char)
    (file : FilePath) (schema : Option Value) (handler : String) : Table × List String :=
  let (id, table) := table.intern file
  let row : RouteRow := {
    method
    pattern
    file := id
    handler
    schema }
  match table.nodes.findIdx? (·.pattern = pattern) with
  | some slot =>
    match table.nodes[slot]? with
    | some node => table.registerKnown slot node row file
    | none => (table, [])
  | none => table.registerNew matcher row file

def legalFile (file : List Char) : Bool :=
  !file.isEmpty && (file.splitOn '/').all isProper

def legalPattern (pattern : List Char) : Bool :=
  pattern.head? = some '/' && !pattern.tails.any fun rest => ['/', '/'].isPrefixOf rest

def chainOf (entry : RouteEntry) : String := entry.handler.getD entry.method

def checkEntry (entry : RouteEntry) : Except String Unit :=
  if !methodNames.contains entry.method then
    .error ("routes.js: unknown method " ++ entry.method ++ " " ++ String.ofList entry.pattern)
  else if !legalFile entry.file then
    .error ("routes.js: illegal file path " ++ String.ofList entry.file)
  else if !legalPattern entry.pattern then
    .error ("routes.js: illegal pattern " ++ String.ofList entry.pattern)
  else if !legalHandlerChain (chainOf entry) then
    .error ("routes.js: illegal handler chain " ++ chainOf entry ++ " (method " ++ entry.method ++
      ", pattern " ++ String.ofList entry.pattern ++ ")")
  else .ok ()

def loadEntry (matcher : Matcher) (root : FilePath) (table : Table) (entry : RouteEntry) :
    Table × List String :=
  match checkEntry entry with
  | .error e => (table, [e])
  | .ok () =>
    table.register matcher entry.method entry.pattern (root ++ entry.file.splitOn '/')
      entry.schema (chainOf entry)

def fromEntries (matcher : Matcher) (root : FilePath) (entries : List RouteEntry) :
    Table × List String :=
  entries.foldl
    (fun loaded entry =>
      let (table, failures) := loadEntry matcher root loaded.1 entry
      (table, loaded.2 ++ failures))
    (new root true none, [])

def joinUrl (start rel : List Char) : List Char :=
  '/' :: ['/'].intercalate (splitSegments start ++ splitSegments rel)

def slashed (text : List Char) : List Char := text.map fun c => if c = '\x5c' then '/' else c

def plainRel (root file : FilePath) : List Char :=
  slashed (pathText ((below root (parentOf file)).getD []))

/-- Where the routes of a file begin: in a module of the index at the prefix of that module. -/
def mirrorRel (root file : FilePath) (index : Option ModuleIndex) : List Char :=
  match index.bind fun index => index.locate file with
  | none => plainRel root file
  | some (_, entry, rel) =>
    let inner := slashed (pathText (parentOf rel))
    if inner.isEmpty then entry.urlPrefix else entry.urlPrefix ++ '/' :: inner

def segmentPatterns (rel : List Char) : List Char :=
  ['/'].intercalate ((rel.splitOn '/').map fsSegToPattern)

def declaredRoute (declaration : Declaration) : Option (List Char) :=
  declaration.route.filter fun route => !route.isEmpty

def patternOf (start mirrored : List Char) (declaration : Declaration) : List Char :=
  match declaredRoute declaration with
  | none => mirrored
  | some route =>
    if route.head? = some '/' then joinUrl start route else joinUrl mirrored route

def routeWarning (method : String) (file : FilePath) (declaration : Declaration) :
    List String :=
  match declaredRoute declaration with
  | some route =>
    if (route.splitOn '/').any looksLikeUnderscoreParam then
      ["warning: " ++ method ++ " " ++ display file ++ ": .route value " ++
        String.ofList route ++ " looks like `_name_` fs-param syntax; in .route it stays a " ++
        "literal segment (use \x7bname\x7d for params)"]
    else []
  | none => []

def markReplaced (table : Table) (file : FilePath) (method : String) (declaration : Declaration) :
    Table :=
  if (declaredRoute declaration).isSome then
    let (id, table) := table.intern file
    { table with replaced := table.replaced ++ [(id, method)] }
  else table

def declare (matcher : Matcher) (start mirrored : List Char) (file : FilePath) (table : Table)
    (declaration : Declaration) : Table × List String :=
  let method := methodOf declaration.chain
  if !methodNames.contains method then (table, [])
  else
    let marked := table.markReplaced file method declaration
    let (table, failures) :=
      marked.register matcher method (patternOf start mirrored declaration) file
        declaration.schema declaration.chain
    (table, routeWarning method file declaration ++ failures)

def declareAll (matcher : Matcher) (start mirrored : List Char) (file : FilePath)
    (table : Table) (declarations : List Declaration) : Table × List String :=
  declarations.foldl
    (fun built declaration =>
      let (table, failures) := declare matcher start mirrored file built.1 declaration
      (table, built.2 ++ failures))
    (table, [])

def buildFile (matcher : Matcher) (mount : List Char) (root : FilePath)
    (index : Option ModuleIndex) (introspect : FilePath → Except String (List Declaration))
    (table : Table) (file : FilePath) : Table × List String :=
  match introspect file with
  | .error e => (table, [display file ++ ": " ++ e])
  | .ok declarations =>
    let start := trim mount
    let mirrored := joinUrl start (segmentPatterns (mirrorRel root file index))
    declareAll matcher start mirrored file table declarations

def build (matcher : Matcher) (mount : List Char) (root : FilePath) (index : Option ModuleIndex)
    (introspect : FilePath → Except String (List Declaration)) (files : List FilePath) :
    Table × List String :=
  files.foldl
    (fun built file =>
      let (table, failures) := buildFile matcher mount root index introspect built.1 file
      (table, built.2 ++ failures))
    (new root false index, [])

def served (table : Table) (matcher : Matcher) : RouteTable where
  matchAt := matcher.matchAt table.patterns
  nodes slot method := table.nodes[slot]?.bind fun node => node.methods.lookup method
  files := table.files
  replaced := table.replaced

end Table

end OnlyJs.Serve
