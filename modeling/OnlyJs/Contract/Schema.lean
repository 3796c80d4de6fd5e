import OnlyJs.Bridge.Value
import OnlyJs.Lib.Fallible

/-!
# Input contracts and their audit

A handler may declare what it accepts, one schema for each of the three channels.
The audit runs when a contract is built: it refuses every keyword outside the
supported ones and most malformed values, and collects the patterns, which are
compiled ahead.
-/

namespace OnlyJs.Contract

open Bridge Lib

structure Host where
  compile : String → Except String Unit
  isMatch : String → String → Bool
  json : Value → String
  debug : String → String
  float : Int → String

abbrev Fields := List (String × Value)

def asObject : Value → Option Fields
  | .object fields => some fields
  | _ => none

def asArray : Value → Option (List Value)
  | .array items => some items
  | _ => none

def asBool : Value → Option Bool
  | .bool flag => some flag
  | _ => none

def isNull : Value → Bool
  | .null => true
  | _ => false

def isNumber : Value → Bool
  | .int _ | .double _ => true
  | _ => false

def supportedKeywords : List String :=
  ["type", "required", "properties", "items", "additionalProperties", "minimum", "maximum",
    "minLength", "maxLength", "pattern", "enum", "nullable", "minItems", "maxItems", "default"]

def scalarTypes : List String := ["string", "number", "integer", "boolean", "null"]

def allTypes : List String :=
  ["string", "number", "integer", "boolean", "object", "array", "null"]

def norm (host : Host) (name : String) : Except String String :=
  if name ∈ allTypes then .ok name
  else .error ("unknown type " ++ host.debug name ++ " (allowed: " ++
    String.intercalate ", " allTypes ++ ")")

/-- `type` is one name or a nonempty list of names. -/
def declaredTypes (host : Host) : Value → Except String (List String)
  | .string name => (norm host name).map fun known => [known]
  | .array [] => .error "type array must not be empty"
  | .array (item :: items) => (item :: items).mapM fun entry =>
    match entry.asStr with
    | some name => norm host name
    | none => .error "type array entries must be strings"
  | _ => .error "type must be a string or an array of strings"

def auditKeys (path : String) (obj : Fields) : Except String Unit :=
  obj.forM fun (key, _) =>
    Fallible.reject (key ∉ supportedKeywords) (path ++ ": unsupported keyword `" ++ key ++
      "` — supported subset is " ++ String.intercalate ", " supportedKeywords ++
      "; unsupported keywords FAIL FAST instead of being silently skipped " ++
      "(silent skip would make your declaration a lie)")

def auditType (host : Host) (path : String) (obj : Fields) : Except String Unit :=
  match obj.lookup "type" with
  | some declared => ((declaredTypes host declared).map fun _ => ()).mapError (path ++ ": " ++ ·)
  | none => .ok ()

def auditPattern (host : Host) (path : String) (obj : Fields) : Except String (List String) :=
  match obj.lookup "pattern" with
  | some (.string text) =>
    match host.compile text with
    | .ok () => .ok [text]
    | .error e => .error (path ++ ": pattern " ++ host.debug text ++
        " is not a valid Rust regex: " ++ e ++
        " (Rust regex != ECMA-262; lookahead/backreference are unsupported)")
  | some _ => .error (path ++ ": pattern must be a string")
  | none => .ok []

def auditEnum (path : String) (obj : Fields) : Except String Unit :=
  match obj.lookup "enum" with
  | some (.array (_ :: _)) => .ok ()
  | some _ => .error (path ++ ": enum must be a non-empty array")
  | none => .ok ()

def auditRequired (path : String) (obj : Fields) : Except String Unit :=
  match obj.lookup "required" with
  | some (.array entries) =>
    Fallible.reject (entries.any fun entry => entry.asStr.isNone)
      (path ++ ": required entries must be strings")
  | some _ => .error (path ++ ": required must be an array of strings")
  | none => .ok ()

def auditNumber (path : String) (obj : Fields) (key : String) : Except String Unit :=
  match obj.lookup key with
  | some value => Fallible.reject (!isNumber value) (path ++ ": " ++ key ++ " must be a number")
  | none => .ok ()

def auditNode (host : Host) (path : String) (obj : Fields) : Except String (List String) := do
  auditKeys path obj
  auditType host path obj
  let pats ← auditPattern host path obj
  auditEnum path obj
  auditRequired path obj
  ["minLength", "maxLength", "minItems", "maxItems", "minimum", "maximum"].forM
    (auditNumber path obj)
  return pats

def auditName (path name : String) : Except String Unit :=
  ["__proto__", "constructor", "prototype"].forM fun bad =>
    Fallible.reject (name = bad) (path ++ ".properties." ++ name ++ ": `" ++ bad ++
      "` is not allowed as a property name " ++
      "(prototype-pollution guard: these names become keys in generated client code)")

mutual

def auditKeywords (host : Host) (path : String) (schema : Value) :
    Except String (List String) :=
  match schema with
  | .object obj => do
      let pats ← auditNode host path obj
      let inner ← auditProperties host path obj
      let items ← auditItems host path obj
      return pats ++ inner ++ items
  | _ => .error (path ++ ": schema must be an object")
termination_by structural schema

/-- `properties`, looked up among the fields of the schema. -/
def auditProperties (host : Host) (path : String) (obj : Fields) : Except String (List String) :=
  match obj with
  | [] => .ok []
  | entry :: rest =>
    if entry.1 = "properties" then auditPropertyMap host path entry
    else auditProperties host path rest
termination_by structural obj

def auditPropertyMap (host : Host) (path : String) (entry : String × Value) :
    Except String (List String) :=
  match entry with
  | (_, .object props) => auditProps host path props
  | _ => .error (path ++ ": properties must be an object")
termination_by structural entry

def auditProps (host : Host) (path : String) (props : Fields) : Except String (List String) :=
  match props with
  | [] => .ok []
  | entry :: rest => do
      auditName path entry.1
      let first ← auditProp host path entry
      let others ← auditProps host path rest
      return first ++ others
termination_by structural props

def auditProp (host : Host) (path : String) (entry : String × Value) :
    Except String (List String) :=
  match entry with
  | (name, sub) => auditKeywords host (path ++ ".properties." ++ name) sub
termination_by structural entry

/-- `items`, looked up among the fields of the schema. -/
def auditItems (host : Host) (path : String) (obj : Fields) : Except String (List String) :=
  match obj with
  | [] => .ok []
  | entry :: rest =>
    if entry.1 = "items" then auditItem host path entry else auditItems host path rest
termination_by structural obj

def auditItem (host : Host) (path : String) (entry : String × Value) :
    Except String (List String) :=
  match entry with
  | (_, sub) => auditKeywords host (path ++ ".items") sub
termination_by structural entry

end

/-- A property of a string channel has scalar types only and no parts. -/
def auditScalarProp (host : Host) (chan : String) (entry : String × Value) :
    Except String (List String) := do
  let path := ".schema." ++ chan ++ ".properties." ++ entry.1
  let types ← match entry.2.get "type" with
    | some declared => (declaredTypes host declared).mapError (path ++ ": " ++ ·)
    | none => .ok []
  types.forM fun name =>
    Fallible.reject (name ∉ scalarTypes) (path ++ ": type \"" ++ name ++ "\" is unusable in `" ++
      chan ++ "` — " ++ chan ++ " values arrive as HashMap<String,String>, so only scalar types " ++
      "can ever be satisfied (declaring array/object here creates a contract that can never " ++
      "validate)")
  let pats ← auditKeywords host path entry.2
  Fallible.reject ((entry.2.get "properties").isSome || (entry.2.get "items").isSome)
    (path ++ ": nested properties/items are not allowed in `" ++ chan ++ "` (flat scalars only)")
  return pats

def auditScalarType (host : Host) (chan : String) (obj : Fields) : Except String Unit :=
  match obj.lookup "type" with
  | some declared => do
      let want ← (declaredTypes host declared).mapError (".schema." ++ chan ++ ": " ++ ·)
      Fallible.reject (want ≠ ["object"]) (".schema." ++ chan ++ ": type must be \"object\", got [" ++
        String.intercalate ", " (want.map host.debug) ++ "]")
  | none => .ok ()

def auditScalarProps (host : Host) (chan : String) (obj : Fields) :
    Except String (List String) :=
  match obj.lookup "properties" with
  | none => .ok []
  | some (.object props) => (props.mapM (auditScalarProp host chan)).map List.flatten
  | some _ => .error (".schema." ++ chan ++ ".properties: must be an object")

/-- `params` and `query` arrive as texts: the schema is an object of flat scalars. -/
def auditScalarChannel (host : Host) (schema : Option Value) (chan : String) :
    Except String (List String) :=
  match schema with
  | none => .ok []
  | some (.object obj) => do
      auditScalarType host chan obj
      let inner ← auditScalarProps host chan obj
      let pats ← auditKeywords host (".schema." ++ chan) (.object obj)
      return inner ++ pats
  | some _ => .error (".schema." ++ chan ++ ": must be an object")

def auditChannelOpt (host : Host) (schema : Option Value) (chan : String) :
    Except String (List String) :=
  match schema with
  | none => .ok []
  | some schema => auditKeywords host (".schema." ++ chan) schema

def audit (host : Host) (params query body : Option Value) : Except String (List String) := do
  let first ← auditScalarChannel host params "params"
  let second ← auditScalarChannel host query "query"
  let third ← auditChannelOpt host body "body"
  return first ++ second ++ third

/-- The contract of one exported function. It exists only if the audit passes;
`pats` are the patterns that the audit met. -/
structure InputContract (host : Host) where
  params : Option Value
  query : Option Value
  body : Option Value
  pats : List String
  audited : audit host params query body = .ok pats

def InputContract.tryNew (host : Host) (params query body : Option Value) :
    Except String (InputContract host) :=
  match accepted : audit host params query body with
  | .ok pats =>
    .ok {
      params
      query
      body
      pats
      audited := accepted }
  | .error e => .error e

end OnlyJs.Contract
