import OnlyJs.Contract.Schema
import OnlyJs.Lib.Association
import OnlyJs.Serve.Table.ModuleIndex

/-!
# The registry of input contracts

The contracts in force, one for each handler of a file. The schema that a row declares is
audited as a whole; of its channels the registry keeps those that a request is checked
against.
-/

namespace OnlyJs.Contract

open Bridge Lib Serve

variable {host : Host}

def schemaChannels : List String := ["params", "query", "body", "response"]

def auditChannels (schema : Value) : Except String Fields :=
  match schema with
  | .object fields =>
    match fields.find? fun field => !schemaChannels.contains field.1 with
    | none => .ok fields
    | some field =>
      .error (".schema: unsupported channel `" ++ field.1 ++ "` — allowed channels are " ++
        String.intercalate ", " schemaChannels ++
        "; an unknown channel would be silently ignored at runtime, so it FAILS FAST here " ++
        "instead (a declaration that does nothing is a lie)")
  | _ => .error ".schema: must be an object"

def auditResponse (host : Host) (schema : Option Value) : Except String (List String) :=
  match schema with
  | none => .ok []
  | some response => auditKeywords host ".schema.response" response

def auditSchema (host : Host) (schema : Value) : Except String Unit := do
  let _ ← auditChannels schema
  let _ ← audit host (schema.get "params") (schema.get "query") (schema.get "body")
  let _ ← auditResponse host (schema.get "response")
  return ()

def contractOf (host : Host) (schema : Value) : Except String (InputContract host) :=
  InputContract.tryNew host (schema.get "params") (schema.get "query") (schema.get "body")

structure InputContractRegistry (host : Host) where
  map : List ((FilePath × String) × InputContract host)
  /-- The patterns compiled so far. -/
  patterns : List String

namespace InputContractRegistry

def new : InputContractRegistry host where
  map := []
  patterns := []

def get (registry : InputContractRegistry host) (file : FilePath) (method : String) :
    Option (InputContract host) :=
  registry.map.lookup (file, method)

def isEmpty (registry : InputContractRegistry host) : Bool := registry.map.isEmpty

def put (registry : InputContractRegistry host) (file : FilePath) (method : String)
    (contract : InputContract host) : InputContractRegistry host where
  map := Association.put registry.map (file, method) contract
  patterns := registry.patterns ++ contract.pats.filter fun text => !registry.patterns.contains text

def insert (registry : InputContractRegistry host) (file : FilePath) (method : String)
    (contract : InputContract host) : Except String (InputContractRegistry host) :=
  match InputContract.tryNew host contract.params contract.query contract.body with
  | .ok audited => .ok (registry.put file method audited)
  | .error e => .error (display file ++ " " ++ method ++ ": " ++ e)

end InputContractRegistry

theorem InputContract.tryNew_self (contract : InputContract host) :
    InputContract.tryNew host contract.params contract.query contract.body = .ok contract := by
  obtain ⟨params, query, body, pats, audited⟩ := contract
  unfold InputContract.tryNew
  split
  · rename_i found accepted
    have same : pats = found := Except.ok.inj (audited.symm.trans accepted)
    subst same
    rfl
  · rename_i refused
    cases audited.symm.trans refused

namespace InputContractRegistry

variable (registry : InputContractRegistry host) (file : FilePath) (method : String)

variable (contract : InputContract host)

theorem insert_eq :
    registry.insert file method contract = .ok (registry.put file method contract) := by
  unfold insert
  rw [contract.tryNew_self]

theorem get_put (other : FilePath) (handler : String) :
    (registry.put file method contract).get other handler =
      if (other, handler) = (file, method) then some contract
      else registry.get other handler := by
  exact Association.lookup_put registry.map (file, method) (other, handler) contract

theorem isEmpty_iff :
    registry.isEmpty = true ↔ ∀ file method, registry.get file method = none := by
  constructor
  · intro empty file method
    have nothing : registry.map = [] := List.isEmpty_iff.mp empty
    unfold get
    rw [nothing]
    rfl
  · intro nothing
    apply List.isEmpty_iff.mpr
    apply Association.eq_nil_of_lookup
    rintro ⟨file, method⟩
    exact nothing file method

end InputContractRegistry

end OnlyJs.Contract
