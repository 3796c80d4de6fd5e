import OnlyJs.Contract.Registry
import OnlyJs.Oj.Reload.Gates

/-!
# The contracts of a route table

Every row that declares a schema has a contract registered under its file and handler. Of
two rows of one handler the later one counts, so what is in force is what the table
declares last.
-/

namespace OnlyJs.Oj.Reload

open Bridge Contract Lib.Fallible Serve

set_option autoImplicit false

variable {host : Host}

abbrev FiledRow := FilePath × RouteRow

def tableRows (table : Serve.Table) : List FiledRow :=
  table.rows.map fun row => (table.filePath row.file, row)

def rowsOf (tables : List MountTable) : List FiledRow :=
  tables.flatMap fun table => tableRows table.2

def invalidSchema (row : RouteRow) (file : FilePath) (reason : String) : String :=
  s!"invalid `.schema` on {row.method} {String.ofList row.pattern} (handler `{row.handler}`, " ++
    s!"{display file}): {reason}"

def auditSchemas (host : Host) (table : Serve.Table) : Except String Unit :=
  table.rows.forM fun row =>
    match row.schema with
    | none => .ok ()
    | some schema =>
      (auditSchema host schema).mapError (invalidSchema row (table.relFile row.file))

def registerRow (registry : InputContractRegistry host) (filed : FiledRow) :
    Except String (InputContractRegistry host) :=
  match filed.2.schema with
  | none => .ok registry
  | some schema =>
    match contractOf host schema with
    | .error e => .error (invalidSchema filed.2 filed.1 e)
    | .ok contract =>
      (registry.insert filed.1 filed.2.handler contract).mapError fun e =>
        "server.schema_validation: cannot register contract: " ++ e

def registerContracts (host : Host) (tables : List MountTable) :
    Except String (InputContractRegistry host) :=
  (rowsOf tables).foldlM registerRow .new

def declaredSchema (rows : List FiledRow) (file : FilePath) (handler : String) : Option Value :=
  rows.reverse.findSome? fun filed =>
    if filed.1 = file ∧ filed.2.handler = handler then filed.2.schema else none

/-- The registry holds the contracts that the rows declare, and no others. -/
def Enforces (registry : InputContractRegistry host) (rows : List FiledRow) : Prop :=
  ∀ file handler,
    match declaredSchema rows file handler with
    | none => registry.get file handler = none
    | some schema =>
      ∃ contract, contractOf host schema = .ok contract ∧
        registry.get file handler = some contract

/-- Every request meets the same contract. -/
def SameContracts (first second : InputContractRegistry host) : Prop :=
  ∀ file handler, first.get file handler = second.get file handler

theorem declaredSchema_concat (rows : List FiledRow) (last : FiledRow) (file : FilePath)
    (handler : String) :
    declaredSchema (rows ++ [last]) file handler =
      (if last.1 = file ∧ last.2.handler = handler then last.2.schema else none).or
        (declaredSchema rows file handler) := by
  unfold declaredSchema
  rw [List.reverse_append, List.reverse_singleton, List.singleton_append, List.findSome?_cons]
  split <;> simp_all

variable {registry : InputContractRegistry host}

variable {next : InputContractRegistry host}

theorem registerRow_ok {filed : FiledRow} (registered : registerRow registry filed = .ok next) :
    (filed.2.schema = none ∧ next = registry) ∨
      ∃ schema contract, filed.2.schema = some schema ∧ contractOf host schema = .ok contract ∧
        next = registry.put filed.1 filed.2.handler contract := by
  unfold registerRow at registered
  cases declared : filed.2.schema with
  | none =>
    rw [declared] at registered
    cases registered
    exact .inl ⟨rfl, rfl⟩
  | some schema =>
    rw [declared] at registered
    dsimp only at registered
    cases read : contractOf host schema with
    | error e =>
      rw [read] at registered
      cases registered
    | ok contract =>
      rw [read] at registered
      dsimp only at registered
      rw [InputContractRegistry.insert_eq] at registered
      cases registered
      exact .inr ⟨schema, contract, rfl, read, rfl⟩

theorem enforces_concat {rows : List FiledRow} {filed : FiledRow} (held : Enforces registry rows)
    (registered : registerRow registry filed = .ok next) : Enforces next (rows ++ [filed]) := by
  intro file handler
  have before := held file handler
  rw [declaredSchema_concat]
  obtain ⟨silent, rfl⟩ | ⟨schema, contract, declared, read, rfl⟩ := registerRow_ok registered
  · rw [silent, ite_self]
    exact before
  · rw [declared, InputContractRegistry.get_put]
    by_cases own : filed.1 = file ∧ filed.2.handler = handler
    · rw [if_pos own, if_pos (by rw [own.1, own.2])]
      exact ⟨contract, read, rfl⟩
    · have apart : (file, handler) ≠ (filed.1, filed.2.handler) := by
        intro same
        obtain ⟨sameFile, sameHandler⟩ := Prod.mk.inj same
        exact own ⟨sameFile.symm, sameHandler.symm⟩
      rw [if_neg own, if_neg apart]
      exact before

theorem enforces_fold (rows : List FiledRow)
    (registered : rows.foldlM registerRow .new = .ok registry) : Enforces registry rows := by
  induction rows using List.reverseRecOn generalizing registry with
  | nil =>
    cases registered
    intro file handler
    rfl
  | append_singleton rows filed ih =>
    rw [List.foldlM_append] at registered
    obtain ⟨middle, first, last⟩ := bind_ok.mp registered
    obtain ⟨next, row, done⟩ := bind_ok.mp last
    cases done
    exact enforces_concat (ih first) row

theorem registerContracts_enforces {tables : List MountTable}
    (registered : registerContracts host tables = .ok registry) :
    Enforces registry (rowsOf tables) :=
  enforces_fold (rowsOf tables) registered

theorem sameContracts_iff {first second : InputContractRegistry host} {rows : List FiledRow}
    (held : Enforces first rows) : SameContracts first second ↔ Enforces second rows := by
  constructor
  · intro same file handler
    have own := held file handler
    rw [same file handler] at own
    exact own
  · intro other file handler
    have own := held file handler
    have theirs := other file handler
    cases declared : declaredSchema rows file handler with
    | none =>
      rw [declared] at own theirs
      exact own.trans theirs.symm
    | some schema =>
      rw [declared] at own theirs
      obtain ⟨contract, read, found⟩ := own
      obtain ⟨another, readToo, foundToo⟩ := theirs
      rw [found, foundToo, Except.ok.inj (read.symm.trans readToo)]

theorem enforces_nil :
    Enforces registry [] ↔ registry.isEmpty = true :=
  registry.isEmpty_iff.symm

end OnlyJs.Oj.Reload
