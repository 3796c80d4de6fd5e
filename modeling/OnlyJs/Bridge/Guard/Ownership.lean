import OnlyJs.Bridge.Guard.Tables
import OnlyJs.Lib.Fallible

/-!
# The ownership guard of raw SQL

A module reads and writes its own tables, those of the modules that it depends on, and those
that no module owns. The tables of a text are kept once they are extracted.
-/

namespace OnlyJs.Bridge.Guard

open Lib.Fallible

structure ModuleDeps where
  name : String
  deps : List String
deriving DecidableEq

/-- What the guard reads of the request and of its assembly. -/
structure OwnershipContext where
  moduleName : Option String
  modules : List ModuleDeps
  owners : Finmap fun _ : String => Option String
  deny : Bool

def OwnershipContext.moduleCtx (context : OwnershipContext) : Option ModuleDeps :=
  context.moduleName.bind fun name => context.modules.find? fun ctx => ctx.name = name

def OwnershipContext.ownerOf (context : OwnershipContext) (table : String) : Option String :=
  (context.owners.lookup table).join

/-- `表 … 属于模块 …，模块 … 未声明依赖（…）` -/
structure OwnershipRefusal where
  table : String
  owner : String
  moduleName : String
  source : String
deriving DecidableEq

/-- Without `deny` a refusal is only logged. -/
def OwnershipContext.judge (context : OwnershipContext) (ctx : ModuleDeps) (table source : String) :
    Except OwnershipRefusal Unit :=
  match context.ownerOf table with
  | none => .ok ()
  | some owner =>
    if owner = ctx.name ∨ owner ∈ ctx.deps then .ok ()
    else if context.deny then .error ⟨table, owner, ctx.name, source⟩
    else .ok ()

section Memo

def sqlMemoCap : Nat := 4096

structure SqlMemo where
  entries : Finmap fun _ : List Char => List String
  sound : ∀ sql tables, entries.lookup sql = some tables → tables = extractTables sql

def SqlMemo.empty : SqlMemo where
  entries := ∅
  sound := fun sql tables found => by
    rw [Finmap.lookup_empty] at found
    cases found

def SqlMemo.put (memo : SqlMemo) (sql : List Char) : SqlMemo where
  entries :=
    (if memo.entries.keys.card ≥ sqlMemoCap then ∅ else memo.entries).insert sql (extractTables sql)
  sound := by
    intro other tables found
    by_cases same : other = sql
    · rw [same, Finmap.lookup_insert] at found
      rw [same]
      exact (Option.some.inj found).symm
    · rw [Finmap.lookup_insert_of_ne _ same] at found
      split at found
      · rw [Finmap.lookup_empty] at found
        cases found
      · exact memo.sound other tables found

def SqlMemo.tables (memo : SqlMemo) (sql : List Char) : List String × SqlMemo :=
  match memo.entries.lookup sql with
  | some tables => (tables, memo)
  | none => (extractTables sql, memo.put sql)

theorem memo_tables (memo : SqlMemo) (sql : List Char) :
    (memo.tables sql).1 = extractTables sql := by
  unfold SqlMemo.tables
  split
  · rename_i tables found
    exact memo.sound sql tables found
  · rfl

end Memo

def checkRaw (context : OwnershipContext) (memo : SqlMemo) (sql : List Char) :
    Except OwnershipRefusal Unit × SqlMemo :=
  match context.moduleCtx with
  | none => (.ok (), memo)
  | some ctx =>
    ((memo.tables sql).1.forM fun table => context.judge ctx table "raw sql", (memo.tables sql).2)

/-- A table of a module that is neither the module itself nor one it depends on. -/
def OwnershipContext.foreign (context : OwnershipContext) (ctx : ModuleDeps) (table : String) :
    Prop :=
  ∃ owner, context.ownerOf table = some owner ∧ owner ≠ ctx.name ∧ owner ∉ ctx.deps

theorem judge_ok (context : OwnershipContext) (ctx : ModuleDeps) (table source : String) :
    context.judge ctx table source = .ok () ↔
      (context.deny = true → ¬context.foreign ctx table) := by
  unfold OwnershipContext.judge OwnershipContext.foreign
  cases owned : context.ownerOf table with
  | none => simp
  | some owner =>
    by_cases allowed : owner = ctx.name ∨ owner ∈ ctx.deps
    · simp only [allowed, if_true, true_iff]
      rintro _ ⟨_, same, apart, missing⟩
      cases same
      exact allowed.elim apart missing
    · have refused := not_or.mp allowed
      cases deny : context.deny with
      | false => simp [refused]
      | true => simp

theorem check_raw_ok (context : OwnershipContext) (memo : SqlMemo) (sql : List Char) :
    (checkRaw context memo sql).1 = .ok () ↔
      ∀ ctx, context.moduleCtx = some ctx → context.deny = true →
        ¬∃ table ∈ extractTables sql, context.foreign ctx table := by
  unfold checkRaw
  cases context.moduleCtx with
  | none => simp
  | some ctx =>
    simp only [memo_tables, forM_ok, judge_ok]
    constructor
    · rintro judged other same deny ⟨table, member, foreign⟩
      cases same
      exact judged table member deny foreign
    · intro clear table member deny foreign
      exact clear ctx rfl deny ⟨table, member, foreign⟩

end OnlyJs.Bridge.Guard
