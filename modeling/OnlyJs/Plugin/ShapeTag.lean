import OnlyJs.Bridge.Query.Replay
import OnlyJs.Lib.Association
import OnlyJs.Lib.StepSystem

/-!
# The shape of the parameters in front of a statement

The driver keeps a prepared statement under its text, with the parameter types it was first
bound with. The plugin writes one letter for each parameter into a comment before the
statement, so that parameters of other types make another text.
-/

namespace OnlyJs.Plugin.ShapeTag

open Bridge Bridge.Query Lib Lib.Fallible Lib.StepSystem List

set_option autoImplicit false

def rejectU64Markers (why : String) (params : List Value) : Except String Unit :=
  params.forM fun value =>
    match markerU64 value with
    | some number =>
      .error s!"db param: u64 value {number} is not supported on this path — {why}"
    | none => .ok ()

def inI64 (number : Int) : Bool := -(2 ^ 63) ≤ number ∧ number < 2 ^ 63

def shapeLetter (value : Value) : Char :=
  match value with
  | .null | .string _ => 't'
  | .bool _ => 'b'
  | .int number => if inI64 number then 'i' else 'f'
  | .double _ => 'f'
  | other =>
    if (markerI64 other).isSome then 'm'
    else if (markerU64 other).isSome then 'u'
    else 't'

def shapeTag (sql : String) (params : List Value) : String :=
  if params.isEmpty then sql
  else "/*oj:" ++ String.ofList (params.map shapeLetter) ++ "*/" ++ sql

/-- A value as it is bound, under the type that PostgreSQL is told. -/
inductive Bound where
  | int8 (number : Int)
  | float8 (bits : UInt64)
  | bool (flag : Bool)
  | text (text : Option String)

inductive PgType where
  | int8
  | float8
  | bool
  | text
deriving DecidableEq

def Bound.typeInfo : Bound → PgType
  | .int8 _ => .int8
  | .float8 _ => .float8
  | .bool _ => .bool
  | .text _ => .text

/-- `display` is the JSON text of a value. -/
def bindValuePg (display : Value → String) (value : Value) : Bound :=
  match markerI64 value with
  | some number => .int8 number
  | none =>
    match value with
    | .null => .text none
    | .bool flag => .bool flag
    | .int number => if inI64 number then .int8 number else .float8 (nearestDouble number.toNat)
    | .double bits => .float8 bits
    | .string text => .text (some text)
    | other => .text (some (display other))

def bindTypes (display : Value → String) (params : List Value) : List PgType :=
  params.map fun value => (bindValuePg display value).typeInfo

structure Call where
  sql : String
  params : List Value

def tagMark : List Char := "/*oj:".toList

/-- The parameters pass the plugin's check, and the statement does not look like a tagged one. -/
def Call.Plain (call : Call) (why : String) : Prop :=
  rejectU64Markers why call.params = .ok () ∧ ¬ tagMark <+: call.sql.toList

/-- The statements that a connection has prepared, and with which types each call ran. -/
structure Connection where
  prepared : List (String × List PgType)
  ran : List (Call × List PgType)

inductive Label where
  | call (call : Call)
  /-- The driver forgets a prepared statement. -/
  | evict (text : String)

/-- A statement that is prepared runs with the types it was prepared with. -/
def Connection.execute (display : Value → String) (connection : Connection) (call : Call) :
    Connection :=
  let text := shapeTag call.sql call.params
  match connection.prepared.lookup text with
  | some types => { connection with ran := connection.ran ++ [(call, types)] }
  | none =>
    let types := bindTypes display call.params
    { prepared := (text, types) :: connection.prepared
      ran := connection.ran ++ [(call, types)] }

def Connection.evict (connection : Connection) (text : String) : Connection :=
  { connection with prepared := connection.prepared.filter fun entry => entry.1 != text }

def system (display : Value → String) : System Connection Label where
  init := ⟨[], []⟩
  step connection
    | .call call => some (connection.execute display call)
    | .evict text => some (connection.evict text)

def Allowed (why : String) (_ : Connection) : Label → Prop
  | .call call => call.Plain why
  | .evict _ => True

section Shape

variable {display : Value → String} {why : String}

theorem reject_u64_markers_ok {params : List Value} :
    rejectU64Markers why params = .ok () ↔ ∀ value ∈ params, markerU64 value = none := by
  rw [rejectU64Markers, forM_ok]
  refine forall₂_congr fun value _ => ?_
  cases markerU64 value with
  | none => exact iff_of_true rfl rfl
  | some number => exact iff_of_false nofun nofun

/-- The type that a letter of the tag stands for. -/
def letterType (letter : Char) : PgType :=
  if letter = 'i' ∨ letter = 'm' then .int8
  else if letter = 'f' then .float8
  else if letter = 'b' then .bool
  else .text

/-- The letter and the bound value follow the same cases. -/
theorem letter_type {value : Value} (unmarked : markerU64 value = none) :
    (bindValuePg display value).typeInfo = letterType (shapeLetter value) := by
  cases value with
  | null | bool flag | string text | double bits | array items => rfl
  | int number =>
    unfold bindValuePg shapeLetter
    dsimp only [markerI64, markerStr, Option.bind_none]
    split
    · rfl
    · rfl
  | object fields =>
    unfold bindValuePg shapeLetter
    dsimp only
    rw [unmarked]
    cases markerI64 (.object fields) with
    | some number => rfl
    | none => rfl

theorem bind_types_letters {params : List Value}
    (passed : rejectU64Markers why params = .ok ()) :
    bindTypes display params = (params.map shapeLetter).map letterType := by
  rw [map_map]
  exact map_congr_left fun value member =>
    letter_type (reject_u64_markers_ok.mp passed value member)

theorem shape_letter_mem (value : Value) : shapeLetter value ∈ ['t', 'b', 'i', 'f', 'm', 'u'] := by
  unfold shapeLetter
  split
  · decide
  · decide
  · decide
  · split <;> decide
  · decide
  · split
    · decide
    · split <;> decide

theorem star_not_letter (params : List Value) : '*' ∉ params.map shapeLetter := by
  intro member
  obtain ⟨value, _, same⟩ := mem_map.mp member
  exact absurd (same ▸ shape_letter_mem value) (by decide)

theorem shape_tag_toList {sql : String} {params : List Value} (nonempty : params ≠ []) :
    (shapeTag sql params).toList =
      tagMark ++ (params.map shapeLetter ++ '*' :: '/' :: sql.toList) := by
  rw [shapeTag, if_neg (by rw [List.isEmpty_iff]; exact nonempty)]
  simp only [String.toList_append, String.toList_ofList, append_assoc]
  rfl

/-- The tag can be read back: its letters end at the first star. -/
theorem shape_tag_unique {first second : Call} (nonempty : first.params ≠ [])
    (other : second.params ≠ [])
    (same : shapeTag first.sql first.params = shapeTag second.sql second.params) :
    first.sql = second.sql ∧
      first.params.map shapeLetter = second.params.map shapeLetter := by
  have texts := congrArg String.toList same
  rw [shape_tag_toList nonempty, shape_tag_toList other] at texts
  have split := congrArg (Text.splitOnce '*') (append_cancel_left texts)
  rw [Text.split_once_append _ (star_not_letter _), Text.split_once_append _ (star_not_letter _)]
    at split
  have parts := Prod.mk.inj (Option.some.inj split)
  exact ⟨String.toList_inj.mp (cons.inj parts.2).2, parts.1⟩

theorem tag_mark_shape_tag {call : Call} (nonempty : call.params ≠ []) :
    tagMark <+: (shapeTag call.sql call.params).toList := by
  rw [shape_tag_toList nonempty]
  exact prefix_append _ _

/-- Calls of one text have the same types, also where one of them has no parameters. -/
theorem plain_types {first second : Call} (plain : first.Plain why) (other : second.Plain why)
    (same : shapeTag first.sql first.params = shapeTag second.sql second.params) :
    bindTypes display first.params = bindTypes display second.params := by
  by_cases bare : first.params = []
  · by_cases also : second.params = []
    · rw [bare, also]
    · have tagged := tag_mark_shape_tag also
      rw [← same, bare] at tagged
      exact absurd tagged plain.2
  · by_cases also : second.params = []
    · have tagged := tag_mark_shape_tag bare
      rw [same, also] at tagged
      exact absurd tagged other.2
    · rw [bind_types_letters plain.1, bind_types_letters other.1,
        (shape_tag_unique bare also same).2]

/-- What is prepared under a text has the types of every call of that text. -/
structure Typed (display : Value → String) (why : String) (connection : Connection) : Prop where
  prepared : ∀ text types, (text, types) ∈ connection.prepared → ∃ call : Call,
    call.Plain why ∧ shapeTag call.sql call.params = text ∧ bindTypes display call.params = types
  ran : ∀ entry ∈ connection.ran, entry.2 = bindTypes display entry.1.params

section

variable {connection : Connection} (typed : Typed display why connection)
include typed

theorem Typed.execute {call : Call} (plain : call.Plain why) :
    Typed display why (connection.execute display call) := by
  have behind : ∀ types, types = bindTypes display call.params →
      ∀ entry ∈ connection.ran ++ [(call, types)], entry.2 = bindTypes display entry.1.params := by
    intro types own entry member
    rcases mem_append.mp member with earlier | last
    · exact typed.ran entry earlier
    · rw [mem_singleton.mp last]
      exact own
  unfold Connection.execute
  dsimp only
  split
  · rename_i types found
    refine ⟨typed.prepared, behind types ?_⟩
    obtain ⟨other, first, text, own⟩ := typed.prepared _ _ (Association.mem_of_lookup found)
    rw [← own]
    exact plain_types first plain text
  · refine ⟨?_, behind _ rfl⟩
    intro text types member
    rcases mem_cons.mp member with same | earlier
    · cases same
      exact ⟨call, plain, rfl, rfl⟩
    · exact typed.prepared text types earlier

theorem Typed.evict (text : String) : Typed display why (connection.evict text) where
  prepared := fun other types member => typed.prepared other types (mem_filter.mp member).1
  ran := typed.ran

end

theorem typed_preserved : Preserved (system display) (Allowed why) (Typed display why) := by
  intro connection label next typed allowed fired
  cases label with
  | call call =>
    cases fired
    exact typed.execute allowed
  | evict text =>
    cases fired
    exact typed.evict text

end Shape

/-- Calls with parameters whose tagged texts are equal have the same statement and bind the same
types; on a connection every call runs with its own types. -/
theorem tagged_text_fixes_types (display : Value → String) (why : String) :
    (∀ first second : Call, first.Plain why → second.Plain why →
      first.params ≠ [] → second.params ≠ [] →
      shapeTag first.sql first.params = shapeTag second.sql second.params →
      first.sql = second.sql ∧ first.params.length = second.params.length ∧
        bindTypes display first.params = bindTypes display second.params) ∧
    ∀ connection, Reachable (system display) (Allowed why) connection →
      ∀ entry ∈ connection.ran, entry.2 = bindTypes display entry.1.params := by
  constructor
  · intro first second plain other nonempty also same
    obtain ⟨sql, letters⟩ := shape_tag_unique nonempty also same
    have lengths := congrArg length letters
    rw [length_map, length_map] at lengths
    exact ⟨sql, lengths, plain_types plain other same⟩
  · intro connection reached
    exact (invariant_of_step ⟨nofun, nofun⟩ typed_preserved reached).ran

/-- Two integers are bound as integers under one text. -/
theorem tagged_text_fixes_types_two :
    bindTypes (fun _ => "") [.int 1] = bindTypes (fun _ => "") [.int 2] :=
  ((tagged_text_fixes_types (fun _ => "") "").1 ⟨"select $1", [.int 1]⟩ ⟨"select $1", [.int 2]⟩
    ⟨rfl, by decide⟩ ⟨rfl, by decide⟩ nofun nofun rfl).2.2

end OnlyJs.Plugin.ShapeTag
