import Mathlib.Data.List.Find
import OnlyJs.Bridge.Registry
import OnlyJs.Bridge.Value
import OnlyJs.Lib.Association
import OnlyJs.Lib.Fallible
import OnlyJs.Lib.Utf8

/-!
# Result rows as JSON objects

A column becomes the first type of a fixed chain that the driver decodes it as. A row of the
typed drivers is keyed by labels cleaned the way error messages show them.
-/

namespace OnlyJs.Plugin.RowJson

open Bridge Lib Lib.Association Lib.Fallible List

abbrev Fields := List (List Char × Value)

def isControl (c : Char) : Bool := c.toNat < 0x20 || (0x7f ≤ c.toNat && c.toNat < 0xa0)

def safeIdentFrom (n : Nat) : List Char → List Char
  | [] => []
  | c :: rest =>
    if isControl c then safeIdentFrom n rest
    else if n = 64 then ['…']
    else c :: safeIdentFrom (n + 1) rest

def safeIdent (name : List Char) : List Char := safeIdentFrom 0 name

variable {Cell : Type}

structure Column (Cell : Type) where
  name : List Char
  /-- The name of its type. -/
  ty : String
  /-- Nothing for SQL `NULL`, which decodes as every type. -/
  cell : Option Cell

/-- The types whose values are written as text. -/
inductive TextType where
  | bigDecimal
  | naiveDate
  | naiveTime
  | naiveDateTime
  | dateTimeUtc
  | json
  | uuid

/-- What other crates do with a cell: each type that sqlx may decode it as, with a double known
by its bits and a value of a text type by its text, and base64. -/
structure Driver (Cell : Type) where
  bool : Cell → Option Bool
  u16 : Cell → Option Nat
  u64 : Cell → Option Nat
  i16 : Cell → Option Int
  i32 : Cell → Option Int
  i64 : Cell → Option Int
  f32 : Cell → Option UInt64
  f64 : Cell → Option UInt64
  string : Cell → Option String
  bytes : Cell → Option (List UInt8)
  text : TextType → Cell → Option String
  /-- The cells of a one-dimensional array. -/
  items : Cell → Option (List (Option Cell))
  raw : Cell → Option (List UInt8)
  base64 : List UInt8 → String

def isFinite (bits : UInt64) : Bool := bits.toNat / 2 ^ 52 % 2 ^ 11 != 2047

def fromF64 (bits : UInt64) : Value := if isFinite bits then .double bits else .null

def typeOk (c : Char) : Bool := c.isLower || c.isDigit || c == '_'

/-- The envelope of a cell that is not decoded further. -/
def encode (driver : Driver Cell) (ty : String) (bytes : List UInt8) : String :=
  "$" ++ ty.map (fun c => if typeOk c.toLower then c.toLower else '_') ++ ":" ++
    driver.base64 bytes

def lossy (bytes : List UInt8) : String := String.ofList (Utf8.decodeLossy bytes)

def probe {α : Type} (column : Column Cell) (decode : Cell → Option α) (json : α → Value) :
    Option Value :=
  match column.cell with
  | none => some .null
  | some cell => (decode cell).map json

def Driver.array {α : Type} (driver : Driver Cell) (decode : Cell → Option α) (cell : Cell) :
    Option (List (Option α)) := do
  (← driver.items cell).mapM fun item =>
    match item with
    | none => some none
    | some item => (decode item).map some

def arrayJson {α : Type} (driver : Driver Cell) (column : Column Cell) (decode : Cell → Option α)
    (conv : α → Value) : Option Value :=
  probe column (driver.array decode) fun items =>
    .array (items.map fun item => item.elim .null conv)

section Chains

variable (driver : Driver Cell)
/- What a double is written as: `fromF64` in the plugins. -/
variable (number : UInt64 → Value) (column : Column Cell)

def columnJsonMysqlRestricted : Option Value :=
  let text kind := probe column (driver.text kind) .string
  match column.ty with
  | "DECIMAL" | "NEWDECIMAL" => text .bigDecimal
  | "DATE" => text .naiveDate
  | "TIME" => text .naiveTime
  | "DATETIME" => text .naiveDateTime
  | "TIMESTAMP" => text .dateTimeUtc
  | "JSON" => text .json
  | _ => none

def columnJsonMysql : Option Value :=
  match column.ty with
  | "BIT" => probe column driver.u64 fun bits => .string (String.ofList (Nat.toDigits 2 bits))
  | "YEAR" => probe column driver.u16 fun year => .int year
  | ty =>
    probe column driver.u64 (fun u => .int u) <|>
    probe column driver.i64 .int <|>
    probe column driver.bool .bool <|>
    probe column driver.f64 number <|>
    probe column driver.string .string <|>
    probe column driver.bytes (fun bytes => .string (encode driver ty bytes)) <|>
    columnJsonMysqlRestricted driver column

def columnJsonPgRestricted : Option Value :=
  let text kind := probe column (driver.text kind) .string
  let texts kind := arrayJson driver column (driver.text kind) .string
  match column.ty with
  | "NUMERIC" => text .bigDecimal
  | "DATE" => text .naiveDate
  | "TIME" => text .naiveTime
  | "TIMESTAMP" => text .naiveDateTime
  | "TIMESTAMPTZ" => text .dateTimeUtc
  | "JSON" | "JSONB" => text .json
  | "UUID" => text .uuid
  | "FLOAT4" => probe column driver.f32 number
  | "BOOL[]" => arrayJson driver column driver.bool .bool
  | "INT2[]" => arrayJson driver column driver.i16 .int
  | "INT4[]" => arrayJson driver column driver.i32 .int
  | "INT8[]" => arrayJson driver column driver.i64 .int
  | "FLOAT4[]" => arrayJson driver column driver.f32 number
  | "FLOAT8[]" => arrayJson driver column driver.f64 number
  | "TEXT[]" | "VARCHAR[]" | "CHAR[]" | "\"CHAR\"[]" | "NAME[]" =>
    arrayJson driver column driver.string .string
  | "NUMERIC[]" => texts .bigDecimal
  | "DATE[]" => texts .naiveDate
  | "TIME[]" => texts .naiveTime
  | "TIMESTAMP[]" => texts .naiveDateTime
  | "TIMESTAMPTZ[]" => texts .dateTimeUtc
  | "UUID[]" => texts .uuid
  | "JSON[]" | "JSONB[]" => texts .json
  | _ => none

def bytea : Option Value :=
  probe column driver.bytes fun bytes => .string (encode driver column.ty bytes)

def columnJsonPg : Option Value :=
  if column.ty = "BYTEA" then bytea driver column
  else
    probe column driver.bool .bool <|>
    probe column driver.i16 .int <|>
    probe column driver.i32 .int <|>
    probe column driver.i64 .int <|>
    probe column driver.f64 number <|>
    probe column driver.string .string <|>
    probe column driver.bytes (fun bytes => .string (lossy bytes)) <|>
    columnJsonPgRestricted driver number column

/-- `column_json` of the one plugin and `column_json_any` of the other. -/
def columnJson : Option Value :=
  probe column driver.bool .bool <|>
  probe column driver.i64 .int <|>
  probe column driver.f64 number <|>
  probe column driver.string .string <|>
  probe column driver.bytes fun bytes => .string (lossy bytes)

end Chains

def insertAll (key : List Char → List Char) (member : Column Cell → Except String Value)
    (row : List (Column Cell)) : Except String Fields :=
  row.foldlM (fun object column => do
    let value ← member column
    .ok (put object (key column.name) value)) []

section Rows

variable (driver : Driver Cell)

def mysqlMember (column : Column Cell) : Except String Value :=
  let name := String.ofList (safeIdent column.name)
  let ty := column.ty
  let hint := match ty with
    | "GEOMETRY" | "POINT" | "LINESTRING" | "POLYGON" => s!"`ST_AsText({name}) as {name}`"
    | _ => s!"`cast({name} as char) as {name}`"
  match columnJsonMysql driver fromF64 column with
  | some value => .ok value
  | none => .error (s!"db(mysql): column '{name}' has MySQL type '{ty}' which this plugin does " ++
      s!"not decode yet — select explicit columns and cast it in SQL (e.g. {hint}); see " ++
      "docs/devkit/db-guide.md §10.6")

def rowToJsonMysql : List (Column Cell) → Except String Fields :=
  insertAll safeIdent (mysqlMember driver)

/-- A type that is not decoded is `null` here. -/
def rowToJsonAny : List (Column Cell) → Except String Fields :=
  insertAll id fun column => .ok ((columnJson driver fromF64 column).getD .null)

def undecodableColumn (name typeName : String) : String :=
  s!"db(postgres): column '{name}' has type '{typeName}' which this plugin does not decode yet " ++
    s!"— cast it in SQL (e.g. `cast({name} as text) as {name}`); see " ++
    "docs/devkit/db-guide.md §10.6"

def pgMember (column : Column Cell) : Except String Value :=
  match columnJsonPg driver fromF64 column with
  | some value => .ok value
  | none =>
    match column.cell.bind driver.raw with
    | some bytes => .ok (.string (encode driver column.ty bytes))
    | none => .error (undecodableColumn (String.ofList (safeIdent column.name)) column.ty)

def rowToJsonPg : List (Column Cell) → Except String Fields :=
  insertAll safeIdent (pgMember driver)

def pgAnyMember (column : Column Cell) : Except String Value :=
  match if column.ty = "BYTEA" then bytea driver column else columnJson driver fromF64 column with
  | some value => .ok value
  | none => .error (undecodableColumn (String.ofList column.name) column.ty)

def rowToJson : List (Column Cell) → Except String Fields :=
  insertAll id (pgAnyMember driver)

end Rows

inductive Database where
  | mySql
  | postgres
deriving DecidableEq

inductive Pooled where
  | typed
  | any
deriving DecidableEq

structure Client where
  pool : Pooled
  dialect : Dialect

def dialectOf (dsn : List Char) : Dialect :=
  if "mysql://".toList.isPrefixOf dsn then .mySql
  else if "postgres://".toList.isPrefixOf dsn || "postgresql://".toList.isPrefixOf dsn then
    .postgres
  else .sqlite

def connect (plugin : Database) (dsn : List Char) : Client where
  pool :=
    match plugin with
    | .mySql => if "mysql://".toList.isPrefixOf dsn then .typed else .any
    | .postgres =>
      match dialectOf dsn with
      | .postgres => .typed
      | .sqlite | .mySql => .any
  dialect := dialectOf dsn

/-- A transaction is of the kind of its pool. -/
def Client.begin_ (client : Client) : Pooled :=
  match client.pool with
  | .typed => .typed
  | .any => .any

inductive Path where
  | query
  | txQuery
  | stream

/-- Whether a row comes from the typed driver. -/
def Client.typed (plugin : Database) (client : Client) : Path → Bool
  | .query => client.pool = .typed
  | .txQuery => client.begin_ = .typed
  | .stream =>
    match plugin with
    | .mySql => client.pool = .typed
    | .postgres => client.dialect = .postgres

def rowJson (plugin : Database) (driver : Driver Cell) (client : Client) (path : Path) :
    List (Column Cell) → Except String Fields :=
  match plugin, client.typed plugin path with
  | .mySql, true => rowToJsonMysql driver
  | .mySql, false => rowToJsonAny driver
  | .postgres, true => rowToJsonPg driver
  | .postgres, false => rowToJson driver

/-- The conversion of one column, with `number` for what becomes of a double. -/
def columnOf (number : UInt64 → Value) (database : Database) (pool : Pooled)
    (driver : Driver Cell) (column : Column Cell) : Option Value :=
  match database, pool with
  | .mySql, .typed => columnJsonMysql driver number column
  | .postgres, .typed => columnJsonPg driver number column
  | .mySql, .any => columnJson driver number column
  | .postgres, .any =>
    if column.ty = "BYTEA" then bytea driver column else columnJson driver number column

/-- What a column holds, with every double as it is. -/
abbrev read : Database → Pooled → Driver Cell → Column Cell → Option Value := columnOf .double

/-- A member shows a column: it is `null` for SQL `NULL` alone, also inside an array, and an
integer is exact. -/
structure Shown (inner : Option Value) (cell : Option Cell) (value : Value) : Prop where
  null : value = .null → cell = none
  integer : ∀ number, inner = some (.int number) → value = .int number
  elements : ∀ items shown (index : Nat), inner = some (.array items) → value = .array shown →
    shown[index]? = some .null → items[index]? = some .null

/-- The column that a label stands for, which is the last that has it. -/
def last (row : List (Column Cell)) (label : List Char) : Option (Column Cell) :=
  row.reverse.find? fun column => column.name = label

/-- An object has one member for each label, which shows the column, on every path. -/
structure Faithful (plugin : Database) (driver : Driver Cell) (client : Client)
    (row : List (Column Cell)) (object : Fields) : Prop where
  distinct : (object.map Prod.fst).Nodup
  labels : ∀ key, (object.lookup key).isSome ↔ ∃ column ∈ row, column.name = key
  members : ∀ label column value, last row label = some column →
    object.lookup label = some value →
    Shown (read plugin client.pool driver column) column.cell value
  paths : ∀ path, rowJson plugin driver client path row = .ok object

def Finite : Value → Prop
  | .double bits => isFinite bits
  | .array items => ∀ bits, .double bits ∈ items → isFinite bits
  | _ => True

/-- How a row is keyed. -/
def keyOf : Pooled → List Char → List Char
  | .typed => safeIdent
  | .any => id

/-- The rows that are converted faithfully: the typed drivers' labels are clean, no double that
is shown is infinite or not a number, and the untyped pool decodes each type. -/
structure Plain (plugin : Database) (driver : Driver Cell) (pool : Pooled)
    (row : List (Column Cell)) : Prop where
  labels : ∀ column ∈ row, keyOf pool column.name = column.name
  finite : ∀ label column inner, last row label = some column →
    read plugin pool driver column = some inner → Finite inner
  decoded : plugin = .mySql → pool = .any → ∀ label column, last row label = some column →
    (read plugin pool driver column).isSome

theorem safe_ident_from_idem (n : Nat) (name : List Char) (fits : n ≤ 64) :
    safeIdentFrom n (safeIdentFrom n name) = safeIdentFrom n name := by
  induction name generalizing n with
  | nil => rfl
  | cons c rest ih =>
    rw [safeIdentFrom]
    split_ifs with control full
    · exact ih n fits
    · subst full
      rfl
    · rw [safeIdentFrom, if_neg control, if_neg full, ih (n + 1) (by omega)]

/-- A label has the member of the last column that it is the key of. -/
def Held (key : List Char → List Char) (member : Column Cell → Except String Value)
    (row : List (Column Cell)) (object : Fields) : Prop :=
  ∀ label, (row.reverse.find? fun column => key column.name = label).elim
    (object.lookup label = none)
    fun column => ∃ value, member column = .ok value ∧ object.lookup label = some value

theorem insert_all_ok {key : List Char → List Char} {member : Column Cell → Except String Value}
    {row : List (Column Cell)} {object : Fields}
    (converted : insertAll key member row = .ok object) :
    (object.map Prod.fst).Nodup ∧ Held key member row object := by
  induction row using reverseRecOn generalizing object with
  | nil =>
    cases converted
    exact ⟨.nil, fun _ => rfl⟩
  | append_singleton row column ih =>
    rw [insertAll, foldlM_append] at converted
    obtain ⟨before, earlier, converted⟩ := bind_ok.mp converted
    obtain ⟨_, inserted, converted⟩ := bind_ok.mp converted
    cases converted
    obtain ⟨value, shows, inserted⟩ := bind_ok.mp inserted
    cases inserted
    obtain ⟨distinct, found⟩ := ih earlier
    refine ⟨put_distinct distinct _ _, fun label => ?_⟩
    rw [lookup_put, reverse_append, reverse_singleton, singleton_append, find?_cons]
    by_cases same : key column.name = label
    · rw [if_pos same.symm, decide_eq_true same]
      exact ⟨value, shows, rfl⟩
    · rw [if_neg (Ne.symm same), decide_eq_false same]
      exact found label

/-- What becomes of a value in which doubles are as they are. -/
def scalarJson : Value → Value
  | .double bits => fromF64 bits
  | value => value

def toJson : Value → Value
  | .array items => .array (items.map scalarJson)
  | value => scalarJson value

/-- A column is shown as what is read of it, and `NULL` is read of `NULL` alone. -/
structure Reads (column : Column Cell) (shown inner : Option Value) : Prop where
  same : shown = inner.map toJson
  null : inner = some .null → column.cell = none

namespace Reads

variable {driver : Driver Cell} {column : Column Cell} {α : Type} {decode : Cell → Option α}
  {json raw : α → Value}

theorem nothing : Reads column none none := ⟨rfl, nofun⟩

theorem probe (same : ∀ value, json value = toJson (raw value))
    (shows : ∀ value, raw value ≠ .null) :
    Reads column (probe column decode json) (RowJson.probe column decode raw) := by
  unfold RowJson.probe
  cases cell : column.cell with
  | none => exact ⟨rfl, fun _ => cell⟩
  | some there =>
    refine ⟨?_, fun null => ?_⟩
    · rw [Option.map_map]
      exact congrArg (Option.map · (decode there)) (funext same)
    · obtain ⟨value, _, null⟩ : ∃ value, decode there = some value ∧ raw value = .null :=
        Option.map_eq_some_iff.mp null
      exact absurd null (shows value)

theorem array (same : ∀ value, json value = scalarJson (raw value)) :
    Reads column (arrayJson driver column decode json) (arrayJson driver column decode raw) := by
  refine probe (fun items => ?_) nofun
  rw [toJson, map_map]
  refine congrArg _ (map_congr_left fun item _ => ?_)
  cases item with
  | none => rfl
  | some value => exact same value

theorem orElse {first second firstInner secondInner : Option Value}
    (here : Reads column first firstInner) (there : Reads column second secondInner) :
    Reads column (first <|> second) (firstInner <|> secondInner) := by
  obtain ⟨rfl, null⟩ := here
  cases firstInner with
  | none => exact there
  | some value => exact ⟨rfl, null⟩

end Reads

section Chains

variable (driver : Driver Cell) (column : Column Cell)

theorem mysql_reads : Reads column (columnJsonMysql driver fromF64 column)
    (columnJsonMysql driver .double column) := by
  unfold columnJsonMysql
  split
  · exact .probe (fun _ => rfl) nofun
  · exact .probe (fun _ => rfl) nofun
  · iterate 6 refine .orElse (.probe (fun _ => rfl) nofun) ?_
    unfold columnJsonMysqlRestricted
    split <;> first | exact .probe (fun _ => rfl) nofun | exact .nothing

theorem pg_reads :
    Reads column (columnJsonPg driver fromF64 column) (columnJsonPg driver .double column) := by
  unfold columnJsonPg
  split
  · exact .probe (fun _ => rfl) nofun
  · iterate 7 refine .orElse (.probe (fun _ => rfl) nofun) ?_
    unfold columnJsonPgRestricted
    split <;> first
      | exact .probe (fun _ => rfl) nofun
      | exact .array fun _ => rfl
      | exact .nothing

theorem column_reads (database : Database) (pool : Pooled) :
    Reads column (columnOf fromF64 database pool driver column)
      (read database pool driver column) := by
  have any : Reads column (columnJson driver fromF64 column)
      (columnJson driver .double column) := by
    unfold columnJson
    iterate 4 refine .orElse (.probe (fun _ => rfl) nofun) ?_
    exact .probe (fun _ => rfl) nofun
  cases database <;> cases pool
  · exact mysql_reads driver column
  · exact any
  · exact pg_reads driver column
  · simp only [columnOf]
    split
    · exact .probe (fun _ => rfl) nofun
    · exact any

end Chains

theorem shown_iff {inner : Value} {cell : Option Cell} (null : inner = .null → cell = none)
    (known : cell = none → inner = .null) :
    Shown (some inner) cell (toJson inner) ↔ Finite inner := by
  constructor
  · intro shown
    cases inner with
    | double bits =>
      by_contra infinite
      exact nomatch known (shown.null (if_neg infinite))
    | array items =>
      intro bits member
      by_contra infinite
      obtain ⟨index, there⟩ := getElem?_of_mem member
      have lost := shown.elements items _ index rfl rfl (by
        rw [getElem?_map, there]
        exact congrArg some (if_neg infinite))
      exact nomatch there.symm.trans lost
    | _ => trivial
  · intro finite
    have same (value : Value) (finite : ∀ bits, value = .double bits → isFinite bits) :
        scalarJson value = value := by
      cases value with
      | double bits => exact if_pos (finite bits rfl)
      | _ => rfl
    have whole : toJson inner = inner := by
      cases inner with
      | double bits => exact same _ fun _ eq => Value.double.inj eq ▸ finite
      | array items =>
        have kept : items.map scalarJson = items :=
          (map_congr_left fun value member => same value fun bits eq =>
            finite bits (eq ▸ member)).trans (map_id _)
        exact congrArg _ kept
      | _ => rfl
    rw [whole]
    refine ⟨null, fun number eq => Option.some.inj eq, fun items shown index eq eq' => ?_⟩
    cases eq
    cases eq'
    exact id

variable {database : Database} {pool : Pooled} {driver : Driver Cell} {column : Column Cell}

theorem read_null (null : column.cell = none) : read database pool driver column = some .null := by
  have first {α : Type} (decode : Cell → Option α) (json : α → Value) :
      probe column decode json = some .null := by rw [probe, null]
  cases database <;> cases pool <;>
    simp [columnOf, columnJsonMysql, columnJsonPg, columnJson, bytea, first]
  split <;> rfl

/-- What a column of a row becomes. -/
def member (driver : Driver Cell) : Database → Pooled → Column Cell → Except String Value
  | .mySql, .typed => mysqlMember driver
  | .mySql, .any => fun column => .ok ((columnJson driver fromF64 column).getD .null)
  | .postgres, .typed => pgMember driver
  | .postgres, .any => pgAnyMember driver

theorem row_json_eq (database : Database) (driver : Driver Cell) (dsn : List Char) (path : Path) :
    rowJson database driver (connect database dsn) path =
      insertAll (keyOf (connect database dsn).pool)
        (member driver database (connect database dsn).pool) := by
  have kind : (connect database dsn).typed database path =
      decide ((connect database dsn).pool = .typed) := by
    cases path with
    | query => rfl
    | txQuery =>
      cases pool : (connect database dsn).pool <;> simp [Client.typed, Client.begin_, pool]
    | stream =>
      cases database with
      | mySql => rfl
      | postgres => cases dialect : dialectOf dsn <;> simp [Client.typed, connect, dialect]
  unfold rowJson
  rw [kind]
  cases database <;> cases (connect _ dsn).pool <;> rfl

variable {value : Value}

/-- A member is what the column becomes, unless nothing reads it. -/
theorem member_ok (shows : member driver database pool column = .ok value) :
    columnOf fromF64 database pool driver column = some value ∨
      columnOf fromF64 database pool driver column = none ∧
        if database = .mySql ∧ pool = .any then value = .null
        else ∃ text, value = .string text := by
  cases shown : columnOf fromF64 database pool driver column with
  | some there =>
    refine .inl ?_
    cases database <;> cases pool <;> simp only [columnOf] at shown <;>
      simpa [member, mysqlMember, pgMember, pgAnyMember, shown] using shows
  | none =>
    refine .inr ⟨rfl, ?_⟩
    cases database <;> cases pool <;> simp only [columnOf] at shown <;>
      simp [member, mysqlMember, pgMember, pgAnyMember, shown] at shows
    · exact shows.symm
    · split at shows
      · exact ⟨_, (Except.ok.inj shows).symm⟩
      · cases shows

theorem member_shown (shows : member driver database pool column = .ok value) :
    Shown (read database pool driver column) column.cell value ↔
      (∀ inner, read database pool driver column = some inner → Finite inner) ∧
        (database = .mySql → pool = .any → (read database pool driver column).isSome) := by
  obtain ⟨same, null⟩ := column_reads driver column database pool
  have known : column.cell = none → read database pool driver column = some .null := read_null
  cases held : read database pool driver column with
  | some inner =>
    rw [held] at same null known
    rcases member_ok shows with shown | ⟨nothing, _⟩
    · cases shown.symm.trans same
      simpa using shown_iff (fun eq => null (congrArg some eq)) fun eq => Option.some.inj (known eq)
    · cases nothing.symm.trans same
  | none =>
    rw [held] at same known
    rcases member_ok shows with shown | ⟨_, kind⟩
    · cases shown.symm.trans same
    · split_ifs at kind with untyped
      · subst kind
        exact iff_of_false (fun shown => nomatch known (shown.null rfl)) fun plain =>
          nomatch plain.2 untyped.1 untyped.2
      · obtain ⟨text, rfl⟩ := kind
        exact iff_of_true ⟨nofun, nofun, nofun⟩ ⟨nofun, fun own any => absurd ⟨own, any⟩ untyped⟩

section Objects

variable {row : List (Column Cell)} {object : Fields}
  (found : Held (keyOf pool) (member driver database pool) row object)
include found

theorem labels_iff : (∀ key, (object.lookup key).isSome ↔ ∃ column ∈ row, column.name = key) ↔
    ∀ column ∈ row, keyOf pool column.name = column.name := by
  have keys label : (object.lookup label).isSome ↔
      ∃ column ∈ row, keyOf pool column.name = label := by
    have found := found label
    cases here : row.reverse.find? fun column => keyOf pool column.name = label with
    | none =>
      rw [here] at found
      rw [show object.lookup label = none from found]
      simpa using here
    | some column =>
      rw [here] at found
      obtain ⟨value, _, there⟩ := found
      rw [there]
      exact iff_of_true rfl
        ⟨column, mem_reverse.mp (mem_of_find?_eq_some here), by simpa using find?_some here⟩
  simp only [keys]
  refine ⟨fun same column there => ?_, fun safe key => ?_⟩
  · cases pool with
    | any => rfl
    | typed =>
      obtain ⟨other, _, named⟩ := (same column.name).mpr ⟨column, there, rfl⟩
      rw [← named]
      exact safe_ident_from_idem 0 other.name (Nat.zero_le 64)
  · exact exists_congr fun column => and_congr_right fun there => by rw [safe column there]

theorem lookup_last (safe : ∀ column ∈ row, keyOf pool column.name = column.name)
    {label : List Char} (here : last row label = some column) :
    ∃ value, member driver database pool column = .ok value ∧ object.lookup label = some value := by
  have found := found label
  have same : (row.reverse.find? fun column => keyOf pool column.name = label) = last row label :=
    find?_congr fun column there => by rw [safe column (mem_reverse.mp there)]
  rwa [same, here] at found

end Objects

/-- A driver of which every cell is an integer. -/
def integers : Driver Int where
  bool := fun _ => none
  u16 := fun _ => none
  u64 := fun _ => none
  i16 := fun _ => none
  i32 := fun _ => none
  i64 := some
  f32 := fun _ => none
  f64 := fun _ => none
  string := fun _ => none
  bytes := fun _ => none
  text := fun _ _ => none
  items := fun _ => none
  raw := fun _ => none
  base64 := fun _ => ""

end OnlyJs.Plugin.RowJson
