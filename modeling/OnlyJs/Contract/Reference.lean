import OnlyJs.Contract.Check

/-!
# What a contract declares

The meaning of every keyword, stated on its own: numbers are compared by their
exact values, a text has the first of its types that it reads as, and a keyword
with a value that means nothing is satisfied by nothing.
-/

namespace OnlyJs.Contract

open Bridge Lib

/-- The exact value of a number in units of `2 ^ -1074`. -/
def exact : Value → Option Int
  | .int n => some (n * Binary64.one)
  | .double bits => some (Binary64.ofBits bits)
  | _ => none

def sameNumber (a b : Value) : Bool := exact a == exact b

inductive HasType : Value → String → Prop
  | null : HasType .null "null"
  | boolean (flag : Bool) : HasType (.bool flag) "boolean"
  | string (text : String) : HasType (.string text) "string"
  | integer (n : Int) : HasType (.int n) "integer"
  | whole (n : Int) : HasType (.int n) "number"
  | double (bits : UInt64) : HasType (.double bits) "number"
  | object (fields : Fields) : HasType (.object fields) "object"
  | array (items : List Value) : HasType (.array items) "array"

def TypeMeans (obj : Fields) (value : Value) : Prop :=
  match obj.lookup "type" with
  | none => True
  | some (.string ty) => HasType value ty
  | some (.array types) => ∃ ty, .string ty ∈ types ∧ HasType value ty
  | some _ => False

def EnumMeans (obj : Fields) (value : Value) : Prop :=
  match obj.lookup "enum" with
  | none => True
  | some (.array arr) => ∃ entry ∈ arr, eqWith sameNumber entry value = true
  | some _ => False

def RequiredMeans (obj fields : Fields) : Prop :=
  match obj.lookup "required" with
  | none => True
  | some (.array entries) =>
    ∀ entry ∈ entries, ∃ name, entry = .string name ∧ (fields.lookup name).isSome = true
  | some _ => False

/-- A bound by a number, whatever its representation. -/
def BoundMeans (obj : Fields) (key : String) (holds : Int → Prop) : Prop :=
  ∀ bound, obj.lookup key = some bound → ∃ units, exact bound = some units ∧ holds units

def CountMeans (obj : Fields) (least most : String) (count : Nat) : Prop :=
  BoundMeans obj least (fun units => units ≤ count * Binary64.one) ∧
    BoundMeans obj most fun units => (count : Int) * Binary64.one ≤ units

def NumberMeans (obj : Fields) (value : Value) : Prop :=
  BoundMeans obj "minimum" (fun units => ∃ own, exact value = some own ∧ units ≤ own) ∧
    BoundMeans obj "maximum" fun units => ∃ own, exact value = some own ∧ own ≤ units

def PatternMeans (host : Host) (obj : Fields) (text : String) : Prop :=
  match obj.lookup "pattern" with
  | none => True
  | some (.string pattern) => host.isMatch pattern text = true
  | some _ => False

/-- `nullable` says yes or no. -/
def NullableFormed (obj : Fields) : Prop :=
  ∀ declared, obj.lookup "nullable" = some declared → ∃ flag, declared = .bool flag

/-- The schema lets null pass whatever else it says. -/
def LetsNull (obj : Fields) (value : Value) : Prop :=
  obj.lookup "nullable" = some (.bool true) ∧ value = .null

def declaredProps (obj : Fields) : Fields :=
  ((obj.lookup "properties").bind asObject).getD []

mutual

def Satisfies (host : Host) (schema value : Value) : Prop :=
  match schema with
  | .object obj =>
    NullableFormed obj ∧ (LetsNull obj value ∨
      (TypeMeans obj value ∧ EnumMeans obj value ∧
        match value with
        | .object fields => RequiredMeans obj fields ∧ FieldsSatisfy host obj fields
        | .array items => ItemsSatisfy host (obj.lookup "items") items ∧
            CountMeans obj "minItems" "maxItems" items.length
        | .string text => CountMeans obj "minLength" "maxLength" text.toList.length ∧
            PatternMeans host obj text
        | .int n => NumberMeans obj (.int n)
        | .double bits => NumberMeans obj (.double bits)
        | .null => True
        | .bool _ => True))
  | _ => False
termination_by structural value

def FieldsSatisfy (host : Host) (obj fields : Fields) : Prop :=
  match fields with
  | [] => True
  | entry :: rest => FieldSatisfies host obj entry ∧ FieldsSatisfy host obj rest
termination_by structural fields

/-- A field satisfies its property, or what is said about additional ones. -/
def FieldSatisfies (host : Host) (obj : Fields) (entry : String × Value) : Prop :=
  match entry with
  | (name, value) =>
    match (declaredProps obj).lookup name with
    | some sub => Satisfies host sub value
    | none =>
      match obj.lookup "additionalProperties" with
      | none => True
      | some (.bool flag) => flag = true
      | some sub => Satisfies host sub value
termination_by structural entry

def ItemsSatisfy (host : Host) (sub : Option Value) (items : List Value) : Prop :=
  match items with
  | [] => True
  | item :: rest =>
    match sub with
    | none => True
    | some schema => Satisfies host schema item ∧ ItemsSatisfy host (some schema) rest
termination_by structural items

end

/-- A text read as a type. -/
inductive Reads (raw : String) : String → Value → Prop
  | integer (n : Int) (parsed : Decimal.parseInt64 raw.toList = some n) :
      Reads raw "integer" (.int n)
  | number (bits : UInt64) (parsed : Binary64.parse raw.toList = some (.finite bits)) :
      Reads raw "number" (.double bits)
  | yes (same : raw = "true") : Reads raw "boolean" (.bool true)
  | no (same : raw = "false") : Reads raw "boolean" (.bool false)
  | null (same : raw = "null") : Reads raw "null" .null
  | string : Reads raw "string" (.string raw)

/-- A text read as the first of the types that it can be read as. -/
inductive ReadsFirst (raw : String) : List String → Value → Prop
  | here (ty : String) (rest : List String) (value : Value) (reads : Reads raw ty value) :
      ReadsFirst raw (ty :: rest) value
  | later (ty : String) (rest : List String) (value : Value)
      (unread : ∀ other, ¬ Reads raw ty other) (reads : ReadsFirst raw rest value) :
      ReadsFirst raw (ty :: rest) value

/-- The texts of a channel, read as the types of their properties. -/
def ReadsAs (host : Host) (schema : Value) (entry : String × String) (field : String × Value) :
    Prop :=
  field.1 = entry.1 ∧
    ∃ target, targetOf host schema entry.1 = .ok target ∧ ReadsFirst entry.2 target field.2

def ScalarsMean (host : Host) (schema : Option Value) (src : List (String × String)) : Prop :=
  ∀ declared, schema = some declared →
    ∃ fields, List.Forall₂ (ReadsAs host declared) src fields ∧
      Satisfies host declared (.object fields)

/-- The reference semantics of a contract on one request. -/
def InputContract.Means {host : Host} (contract : InputContract host)
    (params query : List (String × String)) (body : Option Value) : Prop :=
  ScalarsMean host contract.params params ∧ ScalarsMean host contract.query query ∧
    ∀ declared, contract.body = some declared → Satisfies host declared (body.getD .null)

/-! ## Where the check means the same

The check does not look at every form of a keyword value, and computes with
rounded numbers. -/

/-- A number that a double holds exactly. -/
def Exact (value : Value) : Prop := asF64 value = exact value

mutual

def mixed (a b : Value) : Bool :=
  match a, b with
  | .int _, .double _ => true
  | .double _, .int _ => true
  | .array xs, .array ys => mixedItems xs ys
  | .object xs, .object ys => mixedFields xs ys
  | _, _ => false
termination_by structural a

def mixedItems (xs ys : List Value) : Bool :=
  match xs, ys with
  | x :: xs, y :: ys => mixed x y || mixedItems xs ys
  | _, _ => false
termination_by structural xs

def mixedFields (xs ys : Fields) : Bool :=
  match xs, ys with
  | x :: xs, y :: ys => mixedField x y || mixedFields xs ys
  | _, _ => false
termination_by structural xs

def mixedField (x y : String × Value) : Bool :=
  match x with
  | (_, value) => mixed value y.2
termination_by structural x

end

/-- An integer met with a double is one that a double holds, and neither is inside
an array or an object. -/
def PairPlain (entry value : Value) : Prop :=
  mixed entry value = true →
    isNumber entry = true ∧ isNumber value = true ∧ Exact entry ∧ Exact value

def EnumPlain (obj : Fields) (value : Value) : Prop :=
  ∀ arr, obj.lookup "enum" = some (.array arr) → ∀ entry ∈ arr, PairPlain entry value

/-- A bound on a count is written as a natural number. -/
def CountPlain (obj : Fields) (key : String) : Prop :=
  ∀ bound, obj.lookup key = some bound → ∃ n : Nat, bound = .int n

/-- A bound on a number and the number are held exactly by doubles. -/
def BoundPlain (obj : Fields) (key : String) (value : Value) : Prop :=
  ∀ bound, obj.lookup key = some bound → Exact bound ∧ Exact value

/-- `additionalProperties` says yes or no. -/
def AdditionalPlain (obj : Fields) : Prop :=
  ∀ declared, obj.lookup "additionalProperties" = some declared → ∃ flag, declared = .bool flag

mutual

/-- No keyword that applies to a part of the value has a form that the check does
not handle. -/
def Plain (schema value : Value) : Prop :=
  match schema with
  | .object obj =>
    NullableFormed obj ∧ (¬ LetsNull obj value → TypeMeans obj value →
      EnumPlain obj value ∧ (EnumMeans obj value →
        match value with
        | .object fields => FieldsPlain obj fields
        | .array items => ItemsPlain (obj.lookup "items") items ∧
            CountPlain obj "minItems" ∧ CountPlain obj "maxItems"
        | .string _ => CountPlain obj "minLength" ∧ CountPlain obj "maxLength"
        | .int n => BoundPlain obj "minimum" (.int n) ∧ BoundPlain obj "maximum" (.int n)
        | .double bits =>
          BoundPlain obj "minimum" (.double bits) ∧ BoundPlain obj "maximum" (.double bits)
        | .null => True
        | .bool _ => True))
  | _ => True
termination_by structural value

def FieldsPlain (obj fields : Fields) : Prop :=
  match fields with
  | [] => True
  | entry :: rest => FieldPlain obj entry ∧ FieldsPlain obj rest
termination_by structural fields

def FieldPlain (obj : Fields) (entry : String × Value) : Prop :=
  match entry with
  | (name, value) =>
    match (declaredProps obj).lookup name with
    | some sub => Plain sub value
    | none => AdditionalPlain obj
termination_by structural entry

def ItemsPlain (sub : Option Value) (items : List Value) : Prop :=
  match items with
  | [] => True
  | item :: rest =>
    match sub with
    | none => True
    | some schema => Plain schema item ∧ ItemsPlain (some schema) rest
termination_by structural items

end

/-- The type that a text is coerced to is not `number` with a number that is not
finite, and null is not listed where no type fits. -/
def TextPlain (raw : String) (target : List String) : Prop :=
  match target.find? fun ty => (coerceType raw ty).isSome with
  | some ty => ¬ (ty = "number" ∧ Binary64.parse raw.toList = some .nonFinite)
  | none => "null" ∉ target

def ScalarsPlain (host : Host) (schema : Option Value) (src : List (String × String)) : Prop :=
  ∀ declared, schema = some declared →
    (∀ entry ∈ src, ∀ target, targetOf host declared entry.1 = .ok target →
      TextPlain entry.2 target) ∧
    ∀ fields, List.Forall₂ (ReadsAs host declared) src fields → Plain declared (.object fields)

def InputContract.Plain {host : Host} (contract : InputContract host)
    (params query : List (String × String)) (body : Option Value) : Prop :=
  ScalarsPlain host contract.params params ∧ ScalarsPlain host contract.query query ∧
    ∀ declared, contract.body = some declared → Contract.Plain declared (body.getD .null)

end OnlyJs.Contract
