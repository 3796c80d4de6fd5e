import OnlyJs.Contract.Schema
import OnlyJs.Lib.Binary64

/-!
# Checking a request against its contract

The texts of `params` and `query` are coerced to the declared types first; then
every channel is checked the same way, by recursion over the value.
-/

namespace OnlyJs.Contract

open Bridge Lib

def asI64 : Value → Option Int
  | .int n => if n < 2 ^ 63 then some n else none
  | _ => none

def asU64 : Value → Option Nat
  | .int n => if 0 ≤ n then some n.toNat else none
  | _ => none

/-- The number as a double, in units of `2 ^ -1074`; an integer is rounded. -/
def asF64 : Value → Option Int
  | .int n => some (Binary64.ofInt n)
  | .double bits => some (Binary64.ofBits bits)
  | _ => none

def numericEq (a b : Value) : Bool :=
  match asI64 a, asI64 b with
  | some x, some y => x = y
  | _, _ =>
    match asU64 a, asU64 b with
    | some x, some y => x = y
    | _, _ => asF64 a = asF64 b

mutual

def eqWith (number : Value → Value → Bool) (a b : Value) : Bool :=
  match a, b with
  | .null, .null => true
  | .bool x, .bool y => x == y
  | .string x, .string y => x == y
  | .array xs, .array ys => eqItems number xs ys
  | .object xs, .object ys => eqFields number xs ys
  | x, y => isNumber x && isNumber y && number x y
termination_by structural a

def eqItems (number : Value → Value → Bool) (xs ys : List Value) : Bool :=
  match xs, ys with
  | [], [] => true
  | x :: xs, y :: ys => eqWith number x y && eqItems number xs ys
  | _, _ => false
termination_by structural xs

def eqFields (number : Value → Value → Bool) (xs ys : Fields) : Bool :=
  match xs, ys with
  | [], [] => true
  | x :: xs, y :: ys => eqField number x y && eqFields number xs ys
  | _, _ => false
termination_by structural xs

def eqField (number : Value → Value → Bool) (x y : String × Value) : Bool :=
  match x with
  | (name, value) => name == y.1 && eqWith number value y.2
termination_by structural x

end

def strictNumber : Value → Value → Bool
  | .int x, .int y => x == y
  | .double x, .double y => Binary64.ofBits x == Binary64.ofBits y
  | _, _ => false

def valuesEq (a b : Value) : Bool :=
  if isNumber a && isNumber b then numericEq a b else eqWith strictNumber a b

def enumContains (arr : List Value) (value : Value) : Bool := arr.any (valuesEq · value)

def coerceType (raw ty : String) : Option Value :=
  if ty = "integer" then (Decimal.parseInt64 raw.toList).map .int
  else if ty = "number" then
    (Binary64.parse raw.toList).map fun parsed =>
      match parsed with
      | .finite bits => .double bits
      | .nonFinite => .null
  else if ty = "boolean" then
    if raw = "true" then some (.bool true) else if raw = "false" then some (.bool false) else none
  else if ty = "null" then if raw = "null" then some .null else none
  else if ty = "string" then some (.string raw)
  else none

def coerceOne (raw : String) (target : List String) : Option Value :=
  target.findSome? (coerceType raw)

/-- The types of a property of a string channel, `string` by default. -/
def targetOf (host : Host) (schema : Value) (name : String) : Except String (List String) :=
  match ((schema.get "properties").bind (·.get name)).bind (·.get "type") with
  | some declared => declaredTypes host declared
  | none => .ok ["string"]

def coerceEntry (host : Host) (schema : Value) (chan : String) (entry : String × String) :
    Except String (String × Value) := do
  let target ← (targetOf host schema entry.1).mapError (chan ++ "." ++ entry.1 ++ ": " ++ ·)
  match coerceOne entry.2 target with
  | some value => .ok (entry.1, value)
  | none =>
    if "null" ∈ target then .ok (entry.1, .null)
    else .error (chan ++ "." ++ entry.1 ++ ": expected " ++ String.intercalate "|" target ++
      ", cannot parse " ++ host.debug entry.2)

def coerceScalars (host : Host) (schema : Value) (src : List (String × String)) (chan : String) :
    Except String Value :=
  (src.mapM (coerceEntry host schema chan)).map .object

def matchesType (value : Value) (ty : String) : Bool :=
  match value with
  | .null => ty = "null"
  | .bool _ => ty = "boolean"
  | .string _ => ty = "string"
  | .int _ => ty = "integer" || ty = "number"
  | .double _ => ty = "number"
  | .object _ => ty = "object"
  | .array _ => ty = "array"

def kindOf : Value → String
  | .null => "null"
  | .bool _ => "boolean"
  | .int _ | .double _ => "number"
  | .string _ => "string"
  | .array _ => "array"
  | .object _ => "object"

def nullable (obj : Fields) : Bool := ((obj.lookup "nullable").bind asBool).getD false

def checkType (host : Host) (obj : Fields) (value : Value) (path : String) :
    Except String Unit :=
  match obj.lookup "type" with
  | some declared => do
      let types ← (declaredTypes host declared).mapError (path ++ ": " ++ ·)
      Fallible.reject (!types.any (matchesType value)) (path ++ ": expected " ++
        String.intercalate "|" types ++ ", got " ++ kindOf value)
  | none => .ok ()

def checkHead (host : Host) (obj : Fields) (value : Value) (path : String) :
    Except String Bool :=
  if nullable obj && isNull value then .ok false
  else do
    checkType host obj value path
    match obj.lookup "enum" with
    | none => .ok true
    | some (.array arr) =>
      if enumContains arr value then .ok true
      else .error (path ++ ": must be one of " ++ host.json (.array arr) ++ ", got " ++
        host.json value)
    | some _ => .ok false

def checkRequired (obj : Fields) (fields : Fields) (path : String) : Except String Unit :=
  match (obj.lookup "required").bind asArray with
  | some required => required.forM fun entry =>
    match entry.asStr with
    | some name => Fallible.reject (fields.lookup name).isNone
        (path ++ ": missing required field `" ++ name ++ "`")
    | none => .ok ()
  | none => .ok ()

/-- `additionalProperties` is the literal `false`. -/
def closed (obj : Fields) : Bool :=
  match obj.lookup "additionalProperties" with
  | some (.bool false) => true
  | _ => false

/-- A bound on a count; `refused` is what the message says. -/
def checkCount (obj : Fields) (key : String) (broken : Nat → Bool) (refused : Nat → String) :
    Except String Unit :=
  match (obj.lookup key).bind asU64 with
  | some n => Fallible.reject (broken n) (refused n)
  | none => .ok ()

def checkItemCounts (obj : Fields) (count : Nat) (path : String) : Except String Unit := do
  checkCount obj "minItems" (count < ·) fun n =>
    path ++ ": expected at least " ++ toString n ++ " items, got " ++ toString count
  checkCount obj "maxItems" (· < count) fun n =>
    path ++ ": expected at most " ++ toString n ++ " items, got " ++ toString count

def checkPattern (host : Host) (pats : List String) (obj : Fields) (text path : String) :
    Except String Unit :=
  match obj.lookup "pattern" with
  | some (.string pattern) =>
    if pattern ∈ pats then
      Fallible.reject (!host.isMatch pattern text)
        (path ++ ": does not match pattern " ++ host.debug pattern)
    else .error (path ++ ": pattern " ++ host.debug pattern ++
      " was not precompiled (internal)")
  | _ => .ok ()

def checkString (host : Host) (pats : List String) (obj : Fields) (text path : String) :
    Except String Unit := do
  let count := text.toList.length
  checkCount obj "minLength" (count < ·) fun n =>
    path ++ ": shorter than minLength " ++ toString n
  checkCount obj "maxLength" (· < count) fun n => path ++ ": longer than maxLength " ++ toString n
  checkPattern host pats obj text path

def checkBound (obj : Fields) (key : String) (broken : Int → Bool) (refused : Int → String) :
    Except String Unit :=
  match (obj.lookup key).bind asF64 with
  | some n => Fallible.reject (broken n) (refused n)
  | none => .ok ()

def checkNumber (host : Host) (obj : Fields) (value : Value) (path : String) :
    Except String Unit := do
  checkBound obj "minimum" (fun n => (asF64 value).getD Binary64.largest < n) fun n =>
    path ++ ": must be >= " ++ host.float n
  checkBound obj "maximum" (fun n => n < (asF64 value).getD (-Binary64.largest)) fun n =>
    path ++ ": must be <= " ++ host.float n

def goOn (head : Except String Bool) (rest : Except String Unit) : Except String Unit :=
  match head with
  | .error e => .error e
  | .ok false => .ok ()
  | .ok true => rest

mutual

def checkValue (host : Host) (pats : List String) (schema value : Value) (path : String) :
    Except String Unit :=
  match schema with
  | .object obj =>
    goOn (checkHead host obj value path)
      (match value with
      | .object fields => do
          checkRequired obj fields path
          match (obj.lookup "properties").bind asObject with
          | some props => checkFields host pats obj props fields path
          | none =>
            Fallible.reject (closed obj && !fields.isEmpty)
              (path ++ ": additional properties are not allowed (got " ++
                toString fields.length ++ ")")
      | .array items => do
          checkItems host pats (obj.lookup "items") items 0 path
          checkItemCounts obj items.length path
      | .string text => checkString host pats obj text path
      | .int n => checkNumber host obj (.int n) path
      | .double bits => checkNumber host obj (.double bits) path
      | .null => .ok ()
      | .bool _ => .ok ())
  | _ => .ok ()
termination_by structural value

def checkFields (host : Host) (pats : List String) (obj props fields : Fields) (path : String) :
    Except String Unit :=
  match fields with
  | [] => .ok ()
  | entry :: rest => do
      checkField host pats obj props entry path
      checkFields host pats obj props rest path
termination_by structural fields

def checkField (host : Host) (pats : List String) (obj props : Fields) (entry : String × Value)
    (path : String) : Except String Unit :=
  match entry with
  | (name, value) =>
    match props.lookup name with
    | some sub => checkValue host pats sub value (path ++ "." ++ name)
    | none => Fallible.reject (closed obj)
        (path ++ ": additional property `" ++ name ++ "` is not allowed")
termination_by structural entry

def checkItems (host : Host) (pats : List String) (sub : Option Value) (items : List Value)
    (index : Nat) (path : String) : Except String Unit :=
  match items with
  | [] => .ok ()
  | item :: rest =>
    match sub with
    | none => .ok ()
    | some schema => do
        checkValue host pats schema item (path ++ "[" ++ toString index ++ "]")
        checkItems host pats (some schema) rest (index + 1) path
termination_by structural items

end

def checkScalars (host : Host) (pats : List String) (schema : Option Value)
    (src : List (String × String)) (chan : String) : Except String Unit :=
  match schema with
  | none => .ok ()
  | some schema => do
      let value ← coerceScalars host schema src chan
      checkValue host pats schema value chan

def InputContract.check {host : Host} (contract : InputContract host)
    (params query : List (String × String)) (body : Option Value) (pats : List String) :
    Except String Unit := do
  checkScalars host pats contract.params params "params"
  checkScalars host pats contract.query query "query"
  match contract.body with
  | none => .ok ()
  | some schema => checkValue host pats schema (body.getD .null) "body"

end OnlyJs.Contract
