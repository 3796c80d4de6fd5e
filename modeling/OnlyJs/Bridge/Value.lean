import Mathlib.Algebra.Order.Ring.Int

/-!
# JSON values

Numbers are integers or doubles; a double is known by its bits, since nothing
here computes with it. An object lists its fields in iteration order.
-/

namespace OnlyJs.Bridge

inductive Value where
  | null
  | bool (flag : Bool)
  | int (number : Int)
  | double (bits : UInt64)
  | string (text : String)
  | array (items : List Value)
  | object (fields : List (String × Value))

def Value.get (value : Value) (key : String) : Option Value :=
  match value with
  | .object fields => fields.lookup key
  | _ => none

def Value.asStr : Value → Option String
  | .string text => some text
  | _ => none

end OnlyJs.Bridge
