import CallReplacement.ValueType

/-!
Literal values, shared by the source tree and the target expressions.
-/

namespace CallReplacement

inductive Literal
  | null
  | unit
  | bool (value : Bool)
  | int (value : Int64)
  | float (value : Float)
  | string (value : String)
  | char (value : Char)
deriving Repr

def Literal.naturalType : Literal → ValueType
  | .null => .any
  | .unit => .unit
  | .bool _ => .boolean
  | .int _ => .int32
  | .float _ => .float64
  | .string _ => .string
  | .char _ => .char

end CallReplacement
