import CallReplacement.Text.Segments

/-!
Resolved types. A type says what a value is, not how a target language spells it.
-/

namespace CallReplacement

inductive NumberKind
  | int8 | uint8 | int16 | uint16 | int32 | uint32 | int64 | uint64
  | float32 | float64 | decimal
deriving DecidableEq, Repr

def NumberKind.text : NumberKind → String
  | .int8 => "int8"
  | .uint8 => "uint8"
  | .int16 => "int16"
  | .uint16 => "uint16"
  | .int32 => "int32"
  | .uint32 => "uint32"
  | .int64 => "int64"
  | .uint64 => "uint64"
  | .float32 => "float32"
  | .float64 => "float64"
  | .decimal => "decimal"

def NumberKind.isInteger : NumberKind → Bool
  | .float32 | .float64 | .decimal => false
  | _ => true

inductive ValueType
  | any
  | unit
  | boolean
  | char
  | string
  | number (kind : NumberKind)
  | array (element : ValueType)
  | option (inner : ValueType)
  | tuple (elements : List ValueType)
  | lambda (params : List ValueType) (result : ValueType)
  /-- A generic parameter that is not resolved. -/
  | parameter (name : String)
  | declared (fullName : String) (generics : List ValueType)
deriving Repr, Inhabited

namespace ValueType

def int32 : ValueType := .number .int32

def float64 : ValueType := .number .float64

def lambdaArity : ValueType → Option Nat
  | .lambda params _ => some params.length
  | _ => none

def fullName : ValueType → Option String
  | .declared fullName _ => some fullName
  | _ => none

def isUnit : ValueType → Bool
  | .unit => true
  | _ => false

def isAny : ValueType → Bool
  | .any => true
  | _ => false

mutual

def text : ValueType → String
  | .any => "any"
  | .unit => "unit"
  | .boolean => "bool"
  | .char => "char"
  | .string => "string"
  | .number kind => kind.text
  | .array element => text element ++ "[]"
  | .option inner => text inner ++ " option"
  | .tuple elements => "(" ++ Text.joined " * " (texts elements) ++ ")"
  | .lambda params result =>
      "(" ++ Text.joined ", " (texts params) ++ ") -> " ++ text result
  | .parameter name => "'" ++ name
  | .declared fullName generics =>
      match texts generics with
      | [] => fullName
      | shown => fullName ++ "<" ++ Text.joined ", " shown ++ ">"

def texts : List ValueType → List String
  | [] => []
  | type :: rest => text type :: texts rest

end

end ValueType
end CallReplacement
