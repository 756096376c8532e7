import CallReplacement.Json.Value
import CallReplacement.Literal
import CallReplacement.Location

/-!
Types, literals and source ranges as JSON. What is written can be read back; fields that say
nothing are left out, and may be missing.
-/

namespace CallReplacement

/-! ## Types

A type is a record whose field `type` says which fields it has beside. -/

namespace NumberKind

def all : List NumberKind :=
  [.int8, .uint8, .int16, .uint16, .int32, .uint32, .int64, .uint64, .float32, .float64, .decimal]

def key : NumberKind → String
  | .int8 => "int8"
  | .uint8 => "u_int8"
  | .int16 => "int16"
  | .uint16 => "u_int16"
  | .int32 => "int32"
  | .uint32 => "u_int32"
  | .int64 => "int64"
  | .uint64 => "u_int64"
  | .float32 => "float32"
  | .float64 => "float64"
  | .decimal => "decimal"

end NumberKind

namespace ValueType

mutual

def toJson : ValueType → Json
  | .any => .object [("type", .string "any")]
  | .unit => .object [("type", .string "unit")]
  | .boolean => .object [("type", .string "boolean")]
  | .char => .object [("type", .string "char")]
  | .string => .object [("type", .string "string")]
  | .number kind => .object [("type", .string "number"), ("kind", .string kind.key)]
  | .array element => .object [("type", .string "array"), ("element", toJson element)]
  | .option inner => .object [("type", .string "option"), ("inner", toJson inner)]
  | .tuple elements =>
      .object [("type", .string "tuple"), ("elements", .array (allToJson elements))]
  | .lambda params result =>
      .object
        [("type", .string "lambda"), ("args", .array (allToJson params)), ("ret", toJson result)]
  | .parameter name => .object [("type", .string "generic_param"), ("name", .string name)]
  | .declared fullName generics =>
      .object (("type", .string "declared") :: ("full_name", .string fullName) ::
        match allToJson generics with
        | [] => []
        | written => [("generic_args", .array written)])

def allToJson : List ValueType → List Json
  | [] => []
  | type :: rest => toJson type :: allToJson rest

end

/-- The alternatives, in the order in which documents may number them. -/
def tags : List String :=
  ["any", "unit", "boolean", "char", "string", "number", "array", "option", "tuple", "lambda",
    "generic_param", "declared"]

def fields (tag : String) : List String :=
  match tag with
  | "number" => ["type", "kind"]
  | "array" => ["type", "element"]
  | "option" => ["type", "inner"]
  | "tuple" => ["type", "elements"]
  | "lambda" => ["type", "args", "ret"]
  | "generic_param" => ["type", "name"]
  | "declared" => ["type", "full_name", "generic_args"]
  | _ => ["type"]

def ofJson? (j : Json) : Option ValueType := do
  let tag ← j.required ["type"] "type" fun v _ => v.tag? tags
  let names := fields tag
  if !j.fits names false then none
  else match tag with
    | "any" => some .any
    | "unit" => some .unit
    | "boolean" => some .boolean
    | "char" => some .char
    | "string" => some .string
    | "number" => do
        let kind ← j.required names "kind" fun v _ => v.named? NumberKind.all NumberKind.key
        some (.number kind)
    | "array" => do
        let element ← j.required names "element" fun v _ => ofJson? v
        some (.array element)
    | "option" => do
        let inner ← j.required names "inner" fun v _ => ofJson? v
        some (.option inner)
    | "tuple" => do
        let elements ← j.required names "elements" fun v _ => v.items? fun item _ => ofJson? item
        some (.tuple elements)
    | "lambda" => do
        let params ← j.required names "args" fun v _ => v.items? fun item _ => ofJson? item
        let result ← j.required names "ret" fun v _ => ofJson? v
        some (.lambda params result)
    | "generic_param" => do
        let name ← j.required names "name" fun v _ => v.text?
        some (.parameter name)
    | "declared" => do
        let fullName ← j.required names "full_name" fun v _ => v.text?
        let generics ← j.optional names "generic_args" [] fun v _ =>
          v.items? fun item _ => ofJson? item
        some (.declared fullName generics)
    | _ => none
termination_by sizeOf j

end ValueType

/-! ## Literals

A literal is a record of its kind and its value; the kinds `null` and `unit` need none. -/

namespace Literal

def toJson : Literal → Json
  | .null => .object [("type", .string "null")]
  | .unit => .object [("type", .string "unit")]
  | .bool value => .object [("type", .string "bool"), ("value", .bool value)]
  | .int value => .object [("type", .string "int"), ("value", .int value.toInt)]
  | .float value => .object [("type", .string "float"), ("value", .float value)]
  | .string value => .object [("type", .string "string"), ("value", .string value)]
  | .char value =>
      .object [("type", .string "char"), ("value", .string (String.singleton value))]

def tags : List String := ["null", "unit", "bool", "int", "float", "string", "char"]

def ofValue? (tag : String) (value : Json) : Option Literal :=
  match tag with
  | "null" => if value matches .null then some .null else none
  | "unit" => if value matches .null then some .unit else none
  | "bool" => value.truth?.map .bool
  | "int" => value.int64?.map .int
  | "float" => value.float?.map .float
  | "string" => value.text?.map .string
  | "char" => value.char?.map .char
  | _ => none

def bare? : String → Option Literal
  | "null" => some .null
  | "unit" => some .unit
  | _ => none

def ofJson? (j : Json) : Option Literal :=
  match j with
  | .object members =>
      if !Json.noRepeats ["type", "value"] members then none
      else do
        let tag ← (← Json.lookup "type" members).choice?
        match Json.lookup "value" members with
        | some value => ofValue? tag value
        | none => bare? tag
  | .array [tag, value] => do ofValue? (← tag.tag? tags) value
  | _ => none

end Literal

/-! ## Source ranges -/

namespace Position

def toJson (p : Position) : Json :=
  .object [("line", .int p.line.toNat), ("column", .int p.column.toNat)]

def fields : List String := ["line", "column"]

def ofJson? (j : Json) : Option Position :=
  if !j.fits fields false then none
  else do
    let line ← j.required fields "line" fun v _ => v.uint32?
    let column ← j.required fields "column" fun v _ => v.uint32?
    some ⟨line, column⟩

end Position

namespace SourceRange

def toJson (r : SourceRange) : Json :=
  .object ((match r.file with
    | some file => [("file", .string file)]
    | none => []) ++ [("start", r.start.toJson), ("end", r.stop.toJson)])

def fields : List String := ["file", "start", "end"]

def ofJson? (j : Json) : Option SourceRange :=
  if !j.fits fields false then none
  else do
    let file ← j.optional fields "file" none fun v _ => v.nullable fun inner _ => inner.text?
    let start ← j.required fields "start" fun v _ => Position.ofJson? v
    let stop ← j.required fields "end" fun v _ => Position.ofJson? v
    some ⟨file, start, stop⟩

end SourceRange
end CallReplacement
