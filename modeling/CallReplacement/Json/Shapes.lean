import CallReplacement.Json.Shape
import CallReplacement.Json.Source

/-!
The shapes of the documents that are read. Each goes with the interpreter of the same record:
what is read by the shape is then interpreted as a value.
-/

namespace CallReplacement

open Json (Shape)

namespace ValueType

def shape : Shape := .tagged "type" tags fun j => (ofJson? j).isSome

end ValueType

namespace Literal

def valueShapes : List (String × Shape) :=
  [("null", .nothing), ("unit", .nothing), ("bool", .truth),
    ("int", .integer (-0x8000000000000000) 0x7FFFFFFFFFFFFFFF), ("float", .float),
    ("string", .text), ("char", .char)]

def shape : Shape := .adjacent "type" "value" valueShapes fun j => (ofJson? j).isSome

end Literal

namespace Position

def shape : Shape :=
  .record [("line", .integer 0 0xFFFFFFFF, true, false),
    ("column", .integer 0 0xFFFFFFFF, true, false)] false

end Position

namespace SourceRange

def shape : Shape :=
  .record [("file", .text, false, true), ("start", Position.shape, true, false),
    ("end", Position.shape, true, false)] false

end SourceRange

namespace Attribute

def shape : Shape :=
  .record [("full_name", .text, true, false), ("args", .list Literal.shape, false, false)] false

end Attribute

namespace MemberRef

def shape : Shape :=
  .record [("entity", .text, true, false), ("name", .text, true, false),
    ("kind", .choice (MemberKind.all.map MemberKind.name), true, false),
    ("is_instance", .truth, false, false),
    ("attributes", .list Attribute.shape, false, false),
    ("generic_args", .list ValueType.shape, false, false),
    ("signature_arg_types", .list ValueType.shape, false, false),
    ("return_type", ValueType.shape, false, false)] true

end MemberRef

namespace SourceExpr

def shape : Shape := .tagged "kind" tags fun j => (ofJson? j).isSome

end SourceExpr

namespace SourceDeclaration

def shape : Shape :=
  .record [("name", .text, true, false), ("is_public", .truth, false, false),
    ("body", SourceExpr.shape, true, false), ("range", SourceRange.shape, false, true)] false

end SourceDeclaration

namespace SourceFile

def shape : Shape :=
  .record [("path", .text, true, false),
    ("declarations", .list SourceDeclaration.shape, false, false)] false

end SourceFile

namespace Json.Shape

def parseAs (shape : Shape) (interpret : Json → Option α) (text : String) :
    Except ReadFault α :=
  match shape.parse text with
  | .error fault => .error fault
  | .ok value =>
      match interpret value with
      | some a => .ok a
      | none => .error .misfit

end Json.Shape
end CallReplacement
