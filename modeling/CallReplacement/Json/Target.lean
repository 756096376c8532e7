import CallReplacement.Expr
import CallReplacement.Json.Basics
import CallReplacement.Resolve.Lowering

/-!
Target expressions, modules and the outcome of a run as JSON. A node is written as its shape,
its type and, if it has one, its range.
-/

namespace CallReplacement

def Json.present (name : String) : Option Json → List (String × Json)
  | some value => [(name, value)]
  | none => []

def Json.case (name : String) (value : Json) : Json := .object [(name, value)]

def Note.node (note : Note) (shape : Json) : Json :=
  .object (("kind", shape) :: ("ty", note.type.toJson)
    :: Json.present "range" (note.range.map SourceRange.toJson))

def Binding.toJson (b : Binding) : Json :=
  .object [("name", .string b.name), ("ty", b.type.toJson)]

def ImportRef.toJson (i : ImportRef) : Json :=
  .object [("selector", .string i.selector), ("path", .string i.path)]

def CallStyle.name : CallStyle → String
  | .direct => "Direct"
  | .construct => "Construct"

namespace Expr

mutual

def toJson : Expr → Json
  | .literal note value => note.node (.case "Value" value.toJson)
  | .ident note binding => note.node (.case "Ident" binding.toJson)
  | .imported note source => note.node (.case "Import" source.toJson)
  | .field note target name =>
      note.node (.case "Get"
        (.object [("expr", toJson target), ("key", .case "Field" (.string name))]))
  | .index note target key =>
      note.node (.case "Get"
        (.object [("expr", toJson target), ("key", .case "Index" (toJson key))]))
  | .call note style callee args =>
      note.node (.case "Call"
        (.object [("callee", toJson callee), ("args", .array (allToJson args)),
          ("kind", .string style.name)]))
  | .object note fields => note.node (.case "Object" (.array (fieldsToJson fields)))
  | .cast note operand => note.node (.case "TypeCast" (toJson operand))
  | .raw note template args =>
      note.node (.case "Emit"
        (.object [("template", .string template), ("args", .array (allToJson args))]))
  | .unary note op operand =>
      note.node (.case "Operation" (.case "Unary"
        (.object [("op", .string op.name), ("operand", toJson operand)])))
  | .binary note op left right =>
      note.node (.case "Operation" (.case "Binary"
        (.object [("op", .string op.name), ("left", toJson left), ("right", toJson right)])))
  | .logical note op left right =>
      note.node (.case "Operation" (.case "Logical"
        (.object [("op", .string op.name), ("left", toJson left), ("right", toJson right)])))
  | .lambda note params body =>
      note.node (.case "Lambda"
        (.object [("params", .array (params.map Binding.toJson)), ("body", toJson body)]))
  | .bind note binding value body =>
      note.node (.case "Let"
        (.object [("ident", binding.toJson), ("value", toJson value), ("body", toJson body)]))
  | .conditional note guard yes no =>
      note.node (.case "IfThenElse"
        (.object [("guard", toJson guard), ("then", toJson yes), ("otherwise", toJson no)]))
  | .sequence note exprs => note.node (.case "Sequential" (.array (allToJson exprs)))

def allToJson : List Expr → List Json
  | [] => []
  | e :: rest => toJson e :: allToJson rest

def fieldsToJson : List (String × Expr) → List Json
  | [] => []
  | (name, e) :: rest => .array [.string name, toJson e] :: fieldsToJson rest

end

end Expr

def Declaration.toJson (d : Declaration) : Json :=
  .object ([("name", .string d.name), ("body", d.body.toJson), ("is_public", .bool d.isPublic)]
    ++ Json.present "range" (d.range.map SourceRange.toJson))

def Module.toJson (m : Module) : Json :=
  .object [("source_path", .string m.sourcePath),
    ("declarations", .array (m.declarations.map Declaration.toJson))]

def Handler.toJson : Handler → Json
  | .plugin name => .object [("kind", .string "plugin"), ("name", .string name)]
  | .builtin => .object [("kind", .string "builtin")]
  | .passThrough => .object [("kind", .string "pass_through")]

def ResolvedCall.toJson (c : ResolvedCall) : Json :=
  .object ([("owner", .string c.site.owner), ("member", .string c.site.member),
    ("handler", c.handler.toJson)] ++ Json.present "range" (c.site.range.map SourceRange.toJson))

def Diagnostic.toJson (d : Diagnostic) : Json :=
  .object ([("severity", .string d.severity.name), ("phase", .string d.phase),
    ("message", .string d.message)] ++ Json.present "range" (d.range.map SourceRange.toJson))

end CallReplacement
