import CallReplacement.Json.Basics
import CallReplacement.Source.File

/-!
Source files as JSON. Every record reads its fields by name, in any order, and passes over
members that are not its fields; only a member reference refuses them. A field given twice is
refused everywhere.
-/

namespace CallReplacement

def Json.range? (names : List String) (j : Json) : Option (Option SourceRange) :=
  j.optional names "range" none fun v _ => v.nullable fun inner _ => SourceRange.ofJson? inner

def Json.type? (names : List String) (name : String) (j : Json) : Option ValueType :=
  j.optional names name .any fun v _ => ValueType.ofJson? v

def Json.types? (names : List String) (name : String) (j : Json) : Option (List ValueType) :=
  j.optional names name [] fun v _ => v.items? fun item _ => ValueType.ofJson? item

namespace Attribute

def fields : List String := ["full_name", "args"]

def ofJson? (j : Json) : Option Attribute :=
  if !j.fits fields false then none
  else do
    let fullName ← j.required fields "full_name" fun v _ => v.text?
    let args ← j.optional fields "args" [] fun v _ => v.items? fun item _ => Literal.ofJson? item
    some ⟨fullName, args⟩

end Attribute

namespace MemberRef

def fields : List String :=
  ["entity", "name", "kind", "is_instance", "attributes", "generic_args", "signature_arg_types",
    "return_type"]

def ofJson? (j : Json) : Option MemberRef :=
  if !j.fits fields true then none
  else do
    let entity ← j.required fields "entity" fun v _ => v.text?
    let name ← j.required fields "name" fun v _ => v.text?
    let kind ← j.required fields "kind" fun v _ => v.named? MemberKind.all MemberKind.name
    let isInstance ← j.optional fields "is_instance" false fun v _ => v.truth?
    let attributes ← j.optional fields "attributes" [] fun v _ =>
      v.items? fun item _ => Attribute.ofJson? item
    let generics ← j.types? fields "generic_args"
    let signature ← j.types? fields "signature_arg_types"
    let returnType ← j.type? fields "return_type"
    some ⟨entity, name, kind, isInstance, attributes, generics, signature, returnType⟩

end MemberRef

namespace Param

def fields : List String := ["name", "ty"]

def ofJson? (j : Json) : Option Param :=
  if !j.fits fields false then none
  else do
    let name ← j.required fields "name" fun v _ => v.text?
    let type ← j.type? fields "ty"
    some ⟨name, type⟩

end Param

namespace SourceExpr

def tags : List String :=
  ["const", "ident", "call", "apply", "get", "lambda", "let", "if", "sequential", "record",
    "binary", "logical", "unary", "coerce"]

def fields (tag : String) : List String :=
  match tag with
  | "const" => ["kind", "value", "ty", "range"]
  | "ident" => ["kind", "name", "ty", "range"]
  | "call" => ["kind", "member", "receiver", "args", "generic_args", "range"]
  | "apply" => ["kind", "callee", "args", "ty", "range"]
  | "get" => ["kind", "expr", "field", "ty", "range"]
  | "lambda" => ["kind", "params", "body", "range"]
  | "let" => ["kind", "name", "ty", "value", "body", "range"]
  | "if" => ["kind", "guard", "then", "otherwise", "range"]
  | "sequential" => ["kind", "exprs", "range"]
  | "record" => ["kind", "fields", "ty", "range"]
  | "binary" => ["kind", "op", "left", "right", "ty", "range"]
  | "logical" => ["kind", "op", "left", "right", "range"]
  | "unary" => ["kind", "op", "operand", "ty", "range"]
  | "coerce" => ["kind", "expr", "ty", "range"]
  | _ => ["kind"]

def recordField : List String := ["name", "value"]

def ofJson? (j : Json) : Option SourceExpr := do
  let tag ← j.required ["kind"] "kind" fun v _ => v.tag? tags
  let names := fields tag
  if !j.fits names false then none
  else match tag with
    | "const" => do
        let value ← j.required names "value" fun v _ => Literal.ofJson? v
        some (.const value (← j.type? names "ty") (← j.range? names))
    | "ident" => do
        let name ← j.required names "name" fun v _ => v.text?
        some (.ident name (← j.type? names "ty") (← j.range? names))
    | "call" => do
        let member ← j.required names "member" fun v _ => MemberRef.ofJson? v
        let receiver ← j.optional names "receiver" none fun v _ =>
          v.nullable fun inner _ => ofJson? inner
        let args ← j.optional names "args" [] fun v _ => v.items? fun item _ => ofJson? item
        some (.call member receiver args (← j.types? names "generic_args") (← j.range? names))
    | "apply" => do
        let callee ← j.required names "callee" fun v _ => ofJson? v
        let args ← j.optional names "args" [] fun v _ => v.items? fun item _ => ofJson? item
        some (.apply callee args (← j.type? names "ty") (← j.range? names))
    | "get" => do
        let target ← j.required names "expr" fun v _ => ofJson? v
        let field ← j.required names "field" fun v _ => v.text?
        some (.get target field (← j.type? names "ty") (← j.range? names))
    | "lambda" => do
        let params ← j.required names "params" fun v _ =>
          v.items? fun item _ => Param.ofJson? item
        let body ← j.required names "body" fun v _ => ofJson? v
        some (.lambda params body (← j.range? names))
    | "let" => do
        let name ← j.required names "name" fun v _ => v.text?
        let value ← j.required names "value" fun v _ => ofJson? v
        let body ← j.required names "body" fun v _ => ofJson? v
        some (.bind name (← j.type? names "ty") value body (← j.range? names))
    | "if" => do
        let guard ← j.required names "guard" fun v _ => ofJson? v
        let yes ← j.required names "then" fun v _ => ofJson? v
        let no ← j.required names "otherwise" fun v _ => ofJson? v
        some (.conditional guard yes no (← j.range? names))
    | "sequential" => do
        let exprs ← j.required names "exprs" fun v _ => v.items? fun item _ => ofJson? item
        some (.sequence exprs (← j.range? names))
    | "record" => do
        let fields ← j.required names "fields" fun v _ => v.items? fun item _ =>
          if !item.fits recordField false then none
          else do
            let name ← item.required recordField "name" fun n _ => n.text?
            let value ← item.required recordField "value" fun inner _ => ofJson? inner
            some (name, value)
        some (.record fields (← j.type? names "ty") (← j.range? names))
    | "binary" => do
        let op ← j.required names "op" fun v _ => v.named? BinaryOp.all BinaryOp.name
        let left ← j.required names "left" fun v _ => ofJson? v
        let right ← j.required names "right" fun v _ => ofJson? v
        some (.binary op left right (← j.type? names "ty") (← j.range? names))
    | "logical" => do
        let op ← j.required names "op" fun v _ => v.named? LogicalOp.all LogicalOp.name
        let left ← j.required names "left" fun v _ => ofJson? v
        let right ← j.required names "right" fun v _ => ofJson? v
        some (.logical op left right (← j.range? names))
    | "unary" => do
        let op ← j.required names "op" fun v _ => v.named? UnaryOp.all UnaryOp.name
        let operand ← j.required names "operand" fun v _ => ofJson? v
        some (.unary op operand (← j.type? names "ty") (← j.range? names))
    | "coerce" => do
        let operand ← j.required names "expr" fun v _ => ofJson? v
        let type ← j.required names "ty" fun v _ => ValueType.ofJson? v
        some (.coerce operand type (← j.range? names))
    | _ => none
termination_by sizeOf j
decreasing_by all_goals (subst_vars; omega)

end SourceExpr

namespace SourceDeclaration

def fields : List String := ["name", "is_public", "body", "range"]

def ofJson? (j : Json) : Option SourceDeclaration :=
  if !j.fits fields false then none
  else do
    let name ← j.required fields "name" fun v _ => v.text?
    let isPublic ← j.optional fields "is_public" true fun v _ => v.truth?
    let body ← j.required fields "body" fun v _ => SourceExpr.ofJson? v
    some ⟨name, isPublic, body, ← j.range? fields⟩

end SourceDeclaration

namespace SourceFile

def fields : List String := ["path", "declarations"]

def ofJson? (j : Json) : Option SourceFile :=
  if !j.fits fields false then none
  else do
    let path ← j.required fields "path" fun v _ => v.text?
    let declarations ← j.optional fields "declarations" [] fun v _ =>
      v.items? fun item _ => SourceDeclaration.ofJson? item
    some ⟨path, declarations⟩

end SourceFile
end CallReplacement
