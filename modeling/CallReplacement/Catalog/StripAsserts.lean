import CallReplacement.Resolve.Extension

/-!
`strip-debug-asserts` removes the assertions of `System.Diagnostics.Debug` before calls are
resolved, unless the run keeps debugging code. An assertion becomes a unit constant; a unit
constant that is not the value of its sequence is dropped, and a sequence of one expression
becomes that expression.
-/

namespace CallReplacement.Catalog.StripAsserts

def name : String := "strip-debug-asserts"

def isAssert : SourceExpr → Bool
  | .call member _ _ _ _ =>
      member.entity == "System.Diagnostics.Debug" && member.name == "Assert"
  | _ => false

def isUnit : SourceExpr → Bool
  | .const .unit _ _ => true
  | _ => false

def dropUnits : List SourceExpr → List SourceExpr
  | [] => []
  | [last] => [last]
  | e :: next :: rest =>
      if isUnit e then dropUnits (next :: rest) else e :: dropUnits (next :: rest)

def stripNode (e : SourceExpr) : SourceExpr :=
  if isAssert e then .const .unit .unit e.range
  else match e with
    | .sequence exprs range =>
        match dropUnits exprs with
        | [single] => single
        | kept => .sequence kept range
    | e => e

def strip (e : SourceExpr) : SourceExpr := e.rebuild stripNode

def transform : Transformer := fun options file =>
  if options.debug then .ok file
  else .ok { file with
    declarations := file.declarations.map fun d => { d with body := strip d.body } }

def extension : Extension := .transformAst name transform

end CallReplacement.Catalog.StripAsserts
