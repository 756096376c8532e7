import CallReplacement.Options
import CallReplacement.Resolve.CallSite
import CallReplacement.Source.File
import CallReplacement.Text.Inspected

/-!
Extensions and their registry. An extension either replaces calls or transforms the source
tree. The registry keeps the order of registration, which is the order of priority, and holds
no two extensions of one name for the same purpose.
-/

namespace CallReplacement

inductive Capability
  | replaceCall
  | transformAst
deriving DecidableEq, Repr

def Capability.name : Capability → String
  | .replaceCall => "replace-call"
  | .transformAst => "transform-ast"

/-- Answers a call site with an expression that replaces it, with `none` to decline, or with
a failure that ends the run. -/
abbrev Replacer := Options → CallSite → Except Failure (Option Expr)

abbrev Transformer := Options → SourceFile → Except Failure SourceFile

inductive Extension
  | replaceCall (name : String) (replace : Replacer)
  | transformAst (name : String) (transform : Transformer)

namespace Extension

def name : Extension → String
  | .replaceCall name _ => name
  | .transformAst name _ => name

def capability : Extension → Capability
  | .replaceCall .. => .replaceCall
  | .transformAst .. => .transformAst

/-- Name and capability, which no two extensions of a registry share. -/
def key (e : Extension) : String × Capability := (e.name, e.capability)

def replacer? : Extension → Option (String × Replacer)
  | .replaceCall name replace => some (name, replace)
  | .transformAst .. => none

def transformer? : Extension → Option (String × Transformer)
  | .replaceCall .. => none
  | .transformAst name transform => some (name, transform)

def debugText (e : Extension) : String :=
  let capability := match e.capability with
    | .replaceCall => "ReplaceCall"
    | .transformAst => "TransformAst"
  "Extension \x7b name: " ++ Text.inspected e.name ++ ", capability: " ++ capability ++ " \x7d"

end Extension

inductive RegistryFault
  | duplicateExtension (name : String) (capability : Capability)
  | unknownPlugin (name : String) (available : List String)
deriving DecidableEq, Repr

namespace RegistryFault

def text : RegistryFault → String
  | .duplicateExtension name capability =>
      "extension '" ++ name ++ "' is registered twice for " ++ capability.name
  | .unknownPlugin name _ => "unknown plugin '" ++ name ++ "'"

def code : RegistryFault → String
  | .duplicateExtension .. => "graft::registry::duplicate"
  | .unknownPlugin .. => "graft::registry::unknown"

def help : RegistryFault → String
  | .duplicateExtension name _ =>
      "registration order is priority order; register '" ++ name ++ "' once"
  | .unknownPlugin _ available => "available plugins: " ++ Text.joined ", " available

end RegistryFault

structure Registry where
  extensions : List Extension

namespace Registry

def empty : Registry := ⟨[]⟩

def handlersFor (r : Registry) (c : Capability) : List Extension :=
  r.extensions.filter (·.capability == c)

def callReplacers (r : Registry) : List (String × Replacer) :=
  r.extensions.filterMap Extension.replacer?

def astTransformers (r : Registry) : List (String × Transformer) :=
  r.extensions.filterMap Extension.transformer?

def ofList (extensions : List Extension) : Except RegistryFault Registry :=
  match firstRepeat (extensions.map Extension.key) with
  | some (name, capability) => .error (.duplicateExtension name capability)
  | none => .ok ⟨extensions⟩

end Registry
end CallReplacement
