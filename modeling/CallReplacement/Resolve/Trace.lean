import CallReplacement.Resolve.Lowering

/-!
Which call sites a run reaches, and which extensions are asked about each. A run that fails has
reached the call site at which it fails, and none after it.

The sites are found by lowering with handlers that decline where they would fail: up to the
first failure the two runs agree.
-/

namespace CallReplacement

namespace Replacer

def lenient (replace : Replacer) : Replacer := fun options site =>
  match replace options site with
  | .ok answer => .ok answer
  | .error _ => .ok none

end Replacer

def Extension.lenient : Extension → Extension
  | .replaceCall name replace => .replaceCall name (Replacer.lenient replace)
  | .transformAst name transform => .transformAst name transform

namespace Resolver

def lenient (r : Resolver) : Resolver where
  registry := ⟨r.registry.extensions.map Extension.lenient⟩
  builtins := ⟨r.builtins.entries.map fun e => { e with replace := Replacer.lenient e.replace }⟩
  options := r.options

def uptoFailure (r : Resolver) : List CallSite → List CallSite
  | [] => []
  | site :: rest =>
      match r.resolve site with
      | .ok _ => site :: uptoFailure r rest
      | .error _ => [site]

end Resolver

/-- The call sites that are reached when a file is lowered, in their order. -/
def SourceFile.reached (r : Resolver) (file : SourceFile) : List CallSite :=
  match file.lower r.lenient with
  | .ok (_, log) => r.uptoFailure (log.calls.map ResolvedCall.site)
  | .error _ => []

def SourceFile.asked (r : Resolver) (file : SourceFile) : List (String × CallSite) :=
  (file.reached r).flatMap fun site => (r.asked site).map fun name => (name, site)

end CallReplacement
