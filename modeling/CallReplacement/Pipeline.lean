import CallReplacement.Resolve.Lowering
import CallReplacement.Resolve.Standard

/-!
A compilation run. The source tree passes through the transformers in the order of their
registration, each on the result of the one before; then its calls are resolved and it is
lowered; then come the phases that the caller added. The first failure ends the run.
-/

namespace CallReplacement

structure Context where
  source : SourceFile
  options : Options
  /-- The target form, once the source is lowered and until it is taken. -/
  target : Option Module := none
  calls : List ResolvedCall := []
  diagnostics : List Diagnostic := []

structure CallCounts where
  plugin : Nat
  builtin : Nat
  passThrough : Nat
deriving DecidableEq, Repr

namespace CallCounts

def total (c : CallCounts) : Nat := c.plugin + c.builtin + c.passThrough

def count (c : CallCounts) : Handler → CallCounts
  | .plugin _ => { c with plugin := c.plugin + 1 }
  | .builtin => { c with builtin := c.builtin + 1 }
  | .passThrough => { c with passThrough := c.passThrough + 1 }

def ofHandlers (handlers : List Handler) : CallCounts := handlers.foldl count ⟨0, 0, 0⟩

end CallCounts

namespace Context

def report (c : Context) (d : Diagnostic) : Context :=
  { c with diagnostics := c.diagnostics ++ [d] }

def withSeverity (c : Context) (s : Severity) : List Diagnostic :=
  c.diagnostics.filter (·.severity == s)

def warnings (c : Context) : List Diagnostic := c.withSeverity .warning

def counts (c : Context) : CallCounts := .ofHandlers (c.calls.map ResolvedCall.handler)

def takeTarget (c : Context) : Except Failure (Module × Context) :=
  match c.target with
  | some m => .ok (m, { c with target := none })
  | none => .error (.message "no IR in context; the transform phase has not run")

end Context

abbrev Phase := Context → Except Failure Context

/-- Applies transformers one after another. A failure names the transformer and the path of
the tree it was given. -/
def SourceFile.transform (options : Options) :
    List (String × Transformer) → SourceFile → Except Failure SourceFile
  | [], file => .ok file
  | (name, apply) :: rest, file =>
      match apply options file with
      | .ok next => SourceFile.transform options rest next
      | .error failure => .error (.transformer name file.path failure)

/-- The trees that the transformers are given, and the last one's result as long as none
fails. -/
def SourceFile.stages (options : Options) :
    List (String × Transformer) → SourceFile → List SourceFile
  | [], file => [file]
  | (_, apply) :: rest, file =>
      match apply options file with
      | .ok next => file :: SourceFile.stages options rest next
      | .error _ => [file]

structure Pipeline where
  registry : Registry
  builtins : Builtins := .standard
  phases : List Phase := []

namespace Pipeline

def resolver (p : Pipeline) (options : Options) : Resolver := ⟨p.registry, p.builtins, options⟩

def transformerPhase (p : Pipeline) : Phase := fun c =>
  match c.source.transform c.options p.registry.astTransformers with
  | .ok source => .ok { c with source }
  | .error failure => .error failure

def loweringPhase (p : Pipeline) : Phase := fun c =>
  match c.source.lower (p.resolver c.options) with
  | .ok (target, log) =>
      .ok { c with
        target := some target
        calls := log.calls
        diagnostics := c.diagnostics ++ log.warnings }
  | .error failure => .error failure

def runPhases : List Phase → Phase
  | [], c => .ok c
  | phase :: rest, c =>
      match phase c with
      | .ok next => runPhases rest next
      | .error failure => .error failure

def run (p : Pipeline) (source : SourceFile) (options : Options) : Except Failure Context :=
  runPhases (p.transformerPhase :: p.loweringPhase :: p.phases) { source, options }

end Pipeline
end CallReplacement
