import CallReplacement.Catalog
import CallReplacement.Pipeline
import CallReplacement.Script.Module

/-!
What a command tells its user. A report is a list of lines; warnings and errors are kept apart
from the rest, so that a terminal can send them elsewhere.
-/

namespace CallReplacement

inductive ReportLine
  | heading (name : String)
  | field (key value : String)
  | item (text : String)
  | warning (text : String)
  | error (text : String)
  | text (text : String)
  | blank
deriving DecidableEq, Repr

namespace ReportLine

def isDiagnostic : ReportLine → Bool
  | .warning _ | .error _ => true
  | _ => false

def render : ReportLine → String
  | .heading name => name ++ ":"
  | .field key value => "  " ++ key ++ ": " ++ value
  | .item shown => "  - " ++ shown
  | .warning shown => "warning: " ++ shown
  | .error shown => "error: " ++ shown
  | .text shown => shown
  | .blank => ""

end ReportLine

def CallCounts.report (c : CallCounts) : List ReportLine :=
  [.heading ("  " ++ toString c.total ++ " call site" ++ if c.total = 1 then "" else "s"),
    .field "  plugin" (toString c.plugin),
    .field "  builtin" (toString c.builtin),
    .field "  pass-through" (toString c.passThrough)]

structure CompileReport where
  sourcePath : String
  warnings : List String
  counts : CallCounts
  script : String
deriving Repr

namespace CompileReport

def lines (r : CompileReport) : List ReportLine :=
  r.warnings.map .warning ++ (if r.warnings.isEmpty then [] else [.blank])
    ++ .text ("✓ compiled " ++ r.sourcePath) :: r.counts.report

end CompileReport

structure CheckReport where
  sourcePath : String
  errors : List String
  warnings : List String
  infos : List String
  counts : CallCounts
  calls : List String
deriving Repr

namespace CheckReport

def isValid (r : CheckReport) : Bool := r.errors.isEmpty

def lines (r : CheckReport) : List ReportLine :=
  r.errors.map .error ++ r.warnings.map .warning
    ++ r.infos.map (fun info => .text ("info: " ++ info))
    ++ (if r.errors.isEmpty && r.warnings.isEmpty then [] else [.blank])
    ++ if r.isValid then
        .text ("✓ " ++ r.sourcePath ++ " compiles") :: r.counts.report
          ++ if r.calls.isEmpty then []
            else .blank :: .heading "  Calls" :: r.calls.map .item
      else []

end CheckReport

def Catalog.lines : List ReportLine :=
  .heading "Available plugins"
    :: Catalog.entries.map (fun e =>
      .item (e.name ++ " [" ++ e.capability.name ++ "]: " ++ e.description))
    ++ [.blank, .text "Enable them in graft.toml under [compiler] plugins = [...]"]

/-- A run of a command on a source file; a failure says which file was compiled. -/
def Registry.compiled (registry : Registry) (source : SourceFile) (options : Options) :
    Except Failure Context :=
  match Pipeline.run ⟨registry, .standard, []⟩ source options with
  | .ok context => .ok context
  | .error failure => .error (.context ("Failed to compile " ++ source.path) failure)

def compile (source : SourceFile) (options : Options) (registry : Registry) :
    Except Failure CompileReport :=
  match registry.compiled source options with
  | .error failure => .error failure
  | .ok context =>
      match context.takeTarget with
      | .error failure => .error failure
      | .ok (target, context) =>
          .ok {
            sourcePath := source.path
            warnings := context.warnings.map Diagnostic.described
            counts := context.counts
            script := target.text options.moduleFormat .standard }

def ResolvedCall.line (c : ResolvedCall) : String :=
  let handler := match c.handler with
    | .plugin name => name
    | handler => handler.text
  c.site.owner ++ "." ++ c.site.member ++ " → " ++ handler

def check (source : SourceFile) (options : Options) (registry : Registry) :
    Except Failure CheckReport :=
  match registry.compiled source options with
  | .error failure => .error failure
  | .ok context =>
      .ok {
        sourcePath := source.path
        errors := (context.withSeverity .error).map Diagnostic.described
        warnings := (context.withSeverity .warning).map Diagnostic.described
        infos := (context.withSeverity .info).map Diagnostic.described
        counts := context.counts
        calls := context.calls.map ResolvedCall.line }

end CallReplacement
