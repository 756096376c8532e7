import CallReplacement.Command.Help
import CallReplacement.Files.View
import CallReplacement.Report

/-!
What a command line does. Nothing is written to a file before everything else has succeeded, so
that the outcome is known but for that last step.
-/

namespace CallReplacement

structure Outcome where
  code : UInt8
  output : String := ""
  errors : String := ""
deriving DecidableEq, Repr

inductive Run
  | done (outcome : Outcome)
  /-- A file is still to be written; the outcome is that of success. -/
  | writing (path text : String) (outcome : Outcome)
deriving DecidableEq, Repr

def asLine (text : String) : String := text ++ "\n"

namespace Outcome

def failed (messages : List String) : Outcome :=
  ⟨1, "", String.join (messages.map fun message => asLine ("error: " ++ message))⟩

def unwritten (path : String) : Outcome := failed ["Failed to write " ++ path]

def ofReport (lines : List ReportLine) (code : UInt8) : Outcome where
  code
  output := String.join ((lines.filter (!·.isDiagnostic)).map fun l => asLine l.render)
  errors := String.join ((lines.filter (·.isDiagnostic)).map fun l => asLine l.render)

end Outcome

def Files.load (files : Files) (input : String) (config : Option String) :
    Except LoadFault (SourceFile × Options × Registry) :=
  match files.source input with
  | .error fault => .error fault
  | .ok source =>
      match files.optionsFor config input with
      | .error fault => .error fault
      | .ok options =>
          match Catalog.select options.plugins with
          | .error fault => .error (.registry fault)
          | .ok registry => .ok (source, options, registry)

namespace Command

def afterCompiling (r : CompileReport) (output : Option String) : Run :=
  match output with
  | none =>
      .done ⟨0, r.script, String.join (r.warnings.map fun w => asLine ("warning: " ++ w))⟩
  | some path => .writing path r.script (.ofReport (r.lines ++ [.text ("  → " ++ path)]) 0)

def run (files : Files) : Command → Run
  | .compile input config output =>
      match files.load input config with
      | .error fault => .done (.failed [fault.text])
      | .ok (source, options, registry) =>
          match CallReplacement.compile source options registry with
          | .error failure => .done (.failed failure.chain)
          | .ok report => afterCompiling report output
  | .check input config =>
      match files.load input config with
      | .error fault => .done (.failed [fault.text])
      | .ok (source, options, registry) =>
          match CallReplacement.check source options registry with
          | .error failure => .done (.failed failure.chain)
          | .ok report => .done (.ofReport report.lines (if report.isValid then 0 else 1))
  | .plugins => .done (.ofReport Catalog.lines 0)

def reads : Command → List String
  | .compile input config _ | .check input config =>
      [input, config.getD (Path.child (Files.besides input) Options.fileName)]
  | .plugins => []

end Command

namespace Request

def versionText : String := "graft 0.3.0"

def runWords (files : Files) (words : List String) : Run :=
  match ofWords {} words with
  | .error fault => .done ⟨2, "", asLine ("error: " ++ fault.text)⟩
  | .ok (.help topic) => .done ⟨0, topic.text, ""⟩
  | .ok .version => .done ⟨0, asLine versionText, ""⟩
  | .ok (.run command) => command.run files

def reads (words : List String) : List String :=
  match ofWords {} words with
  | .ok (.run command) => command.reads
  | _ => []

end Request
end CallReplacement
