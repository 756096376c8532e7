import CallReplacement.Proofs.Pipeline.FirstFailure
import CallReplacement.Proofs.Resolve.CallLog
import CallReplacement.Proofs.Resolve.Warnings
import CallReplacement.Report

/-!
What the commands report on a run. Compiling and checking make the same run, and each reads its
report off the log of that run; so the report of a check tells beforehand what compiling reports,
and its numbers are those of the calls in the tree that the transformers leave.
-/

namespace CallReplacement

namespace CallCounts

theorem total_foldl_count (handlers : List Handler) (c : CallCounts) :
    (handlers.foldl count c).total = c.total + handlers.length := by
  induction handlers generalizing c with
  | nil => rfl
  | cons handler rest ih =>
      have one : (c.count handler).total = c.total + 1 := by
        cases handler <;> simp only [count, total] <;> omega
      rw [List.foldl_cons, ih, one, List.length_cons]
      omega

theorem total_ofHandlers (handlers : List Handler) :
    (ofHandlers handlers).total = handlers.length := by
  rw [ofHandlers, total_foldl_count]
  exact Nat.zero_add _

end CallCounts

/-- How many of the resolved calls each kind of handler owns. -/
def Log.counts (log : Log) : CallCounts := .ofHandlers (log.calls.map ResolvedCall.handler)

theorem Log.Reported.severity {options : Options} {log : Log} (reported : log.Reported options) :
    ∀ d ∈ log.warnings, d.severity = .warning := by
  intro d member
  rw [reported] at member
  obtain ⟨call, _, inside⟩ := List.mem_flatMap.mp member
  exact call.severity_reports inside

theorem withSeverity_of_warnings {c : Context} (warnings : ∀ d ∈ c.diagnostics, d.severity = .warning)
    (s : Severity) : c.withSeverity s = if s = .warning then c.diagnostics else [] := by
  unfold Context.withSeverity
  split
  · next same =>
    rw [List.filter_eq_self]
    intro d member
    simp [warnings d member, same]
  · next other =>
    rw [List.filter_eq_nil_iff]
    intro d member
    simpa [warnings d member] using Ne.symm other

section
variable (source : SourceFile) (options : Options) (registry : Registry)

/-- The report of a compilation whose tree is lowered to this module, with this log. -/
def CompileReport.ofLog (m : Module) (log : Log) : CompileReport where
  sourcePath := source.path
  warnings := log.warnings.map Diagnostic.described
  counts := log.counts
  script := m.text options.moduleFormat .standard

def CheckReport.ofLog (log : Log) : CheckReport where
  sourcePath := source.path
  errors := []
  warnings := log.warnings.map Diagnostic.described
  infos := []
  counts := log.counts
  calls := log.calls.map ResolvedCall.line

variable {source options registry} in
theorem commands_of_failure {failure : Failure}
    (ran : Pipeline.run ⟨registry, .standard, []⟩ source options = .error failure) :
    ∃ failure, compile source options registry = .error failure ∧
      check source options registry = .error failure := by
  refine ⟨.context ("Failed to compile " ++ source.path) failure, ?_, ?_⟩
  · simp only [compile, Registry.compiled, ran]
  · simp only [check, Registry.compiled, ran]

variable {source options registry} in
theorem commands_of_lowered {tree : SourceFile} {m : Module} {log : Log}
    (rewritten : source.rewritten options registry.astTransformers = .ok tree)
    (lowered : tree.lower ⟨registry, .standard, options⟩ = .ok (m, log)) :
    compile source options registry = .ok (.ofLog source options m log) ∧
      check source options registry = .ok (.ofLog source log) := by
  have transformed := SourceFile.transform_eq_ok_iff.mpr rewritten
  have ran := Pipeline.run_of_lowered transformed lowered
  have reported : log.Reported options := tree.lower_reports _ m log lowered
  constructor
  · simp only [compile, Registry.compiled, ran, Context.takeTarget, Context.warnings]
    rw [withSeverity_of_warnings reported.severity]
    rfl
  · simp only [check, Registry.compiled, ran]
    rw [withSeverity_of_warnings reported.severity, withSeverity_of_warnings reported.severity,
      withSeverity_of_warnings reported.severity]
    rfl

/-- Both commands fail in the same way, or report on the log of one and the same run. -/
theorem commands_cases :
    (∃ failure, compile source options registry = .error failure ∧
        check source options registry = .error failure) ∨
      ∃ tree m log, source.rewritten options registry.astTransformers = .ok tree ∧
        tree.lower ⟨registry, .standard, options⟩ = .ok (m, log) ∧
        compile source options registry = .ok (.ofLog source options m log) ∧
        check source options registry = .ok (.ofLog source log) := by
  rcases Pipeline.run_cases registry .standard options source with
    ⟨failure, _, ran⟩ | ⟨tree, rewritten, ⟨failure, _, ran⟩ | ⟨m, log, lowered, _⟩⟩
  · exact .inl (commands_of_failure ran)
  · exact .inl (commands_of_failure ran)
  · exact .inr ⟨tree, m, log, rewritten, lowered, commands_of_lowered rewritten lowered⟩

/-- Whether a check tells what compiling reports, for a run that lowers this tree. -/
structure CheckReport.Predicts (checked : CheckReport) (compiled : CompileReport)
    (tree : SourceFile) : Prop where
  sourcePath : checked.sourcePath = source.path ∧ compiled.sourcePath = source.path
  warnings : checked.warnings = compiled.warnings
  counts : checked.counts = compiled.counts
  isValid : checked.isValid
  errors : checked.errors = []
  infos : checked.infos = []
  total_eq_lines : checked.counts.total = checked.calls.length
  total_eq_calls : checked.counts.total = tree.calls.length

theorem Log.total_counts (log : Log) : log.counts.total = log.calls.length := by
  rw [counts, CallCounts.total_ofHandlers, List.length_map]

/-- A check fails if and only if compiling does, and with the same failure; otherwise it reports
what compiling reports, and its total is the number of its lines and of the calls in the tree that
the transformers leave. -/
theorem check_predicts_compile :
    (∃ failure, compile source options registry = .error failure ∧
        check source options registry = .error failure) ∨
      ∃ compiled checked tree, compile source options registry = .ok compiled ∧
        check source options registry = .ok checked ∧
        source.rewritten options registry.astTransformers = .ok tree ∧
        checked.Predicts source compiled tree := by
  rcases commands_cases source options registry with
    failed | ⟨tree, m, log, rewritten, lowered, compiled, checked⟩
  · exact .inl failed
  · have keys := congrArg List.length (tree.lower_records _ m log lowered)
    rw [Log.keys, List.length_map, tree.length_callKeys] at keys
    refine .inr ⟨_, _, tree, compiled, checked, rewritten, ?_⟩
    exact {
      sourcePath := ⟨rfl, rfl⟩
      warnings := rfl
      counts := rfl
      isValid := rfl
      errors := rfl
      infos := rfl
      total_eq_lines := log.total_counts.trans (List.length_map _).symm
      total_eq_calls := log.total_counts.trans keys }

end
end CallReplacement
