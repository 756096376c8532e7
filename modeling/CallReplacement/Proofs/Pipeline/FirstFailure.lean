import CallReplacement.Pipeline
import CallReplacement.Proofs.Resolve.CallOrder

/-!
The first step that fails decides a run. The steps are the transformers in the order of their
registration, each given what the one before it made, and then the calls of the last tree in
post-order. What stands behind the first failing step has no part in the outcome.
-/

namespace CallReplacement

namespace SourceFile

/-- What a chain of transformers makes of a file, each given the result of the one before. -/
def rewritten (options : Options) (transformers : List (String × Transformer))
    (file : SourceFile) : Except Failure SourceFile :=
  transformers.foldlM (fun given transformer => transformer.2 options given) file

/-- Whether a transformer of the chain fails on the tree that those before it made, with this
report: it names the transformer and the path of that tree. -/
def Broken (options : Options) (transformers : List (String × Transformer))
    (file : SourceFile) (failure : Failure) : Prop :=
  ∃ before name apply after given cause, transformers = before ++ (name, apply) :: after ∧
    file.rewritten options before = .ok given ∧ apply options given = .error cause ∧
    failure = .transformer name given.path cause

variable {options : Options} {transformers : List (String × Transformer)} {file : SourceFile}

theorem rewritten_cons_ok {name : String} {apply : Transformer} {next : SourceFile}
    (applied : apply options file = .ok next) :
    file.rewritten options ((name, apply) :: transformers) = next.rewritten options transformers := by
  simp [rewritten, applied]
  rfl

theorem rewritten_cons_error {name : String} {apply : Transformer} {cause : Failure}
    (broken : apply options file = .error cause) :
    file.rewritten options ((name, apply) :: transformers) = .error cause := by
  simp [rewritten, broken]
  rfl

theorem not_broken_nil {failure : Failure} : ¬ file.Broken options [] failure := by
  rintro ⟨before, name, apply, after, given, cause, same, _⟩
  cases before <;> cases same

theorem broken_cons_of_error {name : String} {apply : Transformer} {cause failure : Failure}
    (failed : apply options file = .error cause) :
    file.Broken options ((name, apply) :: transformers) failure ↔
      failure = .transformer name file.path cause := by
  constructor
  · rintro ⟨before, other, apply', after, given, cause', same, reached, broken, rfl⟩
    cases before with
    | nil =>
        cases same
        cases reached
        rw [failed] at broken
        cases broken
        rfl
    | cons head tail =>
        cases same
        rw [rewritten_cons_error failed] at reached
        cases reached
  · rintro rfl
    exact ⟨[], name, apply, transformers, file, cause, rfl, rfl, failed, rfl⟩

theorem broken_cons_of_ok {name : String} {apply : Transformer} {next : SourceFile}
    {failure : Failure} (applied : apply options file = .ok next) :
    file.Broken options ((name, apply) :: transformers) failure ↔
      next.Broken options transformers failure := by
  constructor
  · rintro ⟨before, other, apply', after, given, cause, same, reached, broken, rfl⟩
    cases before with
    | nil =>
        cases same
        cases reached
        rw [applied] at broken
        cases broken
    | cons head tail =>
        cases same
        rw [rewritten_cons_ok applied] at reached
        exact ⟨tail, other, apply', after, given, cause, rfl, reached, broken, rfl⟩
  · rintro ⟨before, other, apply', after, given, cause, rfl, reached, broken, rfl⟩
    refine ⟨(name, apply) :: before, other, apply', after, given, cause, rfl, ?_, broken, rfl⟩
    rw [rewritten_cons_ok applied, reached]

theorem transform_cons_error {name : String} {apply : Transformer} {cause : Failure}
    (failed : apply options file = .error cause) :
    file.transform options ((name, apply) :: transformers) =
      .error (.transformer name file.path cause) := by
  rw [transform, failed]

theorem transform_cons_ok {name : String} {apply : Transformer} {next : SourceFile}
    (applied : apply options file = .ok next) :
    file.transform options ((name, apply) :: transformers) = next.transform options transformers := by
  rw [transform, applied]

theorem transform_eq_ok_iff {result : SourceFile} :
    file.transform options transformers = .ok result ↔
      file.rewritten options transformers = .ok result := by
  induction transformers generalizing file with
  | nil => rfl
  | cons transformer rest ih =>
      obtain ⟨name, apply⟩ := transformer
      cases applied : apply options file with
      | ok next => rw [rewritten_cons_ok applied, transform_cons_ok applied, ih]
      | error cause =>
          rw [rewritten_cons_error applied, transform_cons_error applied]
          constructor <;> (intro same; cases same)

theorem transform_eq_error_iff {failure : Failure} :
    file.transform options transformers = .error failure ↔
      file.Broken options transformers failure := by
  induction transformers generalizing file with
  | nil =>
      constructor
      · intro failed
        cases failed
      · intro broken
        exact absurd broken not_broken_nil
  | cons transformer rest ih =>
      obtain ⟨name, apply⟩ := transformer
      cases applied : apply options file with
      | ok next => rw [transform_cons_ok applied, broken_cons_of_ok applied, ih]
      | error cause =>
          rw [transform_cons_error applied, broken_cons_of_error applied, Except.error.injEq]
          exact eq_comm

end SourceFile

namespace Pipeline

variable (registry : Registry) (builtins : Builtins) (options : Options) (file : SourceFile)

variable {registry builtins options file}

theorem run_of_broken {failure : Failure}
    (broken : file.transform options registry.astTransformers = .error failure) :
    run ⟨registry, builtins, []⟩ file options = .error failure := by
  simp only [run, runPhases, transformerPhase, broken]

theorem run_of_refused {source : SourceFile} {failure : Failure}
    (transformed : file.transform options registry.astTransformers = .ok source)
    (refused : source.lower ⟨registry, builtins, options⟩ = .error failure) :
    run ⟨registry, builtins, []⟩ file options = .error failure := by
  simp only [run, runPhases, transformerPhase, transformed, loweringPhase, resolver, refused]

theorem run_of_lowered {source : SourceFile} {m : Module} {log : Log}
    (transformed : file.transform options registry.astTransformers = .ok source)
    (lowered : source.lower ⟨registry, builtins, options⟩ = .ok (m, log)) :
    run ⟨registry, builtins, []⟩ file options =
      .ok ⟨source, options, some m, log.calls, log.warnings⟩ := by
  simp only [run, runPhases, transformerPhase, transformed, loweringPhase, resolver, lowered,
    List.nil_append]

variable (registry builtins options file)

-- The three ways in which a run can end.
theorem run_cases :
    (∃ failure, file.Broken options registry.astTransformers failure ∧
        run ⟨registry, builtins, []⟩ file options = .error failure) ∨
      ∃ source, file.rewritten options registry.astTransformers = .ok source ∧
        ((∃ failure, source.lower ⟨registry, builtins, options⟩ = .error failure ∧
            run ⟨registry, builtins, []⟩ file options = .error failure) ∨
          ∃ m log, source.lower ⟨registry, builtins, options⟩ = .ok (m, log) ∧
            run ⟨registry, builtins, []⟩ file options =
              .ok ⟨source, options, some m, log.calls, log.warnings⟩) := by
  cases transformed : file.transform options registry.astTransformers with
  | error failure =>
      exact .inl ⟨failure, SourceFile.transform_eq_error_iff.mp transformed, run_of_broken transformed⟩
  | ok source =>
      refine .inr ⟨source, SourceFile.transform_eq_ok_iff.mp transformed, ?_⟩
      cases lowered : source.lower ⟨registry, builtins, options⟩ with
      | error failure => exact .inl ⟨failure, rfl, run_of_refused transformed lowered⟩
      | ok answer => exact .inr ⟨answer.1, answer.2, rfl, run_of_lowered transformed lowered⟩

/-- `open(read(), close())`, in a file that a transformer moves. The handler declines `read` and
fails on every other call. -/
def openDoors : SourceFile :=
  let called (name : String) (args : List SourceExpr) :=
    SourceExpr.call ⟨"App.Door", name, .method, false, [], [], [], .unit⟩ none args [] none
  ⟨"App.fs", [⟨"main", true, called "open" [called "read" [], called "close" []], none⟩]⟩

end Pipeline
end CallReplacement
