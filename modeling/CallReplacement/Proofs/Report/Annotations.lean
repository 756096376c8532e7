import CallReplacement.Proofs.Catalog.Annotations
import CallReplacement.Proofs.Report.Agreement
import CallReplacement.Proofs.Script.SameText

/-!
Annotations leave no trace in what compiling puts out. The transformers of the catalog keep files
with the same code such, and their trees are lowered to modules of expressions that are rendered
alike, with the same handlers in the log; so the scripts are the same, and so are the counts and
the number of warnings.
-/

namespace CallReplacement

namespace Module

open CallReplacement.Expr (SameText)

variable {m n : Module} (like : m.Like SameText n) (format : ModuleFormat)
include like

theorem Like.map_declarations {β : Type} {f : Declaration → β}
    (agree : ∀ d d', Declaration.Like SameText d d' → f d = f d') :
    m.declarations.map f = n.declarations.map f :=
  map_eq_of_forall₂ agree like.declarations

theorem Like.importBindings : m.importBindings = n.importBindings := by
  have names : m.names = n.names := like.map_declarations fun _ _ d => d.name
  have refs := like.map_declarations fun _ _ d => d.body.importRefs
  have imports : m.imports = n.imports := by
    unfold Module.imports
    rw [List.flatMap_def, List.flatMap_def]
    exact congrArg (fun lists => lists.flatten.eraseDups) refs
  rw [Module.importBindings, names, imports, Module.importBindings]

theorem Like.exportedNames : m.exportedNames = n.exportedNames := by
  have exports := like.map_declarations (f := fun d => (d.isPublic, d.name)) fun _ _ d =>
    Prod.ext d.isPublic d.name
  have listed (k : Module) :
      k.exportedNames = ((k.declarations.map fun d => (d.isPublic, d.name)).filter Prod.fst).map
        Prod.snd := by
    rw [List.filter_map, List.map_map]
    rfl
  rw [listed m, exports, listed n]

theorem Like.header (lines : Lines) : m.header format lines = n.header format lines := by
  have isEmpty : m.declarations.isEmpty = n.declarations.isEmpty := by
    rw [Bool.eq_iff_iff, List.isEmpty_iff_length_eq_zero, List.isEmpty_iff_length_eq_zero,
      like.declarations.length_eq]
  unfold Module.header
  rw [like.importBindings, isEmpty]

theorem Like.bindings (lines : Lines) : m.bindings format lines = n.bindings format lines := by
  have texts := like.map_declarations (f := declarationText format lines.indent n.importBindings)
    fun d d' same => by
      unfold declarationText initializer Expr.render
      rw [same.isPublic, same.name, same.body.rendered]
  unfold Module.bindings
  rw [like.importBindings, texts]

theorem Like.footer (lines : Lines) : m.footer format lines = n.footer format lines := by
  unfold Module.footer
  rw [like.exportedNames]

theorem Like.text (indent : Indent) : m.text format indent = n.text format indent := by
  unfold Module.text
  rw [like.header, like.bindings, like.footer]

end Module

namespace SourceFile

theorem rewritten_sameCode {options : Options} {transformers : List (String × Transformer)}
    (keep : ∀ transformer ∈ transformers, Transformer.KeepsCode options transformer.2)
    {file file' tree : SourceFile} (same : file.SameCode file')
    (rewritten : file.rewritten options transformers = .ok tree) :
    ∃ tree', file'.rewritten options transformers = .ok tree' ∧ tree.SameCode tree' := by
  induction transformers generalizing file file' with
  | nil =>
      cases rewritten
      exact ⟨file', rfl, same⟩
  | cons transformer rest ih =>
      obtain ⟨name, apply⟩ := transformer
      obtain ⟨head, others⟩ := List.forall_mem_cons.mp keep
      cases applied : apply options file with
      | error cause =>
          rw [rewritten_cons_error applied] at rewritten
          cases rewritten
      | ok next =>
          rw [rewritten_cons_ok applied] at rewritten
          obtain ⟨next', applied', sameNext⟩ := head file file' same next applied
          rw [rewritten_cons_ok applied']
          exact ih others sameNext rewritten

end SourceFile

theorem Standard.Strings.emptyTest_sameText {e f : Expr} (same : e.SameText f) :
    (emptyTest e).SameText (emptyTest f) := by
  unfold emptyTest
  rw [same.isRepeatable]
  exact .ofLayer (.raw (.cons same .nil))

/-- Whether two reports show the same script and the same numbers. -/
structure CompileReport.SameOutput (r r' : CompileReport) : Prop where
  script : r.script = r'.script
  counts : r.counts = r'.counts
  warnings : r.warnings.length = r'.warnings.length

section
variable {names : List String} {registry : Registry} {file file' : SourceFile} {options : Options}

/-- Resolvers of the catalog answer call sites whose parts are rendered alike with expressions that
are rendered alike, and by the same handler. -/
theorem Catalog.follows_of_select (selected : Catalog.select names = .ok registry) :
    Resolver.Follows Expr.SameText ResolvedCall.Alike ⟨registry, .standard, options⟩
      ⟨registry, .standard, options⟩ :=
  Resolver.follows_of_parametric Expr.congruent_sameText
    (parametric_of_select Expr.congruent_sameText selected options)
    (Builtins.parametric_standard Expr.congruent_sameText fun _ _ =>
      Standard.Strings.emptyTest_sameText)

/-- Logs with the same handlers for the same owners have the same counts and as many warnings. -/
theorem Log.sameNumbers {log log' : Log}
    (calls : List.Forall₂ ResolvedCall.Alike log.calls log'.calls)
    (reported : log.Reported options) (reported' : log'.Reported options) :
    log.counts = log'.counts ∧ log.warnings.length = log'.warnings.length := by
  constructor
  · unfold Log.counts
    rw [map_eq_of_forall₂ (fun _ _ same => same.handler) calls]
  · rw [reported, reported', List.length_flatMap, List.length_flatMap]
    rw [map_eq_of_forall₂ (fun _ _ same => ResolvedCall.length_reports same.handler same.owner) calls]

theorem compile_sameCode (selected : Catalog.select names = .ok registry)
    (same : file.SameCode file') {report : CompileReport}
    (compiled : compile file options registry = .ok report) :
    ∃ report', compile file' options registry = .ok report' ∧ report.SameOutput report' := by
  rcases commands_cases file options registry with
    ⟨failure, failed, _⟩ | ⟨tree, m, log, rewritten, lowered, done, _⟩
  · cases failed.symm.trans compiled
  · cases done.symm.trans compiled
    have keep := Catalog.keepsCode_of_select selected options
    obtain ⟨tree', rewritten', sameTree⟩ := SourceFile.rewritten_sameCode keep same rewritten
    obtain ⟨m', log', lowered', like, calls⟩ :=
      SourceFile.lower_follows (fun _ _ => .ofLayer) (Catalog.follows_of_select selected) sameTree
        m log lowered
    obtain ⟨counts, warnings⟩ := Log.sameNumbers calls (tree.lower_reports _ m log lowered)
      (tree'.lower_reports _ m' log' lowered')
    refine ⟨_, (commands_of_lowered rewritten' lowered').1, ?_⟩
    exact {
      script := like.text options.moduleFormat .standard
      counts
      warnings := by simpa [CompileReport.ofLog] using warnings }

variable (options) in
/-- Two files that differ in annotations at most either both cannot be compiled with the selected
extensions, or are compiled to the same script, with the same counts and as many warnings. -/
theorem annotations_leave_no_trace (selected : Catalog.select names = .ok registry)
    (same : file.SameCode file') :
    (∃ failure failure', compile file options registry = .error failure ∧
        compile file' options registry = .error failure') ∨
      ∃ report report', compile file options registry = .ok report ∧
        compile file' options registry = .ok report' ∧ report.SameOutput report' := by
  cases compiled : compile file options registry with
  | ok report =>
      obtain ⟨report', compiled', output⟩ := compile_sameCode selected same compiled
      exact .inr ⟨report, report', rfl, compiled', output⟩
  | error failure =>
      cases compiled' : compile file' options registry with
      | error failure' => exact .inl ⟨failure, failure', rfl, rfl⟩
      | ok report' =>
          obtain ⟨report, other, _⟩ := compile_sameCode selected same.symm compiled'
          cases compiled.symm.trans other

end

/-- `Debug.Assert(ok)` before `Console.WriteLine(Random.Next(9))`, with these annotations on every
node and member. -/
def guardedDraw (type : ValueType) (range : Option SourceRange) (attributes : List Attribute)
    (isInstance : Bool) : SourceFile :=
  let called (owner name : String) (args : List SourceExpr) :=
    SourceExpr.call ⟨owner, name, .method, isInstance, attributes, [type], [type], type⟩
      none args [type] range
  ⟨"Draw.fs", [⟨"main", true, .sequence
    [called "System.Diagnostics.Debug" "Assert" [.ident "ok" type range],
      called "System.Console" "WriteLine"
        [called "System.Random" "Next" [.const (.int 9) type range]]] range, range⟩]⟩

theorem guardedDraw_sameCode (type type' : ValueType) (range range' : Option SourceRange)
    (attributes attributes' : List Attribute) (isInstance isInstance' : Bool) :
    (guardedDraw type range attributes isInstance).SameCode
      (guardedDraw type' range' attributes' isInstance') := by
  refine ⟨rfl, .cons ⟨rfl, rfl, .node .sequence (.cons ?assert (.cons ?write .nil))⟩ .nil⟩
  case assert => exact .node (.call ⟨rfl, rfl, rfl⟩ rfl) (.cons (.node .ident .nil) .nil)
  case write =>
    refine .node (.call ⟨rfl, rfl, rfl⟩ rfl) (.cons ?draw .nil)
    exact .node (.call ⟨rfl, rfl, rfl⟩ rfl) (.cons (.node .const .nil) .nil)

theorem guarded_draw_leaves_no_trace :
    let bare := guardedDraw .any none [] false
    let noted := guardedDraw .string (some ⟨none, ⟨3, 1⟩, ⟨3, 9⟩⟩) [⟨"App.Traced", []⟩] true
    ∃ registry, Catalog.select ["seeded-random", "strip-debug-asserts"] = .ok registry ∧
      bare.SameCode noted ∧
      ∃ report report', compile bare {} registry = .ok report ∧
        compile noted {} registry = .ok report' ∧ report.SameOutput report' ∧
        report.counts = ⟨1, 1, 0⟩ := by
  have selected : Catalog.select ["seeded-random", "strip-debug-asserts"] =
      .ok ⟨[Catalog.SeededRandom.extension, Catalog.StripAsserts.extension]⟩ := rfl
  have same := guardedDraw_sameCode .any .string none (some ⟨none, ⟨3, 1⟩, ⟨3, 9⟩⟩) []
    [⟨"App.Traced", []⟩] false true
  refine ⟨_, selected, same, _, _, rfl, rfl, ?_, rfl⟩
  rcases annotations_leave_no_trace {} selected same with
    ⟨_, _, failed, _⟩ | ⟨_, _, compiled, compiled', output⟩
  · cases failed
  · cases compiled
    cases compiled'
    exact output

end CallReplacement
