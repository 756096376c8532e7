import CallReplacement.Proofs.Pipeline.FirstFailure
import CallReplacement.Proofs.Resolve.Warnings

/-!
What a run warns of. The log decides: an entry of a call that nobody claimed has one warning if the
owner is watched, however many of the watched texts its name begins with, and every other entry has
none. The warnings stand in the order of their entries.
-/

namespace CallReplacement

/-- Whether calls to members of this owner are watched. -/
def Options.Watches (options : Options) (owner : String) : Prop :=
  ∃ start ∈ options.warnPassthrough, start.toList <+: owner.toList

instance (options : Options) (owner : String) : Decidable (options.Watches owner) :=
  inferInstanceAs (Decidable (∃ start ∈ options.warnPassthrough, start.toList <+: owner.toList))

theorem Options.warnsOnPassthrough_iff (options : Options) (owner : String) :
    options.warnsOnPassthrough owner ↔ options.Watches owner := by
  simp [warnsOnPassthrough, Watches, List.any_eq_true]

namespace ResolvedCall

/-- Whether nobody claimed the call although its owner is watched. -/
def IsStray (options : Options) (call : ResolvedCall) : Prop :=
  call.handler = .passThrough ∧ options.Watches call.site.owner

instance (options : Options) (call : ResolvedCall) : Decidable (call.IsStray options) :=
  inferInstanceAs (Decidable (_ ∧ _))

/-- Whether this is the warning on the call: it names owner and member, and stands where the call
stands. -/
structure WarnedBy (call : ResolvedCall) (d : Diagnostic) : Prop where
  severity : d.severity = .warning
  phase : d.phase = "transform"
  message : d.message =
    "no replacement for " ++ (call.site.owner ++ "." ++ call.site.member) ++
      "; emitting a direct call"
  range : d.range = call.site.range

theorem warnedBy_unclaimed (call : ResolvedCall) : call.WarnedBy (Resolver.unclaimed call.site) :=
  ⟨rfl, rfl, rfl, rfl⟩

theorem reports_of_isStray {options : Options} {call : ResolvedCall} (stray : call.IsStray options) :
    call.reports options = [Resolver.unclaimed call.site] :=
  if_pos ⟨stray.1, (options.warnsOnPassthrough_iff _).mpr stray.2⟩

theorem reports_of_not_isStray {options : Options} {call : ResolvedCall}
    (claimed : ¬ call.IsStray options) : call.reports options = [] :=
  if_neg fun stray => claimed ⟨stray.1, (options.warnsOnPassthrough_iff _).mp stray.2⟩

/-- Entry by entry, what is reported are the warnings on the stray calls. -/
theorem warnedBy_reports (options : Options) (calls : List ResolvedCall) :
    List.Forall₂ WarnedBy (calls.filter fun call => call.IsStray options)
      (calls.flatMap (reports options)) := by
  induction calls with
  | nil => exact .nil
  | cons call rest ih =>
      rw [List.filter_cons, List.flatMap_cons]
      by_cases stray : call.IsStray options
      · rw [if_pos (decide_eq_true stray), reports_of_isStray stray]
        exact .cons call.warnedBy_unclaimed ih
      · rw [if_neg (by simpa using stray), reports_of_not_isStray stray]
        exact ih

end ResolvedCall

namespace Pipeline

-- A run begins without diagnostics, and only the lowering adds some.
theorem reported_of_run {registry : Registry} {builtins : Builtins} {file : SourceFile}
    {options : Options} {c : Context} (ran : run ⟨registry, builtins, []⟩ file options = .ok c) :
    c.diagnostics = c.calls.flatMap (ResolvedCall.reports options) := by
  rcases run_cases registry builtins options file with
    ⟨_, _, other⟩ | ⟨source, _, ⟨_, _, other⟩ | ⟨m, log, lowered, other⟩⟩
  · cases other.symm.trans ran
  · cases other.symm.trans ran
  · cases other.symm.trans ran
    exact source.lower_reports _ m log lowered

/-- The diagnostics of a run without further phases are one warning for each call in the log that
nobody claimed and whose owner is watched, in the order of the log, and nothing else. -/
theorem warnings_match_stray_calls (registry : Registry) (builtins : Builtins) (file : SourceFile)
    (options : Options) (c : Context) (ran : run ⟨registry, builtins, []⟩ file options = .ok c) :
    List.Forall₂ ResolvedCall.WarnedBy (c.calls.filter fun call => call.IsStray options)
      c.diagnostics := by
  rw [reported_of_run ran]
  exact ResolvedCall.warnedBy_reports options c.calls

/-- `Trace.Write(Door.name(), Text.Trim(String.IsNullOrEmpty(key)))`, where only the test of the
key has a replacement. -/
def tracedDoor : SourceFile :=
  let called (owner name : String) (column : UInt32) (args : List SourceExpr) :=
    SourceExpr.call ⟨owner, name, .method, false, [], [], [], .any⟩ none args []
      (some ⟨none, ⟨1, column⟩, ⟨1, column⟩⟩)
  ⟨"Door.fs", [⟨"main", true, called "System.Trace" "Write" 0
    [called "App.Door" "name" 12 [],
      called "System.Text" "Trim" 25
        [called "System.String" "IsNullOrEmpty" 35 [.ident "key" .string none]]], none⟩]⟩

-- `Trim` is watched twice and warned of once; its warning comes first, as its entry does.
theorem strayTrim_warned_once :
    let options : Options := { warnPassthrough := ["System.Text", "System."] }
    ∃ c, run ⟨.empty, .standard, []⟩ tracedDoor options = .ok c ∧
      c.calls.map ResolvedCall.handler = [.passThrough, .builtin, .passThrough, .passThrough] ∧
      c.diagnostics =
        [⟨.warning, "transform", "no replacement for System.Text.Trim; emitting a direct call",
            some ⟨none, ⟨1, 25⟩, ⟨1, 25⟩⟩⟩,
          ⟨.warning, "transform", "no replacement for System.Trace.Write; emitting a direct call",
            some ⟨none, ⟨1, 0⟩, ⟨1, 0⟩⟩⟩] ∧
      List.Forall₂ ResolvedCall.WarnedBy (c.calls.filter fun call => call.IsStray options)
        c.diagnostics := by
  intro options
  refine ⟨_, rfl, rfl, rfl, ?_⟩
  exact warnings_match_stray_calls .empty .standard tracedDoor options _ rfl

end Pipeline
end CallReplacement
