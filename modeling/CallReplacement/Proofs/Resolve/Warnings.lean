import CallReplacement.Proofs.Resolve.Assembly

/-!
The warnings of a lowering. Each entry of the log stands for the warnings that its call site calls
for, and for no others: the warnings are read off the log, entry by entry.
-/

namespace CallReplacement

/-- What is reported on a resolved call: that nobody claimed it, if its owner is watched. -/
def ResolvedCall.reports (options : Options) (c : ResolvedCall) : List Diagnostic :=
  if c.handler = .passThrough ∧ options.warnsOnPassthrough c.site.owner then
    [Resolver.unclaimed c.site]
  else []

theorem ResolvedCall.severity_reports {options : Options} {c : ResolvedCall} {d : Diagnostic}
    (reported : d ∈ c.reports options) : d.severity = .warning := by
  unfold reports at reported
  split at reported
  · rw [List.mem_singleton.mp reported]
    rfl
  · cases reported

-- The number of reports hangs on the handler and on the owner alone.
theorem ResolvedCall.length_reports {options : Options} {c d : ResolvedCall}
    (handler : c.handler = d.handler) (owner : c.site.owner = d.site.owner) :
    (c.reports options).length = (d.reports options).length := by
  unfold reports
  rw [handler, owner]
  split <;> rfl

/-- Whether the warnings of the log are those that its entries call for. -/
def Log.Reported (options : Options) (log : Log) : Prop :=
  log.warnings = log.calls.flatMap (ResolvedCall.reports options)

/-- Whether a computation that succeeds warns of what its entries call for. -/
def Logged.Reports {α : Type} (options : Options) (x : Logged α) : Prop :=
  ∀ a log, x = .ok (a, log) → log.Reported options

namespace Logged

variable {α β : Type} {options : Options}

theorem reports_pure (a : α) : (pure a : Logged α).Reports options := by
  intro b log succeeded
  cases succeeded
  rfl

theorem Reports.bind {x : Logged α} {f : α → Logged β} (hx : x.Reports options)
    (hf : ∀ a, (f a).Reports options) : (x >>= f).Reports options := by
  intro b log succeeded
  obtain ⟨a, before, after, hxa, hfb, rfl⟩ := (bind_eq_ok_iff x f b log).mp succeeded
  have earlier : before.warnings = before.calls.flatMap _ := hx a before hxa
  have later : after.warnings = after.calls.flatMap _ := hf a b after hfb
  change before.warnings ++ after.warnings = (before.calls ++ after.calls).flatMap _
  rw [earlier, later, List.flatMap_append]

end Logged

open Logged

section
variable (r : Resolver)

theorem Resolver.lowerCall_reports (s : CallSite) : (r.lowerCall s).Reports r.options := by
  intro e log succeeded
  unfold lowerCall at succeeded
  split at succeeded
  · cases succeeded
    exact (List.append_nil _).symm
  · cases succeeded

namespace SourceExpr

theorem finish_reports (e : SourceExpr) (parts : List Expr) :
    (e.finish r parts).Reports r.options := by
  unfold finish
  split
  · exact r.lowerCall_reports _
  · exact reports_pure _

theorem lowerAll_reports (exprs : List SourceExpr)
    (each : ∀ e ∈ exprs, (e.lower r).Reports r.options) :
    (lowerAll r exprs).Reports r.options := by
  induction exprs with
  | nil => exact reports_pure _
  | cons e rest ih =>
      obtain ⟨head, others⟩ := List.forall_mem_cons.mp each
      exact head.bind fun part => (ih others).bind fun parts => reports_pure _

theorem lower_reports (e : SourceExpr) : (e.lower r).Reports r.options := by
  induction e using induction_children with
  | step e ih =>
    rw [lower_eq]
    exact (lowerAll_reports r e.children ih).bind (e.finish_reports r)

end SourceExpr

namespace SourceFile

theorem lowerDeclarations_reports (declarations : List SourceDeclaration) :
    (lowerDeclarations r declarations).Reports r.options := by
  induction declarations with
  | nil => exact reports_pure _
  | cons d rest ih =>
      exact (d.body.lower_reports r).bind fun body => ih.bind fun others => reports_pure _

/-- The warnings on a file are those that the calls in its log call for, in their order. -/
theorem lower_reports (file : SourceFile) : (file.lower r).Reports r.options :=
  (lowerDeclarations_reports r file.declarations).bind fun _ => reports_pure _

end SourceFile
end
end CallReplacement
