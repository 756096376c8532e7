import CallReplacement.Proofs.Pipeline.FirstFailure
import CallReplacement.Proofs.Resolve.CallLog
import CallReplacement.Proofs.Resolve.Parametric
import CallReplacement.Proofs.Resolve.Warnings

/-!
An extension for one member. It may put any expression in the place of a call, and that expression
may become the receiver or an argument of other calls; but the built-in replacements do not look
into receivers and arguments to decide what they claim. So the extension takes its own member from
the built-in table, and whatever is said of other members stays as it was.
-/

namespace CallReplacement

/-- What replacers are chosen by. -/
def CallSite.callee (s : CallSite) : String × String := (s.owner, s.member)

/-- Whether a replacer never fails, and declines every call but those of one member. -/
structure Replacer.ClaimsOnly (callee : String × String) (options : Options)
    (replace : Replacer) : Prop where
  answers : ∀ s, ∃ answer, replace options s = .ok answer
  declines : ∀ s, s.callee ≠ callee → replace options s = .ok none

/-- Whether two entries are of one call, owned by the same handler if it is one of another member. -/
structure ResolvedCall.SameBeside (callee : String × String) (c d : ResolvedCall) : Prop where
  key : c.key = d.key
  handler : c.site.callee ≠ callee → c.handler = d.handler

namespace ResolvedCall.SameBeside

variable {callee : String × String} {c d : ResolvedCall} (same : c.SameBeside callee d)
include same

theorem callee_eq : c.site.callee = d.site.callee :=
  congrArg (fun key : CallKey => (key.1, key.2.1)) same.key

theorem reports (options : Options) (other : c.site.callee ≠ callee) :
    c.reports options = d.reports options := by
  obtain ⟨owner, rest⟩ := Prod.mk.inj same.key
  obtain ⟨member, range⟩ := Prod.mk.inj rest
  unfold ResolvedCall.reports Resolver.unclaimed CallSite.fullName
  rw [same.handler other, owner, member, range]

end ResolvedCall.SameBeside

/-- What is reported on the calls of other members. -/
def reportsBeside (callee : String × String) (options : Options) (calls : List ResolvedCall) :
    List Diagnostic :=
  (calls.filter fun c => c.site.callee ≠ callee).flatMap (ResolvedCall.reports options)

theorem reportsBeside_eq {callee : String × String} (options : Options)
    {calls calls' : List ResolvedCall}
    (same : List.Forall₂ (ResolvedCall.SameBeside callee) calls calls') :
    reportsBeside callee options calls = reportsBeside callee options calls' := by
  unfold reportsBeside
  induction same with
  | nil => rfl
  | @cons c d _ _ head _ ih =>
      rw [List.filter_cons, List.filter_cons, ← head.callee_eq]
      split
      · next other =>
        rw [List.flatMap_cons, List.flatMap_cons, head.reports options (of_decide_eq_true other), ih]
      · exact ih

-- The rows of the two logs run in parallel, so that what their entries agree on can be put together.
theorem sameBeside_of_keys {callee : String × String} {calls calls' : List ResolvedCall}
    (row : List.Forall₂ (fun c d => c.site.callee ≠ callee → c.handler = d.handler) calls calls')
    (keys : calls.map ResolvedCall.key = calls'.map ResolvedCall.key) :
    List.Forall₂ (ResolvedCall.SameBeside callee) calls calls' := by
  induction row with
  | nil => exact .nil
  | cons head tail ih =>
      obtain ⟨key, others⟩ := List.cons.inj keys
      exact .cons ⟨key, head⟩ (ih others)

section
variable {callee : String × String} {options : Options} {name : String} {replace : Replacer}

/-- With the extension, every call is resolved that is resolved without it, and by the same handler
if it is one of another member. -/
theorem Resolver.follows_with_extension (claims : Replacer.ClaimsOnly callee options replace) :
    Resolver.Follows (fun _ _ => True)
      (fun c d => c.site.callee ≠ callee → c.handler = d.handler)
      ⟨.empty, .standard, options⟩ ⟨⟨[.replaceCall name replace]⟩, .standard, options⟩ := by
  intro s t like x resolved
  obtain ⟨handler, label, answer, decides, settles⟩ := (resolve_eq_ok_iff _ s x).mp resolved
  cases decides with
  | @plugin before _ _ _ extensions _ _ => cases before <;> cases extensions
  | builtin _ =>
      obtain ⟨given, answered⟩ := claims.answers t
      cases given with
      | none =>
          have answers : Answers (fun _ _ => True) (Builtins.standard.replace options s)
              (Builtins.standard.replace options t) :=
            Builtins.parametric_standard Expr.congruent_true (fun _ _ _ => trivial) s t like
          obtain ⟨y, settled, _, same⟩ := settled_related Expr.congruent_true like answers settles
          have yields : Decides ⟨⟨[.replaceCall name replace]⟩, .standard, options⟩ t .builtin
              "builtin" (Builtins.standard.replace options t) :=
            .builtin (List.forall_mem_singleton.mpr answered)
          exact ⟨y, yields.resolve.trans settled, trivial, fun _ => same⟩
      | some e =>
          have own : s.callee = callee := by
            by_contra other
            have declined := claims.declines t (by
              rwa [CallSite.callee, ← like.owner, ← like.member])
            cases declined.symm.trans answered
          have extensions : Registry.callReplacers ⟨[.replaceCall name replace]⟩ =
              [] ++ (name, replace) :: [] := rfl
          have takes : Decides ⟨⟨[.replaceCall name replace]⟩, .standard, options⟩ t
              (.plugin name) name (replace options t) :=
            .plugin extensions (List.forall_mem_nil _) (by simp [Declines, answered])
          rw [answered] at takes
          exact ⟨_, takes.resolve, trivial, fun other => absurd own other⟩

end

namespace Pipeline

/-- Whether two runs differ in the calls of one member at most: they log the same calls in the same
order, and calls of other members with the same handlers; and what they report is what is to be
reported on their calls, which is the same on those of other members. -/
structure AgreeBeside (callee : String × String) (options : Options) (plain extended : Context) :
    Prop where
  keys : plain.calls.map ResolvedCall.key = extended.calls.map ResolvedCall.key
  handlers : List.Forall₂ (fun c d => c.site.callee ≠ callee → c.handler = d.handler)
    plain.calls extended.calls
  plainReports : plain.diagnostics = plain.calls.flatMap (ResolvedCall.reports options)
  extendedReports : extended.diagnostics = extended.calls.flatMap (ResolvedCall.reports options)
  reports : reportsBeside callee options plain.calls = reportsBeside callee options extended.calls

/-- If a file is compiled with the standard table alone, it is compiled with an extension for one
member beside it, and nothing changes for the calls of other members. -/
theorem extension_keeps_other_members {callee : String × String} {options : Options}
    {replace : Replacer} (claims : Replacer.ClaimsOnly callee options replace) (name : String)
    (file : SourceFile) {plain : Context}
    (ran : run ⟨.empty, .standard, []⟩ file options = .ok plain) :
    ∃ extended, run ⟨⟨[.replaceCall name replace]⟩, .standard, []⟩ file options = .ok extended ∧
      AgreeBeside callee options plain extended := by
  rcases run_cases .empty .standard options file with
    ⟨_, _, other⟩ | ⟨tree, rewritten, ⟨_, _, other⟩ | ⟨m, log, lowered, done⟩⟩
  · cases other.symm.trans ran
  · cases other.symm.trans ran
  · cases done.symm.trans ran
    cases rewritten
    obtain ⟨m', log', lowered', _, row⟩ := SourceFile.lower_follows (fun _ _ _ => trivial)
      (Resolver.follows_with_extension claims) (.refl file) m log lowered
    have keys : log.keys = log'.keys :=
      (file.lower_records _ m log lowered).trans (file.lower_records _ m' log' lowered').symm
    refine ⟨_, run_of_lowered rfl lowered', ?_⟩
    exact {
      keys
      handlers := row
      plainReports := file.lower_reports _ m log lowered
      extendedReports := file.lower_reports _ m' log' lowered'
      reports := reportsBeside_eq options (sameBeside_of_keys row keys) }

/-- `Trace.Write(String.IsNullOrEmpty(Text.Trim(name)))`, where nobody claims `Write` and `Trim`. -/
def tracedTest : SourceFile :=
  let called (owner name : String) (arg : SourceExpr) :=
    SourceExpr.call ⟨owner, name, .method, false, [], [], [], .any⟩ none [arg] [] none
  ⟨"Trace.fs", [⟨"main", true, called "System.Trace" "Write"
    (called "System.String" "IsNullOrEmpty"
      (called "System.Text" "Trim" (.ident "name" .string none))), none⟩]⟩

/-- Trims by a call of the target's own method. -/
def trimming : Replacer := fun _ site =>
  match site.args with
  | [arg] =>
      if site.callee = ("System.Text", "Trim") then
        .ok (some (.call (.typed .string) .direct (.field (.typed .any) arg "trim") []))
      else .ok none
  | _ => .ok none

theorem trimming_claimsOnly (options : Options) :
    Replacer.ClaimsOnly ("System.Text", "Trim") options trimming where
  answers s := by
    unfold trimming
    split
    · split <;> exact ⟨_, rfl⟩
    · exact ⟨_, rfl⟩
  declines s other := by
    unfold trimming
    split
    · rw [if_neg other]
    · rfl

theorem trimming_keeps_other_members :
    Replacer.ClaimsOnly ("System.Text", "Trim") {} trimming ∧
      ∃ plain extended, run ⟨.empty, .standard, []⟩ tracedTest {} = .ok plain ∧
        run ⟨⟨[.replaceCall "trim" trimming]⟩, .standard, []⟩ tracedTest {} = .ok extended ∧
        plain.calls.map ResolvedCall.handler = [.passThrough, .builtin, .passThrough] ∧
        extended.calls.map ResolvedCall.handler = [.plugin "trim", .builtin, .passThrough] ∧
        plain.diagnostics.length = 2 ∧ extended.diagnostics.length = 1 ∧
        AgreeBeside ("System.Text", "Trim") {} plain extended := by
  have claims := trimming_claimsOnly {}
  refine ⟨claims, _, _, rfl, rfl, rfl, rfl, rfl, rfl, ?_⟩
  obtain ⟨extended, ran, agree⟩ := extension_keeps_other_members claims "trim" tracedTest rfl
  cases ran
  exact agree

end Pipeline
end CallReplacement
