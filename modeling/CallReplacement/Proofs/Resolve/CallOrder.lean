import CallReplacement.Proofs.Resolve.Assembly
import CallReplacement.Proofs.Resolve.Decision

/-!
Lowering as a series of steps, one for each call. The calls are resolved in post-order; the first
that is refused ends the series with its failure, and a series without refusals enters every
call into the log.
-/

namespace CallReplacement

/-- What is reported of a call site when a handler fails: a fault of the compiler's own in its own
form, and else who failed at which call site and why. -/
inductive CallSite.Reports (s : CallSite) (name : String) (cause : Failure) : Failure → Prop
  | own : cause.compileFault?.isSome → Reports s name cause cause
  | handler : cause.compileFault? = none →
      Reports s name cause (.handler name s.owner s.member s.range cause)

theorem CallSite.reports_iff {s : CallSite} {name : String} {cause failure : Failure} :
    s.Reports name cause failure ↔ failure = s.blame name cause := by
  unfold blame
  constructor
  · intro reports
    cases reports with
    | own fault => rw [if_pos fault]
    | handler fault => simp [fault]
  · rintro rfl
    split
    · next fault => exact .own fault
    · next fault => exact .handler (by simpa using fault)

namespace SourceExpr

/-- The calls in an expression in post-order. -/
def callsPostorder (e : SourceExpr) : List SourceExpr := e.postorder.filter isCall

theorem callsPostorder_eq (e : SourceExpr) :
    e.callsPostorder = e.children.flatMap callsPostorder ++ [e].filter isCall := by
  rw [callsPostorder, postorder_eq, List.filter_append, List.filter_flatMap]
  rfl

section
variable (r : Resolver)

/-- Whether the call is reached with lowered parts and then resolved. -/
def Answered (call : SourceExpr) : Prop :=
  ∃ site resolution, call.site? r = some site ∧ r.resolve site = .ok resolution

/-- Whether the call is reached with lowered parts, and the handler that decides on it fails. -/
def Refused (call : SourceExpr) (failure : Failure) : Prop :=
  ∃ site handler name cause, call.site? r = some site ∧
    r.Decides site handler name (.error cause) ∧ site.Reports name cause failure

/-- Whether the log has this entry for the call. -/
def EnteredAs (call : SourceExpr) (entry : ResolvedCall) : Prop :=
  call.site? r = some entry.site ∧
    ∃ resolution, r.resolve entry.site = .ok resolution ∧ entry.handler = resolution.handler

/-- Whether the first call of a series that is not answered is refused with this failure. -/
def FirstRefused (calls : List SourceExpr) (failure : Failure) : Prop :=
  ∃ before call after, calls = before ++ call :: after ∧
    (∀ c ∈ before, c.Answered r) ∧ call.Refused r failure

variable {r}

theorem EnteredAs.answered {call : SourceExpr} {entry : ResolvedCall}
    (entered : call.EnteredAs r entry) : call.Answered r := by
  obtain ⟨found, resolution, resolved, _⟩ := entered
  exact ⟨entry.site, resolution, found, resolved⟩

theorem answered_of_forall₂ {calls : List SourceExpr} {entries : List ResolvedCall}
    (entered : List.Forall₂ (EnteredAs r) calls entries) : ∀ c ∈ calls, c.Answered r := by
  induction entered with
  | nil => simp
  | cons head tail ih => exact List.forall_mem_cons.mpr ⟨head.answered, ih⟩

theorem refused_iff {call : SourceExpr} {failure : Failure} :
    call.Refused r failure ↔
      ∃ site, call.site? r = some site ∧ r.resolve site = .error failure := by
  constructor
  · rintro ⟨site, handler, name, cause, found, decides, reports⟩
    obtain rfl := CallSite.reports_iff.mp reports
    exact ⟨site, found, decides.resolve⟩
  · rintro ⟨site, found, failed⟩
    obtain ⟨handler, name, cause, decides, same⟩ := (r.resolve_eq_error_iff site failure).mp failed
    exact ⟨site, handler, name, cause, found, decides, CallSite.reports_iff.mpr same⟩

-- A call site has one outcome.
theorem Answered.not_refused {call : SourceExpr} {failure : Failure} (answered : call.Answered r) :
    ¬ call.Refused r failure := by
  intro refused
  obtain ⟨site, resolution, found, resolved⟩ := answered
  obtain ⟨other, foundToo, failed⟩ := refused_iff.mp refused
  rw [found, Option.some.injEq] at foundToo
  subst foundToo
  rw [resolved] at failed
  cases failed

theorem Refused.unique {call : SourceExpr} {failure other : Failure}
    (refused : call.Refused r failure) (refusedToo : call.Refused r other) : failure = other := by
  obtain ⟨site, found, failed⟩ := refused_iff.mp refused
  obtain ⟨site', found', failed'⟩ := refused_iff.mp refusedToo
  rw [found, Option.some.injEq] at found'
  subst found'
  exact Except.error.inj (failed.symm.trans failed')

theorem firstRefused_cons {call : SourceExpr} {rest : List SourceExpr} {failure : Failure} :
    FirstRefused r (call :: rest) failure ↔
      call.Refused r failure ∨ call.Answered r ∧ FirstRefused r rest failure := by
  constructor
  · rintro ⟨before, first, after, same, answered, refused⟩
    cases before with
    | nil =>
        obtain ⟨rfl, rfl⟩ := List.cons.inj same
        exact .inl refused
    | cons head tail =>
        obtain ⟨rfl, rfl⟩ := List.cons.inj same
        obtain ⟨answered, others⟩ := List.forall_mem_cons.mp answered
        exact .inr ⟨answered, tail, first, after, rfl, others, refused⟩
  · rintro (refused | ⟨answered, before, first, after, rfl, others, refused⟩)
    · exact ⟨[], call, rest, rfl, by simp, refused⟩
    · exact ⟨call :: before, first, after, rfl, List.forall_mem_cons.mpr ⟨answered, others⟩, refused⟩

theorem FirstRefused.unique {calls : List SourceExpr} {failure other : Failure}
    (first : FirstRefused r calls failure) (firstToo : FirstRefused r calls other) :
    failure = other := by
  induction calls with
  | nil =>
      obtain ⟨before, call, after, same, _⟩ := first
      cases before <;> cases same
  | cons call rest ih =>
      rcases firstRefused_cons.mp first with refused | ⟨answered, later⟩
      · rcases firstRefused_cons.mp firstToo with refusedToo | ⟨answered, _⟩
        · exact refused.unique refusedToo
        · exact absurd refused answered.not_refused
      · rcases firstRefused_cons.mp firstToo with refused | ⟨_, laterToo⟩
        · exact absurd refused answered.not_refused
        · exact ih later laterToo

theorem FirstRefused.append {calls : List SourceExpr} {failure : Failure}
    (refused : FirstRefused r calls failure) (more : List SourceExpr) :
    FirstRefused r (calls ++ more) failure := by
  obtain ⟨before, call, after, rfl, answered, refused⟩ := refused
  exact ⟨before, call, after ++ more, by simp, answered, refused⟩

theorem FirstRefused.behind {first second : List SourceExpr} {failure : Failure}
    (answered : ∀ c ∈ first, c.Answered r) (refused : FirstRefused r second failure) :
    FirstRefused r (first ++ second) failure := by
  obtain ⟨before, call, after, rfl, others, refused⟩ := refused
  exact ⟨first ++ before, call, after, by simp, List.forall_mem_append.mpr ⟨answered, others⟩, refused⟩

end
end SourceExpr

/-- Whether a computation resolves these calls one after another: if it succeeds, it has entered
each of them into its log, and if it fails, it does so at the first that is refused. -/
structure Logged.Resolves {α : Type} (r : Resolver) (x : Logged α) (calls : List SourceExpr) :
    Prop where
  enters : ∀ a log, x = .ok (a, log) → List.Forall₂ (SourceExpr.EnteredAs r) calls log.calls
  stops : ∀ failure, x = .error failure → SourceExpr.FirstRefused r calls failure

namespace Logged

variable {r : Resolver}

theorem resolves_pure (a : α) : (pure a : Logged α).Resolves r [] where
  enters b log succeeded := by
    cases succeeded
    exact .nil
  stops failure failed := by cases failed

theorem Resolves.bind {x : Logged α} {f : α → Logged β} {first second : List SourceExpr}
    (hx : x.Resolves r first)
    (hf : ∀ a log, x = .ok (a, log) → (f a).Resolves r second) :
    (x >>= f).Resolves r (first ++ second) where
  enters b log succeeded := by
    obtain ⟨a, before, after, hxa, hfb, rfl⟩ := (bind_eq_ok_iff x f b log).mp succeeded
    exact List.rel_append (hx.enters a before hxa) ((hf a before hxa).enters b after hfb)
  stops failure failed := by
    rcases (bind_eq_error_iff x f failure).mp failed with early | ⟨a, log, hxa, late⟩
    · exact (hx.stops failure early).append second
    · have answered := SourceExpr.answered_of_forall₂ (hx.enters a log hxa)
      exact .behind answered ((hf a log hxa).stops failure late)

/-- A last step that resolves nothing, such as putting a node together. -/
theorem Resolves.andPure {x : Logged α} {calls : List SourceExpr} (hx : x.Resolves r calls)
    (f : α → β) : (x >>= fun a => pure (f a)).Resolves r calls := by
  simpa using hx.bind fun a log _ => resolves_pure (f a)

-- What a series of calls does decides what the computation does, also the other way round.
theorem Resolves.error_iff {x : Logged α} {calls : List SourceExpr} (hx : x.Resolves r calls)
    (failure : Failure) :
    x = .error failure ↔ SourceExpr.FirstRefused r calls failure := by
  constructor
  · exact hx.stops failure
  · intro refused
    cases result : x with
    | error other => rw [(hx.stops other result).unique refused]
    | ok answer =>
        have answered := SourceExpr.answered_of_forall₂ (hx.enters answer.1 answer.2 result)
        obtain ⟨before, call, after, rfl, _, refused⟩ := refused
        exact absurd refused (answered call (by simp)).not_refused

end Logged

open Logged

section
variable (r : Resolver)

namespace SourceExpr

theorem lowerAll_resolves (exprs : List SourceExpr)
    (each : ∀ e ∈ exprs, (e.lower r).Resolves r e.callsPostorder) :
    (lowerAll r exprs).Resolves r (exprs.flatMap callsPostorder) := by
  induction exprs with
  | nil => exact resolves_pure _
  | cons e rest ih =>
      have head := each e List.mem_cons_self
      have tail := ih fun other member => each other (List.mem_cons_of_mem _ member)
      exact head.bind fun part _ _ => tail.andPure _

-- The call site of a finished call is the one that its lowered children make up.
theorem lowerCall_resolves {e : SourceExpr} {site : CallSite} (found : e.site? r = some site) :
    (r.lowerCall site).Resolves r [e] where
  enters part log succeeded := by
    unfold Resolver.lowerCall at succeeded
    split at succeeded
    · next resolution resolved =>
      cases succeeded
      exact .cons ⟨found, resolution, resolved, rfl⟩ .nil
    · cases succeeded
  stops failure failed := by
    unfold Resolver.lowerCall at failed
    split at failed
    · cases failed
    · next cause refused =>
      cases failed
      exact ⟨[], e, [], rfl, by simp, refused_iff.mpr ⟨site, found, refused⟩⟩

theorem finish_resolves {e : SourceExpr} {parts : List Expr} {log : Log}
    (lowered : lowerAll r e.children = .ok (parts, log)) :
    (e.finish r parts).Resolves r ([e].filter isCall) := by
  have isSome := isSome_siteOf? (length_of_lowerAll r lowered)
  unfold finish
  cases made : e.siteOf? parts with
  | none =>
      rw [made] at isSome
      rw [List.filter_cons_of_neg (by simp [← isSome])]
      exact resolves_pure _
  | some site =>
      rw [made] at isSome
      rw [List.filter_cons_of_pos (by simp [← isSome]), List.filter_nil]
      exact lowerCall_resolves r (site?_eq_some_iff.mpr ⟨parts, log, lowered, made⟩)

theorem lower_resolves (e : SourceExpr) : (e.lower r).Resolves r e.callsPostorder := by
  induction e using induction_children with
  | step e ih =>
    rw [lower_eq, callsPostorder_eq]
    exact (lowerAll_resolves r e.children ih).bind fun parts log lowered => finish_resolves r lowered

end SourceExpr

namespace SourceFile

/-- The calls of all declarations, each declaration in post-order. -/
def callsPostorder (file : SourceFile) : List SourceExpr :=
  file.declarations.flatMap fun d => d.body.callsPostorder

/-- No call of the file is left out or repeated. -/
theorem callsPostorder_perm (file : SourceFile) : file.callsPostorder.Perm file.calls :=
  List.Perm.flatMap_left _ fun d _ => d.body.postorder_perm.filter _

theorem lowerDeclarations_resolves (declarations : List SourceDeclaration) :
    (lowerDeclarations r declarations).Resolves r
      (declarations.flatMap fun d => d.body.callsPostorder) := by
  induction declarations with
  | nil => exact resolves_pure _
  | cons d rest ih => exact (d.body.lower_resolves r).bind fun body _ _ => ih.andPure _

/-- A file is lowered by resolving its calls in post-order, up to the first that is refused. -/
theorem lower_resolves (file : SourceFile) : (file.lower r).Resolves r file.callsPostorder :=
  (lowerDeclarations_resolves r file.declarations).andPure _

end SourceFile
end
end CallReplacement
