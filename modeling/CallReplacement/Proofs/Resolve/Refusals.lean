import CallReplacement.Proofs.Resolve.CallOrder
import CallReplacement.Proofs.Resolve.Parametric

/-!
Refusals. A built-in replacement fails for one reason, the shape of the call, and its failure says
nothing about the parts of the call but how many arguments there are. So if two runs reach related
call sites, and what one of them refuses the other refuses in the same words, then they fail at the
same call with the same failure.
-/

namespace CallReplacement

/-- Whether a replacer fails for the shape of a call and for nothing else. -/
def Replacer.RefusesShapes (options : Options) (replace : Replacer) : Prop :=
  ∀ (s : CallSite) (failure : Failure), replace options s = .error failure →
    failure = s.unsupportedShape

/-- The failure names the called member, the number of arguments and the place, and no more. -/
theorem CallSite.Like.unsupportedShape {R : Expr → Expr → Prop} {s t : CallSite} (like : s.Like R t)
    (range : s.range = t.range) : s.unsupportedShape = t.unsupportedShape := by
  unfold CallSite.unsupportedShape
  rw [like.owner, like.member, like.args.length_eq, range]

section
variable {options : Options}

namespace Builtins

/-- A table refuses shapes only if each of its entries does. -/
theorem refusesShapes_replace (t : Builtins)
    (each : ∀ entry ∈ t.entries, Replacer.RefusesShapes options entry.replace) :
    Replacer.RefusesShapes options t.replace := by
  intro s failure failed
  unfold replace at failed
  split at failed
  · next replace found =>
    obtain ⟨entry, first, rfl⟩ := Option.map_eq_some_iff.mp found
    exact each entry (List.mem_of_find?_eq_some first) s failure failed
  · cases failed

theorem refusesShapes_forward (object member : String) (allowed : List Nat) :
    Replacer.RefusesShapes options (forward object member allowed) := by
  intro s failure failed
  unfold forward at failed
  split at failed <;> cases failed
  rfl

end Builtins

namespace Standard

theorem refusesShapes_pi : Replacer.RefusesShapes options pi := by
  intro s failure failed
  unfold pi at failed
  split at failed <;> cases failed
  rfl

namespace Random

theorem refusesShapes_construct : Replacer.RefusesShapes options construct := by
  intro s failure failed
  unfold construct at failed
  split at failed <;> cases failed
  rfl

theorem refusesShapes_next : Replacer.RefusesShapes options next := by
  intro s failure failed
  unfold next at failed
  split at failed <;> cases failed
  rfl

theorem refusesShapes_nextDouble : Replacer.RefusesShapes options nextDouble := by
  intro s failure failed
  unfold nextDouble at failed
  split at failed <;> cases failed
  rfl

end Random

namespace Strings

theorem refusesShapes_isNullOrEmpty : Replacer.RefusesShapes options isNullOrEmpty := by
  intro s failure failed
  unfold isNullOrEmpty at failed
  split at failed <;> cases failed
  rfl

theorem refusesShapes_length : Replacer.RefusesShapes options length := by
  intro s failure failed
  unfold length at failed
  split at failed <;> cases failed
  rfl

theorem refusesShapes_method (name : String) : Replacer.RefusesShapes options (method name) := by
  intro s failure failed
  unfold method at failed
  split at failed <;> cases failed
  rfl

end Strings
end Standard

theorem Builtins.refusesShapes_standard : Replacer.RefusesShapes options standard.replace := by
  refine refusesShapes_replace standard fun entry inTable => ?_
  cases standardEntry_of_mem inTable with
  | forward => exact refusesShapes_forward _ _ _
  | pi => exact Standard.refusesShapes_pi
  | construct => exact Standard.Random.refusesShapes_construct
  | next => exact Standard.Random.refusesShapes_next
  | nextDouble => exact Standard.Random.refusesShapes_nextDouble
  | isNullOrEmpty => exact Standard.Strings.refusesShapes_isNullOrEmpty
  | length => exact Standard.Strings.refusesShapes_length
  | method => exact Standard.Strings.refusesShapes_method _

end

/-! ## Two runs that refuse alike -/

/-- Whether the second resolver refuses in the same words what the first one refuses. -/
def Resolver.RefusesAlike (R : Expr → Expr → Prop) (r r' : Resolver) : Prop :=
  ∀ s t : CallSite, s.Like R t → s.range = t.range → ∀ failure,
    r.resolve s = .error failure → r'.resolve t = .error failure

/-- A resolver whose handlers all pass parts on, and refuse nothing but shapes, refuses alike. -/
theorem Resolver.refusesAlike_of_shapes {R : Expr → Expr → Prop} {r : Resolver}
    (plugins : ∀ extension ∈ r.registry.callReplacers,
      Replacer.Parametric R r.options extension.2 ∧ Replacer.RefusesShapes r.options extension.2)
    (builtins : Replacer.Parametric R r.options r.builtins.replace)
    (shapes : Replacer.RefusesShapes r.options r.builtins.replace) : r.RefusesAlike R r := by
  have shaped (s : CallSite) {handler : Handler} {name : String} {cause : Failure}
      (decides : r.Decides s handler name (.error cause)) : cause = s.unsupportedShape := by
    generalize given : Except.error cause = answer at decides
    cases decides with
    | @plugin before after name replace extensions _ _ =>
        have own : (name, replace) ∈ r.registry.callReplacers := by simp [extensions]
        exact (plugins _ own).2 s cause given.symm
    | builtin _ => exact shapes s cause given.symm
  intro s t like range failure failed
  obtain ⟨handler, name, cause, decides, rfl⟩ := (r.resolve_eq_error_iff s failure).mp failed
  obtain ⟨answer', decides', answers⟩ :=
    decides.related like (fun extension member => (plugins extension member).1) builtins
  cases answers
  rw [decides'.resolve, shaped s decides, shaped t decides', like.unsupportedShape range]
  rfl

namespace SourceExpr

section
variable {R : Expr → Expr → Prop} {K : ResolvedCall → ResolvedCall → Prop} {r r' : Resolver}

variable (node : ∀ e f, Expr.Layer R e f → R e f) (follows : r.Follows R K r')
include node follows

/-- A call that the first run reaches is reached by the second run, with related parts. -/
theorem site?_follows {call : SourceExpr} {s : CallSite} (found : call.site? r = some s) :
    ∃ t, call.site? r' = some t ∧ s.Like R t ∧ s.range = t.range := by
  obtain ⟨parts, log, lowered, made⟩ := site?_eq_some_iff.mp found
  have below : List.Forall₂ (fun e e' => (e.lower r).Follows R K (e'.lower r'))
      call.children call.children :=
    List.forall₂_same.mpr fun e _ => lower_follows node follows (.refl e)
  obtain ⟨parts', log', lowered', related, _⟩ := lowerAll_follows below parts log lowered
  have sites : Option.Rel (CallSite.Like R) (call.siteOf? parts) (call.siteOf? parts') :=
    siteOf?_like (.refl call) related
  rw [made] at sites
  generalize made' : call.siteOf? parts' = site at sites
  obtain ⟨like⟩ := sites
  exact ⟨_, site?_eq_some_iff.mpr ⟨parts', log', lowered', made'⟩, like,
    (range_siteOf? made).trans (range_siteOf? made').symm⟩

theorem answered_follows {call : SourceExpr} (answered : call.Answered r) : call.Answered r' := by
  obtain ⟨s, x, found, resolved⟩ := answered
  obtain ⟨t, found', like, _⟩ := site?_follows node follows found
  obtain ⟨y, resolved', _⟩ := follows s t like x resolved
  exact ⟨t, y, found', resolved'⟩

variable (alike : r.RefusesAlike R r')
include alike

theorem refused_follows {call : SourceExpr} {failure : Failure} (refused : call.Refused r failure) :
    call.Refused r' failure := by
  obtain ⟨s, found, failed⟩ := refused_iff.mp refused
  obtain ⟨t, found', like, range⟩ := site?_follows node follows found
  exact refused_iff.mpr ⟨t, found', alike s t like range failure failed⟩

/-- The first call that the first run refuses is the first one that the second run refuses. -/
theorem firstRefused_follows {calls : List SourceExpr} {failure : Failure}
    (first : FirstRefused r calls failure) : FirstRefused r' calls failure := by
  obtain ⟨before, call, after, split, answered, refused⟩ := first
  exact ⟨before, call, after, split,
    fun c member => answered_follows node follows (answered c member),
    refused_follows node follows alike refused⟩

end
end SourceExpr

/-- The lowering of a file fails in the second run as it does in the first. -/
theorem SourceFile.lower_refuses {R : Expr → Expr → Prop} {K : ResolvedCall → ResolvedCall → Prop}
    {r r' : Resolver} (node : ∀ e f, Expr.Layer R e f → R e f) (follows : r.Follows R K r')
    (alike : r.RefusesAlike R r') (file : SourceFile) {failure : Failure}
    (failed : file.lower r = .error failure) : file.lower r' = .error failure := by
  have first := ((file.lower_resolves r).error_iff failure).mp failed
  exact ((file.lower_resolves r').error_iff failure).mpr
    (SourceExpr.firstRefused_follows node follows alike first)

end CallReplacement
