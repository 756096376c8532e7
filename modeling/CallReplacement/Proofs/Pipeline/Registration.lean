import CallReplacement.Proofs.Pipeline.FirstFailure
import CallReplacement.Proofs.Resolve.Assembly
import CallReplacement.Proofs.Resolve.Decision

/-!
What the order of registration decides. A run takes the replacers and the transformers out of the
registry, each kind in its order, so it does not matter how the two kinds are interleaved. Of two
replacers next to each other of which at most one answers at any call site, it does not matter
which one is asked first.
-/

namespace CallReplacement

namespace Registry

theorem callReplacers_eq (r : Registry) :
    r.callReplacers = (r.handlersFor .replaceCall).filterMap Extension.replacer? := by
  unfold callReplacers handlersFor
  rw [List.filterMap_filter]
  refine List.filterMap_congr fun e _ => ?_
  cases e <;> rfl

theorem astTransformers_eq (r : Registry) :
    r.astTransformers = (r.handlersFor .transformAst).filterMap Extension.transformer? := by
  unfold astTransformers handlersFor
  rw [List.filterMap_filter]
  refine List.filterMap_congr fun e _ => ?_
  cases e <;> rfl

/-- Whether the second registry holds the extensions of the first in another order that makes no
difference: it interleaves the kinds in another way, it swaps two neighbouring replacers of which
one declines wherever the other does not, or it does so repeatedly. -/
inductive Reordered (options : Options) : Registry → Registry → Prop
  | interleaved {r r' : Registry} :
      r.handlersFor .replaceCall = r'.handlersFor .replaceCall →
      r.handlersFor .transformAst = r'.handlersFor .transformAst → Reordered options r r'
  | swapped {r r' : Registry} {before after : List Extension} {name name' : String}
      {replace replace' : Replacer} :
      r.handlersFor .replaceCall =
        before ++ .replaceCall name replace :: .replaceCall name' replace' :: after →
      r'.handlersFor .replaceCall =
        before ++ .replaceCall name' replace' :: .replaceCall name replace :: after →
      r.handlersFor .transformAst = r'.handlersFor .transformAst →
      (∀ s, replace options s = .ok none ∨ replace' options s = .ok none) → Reordered options r r'
  | trans {r r' r'' : Registry} :
      Reordered options r r' → Reordered options r' r'' → Reordered options r r''

end Registry

namespace Resolver

section
variable {r : Resolver} {s : CallSite}

theorem askPlugins_cons_of_declines {extension : String × Replacer}
    (declines : r.Declines s extension) (rest : List (String × Replacer)) :
    r.askPlugins s (extension :: rest) = r.askPlugins s rest := by
  unfold Declines at declines
  simp only [askPlugins, ask, declines]

theorem askPlugins_cons_congr (extension : String × Replacer) {rest rest' : List (String × Replacer)}
    (same : r.askPlugins s rest = r.askPlugins s rest') :
    r.askPlugins s (extension :: rest) = r.askPlugins s (extension :: rest') := by
  rw [askPlugins, askPlugins, same]

theorem askPlugins_swap {x y : String × Replacer} (one : r.Declines s x ∨ r.Declines s y)
    (before after : List (String × Replacer)) :
    r.askPlugins s (before ++ x :: y :: after) = r.askPlugins s (before ++ y :: x :: after) := by
  induction before with
  | nil =>
      rcases one with declines | declines
      · calc r.askPlugins s (x :: y :: after)
            = r.askPlugins s (y :: after) := askPlugins_cons_of_declines declines _
          _ = r.askPlugins s (y :: x :: after) :=
              askPlugins_cons_congr y (askPlugins_cons_of_declines declines after).symm
      · calc r.askPlugins s (x :: y :: after)
            = r.askPlugins s (x :: after) :=
              askPlugins_cons_congr x (askPlugins_cons_of_declines declines after)
          _ = r.askPlugins s (y :: x :: after) := (askPlugins_cons_of_declines declines _).symm
  | cons first rest ih => exact askPlugins_cons_congr first ih

end

variable {registry registry' : Registry} {builtins : Builtins} {options : Options}

-- What an extension answers hangs on the options, not on the registry it is taken from.
theorem askPlugins_registry (s : CallSite) (extensions : List (String × Replacer)) :
    askPlugins ⟨registry, builtins, options⟩ s extensions =
      askPlugins ⟨registry', builtins, options⟩ s extensions := by
  induction extensions with
  | nil => rfl
  | cons extension rest ih =>
      rw [askPlugins, askPlugins, ih]
      rfl

theorem lowerCall_congr {s : CallSite}
    (asked : askPlugins ⟨registry, builtins, options⟩ s registry.callReplacers =
      askPlugins ⟨registry', builtins, options⟩ s registry'.callReplacers) :
    lowerCall ⟨registry, builtins, options⟩ s = lowerCall ⟨registry', builtins, options⟩ s := by
  have resolved : resolve ⟨registry, builtins, options⟩ s =
      resolve ⟨registry', builtins, options⟩ s := by
    unfold resolve
    rw [asked]
    rfl
  unfold lowerCall
  rw [resolved]
  rfl

end Resolver

section
variable {r r' : Resolver} (same : ∀ s, r.lowerCall s = r'.lowerCall s)
include same

namespace SourceExpr

theorem finish_congr (e : SourceExpr) : e.finish r = e.finish r' := by
  funext parts
  unfold finish
  split
  · exact same _
  · rfl

omit same in
theorem lowerAll_congr {exprs : List SourceExpr} (each : ∀ e ∈ exprs, e.lower r = e.lower r') :
    lowerAll r exprs = lowerAll r' exprs := by
  induction exprs with
  | nil => rfl
  | cons e rest ih =>
      obtain ⟨head, others⟩ := List.forall_mem_cons.mp each
      rw [lowerAll, lowerAll, head, ih others]

/-- Resolvers that treat every call site alike lower every tree alike. -/
theorem lower_congr (e : SourceExpr) : e.lower r = e.lower r' := by
  induction e using induction_children with
  | step e ih => rw [lower_eq, lower_eq r' e, lowerAll_congr ih, finish_congr same e]

end SourceExpr

namespace SourceFile

theorem lowerDeclarations_congr (declarations : List SourceDeclaration) :
    lowerDeclarations r declarations = lowerDeclarations r' declarations := by
  induction declarations with
  | nil => rfl
  | cons d rest ih => rw [lowerDeclarations, lowerDeclarations, d.body.lower_congr same, ih]

theorem lower_congr (file : SourceFile) : file.lower r = file.lower r' := by
  rw [lower, lower, lowerDeclarations_congr same]

end SourceFile
end

namespace Pipeline

variable {registry registry' : Registry} {builtins : Builtins} {options : Options}

/-- A run sees of the registry its transformers, and what its replacers answer at call sites. -/
theorem run_congr (transformers : registry.astTransformers = registry'.astTransformers)
    (asked : ∀ s, Resolver.askPlugins ⟨registry, builtins, options⟩ s registry.callReplacers =
      Resolver.askPlugins ⟨registry', builtins, options⟩ s registry'.callReplacers)
    (phases : List Phase) (file : SourceFile) :
    run ⟨registry, builtins, phases⟩ file options =
      run ⟨registry', builtins, phases⟩ file options := by
  unfold run runPhases transformerPhase
  rw [transformers]
  cases file.transform options registry'.astTransformers with
  | error failure => rfl
  | ok tree =>
      have lowered := tree.lower_congr fun s => Resolver.lowerCall_congr (asked s)
      simp only [runPhases, loweringPhase, resolver, lowered]

/-- Registries that differ in an order that makes no difference give the same run: the same target
form, log and diagnostics, or the same failure. -/
theorem reordered_registries_run_alike (reordered : registry.Reordered options registry')
    (builtins : Builtins) (phases : List Phase) (file : SourceFile) :
    run ⟨registry, builtins, phases⟩ file options =
      run ⟨registry', builtins, phases⟩ file options := by
  induction reordered with
  | interleaved replacers transformers =>
      refine run_congr ?_ (fun s => ?_) phases file
      · rw [Registry.astTransformers_eq, transformers, ← Registry.astTransformers_eq]
      · rw [Registry.callReplacers_eq, replacers, ← Registry.callReplacers_eq]
        exact Resolver.askPlugins_registry s _
  | @swapped r r' before after name name' replace replace' replacers replacers' transformers disjoint =>
      refine run_congr ?_ (fun s => ?_) phases file
      · rw [Registry.astTransformers_eq, transformers, ← Registry.astTransformers_eq]
      · have one : Resolver.Declines ⟨r, builtins, options⟩ s (name, replace) ∨
            Resolver.Declines ⟨r, builtins, options⟩ s (name', replace') := disjoint s
        rw [Registry.callReplacers_eq, replacers, Registry.callReplacers_eq, replacers']
        rw [List.filterMap_append, List.filterMap_append]
        exact (Resolver.askPlugins_swap one _ _).trans (Resolver.askPlugins_registry s _)
  | trans _ _ first second => exact first.trans second

/-- Gives this answer to the calls of members of one name. -/
def answering (member : String) (answer : Except Failure (Option Expr)) : Replacer :=
  fun _ site => if site.member = member then answer else .ok none

def reading : Replacer := answering "read" (.ok (some (.ofLiteral .unit)))

def closing : Replacer := answering "close" (.error (.message "locked"))

def moving : Extension := .transformAst "move" fun _ file => .ok { file with path := "Moved.fs" }

-- One that answers and one that fails are swapped, and the transformer is registered earlier.
theorem reordered_doors_fail_alike :
    let given : Registry := ⟨[.replaceCall "read" reading, moving, .replaceCall "close" closing]⟩
    let reordered : Registry := ⟨[moving, .replaceCall "close" closing, .replaceCall "read" reading]⟩
    let failure := Failure.handler "close" "App.Door" "close" none (.message "locked")
    given.Reordered {} reordered ∧
      run ⟨given, .standard, []⟩ openDoors {} = .error failure ∧
      run ⟨reordered, .standard, []⟩ openDoors {} = .error failure := by
  intro given reordered failure
  have disjoint (s : CallSite) : reading {} s = .ok none ∨ closing {} s = .ok none := by
    by_cases read : s.member = "read"
    · exact .inr (by simp [closing, answering, read])
    · exact .inl (if_neg read)
  have replacers : given.handlersFor .replaceCall =
      [] ++ .replaceCall "read" reading :: .replaceCall "close" closing :: [] := rfl
  have order : given.Reordered {} reordered := .swapped replacers rfl rfl disjoint
  have alike := reordered_registries_run_alike order .standard [] openDoors
  exact ⟨order, rfl, alike.symm⟩

end Pipeline
end CallReplacement
