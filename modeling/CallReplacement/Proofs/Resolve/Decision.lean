import CallReplacement.Proofs.Source.Repeats
import CallReplacement.Resolve.Resolution
import Mathlib.Data.List.Basic

/-!
Who decides on a call site. It is the first extension that does not decline, and the table of
built-in replacements if all of them do. The outcome is then settled by the answer of that
handler, and no other is asked.
-/

namespace CallReplacement.Resolver

variable (r : Resolver) (s : CallSite)

/-- Whether an extension leaves the call site to others. -/
def Declines (extension : String × Replacer) : Prop := extension.2 r.options s = .ok none

/-- Who decides on the call site, under which name, and with which answer. -/
inductive Decides : Handler → String → Except Failure (Option Expr) → Prop
  | plugin {before after : List (String × Replacer)} {name : String} {replace : Replacer} :
      r.registry.callReplacers = before ++ (name, replace) :: after →
      (∀ extension ∈ before, r.Declines s extension) →
      ¬ r.Declines s (name, replace) →
      Decides (.plugin name) name (replace r.options s)
  | builtin :
      (∀ extension ∈ r.registry.callReplacers, r.Declines s extension) →
      Decides .builtin "builtin" (r.builtins.replace r.options s)

/-- What becomes of a call site when a handler gives this answer. -/
def settled (handler : Handler) (name : String) :
    Except Failure (Option Expr) → Except Failure Resolution
  | .ok (some e) => .ok ⟨handler, s.place e⟩
  | .ok none => .ok ⟨.passThrough, s.asWritten⟩
  | .error failure => .error (s.blame name failure)

variable {r s}

theorem askPlugins_of_declines {extensions : List (String × Replacer)}
    (decline : ∀ extension ∈ extensions, r.Declines s extension) :
    r.askPlugins s extensions = .ok none := by
  induction extensions with
  | nil => rfl
  | cons extension rest ih =>
      have head : extension.2 r.options s = .ok none := decline extension List.mem_cons_self
      have tail := ih fun other member => decline other (List.mem_cons_of_mem _ member)
      simp only [askPlugins, ask, head, tail]

-- Those behind the first extension that does not decline are not asked.
theorem askPlugins_of_first {before after : List (String × Replacer)} {name : String}
    {replace : Replacer} (decline : ∀ extension ∈ before, r.Declines s extension)
    (answers : ¬ r.Declines s (name, replace)) :
    r.askPlugins s (before ++ (name, replace) :: after) = r.ask s (.plugin name) name replace := by
  induction before with
  | nil =>
      rw [List.nil_append, askPlugins]
      cases answer : replace r.options s with
      | error failure => simp only [ask, answer]
      | ok result =>
          cases result with
          | none => exact absurd answer answers
          | some e => simp only [ask, answer]
  | cons extension rest ih =>
      have head : extension.2 r.options s = .ok none := decline extension List.mem_cons_self
      have tail := ih fun other member => decline other (List.mem_cons_of_mem _ member)
      rw [List.cons_append, askPlugins]
      simp only [ask, head]
      rw [tail, ask]

theorem Decides.resolve {handler : Handler} {name : String}
    {answer : Except Failure (Option Expr)} (decides : r.Decides s handler name answer) :
    r.resolve s = settled s handler name answer := by
  cases decides with
  | plugin extensions decline answers =>
      rw [Resolver.resolve, extensions, askPlugins_of_first decline answers, ask]
      rename_i replace
      cases answer : replace r.options s with
      | error failure => rfl
      | ok result =>
          cases result with
          | none => exact absurd answer answers
          | some e => rfl
  | builtin decline =>
      rw [Resolver.resolve, askPlugins_of_declines decline]
      dsimp only
      rw [ask]
      cases r.builtins.replace r.options s with
      | error failure => rfl
      | ok result => cases result <;> rfl

-- Either all decline, or there is a first that does not.
theorem exists_decides (r : Resolver) (s : CallSite) :
    ∃ handler name answer, r.Decides s handler name answer := by
  rcases forall_or_first (r.Declines s) r.registry.callReplacers with
    decline | ⟨_, _, _, extensions, decline, answers⟩
  · exact ⟨_, _, _, .builtin decline⟩
  · exact ⟨_, _, _, .plugin extensions decline answers⟩

theorem resolve_eq_ok_iff (r : Resolver) (s : CallSite) (resolution : Resolution) :
    r.resolve s = .ok resolution ↔
      ∃ handler name answer, r.Decides s handler name answer ∧
        settled s handler name answer = .ok resolution := by
  constructor
  · intro resolved
    obtain ⟨handler, name, answer, decides⟩ := exists_decides r s
    exact ⟨handler, name, answer, decides, decides.resolve.symm.trans resolved⟩
  · rintro ⟨handler, name, answer, decides, outcome⟩
    exact decides.resolve.trans outcome

/-- A call site cannot be resolved exactly if the handler that decides on it fails. -/
theorem resolve_eq_error_iff (r : Resolver) (s : CallSite) (failure : Failure) :
    r.resolve s = .error failure ↔
      ∃ handler name cause, r.Decides s handler name (.error cause) ∧ failure = s.blame name cause := by
  constructor
  · intro failed
    obtain ⟨handler, name, answer, decides⟩ := exists_decides r s
    rw [decides.resolve] at failed
    cases answer with
    | error cause =>
        cases failed
        exact ⟨handler, name, cause, decides, rfl⟩
    | ok result => cases result <;> cases failed
  · rintro ⟨handler, name, cause, decides, rfl⟩
    exact decides.resolve

end CallReplacement.Resolver
