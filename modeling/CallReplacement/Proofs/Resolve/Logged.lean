import CallReplacement.Resolve.Lowering

/-!
Computations that log. A sequence of two succeeds exactly when both do, and its log is that of
the first followed by that of the second. It fails as its first part that fails.
-/

namespace CallReplacement

namespace Log

theorem empty_append (log : Log) : Log.empty ++ log = log := rfl

theorem append_empty (log : Log) : log ++ Log.empty = log := by
  change Log.mk (log.calls ++ []) (log.warnings ++ []) = log
  rw [List.append_nil, List.append_nil]

theorem append_assoc (a b c : Log) : a ++ b ++ c = a ++ (b ++ c) := by
  change Log.mk (a.calls ++ b.calls ++ c.calls) (a.warnings ++ b.warnings ++ c.warnings) = _
  rw [List.append_assoc, List.append_assoc]
  rfl

end Log

namespace Logged

theorem pure_eq_ok_iff (a b : α) (log : Log) :
    (pure a : Logged α) = .ok (b, log) ↔ a = b ∧ log = Log.empty := by
  constructor
  · intro succeeded
    cases succeeded
    exact ⟨rfl, rfl⟩
  · rintro ⟨rfl, rfl⟩
    rfl

theorem bind_eq_ok_iff (x : Logged α) (f : α → Logged β) (b : β) (log : Log) :
    (x >>= f) = .ok (b, log) ↔
      ∃ a first second, x = .ok (a, first) ∧ f a = .ok (b, second) ∧ log = first ++ second := by
  change x.andThen f = _ ↔ _
  cases hx : x with
  | error failure => simp [andThen]
  | ok answer =>
    obtain ⟨a, first⟩ := answer
    cases hf : f a with
    | error failure =>
        constructor
        · intro succeeded
          simp [andThen, hf] at succeeded
        · rintro ⟨a', first', second, same, succeeded, _⟩
          cases same
          rw [hf] at succeeded
          cases succeeded
    | ok answer =>
        obtain ⟨b', second⟩ := answer
        constructor
        · intro succeeded
          simp only [andThen, hf] at succeeded
          cases succeeded
          exact ⟨a, first, second, rfl, hf, rfl⟩
        · rintro ⟨a', first', second', same, succeeded, rfl⟩
          cases same
          rw [hf] at succeeded
          cases succeeded
          simp only [andThen, hf]
          rfl

theorem bind_eq_error_iff (x : Logged α) (f : α → Logged β) (failure : Failure) :
    (x >>= f) = .error failure ↔
      x = .error failure ∨ ∃ a log, x = .ok (a, log) ∧ f a = .error failure := by
  change x.andThen f = _ ↔ _
  cases x with
  | error cause =>
      constructor
      · intro failed
        cases failed
        exact .inl rfl
      · rintro (failed | ⟨a, log, succeeded, _⟩)
        · cases failed
          rfl
        · cases succeeded
  | ok answer =>
      obtain ⟨a, log⟩ := answer
      constructor
      · intro failed
        refine .inr ⟨a, log, rfl, ?_⟩
        cases hf : f a with
        | error cause =>
            simp only [andThen, hf] at failed
            exact failed
        | ok second =>
            simp only [andThen, hf] at failed
            cases failed
      · rintro (failed | ⟨a', log', same, failed⟩)
        · cases failed
        · cases same
          simp only [andThen, failed]
          rfl

/-! Sequences may be regrouped, and `pure` leaves no trace in them. -/

theorem bind_pure_self (x : Logged α) : (x >>= pure) = x := by
  change x.andThen done = x
  cases x with
  | error failure => rfl
  | ok answer =>
      simp only [andThen, done, Log.append_empty]
      rfl

theorem pure_bind_apply (a : α) (f : α → Logged β) : (pure a >>= f) = f a := by
  change (done a).andThen f = f a
  cases h : f a with
  | error failure =>
      simp only [andThen, done, h]
      rfl
  | ok answer =>
      simp only [andThen, done, h, Log.empty_append]
      rfl

theorem bind_regroup (x : Logged α) (f : α → Logged β) (g : β → Logged γ) :
    (x >>= f >>= g) = x >>= fun a => f a >>= g := by
  change (x.andThen f).andThen g = x.andThen fun a => (f a).andThen g
  cases x with
  | error failure => rfl
  | ok first =>
      simp only [andThen]
      cases f first.1 with
      | error failure => rfl
      | ok second =>
          dsimp only
          cases g second.1 with
          | error failure => rfl
          | ok third =>
              simp only [Log.append_assoc]
              rfl

instance : LawfulMonad Logged :=
  LawfulMonad.mk' Logged bind_pure_self pure_bind_apply bind_regroup

end Logged
end CallReplacement
