import CallReplacement.Expr

/-!
Induction over target expressions by their children.
-/

namespace CallReplacement.Expr

theorem sizeOf_lt_of_mem_children {e c : Expr} (member : c ∈ e.children) :
    sizeOf c < sizeOf e := by
  cases e with
  | literal | ident | imported => simp [children] at member
  | call note style callee args =>
      rcases List.mem_cons.mp member with rfl | inArgs
      · simp only [call.sizeOf_spec]
        omega
      · have smaller := List.sizeOf_lt_of_mem inArgs
        simp only [call.sizeOf_spec]
        omega
  | object note fields =>
      obtain ⟨⟨name, e⟩, inFields, rfl⟩ := List.mem_map.mp member
      have smaller := List.sizeOf_lt_of_mem inFields
      simp only [Prod.mk.sizeOf_spec] at smaller
      simp only [object.sizeOf_spec]
      omega
  | raw note template args =>
      have smaller := List.sizeOf_lt_of_mem (show c ∈ args from member)
      simp only [raw.sizeOf_spec]
      omega
  | sequence note exprs =>
      have smaller := List.sizeOf_lt_of_mem (show c ∈ exprs from member)
      simp only [sequence.sizeOf_spec]
      omega
  | field | index | cast | unary | binary | logical | lambda | bind | conditional =>
      simp only [children, List.mem_cons, List.not_mem_nil, or_false] at member
      -- Each child is a field of its own here.
      rcases member with rfl | rfl | rfl <;> simp <;> omega

/-- What passes from all children to the parent holds of every expression. -/
theorem induction_children {motive : Expr → Prop}
    (step : ∀ e, (∀ c ∈ e.children, motive c) → motive e) (e : Expr) : motive e :=
  step e fun c _ => induction_children step c
termination_by sizeOf e
decreasing_by exact sizeOf_lt_of_mem_children ‹_›

-- What holds of all nodes holds of the root and, in the same way, of each child.
theorem forall_subterms_iff (P : Expr → Prop) (e : Expr) :
    (∀ s ∈ e.subterms, P s) ↔ P e ∧ ∀ c ∈ e.children, ∀ s ∈ c.subterms, P s := by
  rw [subterms_eq]
  simp only [List.mem_cons, List.mem_flatMap, forall_eq_or_imp]
  constructor
  · rintro ⟨node, parts⟩
    exact ⟨node, fun c member s inside => parts s ⟨c, member, inside⟩⟩
  · rintro ⟨node, parts⟩
    refine ⟨node, ?_⟩
    rintro s ⟨c, member, inside⟩
    exact parts c member s inside

end CallReplacement.Expr
