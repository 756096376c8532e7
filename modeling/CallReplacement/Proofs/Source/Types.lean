import CallReplacement.Proofs.Source.Rebuild

/-!
Types of source trees. A node has its type from its fields and from the types of its children, and
a function shows its arity in its type.
-/

namespace CallReplacement.SourceExpr

-- A function shows its arity in its type, so the source knows no more than the types do.
theorem lambdaArity_eq (e : SourceExpr) : e.lambdaArity = e.type.lambdaArity := by
  cases e with
  | lambda params body range => simp [lambdaArity, type, ValueType.lambdaArity]
  | _ => rfl

theorem lastType_eq (exprs : List SourceExpr) :
    lastType exprs = (exprs.map type).getLast?.getD .unit := by
  induction exprs with
  | nil => rfl
  | cons e rest ih =>
      cases rest with
      | nil => rfl
      | cons next others => simp [lastType, ih]

theorem SameFields.type {e e' : SourceExpr} (same : SameFields e e')
    (children : e.children.map SourceExpr.type = e'.children.map SourceExpr.type) :
    e.type = e'.type := by
  cases same with
  | lambda | bind | conditional =>
      simp only [SourceExpr.children, List.map_cons, List.cons.injEq] at children
      simp only [SourceExpr.type, children]
  | sequence =>
      rw [SourceExpr.type, SourceExpr.type, lastType_eq, lastType_eq]
      exact congrArg (fun types => types.getLast?.getD .unit) children
  | _ => rfl

end CallReplacement.SourceExpr
