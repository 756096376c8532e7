import CallReplacement.Source.File
import Mathlib.Data.List.Forall2
import Mathlib.Data.List.Perm.Basic

/-!
Source trees in post-order. `children` alone decides the order: first all expressions in the
children, one child after another, and then the expression itself. Post-order and `subterms`,
which lists parents first, hold the same expressions equally often.
-/

namespace CallReplacement

/-! Rows side by side. -/

/-- A fact on the members of the first row that holds next to those of the second one. -/
theorem forall₂_of_mem {α β : Type} {R S : α → β → Prop} {row : List α} {row' : List β}
    (related : List.Forall₂ R row row') (each : ∀ a ∈ row, ∀ {b}, R a b → S a b) :
    List.Forall₂ S row row' := by
  induction related with
  | nil => exact .nil
  | cons head tail ih =>
      obtain ⟨first, others⟩ := List.forall_mem_cons.mp each
      exact .cons (first head) (ih others)

-- What related entries agree on is the same along the rows.
theorem map_eq_of_forall₂ {α β γ : Type} {P : α → β → Prop} {f : α → γ} {g : β → γ}
    (agree : ∀ a b, P a b → f a = g b) {row : List α} {row' : List β}
    (related : List.Forall₂ P row row') : row.map f = row'.map g := by
  rw [← List.forall₂_eq_eq_eq, List.forall₂_map_left_iff, List.forall₂_map_right_iff]
  exact related.imp agree

namespace SourceExpr

theorem sizeOf_lt_of_mem_children {e c : SourceExpr} (member : c ∈ e.children) :
    sizeOf c < sizeOf e := by
  cases e with
  | const | ident => simp [children] at member
  | call m receiver args generics range =>
      simp only [children, List.mem_append, Option.mem_toList] at member
      rcases member with inReceiver | inArgs
      · subst inReceiver
        simp only [call.sizeOf_spec, Option.some.sizeOf_spec]
        omega
      · have smaller := List.sizeOf_lt_of_mem inArgs
        simp only [call.sizeOf_spec]
        omega
  | apply callee args type range =>
      rcases List.mem_cons.mp member with rfl | inArgs
      · simp only [apply.sizeOf_spec]
        omega
      · have smaller := List.sizeOf_lt_of_mem inArgs
        simp only [apply.sizeOf_spec]
        omega
  | sequence exprs range =>
      have smaller := List.sizeOf_lt_of_mem (show c ∈ exprs from member)
      simp only [sequence.sizeOf_spec]
      omega
  | record fields type range =>
      obtain ⟨⟨name, e⟩, inFields, rfl⟩ := List.mem_map.mp member
      have smaller := List.sizeOf_lt_of_mem inFields
      simp only [Prod.mk.sizeOf_spec] at smaller
      simp only [record.sizeOf_spec]
      omega
  | get | lambda | bind | conditional | binary | logical | unary | coerce =>
      simp only [children, List.mem_cons, List.not_mem_nil, or_false] at member
      -- Each child is a field of its own here.
      rcases member with rfl | rfl | rfl <;> simp <;> omega

/-- What passes from all children to the parent holds of every tree. -/
theorem induction_children {motive : SourceExpr → Prop}
    (step : ∀ e, (∀ c ∈ e.children, motive c) → motive e) (e : SourceExpr) : motive e :=
  step e fun c _ => induction_children step c
termination_by sizeOf e
decreasing_by exact sizeOf_lt_of_mem_children ‹_›

-- What holds of all nodes holds of the root and, in the same way, of each child.
theorem forall_subterms_iff (P : SourceExpr → Prop) (e : SourceExpr) :
    (∀ s ∈ e.subterms, P s) ↔ P e ∧ ∀ c ∈ e.children, ∀ s ∈ c.subterms, P s := by
  rw [subterms_eq, List.forall_mem_cons]
  simp only [List.mem_flatMap, forall_exists_index, and_imp]
  constructor
  · rintro ⟨node, parts⟩
    exact ⟨node, fun c member s inside => parts s c member inside⟩
  · rintro ⟨node, parts⟩
    exact ⟨node, fun s c member inside => parts c member s inside⟩

/-- The expression and all expressions in it, each behind those in it. -/
def postorder (e : SourceExpr) : List SourceExpr :=
  (e.children.attach.flatMap fun ⟨c, _⟩ => postorder c) ++ [e]
termination_by sizeOf e
decreasing_by exact sizeOf_lt_of_mem_children ‹_›

theorem postorder_eq (e : SourceExpr) :
    e.postorder = e.children.flatMap postorder ++ [e] := by
  rw [postorder]
  simp [List.flatMap_def]

theorem postorder_perm (e : SourceExpr) : e.postorder.Perm e.subterms := by
  induction e using induction_children with
  | step e ih =>
    rw [postorder_eq, subterms_eq]
    have below : (e.children.flatMap postorder).Perm (e.children.flatMap subterms) :=
      List.Perm.flatMap_left _ ih
    exact (List.perm_append_singleton e _).trans (below.cons e)

end SourceExpr
end CallReplacement
