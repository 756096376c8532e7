import CallReplacement.Catalog
import CallReplacement.Proofs.Resolve.Parametric

/-!
The extensions of the catalog do not look at annotations. Assertions are told by the entity and the
name of the called member, units by their literal; draws by the owner and the member, and by the
number of their arguments. What is selected by name is made of these extensions alone.
-/

namespace CallReplacement

/-- Whether a transformer makes files with the same code of files with the same code. -/
def Transformer.KeepsCode (options : Options) (transform : Transformer) : Prop :=
  ∀ file file' : SourceFile, file.SameCode file' → ∀ result, transform options file = .ok result →
    ∃ result', transform options file' = .ok result' ∧ result.SameCode result'

namespace Catalog

namespace StripAsserts

open SourceExpr

theorem isAssert_sameNode {e e' : SourceExpr} (same : SameNode e e') : isAssert e = isAssert e' := by
  cases same with
  | call member _ => simp only [isAssert, member.entity, member.name]
  | _ => rfl

theorem isUnit_sameNode {e e' : SourceExpr} (same : SameNode e e') : isUnit e = isUnit e' := by
  cases same with
  | @const value => cases value <;> rfl
  | _ => rfl

theorem dropUnits_sameCode {exprs exprs' : List SourceExpr}
    (same : List.Forall₂ SameCode exprs exprs') :
    List.Forall₂ SameCode (dropUnits exprs) (dropUnits exprs') := by
  induction same with
  | nil => exact .nil
  | @cons e e' rest rest' head tail ih =>
      cases tail with
      | nil => exact .cons head .nil
      | cons next others =>
          rw [dropUnits, dropUnits, isUnit_sameNode head.root]
          split
          · exact ih
          · exact .cons head ih

theorem stripNode_sameCode {e e' : SourceExpr} (same : SameCode e e') :
    SameCode (stripNode e) (stripNode e') := by
  unfold stripNode
  rw [isAssert_sameNode same.root]
  split
  · exact .node .const .nil
  · have whole := same
    cases same.root with
    | @sequence exprs exprs' =>
        have kept : List.Forall₂ SameCode (dropUnits exprs) (dropUnits exprs') :=
          dropUnits_sameCode same.children
        dsimp only
        generalize dropUnits exprs = left at kept ⊢
        generalize dropUnits exprs' = right at kept ⊢
        cases kept with
        | nil => exact .node .sequence .nil
        | cons head tail =>
            cases tail with
            | nil => exact head
            | cons next others => exact .node .sequence (.cons head (.cons next others))
    | _ => exact whole

theorem strip_sameCode {e e' : SourceExpr} (same : SameCode e e') :
    SameCode (strip e) (strip e') :=
  same.rebuild fun _ _ => stripNode_sameCode

theorem keepsCode_transform (options : Options) : Transformer.KeepsCode options transform := by
  intro file file' same result transformed
  unfold transform at transformed ⊢
  split at transformed
  · next debug =>
    cases transformed
    exact ⟨file', if_pos debug, same⟩
  · next release =>
    cases transformed
    refine ⟨_, if_neg release, same.path, ?_⟩
    rw [List.forall₂_map_left_iff, List.forall₂_map_right_iff]
    exact same.declarations.imp fun _ _ d => ⟨d.name, d.isPublic, strip_sameCode d.body⟩

end StripAsserts

theorem SeededRandom.parametric_replace {R : Expr → Expr → Prop} (congruent : Expr.Congruent R)
    (options : Options) : Replacer.Parametric R options replace := by
  intro s t like
  unfold replace
  rw [like.owner, like.member]
  split
  · have args := like.args
    generalize s.args = given at args ⊢
    generalize t.args = given' at args ⊢
    have zero := congruent.ofLiteral (.int 0)
    have largest := congruent.ofLiteral (.int 2147483647)
    have helper : R helper helper := congruent.node .imported
    rcases args with _ | ⟨first, _ | ⟨second, _ | ⟨third, others⟩⟩⟩
    · exact .replaced (congruent.node (.call helper (.cons zero (.cons largest .nil))))
    · exact .replaced (congruent.node (.call helper (.cons zero (.cons first .nil))))
    · exact .replaced (congruent.node (.call helper (.cons first (.cons second .nil))))
    · exact .failed
  · exact .declined

/-! What can be selected. -/

theorem mem_of_extensions {names : List String} {found : List Extension}
    (listed : extensions names = .ok found) :
    ∀ e ∈ found, e = SeededRandom.extension ∨ e = StripAsserts.extension := by
  induction names generalizing found with
  | nil =>
      cases listed
      exact List.forall_mem_nil _
  | cons name rest ih =>
      unfold extensions at listed
      split at listed
      · cases listed
      · next entry first =>
        split at listed
        · next others tail =>
          cases listed
          refine List.forall_mem_cons.mpr ⟨?_, ih tail⟩
          have inCatalog : entry ∈ entries := List.mem_of_find?_eq_some first
          simp only [entries, List.mem_cons, List.not_mem_nil, or_false] at inCatalog
          rcases inCatalog with rfl | rfl
          · exact .inl rfl
          · exact .inr rfl
        · cases listed

theorem mem_of_select {names : List String} {registry : Registry}
    (selected : select names = .ok registry) :
    ∀ e ∈ registry.extensions, e = SeededRandom.extension ∨ e = StripAsserts.extension := by
  unfold select at selected
  split at selected
  · next found listed =>
    unfold Registry.ofList at selected
    split at selected
    · cases selected
    · cases selected
      exact mem_of_extensions listed
  · cases selected

theorem parametric_of_select {R : Expr → Expr → Prop} (congruent : Expr.Congruent R)
    {names : List String} {registry : Registry} (selected : select names = .ok registry)
    (options : Options) :
    ∀ extension ∈ registry.callReplacers, Replacer.Parametric R options extension.2 := by
  intro extension member
  obtain ⟨e, inRegistry, replacer⟩ := List.mem_filterMap.mp member
  rcases mem_of_select selected e inRegistry with rfl | rfl
  · cases replacer
    exact SeededRandom.parametric_replace congruent options
  · cases replacer

theorem keepsCode_of_select {names : List String} {registry : Registry}
    (selected : select names = .ok registry) (options : Options) :
    ∀ transformer ∈ registry.astTransformers, Transformer.KeepsCode options transformer.2 := by
  intro transformer member
  obtain ⟨e, inRegistry, isTransformer⟩ := List.mem_filterMap.mp member
  rcases mem_of_select selected e inRegistry with rfl | rfl
  · cases isTransformer
  · cases isTransformer
    exact StripAsserts.keepsCode_transform options

end Catalog
end CallReplacement
