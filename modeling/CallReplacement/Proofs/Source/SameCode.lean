import CallReplacement.Proofs.Source.Rebuild
import Mathlib.Data.List.Forall2

/-!
Source trees with the same code. Types, ranges, generics and what is declared of a member beside
its name and kind are annotations: two trees have the same code if they differ in nothing else. A
callback that does not look at annotations rebuilds such trees to trees with the same code.
-/

namespace CallReplacement

/-- Whether two references go to a member of one entity, name and kind. Attributes, generics,
signature and return type are annotations, and so is whether the member asks for a receiver. -/
structure MemberRef.SameMember (m n : MemberRef) : Prop where
  entity : m.entity = n.entity
  name : m.name = n.name
  kind : m.kind = n.kind

theorem MemberRef.SameMember.memberName {m n : MemberRef} (same : m.SameMember n) :
    m.memberName = n.memberName := by
  unfold MemberRef.memberName isConstructor
  rw [same.name, same.kind]

namespace SourceExpr

/-- Whether two nodes differ in their annotations at most, apart from their children. -/
inductive SameNode : SourceExpr → SourceExpr → Prop
  | const {value type type' range range'} :
      SameNode (.const value type range) (.const value type' range')
  | ident {name type type' range range'} :
      SameNode (.ident name type range) (.ident name type' range')
  | call {member member' receiver receiver' args args' generics generics' range range'} :
      member.SameMember member' → receiver.isSome = receiver'.isSome →
      SameNode (.call member receiver args generics range)
        (.call member' receiver' args' generics' range')
  | apply {callee callee' args args' type type' range range'} :
      SameNode (.apply callee args type range) (.apply callee' args' type' range')
  | get {target target' field type type' range range'} :
      SameNode (.get target field type range) (.get target' field type' range')
  | lambda {params params' body body' range range'} :
      params.map Param.name = params'.map Param.name →
      SameNode (.lambda params body range) (.lambda params' body' range')
  | bind {name type type' value value' body body' range range'} :
      SameNode (.bind name type value body range) (.bind name type' value' body' range')
  | conditional {guard guard' yes yes' no no' range range'} :
      SameNode (.conditional guard yes no range) (.conditional guard' yes' no' range')
  | sequence {exprs exprs' range range'} : SameNode (.sequence exprs range) (.sequence exprs' range')
  | record {fields fields' type type' range range'} :
      fields.map Prod.fst = fields'.map Prod.fst →
      SameNode (.record fields type range) (.record fields' type' range')
  | binary {op left left' right right' type type' range range'} :
      SameNode (.binary op left right type range) (.binary op left' right' type' range')
  | logical {op left left' right right' range range'} :
      SameNode (.logical op left right range) (.logical op left' right' range')
  | unary {op operand operand' type type' range range'} :
      SameNode (.unary op operand type range) (.unary op operand' type' range')
  | coerce {operand operand' type type' range range'} :
      SameNode (.coerce operand type range) (.coerce operand' type' range')

namespace SameNode

theorem refl (e : SourceExpr) : SameNode e e := by
  cases e with
  | call => exact .call ⟨rfl, rfl, rfl⟩ rfl
  | lambda => exact .lambda rfl
  | record => exact .record rfl
  | _ => constructor

theorem symm {e e' : SourceExpr} (same : SameNode e e') : SameNode e' e := by
  cases same with
  | call member receiver =>
      exact .call ⟨member.entity.symm, member.name.symm, member.kind.symm⟩ receiver.symm
  | lambda names => exact .lambda names.symm
  | record names => exact .record names.symm
  | _ => constructor

theorem trans {e e' e'' : SourceExpr} (first : SameNode e e') (second : SameNode e' e'') :
    SameNode e e'' := by
  cases first with
  | call member receiver =>
      cases second with
      | call member' receiver' =>
          exact .call ⟨member.entity.trans member'.entity, member.name.trans member'.name,
            member.kind.trans member'.kind⟩ (receiver.trans receiver')
  | lambda names =>
      cases second with
      | lambda names' => exact .lambda (names.trans names')
  | record names =>
      cases second with
      | record names' => exact .record (names.trans names')
  | _ =>
      cases second
      constructor

theorem ofFields {e e' : SourceExpr} (same : SameFields e e') : SameNode e e' := by
  cases same with
  | call receiver => exact .call ⟨rfl, rfl, rfl⟩ receiver
  | lambda => exact .lambda rfl
  | record names => exact .record names
  | _ => constructor

end SameNode

/-- Whether two trees differ in annotations at most. -/
inductive SameCode : SourceExpr → SourceExpr → Prop
  | node {e e' : SourceExpr} :
      SameNode e e' → List.Forall₂ SameCode e.children e'.children → SameCode e e'

namespace SameCode

theorem root {e e' : SourceExpr} (same : SameCode e e') : SameNode e e' := by
  cases same with
  | node root _ => exact root

theorem children {e e' : SourceExpr} (same : SameCode e e') :
    List.Forall₂ SameCode e.children e'.children := by
  cases same with
  | node _ below => exact below

theorem refl (e : SourceExpr) : SameCode e e := by
  induction e using induction_children with
  | step e ih => exact .node (.refl e) (List.forall₂_same.mpr ih)

theorem symm {e e' : SourceExpr} (same : SameCode e e') : SameCode e' e := by
  induction e using induction_children generalizing e' with
  | step e ih =>
    have below : List.Forall₂ (flip SameCode) e.children e'.children :=
      forall₂_of_mem same.children ih
    exact .node same.root.symm below.flip

/-- A callback that does not look at annotations does not show them in what it rebuilds. -/
theorem rebuild {f : SourceExpr → SourceExpr}
    (keeps : ∀ x y, SameCode x y → SameCode (f x) (f y)) {e e' : SourceExpr}
    (same : SameCode e e') : SameCode (e.rebuild f) (e'.rebuild f) := by
  induction e using induction_children generalizing e' with
  | step e ih =>
    have below : List.Forall₂ SameCode (e.children.map (SourceExpr.rebuild f))
        (e'.children.map (SourceExpr.rebuild f)) := by
      rw [List.forall₂_map_left_iff, List.forall₂_map_right_iff]
      exact forall₂_of_mem same.children ih
    rw [rebuild_eq, rebuild_eq f e']
    refine keeps _ _ (.node ?_ ?_)
    · have first : SameNode (e.withChildren (e.children.map (SourceExpr.rebuild f))) e :=
        .ofFields (.withChildren (List.length_map _).symm)
      have second : SameNode (e'.withChildren (e'.children.map (SourceExpr.rebuild f))) e' :=
        .ofFields (.withChildren (List.length_map _).symm)
      exact first.trans (same.root.trans second.symm)
    · rw [children_withChildren (List.length_map _).symm, children_withChildren (List.length_map _).symm]
      exact below

end SameCode
end SourceExpr

structure SourceDeclaration.SameCode (d d' : SourceDeclaration) : Prop where
  name : d.name = d'.name
  isPublic : d.isPublic = d'.isPublic
  body : d.body.SameCode d'.body

/-- Whether two files differ in annotations at most. -/
structure SourceFile.SameCode (file file' : SourceFile) : Prop where
  path : file.path = file'.path
  declarations : List.Forall₂ SourceDeclaration.SameCode file.declarations file'.declarations

namespace SourceFile.SameCode

theorem refl (file : SourceFile) : file.SameCode file where
  path := rfl
  declarations := List.forall₂_same.mpr fun d _ => ⟨rfl, rfl, .refl d.body⟩

theorem symm {file file' : SourceFile} (same : file.SameCode file') : file'.SameCode file where
  path := same.path.symm
  declarations := same.declarations.flip.imp fun _ _ d =>
    ⟨d.name.symm, d.isPublic.symm, d.body.symm⟩

end SourceFile.SameCode

end CallReplacement
