import CallReplacement.Proofs.Expr.Layer
import CallReplacement.Resolve.Standard.Strings
import CallReplacement.Script.Module

/-!
Expressions that no output tells apart. Rendering looks at the kinds, names and texts of nodes, and
at nothing that their notes say; so expressions that are built in the same way from parts with the
same text have the same text.
-/

namespace CallReplacement

namespace Expr

/-- The values that an expression takes from other modules, in the order of their use. -/
def importRefs (e : Expr) : List ImportRef := e.subterms.filterMap Module.importOf?

/-- Whether two expressions are rendered alike wherever they stand, and take the same values from
other modules. -/
structure SameText (e f : Expr) : Prop where
  rendered : ∀ indent imports place depth,
    renderAt indent imports place depth e = renderAt indent imports place depth f
  importRefs : e.importRefs = f.importRefs
  isNumber : e.isNumber = f.isNumber
  isCall : e.isCall = f.isCall
  isRepeatable : Standard.Strings.isRepeatable e = Standard.Strings.isRepeatable f

theorem importRefs_eq (e : Expr) :
    e.importRefs = (Module.importOf? e).toList ++ e.children.flatMap importRefs := by
  unfold importRefs
  rw [subterms_eq, ← List.singleton_append, List.filterMap_append, List.filterMap_flatMap]
  cases h : Module.importOf? e <;> simp [h]

section
variable {indent : Indent} {imports : Imports}

theorem renderAll_sameText {exprs exprs' : List Expr} (same : List.Forall₂ SameText exprs exprs')
    (depth : Nat) : renderAll indent imports depth exprs = renderAll indent imports depth exprs' := by
  induction same with
  | nil => rfl
  | cons head tail ih => rw [renderAll, renderAll, head.rendered, ih]

theorem renderFields_sameText {fields fields' : List (String × Expr)}
    (names : fields.map Prod.fst = fields'.map Prod.fst)
    (same : List.Forall₂ SameText (fields.map Prod.snd) (fields'.map Prod.snd)) (depth : Nat) :
    renderFields indent imports depth fields = renderFields indent imports depth fields' := by
  induction fields generalizing fields' with
  | nil =>
      obtain rfl := List.map_eq_nil_iff.mp names.symm
      rfl
  | cons field rest ih =>
      cases fields' with
      | nil => cases names
      | cons field' rest' =>
          obtain ⟨name, others⟩ := List.cons.inj names
          obtain ⟨head, tail⟩ := List.forall₂_cons.mp same
          rw [renderFields, renderFields, name, head.rendered, ih others tail]

end

theorem flatMap_importRefs {exprs exprs' : List Expr} (same : List.Forall₂ SameText exprs exprs') :
    exprs.flatMap importRefs = exprs'.flatMap importRefs := by
  induction same with
  | nil => rfl
  | cons head tail ih => rw [List.flatMap_cons, List.flatMap_cons, head.importRefs, ih]

-- Of the parts of a node, rendering asks for their texts and for whether they are numbers or calls.
theorem rendered_of_layer {e f : Expr} (layer : Layer SameText e f) (indent : Indent)
    (imports : Imports) (place : Place) (depth : Nat) :
    renderAt indent imports place depth e = renderAt indent imports place depth f := by
  cases layer with
  | literal | imported => simp only [renderAt]
  | ident name => simp only [renderAt, name]
  | field target => simp only [renderAt, asTarget, target.rendered, target.isNumber]
  | index target key => simp only [renderAt, asTarget, target.rendered, target.isNumber, key.rendered]
  | call callee args =>
      simp only [renderAt, asCallee, callee.rendered, callee.isCall, renderAll_sameText args]
  | object names values => simp only [renderAt, renderFields_sameText names values]
  | cast operand | unary operand => simp only [renderAt, operand.rendered]
  | raw args | sequence args => simp only [renderAt, renderAll_sameText args]
  | binary left right | logical left right => simp only [renderAt, left.rendered, right.rendered]
  | lambda names body => simp only [renderAt, names, body.rendered]
  | bind name value body =>
      cases place <;> simp only [renderAt, name, value.rendered, body.rendered]
  | conditional guard yes no => simp only [renderAt, guard.rendered, yes.rendered, no.rendered]

theorem rendered_withNote (note : Note) (e : Expr) (indent : Indent) (imports : Imports)
    (place : Place) (depth : Nat) :
    renderAt indent imports place depth (e.withNote note) =
      renderAt indent imports place depth e := by
  cases e with
  | bind => cases place <;> simp only [withNote, renderAt]
  | _ => simp only [withNote, renderAt]

theorem sameText_withNote (note : Note) (e : Expr) : SameText (e.withNote note) e where
  rendered := rendered_withNote note e
  importRefs := by
    rw [importRefs_eq, importRefs_eq e]
    cases e <;> rfl
  isNumber := by
    cases e with
    | literal _ value => cases value <;> rfl
    | _ => rfl
  isCall := by cases e <;> rfl
  isRepeatable := by cases e <;> rfl

namespace SameText

theorem symm {e f : Expr} (same : SameText e f) : SameText f e where
  rendered indent imports place depth := (same.rendered indent imports place depth).symm
  importRefs := same.importRefs.symm
  isNumber := same.isNumber.symm
  isCall := same.isCall.symm
  isRepeatable := same.isRepeatable.symm

theorem trans {e f g : Expr} (first : SameText e f) (second : SameText f g) : SameText e g where
  rendered indent imports place depth :=
    (first.rendered indent imports place depth).trans (second.rendered indent imports place depth)
  importRefs := first.importRefs.trans second.importRefs
  isNumber := first.isNumber.trans second.isNumber
  isCall := first.isCall.trans second.isCall
  isRepeatable := first.isRepeatable.trans second.isRepeatable

/-- Parts with the same text make nodes with the same text. -/
theorem ofLayer {e f : Expr} (layer : Layer SameText e f) : SameText e f where
  rendered := rendered_of_layer layer
  importRefs := by
    have own : Module.importOf? e = Module.importOf? f := by cases layer <;> rfl
    rw [importRefs_eq, importRefs_eq f, own, flatMap_importRefs layer.children]
  isNumber := by
    cases layer with
    | @literal _ _ value => cases value <;> rfl
    | _ => rfl
  isCall := by cases layer <;> rfl
  isRepeatable := by cases layer <;> rfl

end SameText

/-- What notes say is not written anywhere. -/
theorem congruent_sameText : Congruent SameText where
  node := SameText.ofLayer
  noted n n' same := (sameText_withNote n _).trans (same.trans (sameText_withNote n' _).symm)

end Expr
end CallReplacement
