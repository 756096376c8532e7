import CallReplacement.Expr
import Mathlib.Data.List.Forall2

/-!
Target expressions side by side. Two nodes form a layer over a relation if they are of the same
kind, carry the same names and texts, and have related children; their notes and the types of
what they bind may differ. A relation that passes through layers does not look at types and
places.
-/

namespace CallReplacement.Expr

inductive Layer (R : Expr → Expr → Prop) : Expr → Expr → Prop
  | literal {n n' value} : Layer R (.literal n value) (.literal n' value)
  | ident {n n' b b'} : b.name = b'.name → Layer R (.ident n b) (.ident n' b')
  | imported {n n' source} : Layer R (.imported n source) (.imported n' source)
  | field {n n' target target' name} :
      R target target' → Layer R (.field n target name) (.field n' target' name)
  | index {n n' target target' key key'} :
      R target target' → R key key' → Layer R (.index n target key) (.index n' target' key')
  | call {n n' style callee callee' args args'} :
      R callee callee' → List.Forall₂ R args args' →
      Layer R (.call n style callee args) (.call n' style callee' args')
  | object {n n' fields fields'} :
      fields.map Prod.fst = fields'.map Prod.fst →
      List.Forall₂ R (fields.map Prod.snd) (fields'.map Prod.snd) →
      Layer R (.object n fields) (.object n' fields')
  | cast {n n' operand operand'} :
      R operand operand' → Layer R (.cast n operand) (.cast n' operand')
  | raw {n n' template args args'} :
      List.Forall₂ R args args' → Layer R (.raw n template args) (.raw n' template args')
  | unary {n n' op operand operand'} :
      R operand operand' → Layer R (.unary n op operand) (.unary n' op operand')
  | binary {n n' op left left' right right'} :
      R left left' → R right right' → Layer R (.binary n op left right) (.binary n' op left' right')
  | logical {n n' op left left' right right'} :
      R left left' → R right right' →
      Layer R (.logical n op left right) (.logical n' op left' right')
  | lambda {n n' params params' body body'} :
      params.map Binding.name = params'.map Binding.name → R body body' →
      Layer R (.lambda n params body) (.lambda n' params' body')
  | bind {n n' b b' value value' body body'} :
      b.name = b'.name → R value value' → R body body' →
      Layer R (.bind n b value body) (.bind n' b' value' body')
  | conditional {n n' guard guard' yes yes' no no'} :
      R guard guard' → R yes yes' → R no no' →
      Layer R (.conditional n guard yes no) (.conditional n' guard' yes' no')
  | sequence {n n' exprs exprs'} :
      List.Forall₂ R exprs exprs' → Layer R (.sequence n exprs) (.sequence n' exprs')

theorem Layer.children {R : Expr → Expr → Prop} {e f : Expr} (layer : Layer R e f) :
    List.Forall₂ R e.children f.children := by
  cases layer with
  | call callee args => exact .cons callee args
  | object _ values => exact values
  | raw args | sequence args => exact args
  | _ => simp_all [Expr.children]

-- Notes may differ in a layer, so they may also be exchanged.
theorem Layer.withNote {R : Expr → Expr → Prop} {e f : Expr} (layer : Layer R e f) (n n' : Note) :
    Layer R (e.withNote n) (f.withNote n') := by
  cases layer <;> constructor <;> assumption

/-- A relation that does not look at notes: it passes from children to nodes, and notes may be
exchanged in it. -/
structure Congruent (R : Expr → Expr → Prop) : Prop where
  node {e f : Expr} : Layer R e f → R e f
  noted {e f : Expr} (n n' : Note) : R e f → R (e.withNote n) (f.withNote n')

namespace Congruent

variable {R : Expr → Expr → Prop} (congruent : Congruent R)
include congruent

theorem named (name : String) (type type' : ValueType) : R (named name type) (named name type') :=
  congruent.node (.ident rfl)

theorem ofLiteral (value : Literal) : R (ofLiteral value) (ofLiteral value) :=
  congruent.node .literal

theorem located {e f : Expr} (range range' : Option SourceRange) (related : R e f) :
    R (e.located range) (f.located range') :=
  congruent.noted _ _ related

end Congruent

theorem congruent_true : Congruent fun _ _ => True where
  node _ := trivial
  noted _ _ _ := trivial

end CallReplacement.Expr
