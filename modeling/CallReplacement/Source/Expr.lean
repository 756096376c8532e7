import CallReplacement.Location
import CallReplacement.Operator
import CallReplacement.Source.Member

/-!
Typed source expressions. The tree is plain data: questions about it never change it, and a
change builds a new tree from the leaves up.

`children` lists the direct subexpressions in evaluation order, `subterms` all expressions
with parents first, and `rebuildM` passes every rebuilt node through a callback, children
first.
-/

namespace CallReplacement

structure Param where
  name : String
  type : ValueType
deriving Repr

inductive SourceExpr
  | const (value : Literal) (type : ValueType) (range : Option SourceRange)
  | ident (name : String) (type : ValueType) (range : Option SourceRange)
  /-- A call or an access resolved to a member of a declared entity. -/
  | call (member : MemberRef) (receiver : Option SourceExpr) (args : List SourceExpr)
      (generics : List ValueType) (range : Option SourceRange)
  | apply (callee : SourceExpr) (args : List SourceExpr) (type : ValueType)
      (range : Option SourceRange)
  | get (target : SourceExpr) (field : String) (type : ValueType) (range : Option SourceRange)
  | lambda (params : List Param) (body : SourceExpr) (range : Option SourceRange)
  | bind (name : String) (type : ValueType) (value body : SourceExpr)
      (range : Option SourceRange)
  | conditional (guard yes no : SourceExpr) (range : Option SourceRange)
  | sequence (exprs : List SourceExpr) (range : Option SourceRange)
  | record (fields : List (String × SourceExpr)) (type : ValueType) (range : Option SourceRange)
  | binary (op : BinaryOp) (left right : SourceExpr) (type : ValueType)
      (range : Option SourceRange)
  | logical (op : LogicalOp) (left right : SourceExpr) (range : Option SourceRange)
  | unary (op : UnaryOp) (operand : SourceExpr) (type : ValueType) (range : Option SourceRange)
  | coerce (operand : SourceExpr) (type : ValueType) (range : Option SourceRange)
deriving Repr

namespace SourceExpr

def range : SourceExpr → Option SourceRange
  | .const _ _ range | .ident _ _ range | .call _ _ _ _ range | .apply _ _ _ range
  | .get _ _ _ range | .lambda _ _ range | .bind _ _ _ _ range | .conditional _ _ _ range
  | .sequence _ range | .record _ _ range | .binary _ _ _ _ range | .logical _ _ _ range
  | .unary _ _ _ range | .coerce _ _ range => range

mutual

/-- The resolved type of an expression. A constant of no stated type has that of its literal;
a sequence has the type of its last expression, and the empty one is a unit. -/
def type : SourceExpr → ValueType
  | .const value declared _ => if declared.isAny then value.naturalType else declared
  | .call member _ _ _ _ => member.returnType
  | .ident _ declared _ | .apply _ _ declared _ | .get _ _ declared _ | .record _ declared _
  | .binary _ _ _ declared _ | .unary _ _ declared _ | .coerce _ declared _ => declared
  | .lambda params body _ => .lambda (params.map Param.type) (type body)
  | .bind _ _ _ body _ => type body
  | .conditional _ yes _ _ => type yes
  | .sequence exprs _ => lastType exprs
  | .logical .. => .boolean

def lastType : List SourceExpr → ValueType
  | [] => .unit
  | [e] => type e
  | _ :: e :: rest => lastType (e :: rest)

end

def lambdaArity : SourceExpr → Option Nat
  | .lambda params _ _ => some params.length
  | e => e.type.lambdaArity

def children : SourceExpr → List SourceExpr
  | .const .. | .ident .. => []
  | .call _ receiver args _ _ => receiver.toList ++ args
  | .apply callee args _ _ => callee :: args
  | .get target _ _ _ => [target]
  | .lambda _ body _ => [body]
  | .bind _ _ value body _ => [value, body]
  | .conditional guard yes no _ => [guard, yes, no]
  | .sequence exprs _ => exprs
  | .record fields _ _ => fields.map Prod.snd
  | .binary _ left right _ _ => [left, right]
  | .logical _ left right _ => [left, right]
  | .unary _ operand _ _ => [operand]
  | .coerce operand _ _ => [operand]

mutual

def subterms (e : SourceExpr) : List SourceExpr :=
  e :: match e with
    | .const .. | .ident .. => []
    | .call _ receiver args _ _ => subtermsOption receiver ++ subtermsAll args
    | .apply callee args _ _ => subterms callee ++ subtermsAll args
    | .get target _ _ _ => subterms target
    | .lambda _ body _ => subterms body
    | .bind _ _ value body _ => subterms value ++ subterms body
    | .conditional guard yes no _ => subterms guard ++ (subterms yes ++ subterms no)
    | .sequence exprs _ => subtermsAll exprs
    | .record fields _ _ => subtermsFields fields
    | .binary _ left right _ _ => subterms left ++ subterms right
    | .logical _ left right _ => subterms left ++ subterms right
    | .unary _ operand _ _ => subterms operand
    | .coerce operand _ _ => subterms operand

def subtermsOption : Option SourceExpr → List SourceExpr
  | none => []
  | some e => subterms e

def subtermsAll : List SourceExpr → List SourceExpr
  | [] => []
  | e :: rest => subterms e ++ subtermsAll rest

def subtermsFields : List (String × SourceExpr) → List SourceExpr
  | [] => []
  | (_, e) :: rest => subterms e ++ subtermsFields rest

end

theorem subtermsOption_eq (receiver : Option SourceExpr) :
    subtermsOption receiver = receiver.toList.flatMap subterms := by
  cases receiver <;> simp [subtermsOption]

theorem subtermsAll_eq (exprs : List SourceExpr) :
    subtermsAll exprs = exprs.flatMap subterms := by
  induction exprs with
  | nil => rfl
  | cons e rest ih => simp [subtermsAll, ih]

theorem subtermsFields_eq (fields : List (String × SourceExpr)) :
    subtermsFields fields = (fields.map Prod.snd).flatMap subterms := by
  induction fields with
  | nil => rfl
  | cons field rest ih => simp [subtermsFields, ih]

-- The traversal is the one that `children` describes.
theorem subterms_eq (e : SourceExpr) : e.subterms = e :: e.children.flatMap subterms := by
  cases e <;> simp [subterms, children, subtermsOption_eq, subtermsAll_eq, subtermsFields_eq]

section Rebuild
variable {m : Type → Type} [Monad m] (f : SourceExpr → m SourceExpr)

mutual

/-- Rebuilds a tree from the leaves up and passes every rebuilt node through `f`. -/
def rebuildM : SourceExpr → m SourceExpr
  | .const value type range => f (.const value type range)
  | .ident name type range => f (.ident name type range)
  | .call member receiver args generics range => do
      let receiver ← rebuildOption receiver
      let args ← rebuildAll args
      f (.call member receiver args generics range)
  | .apply callee args type range => do
      let callee ← rebuildM callee
      let args ← rebuildAll args
      f (.apply callee args type range)
  | .get target field type range => do
      let target ← rebuildM target
      f (.get target field type range)
  | .lambda params body range => do
      let body ← rebuildM body
      f (.lambda params body range)
  | .bind name type value body range => do
      let value ← rebuildM value
      let body ← rebuildM body
      f (.bind name type value body range)
  | .conditional guard yes no range => do
      let guard ← rebuildM guard
      let yes ← rebuildM yes
      let no ← rebuildM no
      f (.conditional guard yes no range)
  | .sequence exprs range => do
      let exprs ← rebuildAll exprs
      f (.sequence exprs range)
  | .record fields type range => do
      let fields ← rebuildFields fields
      f (.record fields type range)
  | .binary op left right type range => do
      let left ← rebuildM left
      let right ← rebuildM right
      f (.binary op left right type range)
  | .logical op left right range => do
      let left ← rebuildM left
      let right ← rebuildM right
      f (.logical op left right range)
  | .unary op operand type range => do
      let operand ← rebuildM operand
      f (.unary op operand type range)
  | .coerce operand type range => do
      let operand ← rebuildM operand
      f (.coerce operand type range)

def rebuildOption : Option SourceExpr → m (Option SourceExpr)
  | none => pure none
  | some e => do
      let e ← rebuildM e
      pure (some e)

def rebuildAll : List SourceExpr → m (List SourceExpr)
  | [] => pure []
  | e :: rest => do
      let e ← rebuildM e
      let rest ← rebuildAll rest
      pure (e :: rest)

def rebuildFields : List (String × SourceExpr) → m (List (String × SourceExpr))
  | [] => pure []
  | (name, e) :: rest => do
      let e ← rebuildM e
      let rest ← rebuildFields rest
      pure ((name, e) :: rest)

end

end Rebuild

def rebuild (f : SourceExpr → SourceExpr) (e : SourceExpr) : SourceExpr :=
  Id.run (e.rebuildM fun rebuilt => pure (f rebuilt))

end SourceExpr
end CallReplacement
