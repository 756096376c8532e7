import CallReplacement.Literal
import CallReplacement.Location
import CallReplacement.Operator

/-!
Target expressions. Every node carries its resolved type and, if known, its source range; a
node is never changed, only built anew. `children` lists the direct subexpressions in
evaluation order, and `subterms` all expressions of a tree, parents before children.
-/

namespace CallReplacement

structure Note where
  type : ValueType
  range : Option SourceRange
deriving Repr

def Note.typed (type : ValueType) : Note := ⟨type, none⟩

structure Binding where
  name : String
  type : ValueType
deriving Repr

structure ImportRef where
  selector : String
  path : String
deriving DecidableEq, Repr

inductive CallStyle
  | direct | construct
deriving DecidableEq, Repr

inductive Expr
  | literal (note : Note) (value : Literal)
  | ident (note : Note) (binding : Binding)
  | imported (note : Note) (source : ImportRef)
  | field (note : Note) (target : Expr) (name : String)
  | index (note : Note) (target : Expr) (key : Expr)
  | call (note : Note) (style : CallStyle) (callee : Expr) (args : List Expr)
  | object (note : Note) (fields : List (String × Expr))
  | cast (note : Note) (operand : Expr)
  | raw (note : Note) (template : String) (args : List Expr)
  | unary (note : Note) (op : UnaryOp) (operand : Expr)
  | binary (note : Note) (op : BinaryOp) (left right : Expr)
  | logical (note : Note) (op : LogicalOp) (left right : Expr)
  | lambda (note : Note) (params : List Binding) (body : Expr)
  | bind (note : Note) (binding : Binding) (value : Expr) (body : Expr)
  | conditional (note : Note) (guard yes no : Expr)
  /-- Evaluates each expression in order; the last one is the value. -/
  | sequence (note : Note) (exprs : List Expr)
deriving Repr

namespace Expr

def note : Expr → Note
  | .literal note _ | .ident note _ | .imported note _ | .field note _ _ | .index note _ _
  | .call note _ _ _ | .object note _ | .cast note _ | .raw note _ _ | .unary note _ _
  | .binary note _ _ _ | .logical note _ _ _ | .lambda note _ _ | .bind note _ _ _
  | .conditional note _ _ _ | .sequence note _ => note

def type (e : Expr) : ValueType := e.note.type

def range (e : Expr) : Option SourceRange := e.note.range

def withNote (note : Note) : Expr → Expr
  | .literal _ value => .literal note value
  | .ident _ binding => .ident note binding
  | .imported _ source => .imported note source
  | .field _ target name => .field note target name
  | .index _ target key => .index note target key
  | .call _ style callee args => .call note style callee args
  | .object _ fields => .object note fields
  | .cast _ operand => .cast note operand
  | .raw _ template args => .raw note template args
  | .unary _ op operand => .unary note op operand
  | .binary _ op left right => .binary note op left right
  | .logical _ op left right => .logical note op left right
  | .lambda _ params body => .lambda note params body
  | .bind _ binding value body => .bind note binding value body
  | .conditional _ guard yes no => .conditional note guard yes no
  | .sequence _ exprs => .sequence note exprs

def located (range : Option SourceRange) (e : Expr) : Expr := e.withNote ⟨e.type, range⟩

/-! Nodes whose type follows from their parts. -/

def ofLiteral (value : Literal) : Expr := .literal (.typed value.naturalType) value

def named (name : String) (type : ValueType) : Expr := .ident (.typed type) ⟨name, type⟩

def connective (op : LogicalOp) (left right : Expr) : Expr :=
  .logical (.typed .boolean) op left right

def function (params : List Binding) (body : Expr) : Expr :=
  .lambda (.typed (.lambda (params.map Binding.type) body.type)) params body

def letIn (binding : Binding) (value body : Expr) : Expr :=
  .bind (.typed body.type) binding value body

def ifThenElse (guard yes no : Expr) : Expr := .conditional (.typed yes.type) guard yes no

/-- A sequence has the type of its last expression; the empty one is a unit. -/
def inSequence (exprs : List Expr) : Expr :=
  .sequence (.typed ((exprs.getLast?.map type).getD .unit)) exprs

def isEmptyObject : Expr → Bool
  | .object _ [] => true
  | _ => false

def children : Expr → List Expr
  | .literal .. | .ident .. | .imported .. => []
  | .field _ target _ => [target]
  | .index _ target key => [target, key]
  | .call _ _ callee args => callee :: args
  | .object _ fields => fields.map Prod.snd
  | .cast _ operand => [operand]
  | .raw _ _ args => args
  | .unary _ _ operand => [operand]
  | .binary _ _ left right => [left, right]
  | .logical _ _ left right => [left, right]
  | .lambda _ _ body => [body]
  | .bind _ _ value body => [value, body]
  | .conditional _ guard yes no => [guard, yes, no]
  | .sequence _ exprs => exprs

mutual

def subterms (e : Expr) : List Expr :=
  e :: match e with
    | .literal .. | .ident .. | .imported .. => []
    | .field _ target _ => subterms target
    | .index _ target key => subterms target ++ subterms key
    | .call _ _ callee args => subterms callee ++ subtermsAll args
    | .object _ fields => subtermsFields fields
    | .cast _ operand => subterms operand
    | .raw _ _ args => subtermsAll args
    | .unary _ _ operand => subterms operand
    | .binary _ _ left right => subterms left ++ subterms right
    | .logical _ _ left right => subterms left ++ subterms right
    | .lambda _ _ body => subterms body
    | .bind _ _ value body => subterms value ++ subterms body
    | .conditional _ guard yes no => subterms guard ++ (subterms yes ++ subterms no)
    | .sequence _ exprs => subtermsAll exprs

def subtermsAll : List Expr → List Expr
  | [] => []
  | e :: rest => subterms e ++ subtermsAll rest

def subtermsFields : List (String × Expr) → List Expr
  | [] => []
  | (_, e) :: rest => subterms e ++ subtermsFields rest

end

theorem subtermsAll_eq (exprs : List Expr) : subtermsAll exprs = exprs.flatMap subterms := by
  induction exprs with
  | nil => rfl
  | cons e rest ih => simp [subtermsAll, ih]

theorem subtermsFields_eq (fields : List (String × Expr)) :
    subtermsFields fields = (fields.map Prod.snd).flatMap subterms := by
  induction fields with
  | nil => rfl
  | cons field rest ih => simp [subtermsFields, ih]

-- The traversal is the one that `children` describes.
theorem subterms_eq (e : Expr) : e.subterms = e :: e.children.flatMap subterms := by
  cases e <;> simp [subterms, children, subtermsAll_eq, subtermsFields_eq]

end Expr

structure Declaration where
  name : String
  body : Expr
  isPublic : Bool
  range : Option SourceRange
deriving Repr

structure Module where
  sourcePath : String
  declarations : List Declaration
deriving Repr

namespace Module

def importOf? : Expr → Option ImportRef
  | .imported _ source => some source
  | _ => none

/-- All values taken from other modules, each once, in the order of first use. -/
def imports (m : Module) : List ImportRef :=
  (m.declarations.flatMap fun d => d.body.subterms.filterMap importOf?).eraseDups

def declaration? (m : Module) (name : String) : Option Declaration :=
  m.declarations.find? (·.name == name)

end Module
end CallReplacement
