import CallReplacement.Diagnostic
import CallReplacement.Resolve.Resolution

/-!
Lowering: the source tree in target form. Receivers and arguments are lowered before the call
that uses them, so that handlers see finished target expressions; what a handler returns is
not looked at again. Every call site is resolved once and entered into a log, in the order in
which calls are completed.

`Logged` is the computation that may fail and that keeps the log of what it resolved.
-/

namespace CallReplacement

structure ResolvedCall where
  site : CallSite
  handler : Handler
deriving Repr

structure Log where
  calls : List ResolvedCall := []
  warnings : List Diagnostic := []
deriving Repr

namespace Log

def empty : Log := {}

def append (a b : Log) : Log := ⟨a.calls ++ b.calls, a.warnings ++ b.warnings⟩

instance : Append Log := ⟨append⟩

end Log

/-- A computation that fails, or yields a value and the log of its call sites. -/
def Logged (α : Type) := Except Failure (α × Log)

namespace Logged

def done (a : α) : Logged α := .ok (a, Log.empty)

def andThen (x : Logged α) (f : α → Logged β) : Logged β :=
  match x with
  | .error failure => .error failure
  | .ok (a, first) =>
      match f a with
      | .error failure => .error failure
      | .ok (b, second) => .ok (b, first ++ second)

instance : Monad Logged where
  pure := done
  bind := andThen

end Logged

namespace Resolver

def phase : String := "transform"

def unclaimed (s : CallSite) : Diagnostic :=
  ⟨.warning, phase, "no replacement for " ++ s.fullName ++ "; emitting a direct call", s.range⟩

def entry (r : Resolver) (s : CallSite) (handler : Handler) : Log where
  calls := [⟨s, handler⟩]
  warnings :=
    if handler = .passThrough ∧ r.options.warnsOnPassthrough s.owner then [unclaimed s] else []

def lowerCall (r : Resolver) (s : CallSite) : Logged Expr :=
  match r.resolve s with
  | .ok resolution => .ok (resolution.expr, r.entry s resolution.handler)
  | .error failure => .error failure

end Resolver

/-- The call site of a call in the source, once its parts are lowered. The source knows the
arity of function arguments also where the target types do not show it. -/
def CallSite.ofCall (m : MemberRef) (receiver : Option Expr) (args : List Expr)
    (source : List SourceExpr) (generics : List ValueType) (range : Option SourceRange) :
    CallSite :=
  { CallSite.ofMember m receiver args with
    range
    callGenerics := generics
    lambdaArities := source.map SourceExpr.lambdaArity }

namespace SourceExpr

section
variable (r : Resolver)

mutual

def lower : SourceExpr → Logged Expr
  | .const value type range => do
      pure (.literal ⟨(SourceExpr.const value type range).type, range⟩ value)
  | .ident name type range => pure (.ident ⟨type, range⟩ ⟨name, type⟩)
  | .call member receiver args generics range => do
      let target ← lowerOption receiver
      let lowered ← lowerAll args
      r.lowerCall (.ofCall member target lowered args generics range)
  | .apply callee args type range => do
      let callee ← lower callee
      let args ← lowerAll args
      pure (.call ⟨type, range⟩ .direct callee args)
  | .get target field type range => do
      let target ← lower target
      pure (.field ⟨type, range⟩ target field)
  | .lambda params body range => do
      let body ← lower body
      pure ((Expr.function (params.map fun p => ⟨p.name, p.type⟩) body).located range)
  | .bind name type value body range => do
      let value ← lower value
      let body ← lower body
      let bound := if type.isAny then value.type else type
      pure ((Expr.letIn ⟨name, bound⟩ value body).located range)
  | .conditional guard yes no range => do
      let guard ← lower guard
      let yes ← lower yes
      let no ← lower no
      pure ((Expr.ifThenElse guard yes no).located range)
  | .sequence exprs range => do
      let exprs ← lowerAll exprs
      pure ((Expr.inSequence exprs).located range)
  | .record fields type range => do
      let fields ← lowerFields fields
      pure (.object ⟨type, range⟩ fields)
  | .binary op left right type range => do
      let left ← lower left
      let right ← lower right
      pure (.binary ⟨type, range⟩ op left right)
  | .logical op left right range => do
      let left ← lower left
      let right ← lower right
      pure ((Expr.connective op left right).located range)
  | .unary op operand type range => do
      let operand ← lower operand
      pure (.unary ⟨type, range⟩ op operand)
  | .coerce operand type range => do
      let operand ← lower operand
      pure (.cast ⟨type, range⟩ operand)

def lowerOption : Option SourceExpr → Logged (Option Expr)
  | none => pure none
  | some e => do
      let e ← lower e
      pure (some e)

def lowerAll : List SourceExpr → Logged (List Expr)
  | [] => pure []
  | e :: rest => do
      let e ← lower e
      let rest ← lowerAll rest
      pure (e :: rest)

def lowerFields : List (String × SourceExpr) → Logged (List (String × Expr))
  | [] => pure []
  | (name, e) :: rest => do
      let e ← lower e
      let rest ← lowerFields rest
      pure ((name, e) :: rest)

end
end

end SourceExpr

namespace SourceFile

def lowerDeclarations (r : Resolver) : List SourceDeclaration → Logged (List Declaration)
  | [] => pure []
  | d :: rest => do
      let body ← d.body.lower r
      let rest ← lowerDeclarations r rest
      pure (⟨d.name, body, d.isPublic, d.range⟩ :: rest)

def lower (r : Resolver) (file : SourceFile) : Logged Module := do
  let declarations ← lowerDeclarations r file.declarations
  pure ⟨file.path, declarations⟩

end SourceFile
end CallReplacement
