import CallReplacement.Proofs.Expr.Induction
import CallReplacement.Proofs.Scope

/-!
How identifiers are resolved in an expression. A binding binds its name in its body and not in
its value; a function binds its parameters in its body.
-/

namespace CallReplacement

/-- How many names the text of a literal holds: `undefined`, `NaN` and `Infinity` are names. -/
def Literal.names : Literal → Nat
  | .unit => 1
  | .float value => if value.isNaN || value.isInf then 1 else 0
  | _ => 0

namespace Expr

mutual

/-- The number of binders in an expression. -/
def binders : Expr → Nat
  | .literal .. | .ident .. | .imported .. => 0
  | .field _ target _ => binders target
  | .index _ target key => binders target + binders key
  | .call _ _ callee args => binders callee + bindersAll args
  | .object _ fields => bindersFields fields
  | .cast _ operand => binders operand
  | .raw _ _ args => bindersAll args
  | .unary _ _ operand => binders operand
  | .binary _ _ left right => binders left + binders right
  | .logical _ _ left right => binders left + binders right
  | .lambda _ params body => params.length + binders body
  | .bind _ _ value body => 1 + binders value + binders body
  | .conditional _ guard yes no => binders guard + (binders yes + binders no)
  | .sequence _ exprs => bindersAll exprs

def bindersAll : List Expr → Nat
  | [] => 0
  | e :: rest => binders e + bindersAll rest

def bindersFields : List (String × Expr) → Nat
  | [] => 0
  | (_, e) :: rest => binders e + bindersFields rest

end

mutual

/-- What each identifier refers to, in the order of the text. The binders before the expression
number `next`. A name of the text that is no identifier of the expression, such as that of an
imported value, holds a place and says nothing. -/
def uses (s : Scope) (next : Nat) : Expr → List (Option (Option Nat))
  | .literal _ value => List.replicate value.names none
  | .ident _ binding => [some (s binding.name)]
  | .imported .. => [none]
  | .field _ target _ => uses s next target
  | .index _ target key => uses s next target ++ uses s (next + target.binders) key
  | .call _ _ callee args => uses s next callee ++ usesAll s (next + callee.binders) args
  | .object _ fields => usesFields s next fields
  | .cast _ operand => uses s next operand
  | .raw _ _ args => usesAll s next args
  | .unary _ _ operand => uses s next operand
  | .binary _ _ left right => uses s next left ++ uses s (next + left.binders) right
  | .logical _ _ left right => uses s next left ++ uses s (next + left.binders) right
  | .lambda _ params body =>
      uses (s.bindAll next (params.map Binding.name)) (next + params.length) body
  | .bind _ binding value body =>
      uses s (next + 1) value ++ uses (s.bind binding.name next) (next + 1 + value.binders) body
  | .conditional _ guard yes no =>
      uses s next guard ++ (uses s (next + guard.binders) yes ++
        uses s (next + guard.binders + yes.binders) no)
  | .sequence _ exprs => if exprs.isEmpty then [none] else usesAll s next exprs

def usesAll (s : Scope) (next : Nat) : List Expr → List (Option (Option Nat))
  | [] => []
  | e :: rest => uses s next e ++ usesAll s (next + e.binders) rest

def usesFields (s : Scope) (next : Nat) : List (String × Expr) → List (Option (Option Nat))
  | [] => []
  | (_, e) :: rest => uses s next e ++ usesFields s (next + e.binders) rest

end

mutual

/-- The names of the free identifiers. -/
def free : Expr → List String
  | .literal .. | .imported .. => []
  | .ident _ binding => [binding.name]
  | .field _ target _ => free target
  | .index _ target key => free target ++ free key
  | .call _ _ callee args => free callee ++ freeAll args
  | .object _ fields => freeFields fields
  | .cast _ operand => free operand
  | .raw _ _ args => freeAll args
  | .unary _ _ operand => free operand
  | .binary _ _ left right => free left ++ free right
  | .logical _ _ left right => free left ++ free right
  | .lambda _ params body => (free body).filter fun x => x ∉ params.map Binding.name
  | .bind _ binding value body => free value ++ (free body).filter fun x => x ≠ binding.name
  | .conditional _ guard yes no => free guard ++ (free yes ++ free no)
  | .sequence _ exprs => freeAll exprs

def freeAll : List Expr → List String
  | [] => []
  | e :: rest => free e ++ freeAll rest

def freeFields : List (String × Expr) → List String
  | [] => []
  | (_, e) :: rest => free e ++ freeFields rest

end

/-- The names bound by the chain of bindings that an expression begins with. -/
def chained : Expr → List String
  | .bind _ binding _ body => binding.name :: chained body
  | _ => []

/-- Whether a binding gets along with those that follow it in its chain: none of them binds the
same name again, and none is mentioned in its value. -/
def BindsApart : Expr → Prop
  | .bind _ binding value body =>
      binding.name ∉ body.chained ∧ ∀ x ∈ binding.name :: body.chained, x ∉ value.free
  | _ => True

/-- Whether in every chain of bindings the names differ and no value mentions a name that its
own binding or a later one of the chain binds. -/
def Separate (e : Expr) : Prop := ∀ s ∈ e.subterms, s.BindsApart

theorem separate_iff (e : Expr) :
    e.Separate ↔ e.BindsApart ∧ ∀ c ∈ e.children, c.Separate :=
  forall_subterms_iff BindsApart e

theorem Separate.nodup_chained {e : Expr} (separate : e.Separate) : e.chained.Nodup := by
  induction e using induction_children with
  | step e ih =>
    cases e with
    | bind note binding value body =>
        obtain ⟨⟨fresh, _⟩, parts⟩ := (separate_iff _).mp separate
        have inner : body ∈ (bind note binding value body).children := by simp [children]
        rw [chained, List.nodup_cons]
        exact ⟨fresh, ih body inner (parts body inner)⟩
    | _ => exact List.nodup_nil

theorem bindersFields_eq (fields : List (String × Expr)) :
    bindersFields fields = bindersAll (fields.map Prod.snd) := by
  induction fields with
  | nil => rfl
  | cons field rest ih => rw [bindersFields, ih]; rfl

theorem usesFields_eq (s : Scope) (next : Nat) (fields : List (String × Expr)) :
    usesFields s next fields = usesAll s next (fields.map Prod.snd) := by
  induction fields generalizing next with
  | nil => rfl
  | cons field rest ih => rw [usesFields, ih]; rfl

theorem freeFields_eq (fields : List (String × Expr)) :
    freeFields fields = freeAll (fields.map Prod.snd) := by
  induction fields with
  | nil => rfl
  | cons field rest ih => rw [freeFields, ih]; rfl

/-- Whether a node binds nothing and has no name of its own in the text, so that it only passes
on the scope to its children. -/
def isPlain : Expr → Bool
  | .literal .. | .ident .. | .imported .. | .raw .. | .lambda .. | .bind .. => false
  | .sequence _ exprs => !exprs.isEmpty
  | _ => true

theorem binders_plain {e : Expr} (plain : e.isPlain) : e.binders = bindersAll e.children := by
  cases e with
  | literal | ident | imported | raw | lambda | bind => cases plain
  | _ => simp [binders, children, bindersAll, bindersFields_eq]

theorem uses_plain {e : Expr} (plain : e.isPlain) (s : Scope) (next : Nat) :
    e.uses s next = usesAll s next e.children := by
  cases e with
  | literal | ident | imported | raw | lambda | bind => cases plain
  | sequence note exprs =>
      cases exprs with
      | nil => cases plain
      | cons e rest => rfl
  | _ => simp [uses, children, usesAll, usesFields_eq]

theorem free_plain {e : Expr} (plain : e.isPlain) : e.free = freeAll e.children := by
  cases e with
  | literal | ident | imported | raw | lambda | bind => cases plain
  | _ => simp [free, children, freeAll, freeFields_eq]

end Expr
end CallReplacement
