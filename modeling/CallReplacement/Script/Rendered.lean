import CallReplacement.Text.Quoted
import CallReplacement.Text.Segments

/-!
Rendered expressions. A text is kept together with the binding strength of its outermost
operator, so that whoever uses it as an operand knows whether it needs parentheses.
-/

namespace CallReplacement

/-- Binding strengths, from the loosest to the tightest. -/
inductive Precedence
  | sequence
  | assign
  | or
  | and
  | equality
  | relational
  | additive
  | multiplicative
  | unary
  | call
  | primary
deriving DecidableEq, Repr

namespace Precedence

def level : Precedence → Nat
  | .sequence => 0
  | .assign => 1
  | .or => 2
  | .and => 3
  | .equality => 4
  | .relational => 5
  | .additive => 6
  | .multiplicative => 7
  | .unary => 8
  | .call => 9
  | .primary => 10

end Precedence

structure Rendered where
  text : String
  precedence : Precedence
deriving DecidableEq, Repr

namespace Rendered

def parenthesized (text : String) : String := "(" ++ text ++ ")"

/-- The text as an operand that has to bind at least as tightly as `p`. -/
def atLeast (r : Rendered) (p : Precedence) : String :=
  if r.precedence.level < p.level then parenthesized r.text else r.text

def above (r : Rendered) (p : Precedence) : String :=
  if r.precedence.level ≤ p.level then parenthesized r.text else r.text

def list (rs : List Rendered) : String := Text.joined ", " (rs.map (·.atLeast .assign))

end Rendered

/-- Whether a text is an identifier: letters, digits, underscores and dollar signs of the
ASCII range, and no digit first. -/
def isIdentifier (name : String) : Bool :=
  match name.toList with
  | [] => false
  | c :: rest =>
      (c.isAlpha || c == '_' || c == '$') && rest.all fun c => c.isAlphanum || c == '_' || c == '$'

end CallReplacement
