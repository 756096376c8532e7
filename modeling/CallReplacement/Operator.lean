/-!
The operators of source trees and target expressions.
-/

namespace CallReplacement

inductive UnaryOp
  | negate | not
deriving DecidableEq, Repr

inductive BinaryOp
  | add | subtract | multiply | divide | modulus
  | equal | notEqual | less | lessOrEqual | greater | greaterOrEqual
deriving DecidableEq, Repr

inductive LogicalOp
  | and | or
deriving DecidableEq, Repr

def UnaryOp.all : List UnaryOp := [.negate, .not]

def BinaryOp.all : List BinaryOp :=
  [.add, .subtract, .multiply, .divide, .modulus, .equal, .notEqual, .less, .lessOrEqual,
    .greater, .greaterOrEqual]

def LogicalOp.all : List LogicalOp := [.and, .or]

def UnaryOp.name : UnaryOp → String
  | .negate => "negate"
  | .not => "not"

def BinaryOp.name : BinaryOp → String
  | .add => "add"
  | .subtract => "subtract"
  | .multiply => "multiply"
  | .divide => "divide"
  | .modulus => "modulus"
  | .equal => "equal"
  | .notEqual => "not_equal"
  | .less => "less"
  | .lessOrEqual => "less_or_equal"
  | .greater => "greater"
  | .greaterOrEqual => "greater_or_equal"

def LogicalOp.name : LogicalOp → String
  | .and => "and"
  | .or => "or"

end CallReplacement
