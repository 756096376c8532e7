import CallReplacement.Decimal.Shortest
import CallReplacement.Script.Imports
import CallReplacement.Script.Indent
import CallReplacement.Script.Template

/-!
Target expressions as JavaScript. Each kind of node has one function on the rendered parts;
`Expr.render` applies them from the leaves up. An operand is parenthesized only where it binds
looser than its place asks for.

A chain of bindings becomes one function that is called on the spot, with a line for each
binding and one for the result.
-/

namespace CallReplacement

namespace Rendered

def primary (text : String) : Rendered := ⟨text, .primary⟩

/-- A number reads as a negated one when its sign is written. -/
def number (isNegative : Bool) (text : String) : Rendered :=
  ⟨text, if isNegative then .unary else .primary⟩

def ofFloat (value : Float) : Rendered :=
  if value.isNaN then primary "NaN"
  else if value.isInf then
    if value > 0 then primary "Infinity" else number true "-Infinity"
  else number (Decimal.isNegative value) (Decimal.ofFinite value)

def ofLiteral : Literal → Rendered
  | .null => primary "null"
  | .unit => primary "undefined"
  | .bool true => primary "true"
  | .bool false => primary "false"
  | .int value => number (value < 0) (toString value.toInt)
  | .float value => ofFloat value
  | .string value => primary (Text.quoted value)
  | .char value => primary (Text.quoted (String.singleton value))

def field (target : String) (name : String) : Rendered :=
  ⟨if isIdentifier name then target ++ "." ++ name else target ++ "[" ++ Text.quoted name ++ "]",
    .call⟩

def index (target : String) (key : Rendered) : Rendered :=
  ⟨target ++ "[" ++ key.text ++ "]", .call⟩

def call (style : CallStyle) (callee : String) (args : List Rendered) : Rendered :=
  let applied := callee ++ parenthesized (list args)
  ⟨match style with
    | .direct => applied
    | .construct => "new " ++ applied, .call⟩

def objectField (name : String) (value : Rendered) : String :=
  (if isIdentifier name then name else Text.quoted name) ++ ": " ++ value.atLeast .assign

def object (fields : List String) : Rendered :=
  primary (if fields.isEmpty then "\x7b\x7d" else "\x7b " ++ Text.joined ", " fields ++ " \x7d")

/-- Two minus signs in a row would read as one operator. -/
def unary (op : UnaryOp) (operand : Rendered) : Rendered :=
  let text := operand.atLeast .unary
  ⟨match op with
    | .negate => if text.toList.head? = some '-' then "-" ++ parenthesized text else "-" ++ text
    | .not => "!" ++ text, .unary⟩

def infixed (symbol : String) (p : Precedence) (left right : Rendered) : Rendered :=
  ⟨left.atLeast p ++ " " ++ symbol ++ " " ++ right.above p, p⟩

/-- A body that starts with a brace would read as a block. -/
def lambda (params : List String) (body : Rendered) : Rendered :=
  let text :=
    if body.text.toList.head? = some '\x7b' then parenthesized body.text
    else body.atLeast .assign
  ⟨parenthesized (Text.joined ", " params) ++ " => " ++ text, .assign⟩

def conditional (guard yes no : Rendered) : Rendered :=
  ⟨guard.atLeast .or ++ " ? " ++ yes.atLeast .assign ++ " : " ++ no.atLeast .assign, .assign⟩

/-- A sequence of one is that one; the empty sequence has no value. -/
def sequence : List Rendered → Rendered
  | [] => primary "undefined"
  | [single] => single
  | rs => ⟨list rs, .sequence⟩

def constant (indent : String) (name : String) (value : Rendered) : String :=
  indent ++ "const " ++ name ++ " = " ++ value.atLeast .assign ++ ";\n"

def result (indent : String) (value : Rendered) : String :=
  indent ++ "return " ++ value.text ++ ";\n"

def block (indent : String) (lines : String) : Rendered :=
  ⟨"(() => \x7b\n" ++ lines ++ indent ++ "\x7d)()", .call⟩

end Rendered

namespace BinaryOp

def symbol : BinaryOp → String
  | .add => "+"
  | .subtract => "-"
  | .multiply => "*"
  | .divide => "/"
  | .modulus => "%"
  | .equal => "==="
  | .notEqual => "!=="
  | .less => "<"
  | .lessOrEqual => "<="
  | .greater => ">"
  | .greaterOrEqual => ">="

def precedence : BinaryOp → Precedence
  | .add | .subtract => .additive
  | .multiply | .divide | .modulus => .multiplicative
  | .equal | .notEqual => .equality
  | .less | .lessOrEqual | .greater | .greaterOrEqual => .relational

end BinaryOp

namespace LogicalOp

def symbol : LogicalOp → String
  | .and => "&&"
  | .or => "||"

def precedence : LogicalOp → Precedence
  | .and => .and
  | .or => .or

end LogicalOp

namespace Expr

/-- A number before a dot would take it for its decimal point. -/
def isNumber : Expr → Bool
  | .literal _ (.int _) | .literal _ (.float _) => true
  | _ => false

def isCall : Expr → Bool
  | .call .. => true
  | _ => false

def asTarget (e : Expr) (r : Rendered) : String :=
  if e.isNumber then Rendered.parenthesized r.text else r.atLeast .call

/-- The text of an expression that is called. The first argument list after a construction
belongs to it, so a call that yields the constructor is parenthesized. -/
def asCallee (style : CallStyle) (e : Expr) (r : Rendered) : String :=
  if style = .construct ∧ e.isCall then Rendered.parenthesized r.text else r.atLeast .call

/-- Where an expression stands: within another one, or as what remains of a block. -/
inductive Place
  | operand
  | rest
deriving DecidableEq, Repr

def close (place : Place) (indent : String) (r : Rendered) : Rendered :=
  match place with
  | .operand => r
  | .rest => ⟨Rendered.result indent r, .sequence⟩

section
variable (indent : Indent) (imports : Imports)

mutual

/-- Renders an expression that starts on a line indented `depth` levels, or the lines of the
block that it ends. -/
def renderAt (place : Place) (depth : Nat) : Expr → Rendered
  | .bind _ binding value body =>
      match place with
      | .operand =>
          Rendered.block (indent.text depth)
            (Rendered.constant (indent.text (depth + 1)) binding.name
                (renderAt .operand (depth + 1) value)
              ++ (renderAt .rest (depth + 1) body).text)
      | .rest =>
          ⟨Rendered.constant (indent.text depth) binding.name (renderAt .operand depth value)
            ++ (renderAt .rest depth body).text, .sequence⟩
  | .literal _ value => close place (indent.text depth) (Rendered.ofLiteral value)
  | .ident _ binding => close place (indent.text depth) (Rendered.primary binding.name)
  | .imported _ source =>
      close place (indent.text depth) (Rendered.primary (imports.nameOf source))
  | .field _ target name =>
      close place (indent.text depth)
        (Rendered.field (asTarget target (renderAt .operand depth target)) name)
  | .index _ target key =>
      close place (indent.text depth)
        (Rendered.index (asTarget target (renderAt .operand depth target))
          (renderAt .operand depth key))
  | .call _ style callee args =>
      close place (indent.text depth)
        (Rendered.call style (asCallee style callee (renderAt .operand depth callee))
          (renderAll depth args))
  | .object _ fields =>
      close place (indent.text depth) (Rendered.object (renderFields depth fields))
  | .cast _ operand => close place (indent.text depth) (renderAt .operand depth operand)
  | .raw _ template args =>
      close place (indent.text depth)
        ⟨Template.substitute template (renderAll depth args), .assign⟩
  | .unary _ op operand =>
      close place (indent.text depth) (Rendered.unary op (renderAt .operand depth operand))
  | .binary _ op left right =>
      close place (indent.text depth)
        (Rendered.infixed op.symbol op.precedence (renderAt .operand depth left)
          (renderAt .operand depth right))
  | .logical _ op left right =>
      close place (indent.text depth)
        (Rendered.infixed op.symbol op.precedence (renderAt .operand depth left)
          (renderAt .operand depth right))
  | .lambda _ params body =>
      close place (indent.text depth)
        (Rendered.lambda (params.map Binding.name) (renderAt .operand depth body))
  | .conditional _ guard yes no =>
      close place (indent.text depth)
        (Rendered.conditional (renderAt .operand depth guard) (renderAt .operand depth yes)
          (renderAt .operand depth no))
  | .sequence _ exprs =>
      close place (indent.text depth) (Rendered.sequence (renderAll depth exprs))

def renderAll (depth : Nat) : List Expr → List Rendered
  | [] => []
  | e :: rest => renderAt .operand depth e :: renderAll depth rest

def renderFields (depth : Nat) : List (String × Expr) → List String
  | [] => []
  | (name, e) :: rest =>
      Rendered.objectField name (renderAt .operand depth e) :: renderFields depth rest

end

def render (depth : Nat) (e : Expr) : Rendered := renderAt indent imports .operand depth e

end

def text (indent : Indent) (e : Expr) : String := (e.render indent {} 0).text

end Expr
end CallReplacement
