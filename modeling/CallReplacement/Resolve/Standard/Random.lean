import CallReplacement.Resolve.Builtins

/-!
`System.Random`. An instance carries no state on the target side: its construction yields an
empty object, and every draw goes through `Math.random()`.
-/

namespace CallReplacement.Standard.Random

def owner : String := "System.Random"

def maxInt : Int64 := 2147483647

/-- The bounds of a draw of an integer: none, an upper one, or both. The upper bound is not
drawn. -/
def bounds? (args : List Expr) : Option (Expr × Expr) :=
  match args with
  | [] => some (.ofLiteral (.int 0), .ofLiteral (.int maxInt))
  | [max] => some (.ofLiteral (.int 0), max)
  | [min, max] => some (min, max)
  | _ => none

def nextTemplate : String := "Math.floor(Math.random() * ($1 - $0)) + $0"

/-- A seed has no meaning on the target side. -/
def construct : Replacer := fun _ site =>
  match site.args with
  | [] | [_] => .ok (some (.object (.typed site.returnType) []))
  | _ => .error site.unsupportedShape

def next : Replacer := fun _ site =>
  match bounds? site.args with
  | some (min, max) => .ok (some (.raw (.typed site.returnType) nextTemplate [min, max]))
  | none => .error site.unsupportedShape

def nextDouble : Replacer := fun _ site =>
  match site.args with
  | [] => .ok (some (Builtins.globalCall "Math" "random" [] .float64))
  | _ => .error site.unsupportedShape

def entries : List Builtin :=
  [⟨owner, constructorName, construct⟩, ⟨owner, "Next", next⟩,
    ⟨owner, "NextDouble", nextDouble⟩]

end CallReplacement.Standard.Random
