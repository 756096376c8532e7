import CallReplacement.Resolve.Extension

/-!
`seeded-random` sends draws of integers to a runtime helper that can be seeded, so that a run
can be replayed. It states the bounds of a draw by itself, next to the built-in replacement.
-/

namespace CallReplacement.Catalog.SeededRandom

def name : String := "seeded-random"

def helper : Expr :=
  .imported (.typed (.lambda [.int32, .int32] .int32)) ⟨"randomNext", "./runtime/random.js"⟩

/-- The arguments of the helper. A missing lower bound is zero, a missing upper bound is the
largest `Int32`. -/
def helperArgs? : List Expr → Option (List Expr)
  | [] => some [.ofLiteral (.int 0), .ofLiteral (.int 2147483647)]
  | [max] => some [.ofLiteral (.int 0), max]
  | [min, max] => some [min, max]
  | _ => none

def replace : Replacer := fun _ site =>
  if site.owner == "System.Random" && site.member == "Next" then
    match helperArgs? site.args with
    | some args => .ok (some (.call (.typed site.returnType) .direct helper args))
    | none => .error site.unsupportedShape
  else .ok none

def extension : Extension := .replaceCall name replace

end CallReplacement.Catalog.SeededRandom
