import CallReplacement.Resolve.Builtins

/-!
`System.String`.
-/

namespace CallReplacement.Standard.Strings

def owner : String := "System.String"

/-- For names and literals, which may be read twice. -/
def inlineTest : String := "$0 == null || $0.length === 0"

/-- For any other argument, which is evaluated once, as the parameter of a function. -/
def boundTest : String := "((s) => s == null || s.length === 0)($0)"

def isRepeatable : Expr → Bool
  | .ident .. | .literal .. => true
  | _ => false

def isNullOrEmpty : Replacer := fun _ site =>
  match site.args with
  | [arg] =>
      .ok (some (.raw (.typed .boolean) (if isRepeatable arg then inlineTest else boundTest) [arg]))
  | _ => .error site.unsupportedShape

def length : Replacer := fun _ site =>
  match site.receiver, site.args with
  | some receiver, [] => .ok (some (.field (.typed site.returnType) receiver "length"))
  | _, _ => .error site.unsupportedShape

/-- A method of the receiver without parameters. A call with one argument asks for the rules of
a culture and is left as written. -/
def method (name : String) : Replacer := fun _ site =>
  match site.receiver, site.args with
  | some receiver, [] =>
      .ok (some (.call (.typed .string) .direct (.field (.typed .any) receiver name) []))
  | some _, [_] => .ok none
  | _, _ => .error site.unsupportedShape

def entries : List Builtin :=
  [⟨owner, "IsNullOrEmpty", isNullOrEmpty⟩, ⟨owner, "Length", length⟩,
    ⟨owner, "ToUpper", method "toUpperCase"⟩, ⟨owner, "ToLower", method "toLowerCase"⟩]

end CallReplacement.Standard.Strings
