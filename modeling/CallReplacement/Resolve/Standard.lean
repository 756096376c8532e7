import CallReplacement.Resolve.Standard.Random
import CallReplacement.Resolve.Standard.Strings

/-!
The standard table of built-in replacements. It covers a few members of the system library;
calls of all others are left to extensions, or as written.
-/

namespace CallReplacement

namespace Standard

def mathOwner : String := "System.Math"

def pi : Replacer := fun _ site =>
  match site.args with
  | [] => .ok (some (Builtins.globalMember "Math" "PI" .float64))
  | _ => .error site.unsupportedShape

def mathEntries : List Builtin :=
  [⟨mathOwner, "Abs", Builtins.forward "Math" "abs" [1]⟩,
    ⟨mathOwner, "Floor", Builtins.forward "Math" "floor" [1]⟩,
    ⟨mathOwner, "Ceiling", Builtins.forward "Math" "ceil" [1]⟩,
    ⟨mathOwner, "Sqrt", Builtins.forward "Math" "sqrt" [1]⟩,
    ⟨mathOwner, "Pow", Builtins.forward "Math" "pow" [2]⟩,
    ⟨mathOwner, "Max", Builtins.forward "Math" "max" [2]⟩,
    ⟨mathOwner, "Min", Builtins.forward "Math" "min" [2]⟩,
    ⟨mathOwner, "PI", pi⟩]

/-- `System.Console`. A line is written from nothing or from one value; format strings are not
covered. -/
def consoleEntries : List Builtin :=
  [⟨"System.Console", "WriteLine", Builtins.forward "console" "log" [0, 1]⟩]

end Standard

namespace Builtins

def standard : Builtins :=
  empty.registerAll
    (Standard.Random.entries ++ Standard.mathEntries ++ Standard.consoleEntries
      ++ Standard.Strings.entries)

end Builtins
end CallReplacement
