import CallReplacement.Expr
import CallReplacement.Options
import CallReplacement.Text.Quoted
import CallReplacement.Text.Segments

/-!
The imports of an emitted module. Each imported value is bound once, to its own name if that
is free and otherwise to the first free one of `name_1`, `name_2` and so on. Names of the
module itself are reserved before imports are added, so that an import never takes them.

Modules, and the values taken from one module, keep the order of first use.
-/

namespace CallReplacement

structure ImportBinding where
  source : ImportRef
  name : String
deriving DecidableEq, Repr

def ImportBinding.text (format : ModuleFormat) (b : ImportBinding) : String :=
  if b.source.selector = b.name then b.name
  else match format with
    | .esm => b.source.selector ++ " as " ++ b.name
    | .commonjs => b.source.selector ++ ": " ++ b.name

structure Imports where
  bindings : List ImportBinding := []
  reserved : List String := []
deriving Repr

namespace Imports

def candidate (selector : String) : Nat → String
  | 0 => selector
  | n => selector ++ "_" ++ toString n

/-- The first candidate that is not taken. There is one more candidate than taken names. -/
def freeName (taken : List String) (selector : String) : String :=
  (((List.range (taken.length + 1)).map (candidate selector)).find?
    fun name => !taken.contains name).getD selector

def taken (i : Imports) : List String := i.reserved ++ i.bindings.map ImportBinding.name

def find? (i : Imports) (source : ImportRef) : Option String :=
  (i.bindings.find? (·.source = source)).map ImportBinding.name

/-- The name of an imported value; a value that is not bound goes by its own name. -/
def nameOf (i : Imports) (source : ImportRef) : String := (i.find? source).getD source.selector

def reserve (i : Imports) (names : List String) : Imports :=
  { i with reserved := i.reserved ++ names }

def add (i : Imports) (source : ImportRef) : Imports :=
  match i.find? source with
  | some _ => i
  | none => { i with bindings := i.bindings ++ [⟨source, freeName i.taken source.selector⟩] }

def addAll (i : Imports) (sources : List ImportRef) : Imports := sources.foldl add i

def ofList (sources : List ImportRef) : Imports := ({} : Imports).addAll sources

def paths (i : Imports) : List String := (i.bindings.map (·.source.path)).eraseDups

def statement (format : ModuleFormat) (path : String) (bindings : List ImportBinding) : String :=
  let names := Text.joined ", " (bindings.map (ImportBinding.text format))
  match format with
  | .esm => "import \x7b " ++ names ++ " \x7d from " ++ Text.quoted path ++ ";"
  | .commonjs => "const \x7b " ++ names ++ " \x7d = require(" ++ Text.quoted path ++ ");"

def render (i : Imports) (format : ModuleFormat) : List String :=
  i.paths.map fun path => statement format path (i.bindings.filter (·.source.path = path))

end Imports
end CallReplacement
