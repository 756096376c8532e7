import CallReplacement.Options
import CallReplacement.Toml.Reader

/-!
Where options stand in a configuration document: in the tables `compiler` and `diagnostics`. A
table may also be given as the array of its values in order. What is not written keeps its
default, and an entry that no option has is refused.
-/

namespace CallReplacement

namespace Toml

def fields? (names : List String) : Toml → Option (List (String × Toml))
  | .table _ entries => if entries.all (names.contains ·.1) then some entries else none
  | .array items | .tables items => some (names.zip items)
  | _ => none

def field (entries : List (String × Toml)) (name : String) (missing : α)
    (read : Toml → Option α) : Option α :=
  match List.lookup name entries with
  | some value => read value
  | none => some missing

def truth? : Toml → Option Bool
  | .truth value => some value
  | _ => none

def text? : Toml → Option String
  | .text value => some value
  | _ => none

def texts? : Toml → Option (List String)
  | .array items => items.mapM text?
  | _ => none

def isEmpty : Toml → Bool
  | .array [] | .table _ [] => true
  | _ => false

/-- A name: a text, or the key of the only entry of a table, which says nothing more. -/
def name? : Toml → Option String
  | .text value => some value
  | .table _ [(name, value)] => if value.isEmpty then some name else none
  | _ => none

end Toml

namespace ModuleFormat

def ofToml? (t : Toml) : Option ModuleFormat :=
  t.name?.bind fun name => all.find? (·.name == name)

end ModuleFormat

namespace Options

def ofCompiler? (t : Toml) : Option Options := do
  let entries ← t.fields? ["module_format", "debug", "define", "plugins"]
  let moduleFormat ← Toml.field entries "module_format" .esm ModuleFormat.ofToml?
  let debug ← Toml.field entries "debug" false Toml.truth?
  let define ← Toml.field entries "define" [] Toml.texts?
  let plugins ← Toml.field entries "plugins" [] Toml.texts?
  some { moduleFormat, debug, define, plugins }

def warnPassthroughOf? (t : Toml) : Option (List String) := do
  let entries ← t.fields? ["warn_passthrough"]
  Toml.field entries "warn_passthrough" ({} : Options).warnPassthrough Toml.texts?

def ofToml? (entries : List (String × Toml)) : Option Options := do
  if !entries.all (["compiler", "diagnostics"].contains ·.1) then none
  let options ← Toml.field entries "compiler" {} ofCompiler?
  let warnPassthrough ←
    Toml.field entries "diagnostics" options.warnPassthrough warnPassthroughOf?
  some { options with warnPassthrough }

end Options
end CallReplacement
