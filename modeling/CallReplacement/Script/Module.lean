import CallReplacement.Script.Lines
import CallReplacement.Script.Render

/-!
Emitted modules: the imports, one binding for each declaration, and, where the module system
asks for it, the list of exported names. Declared names are reserved before imports are bound,
so an import never takes the name of a declaration.
-/

namespace CallReplacement.Module

def names (m : Module) : List String := m.declarations.map Declaration.name

def exportedNames (m : Module) : List String :=
  (m.declarations.filter Declaration.isPublic).map Declaration.name

def importBindings (m : Module) : Imports :=
  (({} : Imports).reserve m.names).addAll m.imports

def keyword (format : ModuleFormat) (isPublic : Bool) : String :=
  match format with
  | .esm => if isPublic then "export const" else "const"
  | .commonjs => "const"

def initializer (indent : Indent) (imports : Imports) (d : Declaration) : String :=
  (d.body.render indent imports 0).atLeast .assign

def declarationText (format : ModuleFormat) (indent : Indent) (imports : Imports)
    (d : Declaration) : String :=
  keyword format d.isPublic ++ " " ++ d.name ++ " = " ++ initializer indent imports d ++ ";"

/-- The lines of imports, set off from the declarations by a blank line. -/
def header (format : ModuleFormat) (m : Module) (lines : Lines) : Lines :=
  let lines := (m.importBindings.render format).foldl Lines.line lines
  if m.importBindings.bindings.isEmpty || m.declarations.isEmpty then lines else lines.blank

def bindings (format : ModuleFormat) (m : Module) (lines : Lines) : Lines :=
  (m.declarations.map (declarationText format lines.indent m.importBindings)).foldl
    Lines.line lines

def footer (format : ModuleFormat) (m : Module) (lines : Lines) : Lines :=
  match format with
  | .esm => lines
  | .commonjs =>
      if m.exportedNames.isEmpty then lines
      else lines.blank.line
        ("module.exports = \x7b " ++ Text.joined ", " m.exportedNames ++ " \x7d;")

def text (format : ModuleFormat) (indent : Indent) (m : Module) : String :=
  (m.footer format (m.bindings format (m.header format ⟨indent, 0, []⟩))).text

end CallReplacement.Module
