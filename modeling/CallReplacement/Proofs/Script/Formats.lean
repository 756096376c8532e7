import CallReplacement.Proofs.Script.Imports
import CallReplacement.Proofs.Script.Margin
import CallReplacement.Script.Module

/-!
What an emitted module says, whatever its format. The text of a module is a row of statements, of
which each format has its own spelling. What a reader takes from the statements does not depend on
the format: which values are imported under which names, which constants are bound to which texts,
and which names are exported. In one format an exported constant says so itself, in the other the
exported names are listed at the end, if there are any.
-/

namespace CallReplacement

/-- A statement at the top of a module. -/
inductive Statement
  /-- Values that are taken from a path, each with the name it has there and the name it gets. -/
  | imports (path : String) (values : List (String × String))
  | constant (isExported : Bool) (name value : String)
  | exports (names : List String)
deriving DecidableEq, Repr

namespace Statement

/-- How an imported value is spelled: by its own name, or with another one that it gets. -/
inductive SpellsValue : ModuleFormat → String × String → String → Prop
  | own {format name} : SpellsValue format (name, name) name
  | renamedEsm {selector name} : selector ≠ name →
      SpellsValue .esm (selector, name) (selector ++ " as " ++ name)
  | renamedCommonjs {selector name} : selector ≠ name →
      SpellsValue .commonjs (selector, name) (selector ++ ": " ++ name)

/-- How a statement is spelled. Only one format exports a constant where it is bound, and only the
other one lists exported names. -/
inductive Spells : ModuleFormat → Statement → String → Prop
  | importsEsm {path values texts} : List.Forall₂ (SpellsValue .esm) values texts →
      Spells .esm (.imports path values)
        ("import \x7b " ++ Text.joined ", " texts ++ " \x7d from " ++ Text.quoted path ++ ";")
  | importsCommonjs {path values texts} : List.Forall₂ (SpellsValue .commonjs) values texts →
      Spells .commonjs (.imports path values)
        ("const \x7b " ++ Text.joined ", " texts ++ " \x7d = require(" ++ Text.quoted path ++ ");")
  | constant {format name value} :
      Spells format (.constant false name value) ("const " ++ name ++ " = " ++ value ++ ";")
  | exportedConstant {name value} :
      Spells .esm (.constant true name value) ("export const " ++ name ++ " = " ++ value ++ ";")
  | exports {names} : names ≠ [] →
      Spells .commonjs (.exports names)
        ("module.exports = \x7b " ++ Text.joined ", " names ++ " \x7d;")

/-- Whether a text is a row of statements, each ended by a line break, with empty lines between. -/
inductive Row (format : ModuleFormat) : List Statement → String → Prop
  | nil : Row format [] ""
  | cons {s rest text more} : Spells format s text → Row format rest more →
      Row format (s :: rest) (text ++ "\n" ++ more)
  | blank {statements more} : Row format statements more → Row format statements ("\n" ++ more)

/-! What a reader takes from statements. -/

def imported (statements : List Statement) : List (ImportRef × String) :=
  statements.flatMap fun
    | .imports path values => values.map fun value => (⟨value.1, path⟩, value.2)
    | _ => []

def constants (statements : List Statement) : List (String × String) :=
  statements.flatMap fun
    | .constant _ name value => [(name, value)]
    | _ => []

def exported (statements : List Statement) : List String :=
  statements.flatMap fun
    | .constant true name _ => [name]
    | .exports names => names
    | _ => []

/-- The lists of exported names, one for each line that lists some. -/
def listed (statements : List Statement) : List (List String) :=
  statements.filterMap fun
    | .exports names => some names
    | _ => none

theorem imported_append (statements others : List Statement) :
    imported (statements ++ others) = imported statements ++ imported others := List.flatMap_append

theorem constants_append (statements others : List Statement) :
    constants (statements ++ others) = constants statements ++ constants others :=
  List.flatMap_append

theorem exported_append (statements others : List Statement) :
    exported (statements ++ others) = exported statements ++ exported others := List.flatMap_append

theorem listed_append (statements others : List Statement) :
    listed (statements ++ others) = listed statements ++ listed others := List.filterMap_append

theorem Row.append {format : ModuleFormat} {statements others : List Statement}
    {text more : String} (row : Row format statements text) (rest : Row format others more) :
    Row format (statements ++ others) (text ++ more) := by
  induction row with
  | nil => simpa using rest
  | cons spells _ ih =>
      rw [List.cons_append, String.append_assoc]
      exact .cons spells ih
  | blank _ ih =>
      rw [String.append_assoc]
      exact .blank ih

end Statement

namespace Lines

open Statement (Spells Row)

/-- At the left margin a text is recorded as it is. -/
theorem text_line_flat {l : Lines} (flat : l.depth = 0) (text : String) :
    (l.line text).text = l.text ++ (text ++ "\n") := by
  rw [← String.toList_inj, toList_text, recorded_line_flat flat]
  simp only [List.flatMap_append, List.flatMap_map, String.toList_ofList, String.toList_append,
    toList_text]
  have rejoined := flatMap_lines [] (Text.segments '\n' text.toList).1
    (Text.segments '\n' text.toList).2
  simp only [List.nil_append, Text.segments_rejoin] at rejoined
  rw [rejoined]
  rfl

theorem text_blank (l : Lines) : l.blank.text = l.text ++ "\n" := by
  simp [text, blank]

/-- Whether lines that are recorded at the left margin are a row of statements. -/
structure Holds (format : ModuleFormat) (indent : Indent) (statements : List Statement)
    (l : Lines) : Prop where
  indent : l.indent = indent
  flat : l.depth = 0
  row : Row format statements l.text

namespace Holds

theorem start (format : ModuleFormat) (indent : Indent) : Holds format indent [] ⟨indent, 0, []⟩ :=
  ⟨rfl, rfl, .nil⟩

variable {format : ModuleFormat} {indent : Indent} {statements others : List Statement} {l : Lines}

theorem blank (holds : Holds format indent statements l) :
    Holds format indent statements l.blank where
  indent := holds.indent
  flat := holds.flat
  row := by
    have one : Row format [] ("\n" ++ "") := .blank .nil
    simpa [text_blank] using holds.row.append one

theorem line {s : Statement} {text : String} (holds : Holds format indent statements l)
    (spells : Spells format s text) :
    Holds format indent (statements ++ [s]) (l.line text) where
  indent := holds.indent
  flat := holds.flat
  row := by
    have one : Row format [s] (text ++ "\n" ++ "") := .cons spells .nil
    simpa [text_line_flat holds.flat] using holds.row.append one

theorem lines {texts : List String} (holds : Holds format indent statements l)
    (spelled : List.Forall₂ (Spells format) others texts) :
    Holds format indent (statements ++ others) (texts.foldl Lines.line l) := by
  induction spelled generalizing statements l with
  | nil => simpa using holds
  | cons spells _ ih =>
      rw [List.append_cons]
      exact ih (holds.line spells)

end Holds
end Lines

namespace Module

open Statement (Spells SpellsValue Row)

/-! The statements of a module in one of the formats, and that its text spells them. -/

def importStatements (m : Module) : List Statement :=
  m.importBindings.header.map fun (path, bindings) =>
    .imports path (bindings.map fun b => (b.source.selector, b.name))

def constantStatements (format : ModuleFormat) (indent : Indent) (m : Module) : List Statement :=
  m.declarations.map fun d =>
    .constant (format = .esm && d.isPublic) d.name (initializer indent m.importBindings d)

def exportStatements (format : ModuleFormat) (m : Module) : List Statement :=
  if format = .commonjs ∧ m.exportedNames ≠ [] then [.exports m.exportedNames] else []

def statements (format : ModuleFormat) (indent : Indent) (m : Module) : List Statement :=
  m.importStatements ++ m.constantStatements format indent ++ m.exportStatements format

theorem spellsValue_text (format : ModuleFormat) (b : ImportBinding) :
    SpellsValue format (b.source.selector, b.name) (b.text format) := by
  unfold ImportBinding.text
  split
  · next same =>
    rw [same]
    exact .own
  · next differ =>
    cases format with
    | esm => exact .renamedEsm differ
    | commonjs => exact .renamedCommonjs differ

theorem spells_statement (format : ModuleFormat) (path : String) (bindings : List ImportBinding) :
    Spells format (.imports path (bindings.map fun b => (b.source.selector, b.name)))
      (Imports.statement format path bindings) := by
  have values : List.Forall₂ (SpellsValue format)
      (bindings.map fun b => (b.source.selector, b.name))
      (bindings.map (ImportBinding.text format)) := by
    rw [List.forall₂_map_left_iff, List.forall₂_map_right_iff, List.forall₂_same]
    exact fun b _ => spellsValue_text format b
  cases format with
  | esm => exact .importsEsm values
  | commonjs => exact .importsCommonjs values

theorem spells_declarationText (format : ModuleFormat) (indent : Indent) (imports : Imports)
    (d : Declaration) :
    Spells format (.constant (format = .esm && d.isPublic) d.name (initializer indent imports d))
      (declarationText format indent imports d) := by
  unfold declarationText keyword
  cases format with
  | esm =>
      cases d.isPublic with
      | true => exact .exportedConstant
      | false => exact .constant
  | commonjs => exact .constant

section
variable (format : ModuleFormat) (indent : Indent) (m : Module)

theorem holds_header :
    (m.header format ⟨indent, 0, []⟩).Holds format indent m.importStatements := by
  have spelled : List.Forall₂ (Spells format) m.importStatements
      (m.importBindings.render format) := by
    rw [importStatements, Imports.render_eq_header, List.forall₂_map_left_iff,
      List.forall₂_map_right_iff, List.forall₂_same]
    exact fun group _ => spells_statement format group.1 group.2
  have lines := (Lines.Holds.start format indent).lines spelled
  unfold header
  split
  · exact lines
  · exact lines.blank

variable {format indent m} {statements : List Statement} {l : Lines}

theorem holds_bindings (holds : l.Holds format indent statements) :
    (m.bindings format l).Holds format indent
      (statements ++ m.constantStatements format indent) := by
  have spelled : List.Forall₂ (Spells format) (m.constantStatements format indent)
      (m.declarations.map (declarationText format l.indent m.importBindings)) := by
    rw [holds.indent, constantStatements, List.forall₂_map_left_iff, List.forall₂_map_right_iff,
      List.forall₂_same]
    exact fun d _ => spells_declarationText format indent m.importBindings d
  exact holds.lines spelled

theorem holds_footer (holds : l.Holds format indent statements) :
    (m.footer format l).Holds format indent (statements ++ m.exportStatements format) := by
  unfold footer exportStatements
  cases format with
  | esm => simpa using holds
  | commonjs =>
      by_cases noNames : m.exportedNames = []
      · simpa [noNames] using holds
      · simpa [noNames] using holds.blank.line (Spells.exports noNames)

variable (format indent m)

theorem row_text : Row format (m.statements format indent) (m.text format indent) :=
  (holds_footer (holds_bindings (holds_header format indent m))).row

end

/-! What the statements say does not depend on the format. -/

section
variable (format : ModuleFormat) (indent : Indent) (m : Module)

theorem imported_importStatements :
    Statement.imported m.importStatements = m.importBindings.bound := by
  simp only [Statement.imported, importStatements, Imports.bound, List.flatMap_map, List.map_map]
  rfl

theorem imported_constantStatements :
    Statement.imported (m.constantStatements format indent) = [] := by
  simp [Statement.imported, constantStatements, List.flatMap_map]

theorem imported_exportStatements : Statement.imported (m.exportStatements format) = [] := by
  unfold exportStatements
  split <;> rfl

theorem imported_statements :
    Statement.imported (m.statements format indent) = m.importBindings.bound := by
  rw [statements, Statement.imported_append, Statement.imported_append, imported_importStatements,
    imported_constantStatements, imported_exportStatements, List.append_nil, List.append_nil]

theorem constants_importStatements : Statement.constants m.importStatements = [] := by
  simp [Statement.constants, importStatements, List.flatMap_map]

theorem constants_constantStatements :
    Statement.constants (m.constantStatements format indent) =
      m.declarations.map fun d => (d.name, initializer indent m.importBindings d) := by
  simp only [Statement.constants, constantStatements, List.flatMap_map]
  exact List.map_eq_flatMap.symm

theorem constants_exportStatements : Statement.constants (m.exportStatements format) = [] := by
  unfold exportStatements
  split <;> rfl

theorem constants_statements :
    Statement.constants (m.statements format indent) =
      m.declarations.map fun d => (d.name, initializer indent m.importBindings d) := by
  rw [statements, Statement.constants_append, Statement.constants_append,
    constants_importStatements, constants_constantStatements, constants_exportStatements,
    List.append_nil, List.nil_append]

-- One format reads the names off the constants and the other one off the list.
theorem exported_statements :
    Statement.exported (m.statements format indent) = m.exportedNames := by
  have fromImports : Statement.exported m.importStatements = [] := by
    simp [Statement.exported, importStatements, List.flatMap_map]
  rw [statements, Statement.exported_append, Statement.exported_append, fromImports,
    List.nil_append]
  cases format with
  | esm =>
      have listed : m.exportStatements .esm = [] := by simp [exportStatements]
      rw [listed]
      simp only [Statement.exported, constantStatements, exportedNames, List.flatMap_map]
      induction m.declarations with
      | nil => rfl
      | cons d rest ih => cases isPublic : d.isPublic <;> simp_all
  | commonjs =>
      have unmarked : Statement.exported (m.constantStatements .commonjs indent) = [] := by
        simp [Statement.exported, constantStatements, List.flatMap_map]
      rw [unmarked, List.nil_append, exportStatements]
      by_cases noNames : m.exportedNames = []
      · simp [noNames, Statement.exported]
      · simp [noNames, Statement.exported]

theorem listed_statements :
    Statement.listed (m.statements format indent) =
      if format = .commonjs ∧ m.exportedNames ≠ [] then [m.exportedNames] else [] := by
  have fromImports : Statement.listed m.importStatements = [] := by
    simp [Statement.listed, importStatements]
  have fromConstants : Statement.listed (m.constantStatements format indent) = [] := by
    simp [Statement.listed, constantStatements]
  rw [statements, Statement.listed_append, Statement.listed_append, fromImports, fromConstants,
    List.nil_append, List.nil_append]
  unfold exportStatements
  split <;> rfl

end

/-- The text of a module spells the same imports, constants and exported names in both formats,
whatever the module. One of them has a line that lists the exported names, if there are any. -/
theorem formats_describe_one_module (m : Module) (indent : Indent) :
    ∃ esm commonjs : List Statement,
      Row .esm esm (m.text .esm indent) ∧ Row .commonjs commonjs (m.text .commonjs indent) ∧
      (∀ statements ∈ [esm, commonjs],
        Statement.imported statements = m.importBindings.bound ∧
        Statement.constants statements =
          m.declarations.map (fun d => (d.name, initializer indent m.importBindings d)) ∧
        Statement.exported statements =
          (m.declarations.filter Declaration.isPublic).map Declaration.name) ∧
      Statement.listed esm = [] ∧
      Statement.listed commonjs =
        if ∃ d ∈ m.declarations, d.isPublic
        then [(m.declarations.filter Declaration.isPublic).map Declaration.name] else [] := by
  have agree (format : ModuleFormat) :
      Statement.imported (m.statements format indent) = m.importBindings.bound ∧
      Statement.constants (m.statements format indent) =
        m.declarations.map (fun d => (d.name, initializer indent m.importBindings d)) ∧
      Statement.exported (m.statements format indent) = m.exportedNames :=
    ⟨imported_statements format indent m, constants_statements format indent m,
      exported_statements format indent m⟩
  have somePublic : m.exportedNames ≠ [] ↔ ∃ d ∈ m.declarations, d.isPublic := by
    simp [exportedNames]
  refine ⟨m.statements .esm indent, m.statements .commonjs indent, row_text .esm indent m,
    row_text .commonjs indent m, ?_, ?_, ?_⟩
  · simpa using ⟨agree .esm, agree .commonjs⟩
  · simp [listed_statements]
  · simp only [listed_statements, true_and, somePublic]
    rfl

end Module
end CallReplacement
