import CallReplacement.Catalog
import CallReplacement.Pipeline
import CallReplacement.Proofs.Expr.Induction
import CallReplacement.Proofs.Resolve.Logged
import CallReplacement.Proofs.Script.Formats
import CallReplacement.Proofs.Source.Repeats
import CallReplacement.Source.Document

/-!
The names in the text of an emitted module. Declarations keep the names of the source file, which
differ from each other; the header of the text binds imports to further names. An imported value
stands under its own name wherever it occurs: the text spells the values of the declarations as if
identifiers took the place of imported values.
-/

namespace CallReplacement

namespace Expr

mutual

/-- The expression with identifiers in the place of imported values. -/
def importsAs (name : ImportRef → String) : Expr → Expr
  | .imported note source => .ident note ⟨name source, note.type⟩
  | .literal note value => .literal note value
  | .ident note binding => .ident note binding
  | .field note target key => .field note (importsAs name target) key
  | .index note target key => .index note (importsAs name target) (importsAs name key)
  | .call note style callee args =>
      .call note style (importsAs name callee) (importsAsAll name args)
  | .object note fields => .object note (importsAsFields name fields)
  | .cast note operand => .cast note (importsAs name operand)
  | .raw note template args => .raw note template (importsAsAll name args)
  | .unary note op operand => .unary note op (importsAs name operand)
  | .binary note op left right => .binary note op (importsAs name left) (importsAs name right)
  | .logical note op left right => .logical note op (importsAs name left) (importsAs name right)
  | .lambda note params body => .lambda note params (importsAs name body)
  | .bind note binding value body => .bind note binding (importsAs name value) (importsAs name body)
  | .conditional note guard yes no =>
      .conditional note (importsAs name guard) (importsAs name yes) (importsAs name no)
  | .sequence note exprs => .sequence note (importsAsAll name exprs)

def importsAsAll (name : ImportRef → String) : List Expr → List Expr
  | [] => []
  | e :: rest => importsAs name e :: importsAsAll name rest

def importsAsFields (name : ImportRef → String) : List (String × Expr) → List (String × Expr)
  | [] => []
  | (key, e) :: rest => (key, importsAs name e) :: importsAsFields name rest

end

theorem isNumber_importsAs (name : ImportRef → String) (e : Expr) :
    (e.importsAs name).isNumber = e.isNumber := by
  cases e <;> simp [importsAs, isNumber]

theorem isCall_importsAs (name : ImportRef → String) (e : Expr) :
    (e.importsAs name).isCall = e.isCall := by
  cases e <;> simp [importsAs, isCall]

section
variable (indent : Indent) (imports : Imports)

/-- Rendering asks for the name of an imported value and for nothing else. -/
def RendersByName (e : Expr) : Prop :=
  ∀ place depth, renderAt indent imports place depth e =
    renderAt indent {} place depth (e.importsAs imports.nameOf)

variable {indent imports}

theorem renderAll_byName (depth : Nat) (exprs : List Expr)
    (each : ∀ e ∈ exprs, RendersByName indent imports e) :
    renderAll indent imports depth exprs =
      renderAll indent {} depth (importsAsAll imports.nameOf exprs) := by
  induction exprs with
  | nil => rfl
  | cons e rest ih =>
      have head := each e List.mem_cons_self .operand depth
      have tail := ih fun e member => each e (List.mem_cons_of_mem _ member)
      rw [renderAll, importsAsAll, renderAll, head, tail]

theorem renderFields_byName (depth : Nat) (fields : List (String × Expr))
    (each : ∀ e ∈ fields.map Prod.snd, RendersByName indent imports e) :
    renderFields indent imports depth fields =
      renderFields indent {} depth (importsAsFields imports.nameOf fields) := by
  induction fields with
  | nil => rfl
  | cons field rest ih =>
      have head := each field.2 (by simp) .operand depth
      have tail := ih fun e member => each e (by simp_all)
      rw [renderFields, importsAsFields, renderFields, head, tail]

variable (indent imports)

theorem rendersByName (e : Expr) : RendersByName indent imports e := by
  induction e using induction_children with
  | step e ih =>
    intro place depth
    cases e with
    | literal | ident | imported => simp [renderAt, importsAs]
    | field note target key =>
        have parts := ih target (by simp [children]) .operand depth
        simp only [renderAt, importsAs, asTarget, parts, isNumber_importsAs]
    | index note target key =>
        have first := ih target (by simp [children]) .operand depth
        have second := ih key (by simp [children]) .operand depth
        simp only [renderAt, importsAs, asTarget, first, second, isNumber_importsAs]
    | call note style callee args =>
        have first := ih callee (by simp [children]) .operand depth
        have others := renderAll_byName depth args fun e h => ih e (by simp [children, h])
        simp only [renderAt, importsAs, asCallee, first, others, isCall_importsAs]
    | object note fields =>
        have others := renderFields_byName depth fields ih
        simp only [renderAt, importsAs, others]
    | cast note operand | unary note op operand | lambda note params operand =>
        have part := ih operand (by simp [children]) .operand depth
        simp only [renderAt, importsAs, part]
    | raw note template args | sequence note args =>
        have others := renderAll_byName depth args ih
        simp only [renderAt, importsAs, others]
    | binary note op left right | logical note op left right =>
        have first := ih left (by simp [children]) .operand depth
        have second := ih right (by simp [children]) .operand depth
        simp only [renderAt, importsAs, first, second]
    | bind note binding value body =>
        have first := ih value (by simp [children]) .operand
        have second := ih body (by simp [children]) .rest
        cases place <;> simp only [renderAt, importsAs, first, second]
    | conditional note guard yes no =>
        have first := ih guard (by simp [children]) .operand depth
        have second := ih yes (by simp [children]) .operand depth
        have third := ih no (by simp [children]) .operand depth
        simp only [renderAt, importsAs, first, second, third]

end
end Expr

namespace Module

/-- Whether a value of another module is used anywhere in the module. -/
def Uses (m : Module) (source : ImportRef) : Prop :=
  ∃ d ∈ m.declarations, ∃ note, Expr.imported note source ∈ d.body.subterms

theorem mem_imports (m : Module) (source : ImportRef) : source ∈ m.imports ↔ m.Uses source := by
  simp only [imports, List.mem_eraseDups, List.mem_flatMap, List.mem_filterMap, Uses]
  apply exists_congr
  intro d
  apply and_congr_right
  intro _
  constructor
  · rintro ⟨e, member, isImport⟩
    cases e <;> simp only [importOf?, Option.some.injEq, reduceCtorEq] at isImport
    subst isImport
    exact ⟨_, member⟩
  · rintro ⟨note, member⟩
    exact ⟨_, member, rfl⟩

theorem importBindings_valid (m : Module) : m.importBindings.Valid :=
  Imports.addAll_valid _ _ (Imports.valid_reserve m.names)

theorem reserved_importBindings (m : Module) : m.importBindings.reserved = m.names := by
  unfold importBindings
  rw [Imports.reserved_addAll]
  rfl

theorem mem_sources_importBindings (m : Module) (source : ImportRef) :
    source ∈ m.importBindings.bindings.map ImportBinding.source ↔ m.Uses source := by
  rw [importBindings, Imports.mem_sources_addAll, mem_imports]
  simp [Imports.reserve]

theorem nodup_importNames (m : Module) : (m.importBindings.bound.map Prod.snd).Nodup :=
  m.importBindings.bound_names_perm.nodup_iff.mpr m.importBindings_valid.names

theorem importName_not_mem_names (m : Module) {name : String}
    (imported : name ∈ m.importBindings.bound.map Prod.snd) : name ∉ m.names := by
  intro declared
  obtain ⟨b, member, rfl⟩ := List.mem_map.mp (m.importBindings.bound_names_perm.mem_iff.mp imported)
  have unreserved := m.importBindings_valid.unreserved b member
  rw [reserved_importBindings] at unreserved
  exact unreserved declared

/-- No name is given twice, neither to imports nor to declarations. -/
theorem nodup_bound_names (m : Module) (distinct : m.names.Nodup) :
    (m.importBindings.bound.map Prod.snd ++ m.names).Nodup :=
  List.Nodup.append m.nodup_importNames distinct fun _ imported =>
    m.importName_not_mem_names imported

theorem nodup_bound_sources (m : Module) : (m.importBindings.bound.map Prod.fst).Nodup :=
  m.importBindings.bound_sources_perm.nodup_iff.mpr m.importBindings_valid.sources

theorem mem_bound_sources (m : Module) (source : ImportRef) :
    source ∈ m.importBindings.bound.map Prod.fst ↔ m.Uses source := by
  rw [m.importBindings.bound_sources_perm.mem_iff, mem_sources_importBindings]

theorem mem_bound_of_uses (m : Module) (source : ImportRef) (used : m.Uses source) :
    (source, m.importBindings.nameOf source) ∈ m.importBindings.bound := by
  rw [← mem_sources_importBindings] at used
  obtain ⟨b, member, rfl⟩ := List.mem_map.mp used
  have named : m.importBindings.nameOf b.source = b.name := by
    rw [Imports.nameOf, Imports.find?_eq_some _ m.importBindings_valid.sources b member]
    rfl
  rw [m.importBindings.bound_perm.mem_iff, named]
  exact List.mem_map_of_mem member

theorem nameOf_eq_iff (m : Module) (left right : ImportRef) (usesLeft : m.Uses left)
    (usesRight : m.Uses right) :
    m.importBindings.nameOf left = m.importBindings.nameOf right ↔ left = right := by
  constructor
  · intro same
    have one := List.inj_on_of_nodup_map m.nodup_importNames (m.mem_bound_of_uses left usesLeft)
      (m.mem_bound_of_uses right usesRight) same
    exact congrArg Prod.fst one
  · rintro rfl
    rfl

theorem initializer_byName (m : Module) (indent : Indent) (d : Declaration) :
    initializer indent m.importBindings d =
      initializer indent {} { d with body := d.body.importsAs m.importBindings.nameOf } := by
  have body := d.body.rendersByName indent m.importBindings .operand 0
  simp only [initializer, Expr.render, body]

open Statement (Row)

/-- The names in the text of a module do not clash: neither among imports and declarations, nor
between an imported value and the name that stands for it. The text is a header, which imports
values, and what stands behind it, which binds the declared names. -/
structure NamesApart (m : Module) (name : ImportRef → String) (format : ModuleFormat)
    (indent : Indent) (header rest : List Statement) : Prop where
  text : Row format (header ++ rest) (m.text format indent)
  ahead : Statement.constants header = [] ∧ Statement.imported rest = []
  distinct : ((Statement.imported header).map Prod.snd ++
    (Statement.constants rest).map Prod.fst).Nodup
  once : ((Statement.imported header).map Prod.fst).Nodup
  used : ∀ source, source ∈ (Statement.imported header).map Prod.fst ↔ m.Uses source
  bound : ∀ source, m.Uses source → (source, name source) ∈ Statement.imported header
  rendered : Statement.constants rest = m.declarations.map fun d =>
    (d.name, initializer indent {} { d with body := d.body.importsAs name })
  alike : ∀ left right, m.Uses left → m.Uses right → (name left = name right ↔ left = right)

theorem namesApart (m : Module) (distinct : m.names.Nodup) (format : ModuleFormat)
    (indent : Indent) :
    m.NamesApart m.importBindings.nameOf format indent m.importStatements
      (m.constantStatements format indent ++ m.exportStatements format) := by
  have behind : Statement.constants
      (m.constantStatements format indent ++ m.exportStatements format) =
      m.declarations.map fun d => (d.name, initializer indent m.importBindings d) := by
    rw [Statement.constants_append, constants_constantStatements, constants_exportStatements,
      List.append_nil]
  have declared : (Statement.constants
      (m.constantStatements format indent ++ m.exportStatements format)).map Prod.fst =
      m.names := by
    rw [behind, List.map_map]
    rfl
  constructor
  case text =>
    rw [← List.append_assoc]
    exact row_text format indent m
  case ahead =>
    refine ⟨m.constants_importStatements, ?_⟩
    rw [Statement.imported_append, imported_constantStatements, imported_exportStatements,
      List.append_nil]
  case distinct =>
    rw [imported_importStatements, declared]
    exact m.nodup_bound_names distinct
  case once =>
    rw [imported_importStatements]
    exact m.nodup_bound_sources
  case used =>
    rw [imported_importStatements]
    exact m.mem_bound_sources
  case bound =>
    rw [imported_importStatements]
    exact m.mem_bound_of_uses
  case rendered =>
    simp only [behind, initializer_byName]
  case alike => exact m.nameOf_eq_iff

end Module

/-! Names on their way from the document to the module. -/

def SourceFile.names (file : SourceFile) : List String :=
  file.declarations.map SourceDeclaration.name

/-- Whether a transformer leaves the declared names as they are. -/
def Transformer.KeepsNames (options : Options) (transform : Transformer) : Prop :=
  ∀ file result, transform options file = .ok result → result.names = file.names

namespace SourceFile

theorem names_nodup_of_ofText (document : String) (file : SourceFile)
    (loaded : ofText document = .ok file) : file.names.Nodup := by
  unfold ofText at loaded
  split at loaded
  · cases loaded
  · next read _ =>
    cases fault : read.fault? with
    | some found => simp [fault] at loaded
    | none =>
        simp only [fault, Except.ok.injEq] at loaded
        subst loaded
        unfold fault? at fault
        split at fault
        · cases fault
        · next unrepeated => exact (firstRepeat_eq_none_iff _).mp unrepeated

theorem names_transform (options : Options) (transformers : List (String × Transformer))
    (keeps : ∀ t ∈ transformers, t.2.KeepsNames options) (file result : SourceFile)
    (ran : file.transform options transformers = .ok result) : result.names = file.names := by
  induction transformers generalizing file with
  | nil =>
      cases ran
      rfl
  | cons t rest ih =>
      obtain ⟨name, apply⟩ := t
      unfold transform at ran
      split at ran
      · next next applied =>
        have kept := keeps (name, apply) List.mem_cons_self file next applied
        have later := ih (fun t member => keeps t (List.mem_cons_of_mem _ member)) next ran
        exact later.trans kept
      · cases ran

theorem names_lowerDeclarations (r : Resolver) (declarations : List SourceDeclaration)
    (lowered : List Declaration) (log : Log)
    (ran : lowerDeclarations r declarations = .ok (lowered, log)) :
    lowered.map Declaration.name = declarations.map SourceDeclaration.name := by
  induction declarations generalizing lowered log with
  | nil =>
      cases ran
      rfl
  | cons d rest ih =>
      rw [lowerDeclarations, Logged.bind_eq_ok_iff] at ran
      obtain ⟨body, _, _, _, ran, _⟩ := ran
      obtain ⟨others, _, _, tail, done, _⟩ := (Logged.bind_eq_ok_iff _ _ _ _).mp ran
      obtain ⟨rfl, _⟩ := (Logged.pure_eq_ok_iff _ _ _).mp done
      rw [List.map_cons, List.map_cons, ih others _ tail]

theorem names_lower (r : Resolver) (file : SourceFile) (m : Module) (log : Log)
    (ran : file.lower r = .ok (m, log)) : m.names = file.names := by
  obtain ⟨declarations, _, _, lowered, done, _⟩ := (Logged.bind_eq_ok_iff _ _ _ _).mp ran
  obtain ⟨rfl, _⟩ := (Logged.pure_eq_ok_iff _ _ _).mp done
  exact names_lowerDeclarations r file.declarations declarations _ lowered

end SourceFile

namespace Pipeline

theorem eq_ok_of_toOption {ε α : Type} {x : Except ε α} {a : α} (done : x.toOption = some a) :
    x = .ok a := by
  cases x with
  | error e => cases done
  | ok b => exact congrArg Except.ok (Option.some.inj done)

/-- What a run without further phases does: it transforms the source and lowers it. -/
theorem run_eq_ok (registry : Registry) (builtins : Builtins) (file : SourceFile)
    (options : Options) (c : Context)
    (ran : Pipeline.run ⟨registry, builtins, []⟩ file options = .ok c) :
    ∃ source m log, file.transform options registry.astTransformers = .ok source ∧
      source.lower ⟨registry, builtins, options⟩ = .ok (m, log) ∧ c.target = some m := by
  simp only [run, runPhases, transformerPhase] at ran
  cases transformed : file.transform options registry.astTransformers with
  | error failure => simp [transformed] at ran
  | ok source =>
    simp only [transformed, loweringPhase, resolver] at ran
    cases lowered : source.lower ⟨registry, builtins, options⟩ with
    | error failure => simp [lowered] at ran
    | ok answer =>
      obtain ⟨m, log⟩ := answer
      simp only [lowered, Except.ok.injEq] at ran
      exact ⟨source, m, log, rfl, lowered, by rw [← ran]⟩

/-- In the text of the module of a run, imports and declarations have different names, each imported
value that is used is bound once, and wherever it is used its own name stands for it. -/
theorem module_names_never_clash (document : String) (file : SourceFile) (registry : Registry)
    (builtins : Builtins) (options : Options) (c : Context)
    (loaded : SourceFile.ofText document = .ok file)
    (keeps : ∀ t ∈ registry.astTransformers, t.2.KeepsNames options)
    (ran : Pipeline.run ⟨registry, builtins, []⟩ file options = .ok c) :
    ∃ m name, c.target = some m ∧ m.names = file.names ∧
      ∀ format indent, ∃ header rest, m.NamesApart name format indent header rest := by
  obtain ⟨source, m, log, transformed, lowered, target⟩ :=
    run_eq_ok registry builtins file options c ran
  have kept : m.names = file.names :=
    (SourceFile.names_lower _ source m log lowered).trans
      (SourceFile.names_transform options registry.astTransformers keeps file source transformed)
  have distinct : m.names.Nodup := kept ▸ SourceFile.names_nodup_of_ofText document file loaded
  exact ⟨m, m.importBindings.nameOf, target, kept, fun format indent =>
    ⟨_, _, m.namesApart distinct format indent⟩⟩

/-- A declaration that has the name of the helper that its body needs. -/
def drawingDocument : String :=
  "\x7b\"path\":\"App.fs\",\"declarations\":[\x7b\"name\":\"randomNext\",\"body\":\x7b\"kind\":\"call\"," ++
    "\"member\":\x7b\"entity\":\"System.Random\",\"name\":\"Next\",\"kind\":\"method\"\x7d\x7d\x7d]\x7d"

theorem helper_yields_to_declaration :
    ∃ file c m name, SourceFile.ofText drawingDocument = .ok file ∧
      Pipeline.run ⟨⟨[Catalog.SeededRandom.extension]⟩, .empty, []⟩ file {} = .ok c ∧
      c.target = some m ∧
      m.text .esm .standard =
        "import \x7b randomNext as randomNext_1 \x7d from \"./runtime/random.js\";\n\n" ++
          "export const randomNext = randomNext_1(0, 2147483647);\n" ∧
      ∃ header rest, m.NamesApart name .esm .standard header rest := by
  have computed : ((SourceFile.ofText drawingDocument).toOption.bind fun file =>
      (Pipeline.run ⟨⟨[Catalog.SeededRandom.extension]⟩, .empty, []⟩ file {}).toOption.bind fun c =>
        c.target.map (·.text .esm .standard)) =
      some ("import \x7b randomNext as randomNext_1 \x7d from \"./runtime/random.js\";\n\n" ++
        "export const randomNext = randomNext_1(0, 2147483647);\n") := by
    decide +kernel
  obtain ⟨file, loaded, computed⟩ := Option.bind_eq_some_iff.mp computed
  obtain ⟨c, ran, computed⟩ := Option.bind_eq_some_iff.mp computed
  obtain ⟨written, target, text⟩ := Option.map_eq_some_iff.mp computed
  have loaded := eq_ok_of_toOption loaded
  have ran := eq_ok_of_toOption ran
  obtain ⟨m, name, isTarget, _, apart⟩ :=
    module_names_never_clash drawingDocument file _ _ _ c loaded
      (by simp [Registry.astTransformers, Catalog.SeededRandom.extension, Extension.transformer?])
      ran
  obtain rfl : written = m := Option.some.inj (target.symm.trans isTarget)
  exact ⟨file, c, written, name, loaded, ran, target, text, apart .esm .standard⟩

end Pipeline
end CallReplacement
