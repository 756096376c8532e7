import CallReplacement.Proofs.Script.ModuleNames
import CallReplacement.Proofs.Script.Scoping

/-!
What the name of an imported value refers to in the text of a module. The name is chosen so that
no other import and no declaration has it; but a function or a block around the place where the
value is used may bind the same name. It refers to the header of the module exactly where none of
them does.
-/

namespace CallReplacement

/-- An imported value at its place in an expression, with the names that functions and blocks
around it bind in the text. -/
structure Occurrence where
  source : ImportRef
  around : List String

namespace Expr

open JavaScript

mutual

/-- For each name in the text of an expression the imported value that it stands for, if it does.
A function binds its parameters in its body, and a chain of bindings its names in its whole
block. -/
def occurrences (around : List String) : Expr → List (Option Occurrence)
  | .literal _ value => List.replicate value.names none
  | .ident .. => [none]
  | .imported _ source => [some ⟨source, around⟩]
  | .field _ target _ => occurrences around target
  | .index _ target key => occurrences around target ++ occurrences around key
  | .call _ _ callee args => occurrences around callee ++ occurrencesAll around args
  | .object _ fields => occurrencesFields around fields
  | .cast _ operand => occurrences around operand
  | .raw _ _ args => occurrencesAll around args
  | .unary _ _ operand => occurrences around operand
  | .binary _ _ left right => occurrences around left ++ occurrences around right
  | .logical _ _ left right => occurrences around left ++ occurrences around right
  | .lambda _ params body => occurrences (params.map Binding.name ++ around) body
  | .bind _ binding value body =>
      occurrences (binding.name :: body.chained ++ around) value ++
        occurrences (binding.name :: body.chained ++ around) body
  | .conditional _ guard yes no =>
      occurrences around guard ++ (occurrences around yes ++ occurrences around no)
  | .sequence _ exprs => if exprs.isEmpty then [none] else occurrencesAll around exprs

def occurrencesAll (around : List String) : List Expr → List (Option Occurrence)
  | [] => []
  | e :: rest => occurrences around e ++ occurrencesAll around rest

def occurrencesFields (around : List String) : List (String × Expr) → List (Option Occurrence)
  | [] => []
  | (_, e) :: rest => occurrences around e ++ occurrencesFields around rest

end

theorem occurrencesAll_eq (around : List String) (exprs : List Expr) :
    occurrencesAll around exprs = exprs.flatMap (occurrences around) := by
  induction exprs with
  | nil => rfl
  | cons e rest ih => rw [occurrencesAll, ih, List.flatMap_cons]

theorem occurrencesFields_eq (around : List String) (fields : List (String × Expr)) :
    occurrencesFields around fields = (fields.map Prod.snd).flatMap (occurrences around) := by
  induction fields with
  | nil => rfl
  | cons field rest ih => rw [occurrencesFields, ih, List.map_cons, List.flatMap_cons]

theorem occurrences_plain {e : Expr} (plain : e.isPlain) (around : List String) :
    e.occurrences around = e.children.flatMap (occurrences around) := by
  cases e with
  | literal | ident | imported | raw | lambda | bind => cases plain
  | sequence note exprs =>
      cases exprs with
      | nil => cases plain
      | cons e rest => exact occurrencesAll_eq around (e :: rest)
  | _ => simp [occurrences, children, occurrencesAll_eq, occurrencesFields_eq]

/-- The imported values that names of the text stand for, without their surroundings. -/
def sources (occurrences : List (Option Occurrence)) : List ImportRef :=
  occurrences.filterMap (Option.map Occurrence.source)

theorem sources_append (left right : List (Option Occurrence)) :
    sources (left ++ right) = sources left ++ sources right :=
  List.filterMap_append

theorem sources_flatMap (exprs : List Expr) (around : List String)
    (each : ∀ e ∈ exprs, ∀ around,
      sources (e.occurrences around) = e.subterms.filterMap Module.importOf?) :
    sources (exprs.flatMap (occurrences around)) =
      (exprs.flatMap subterms).filterMap Module.importOf? := by
  induction exprs with
  | nil => rfl
  | cons e rest ih =>
      have head := each e List.mem_cons_self around
      have tail := ih fun other member => each other (List.mem_cons_of_mem _ member)
      rw [List.flatMap_cons, List.flatMap_cons, sources_append, head, tail, List.filterMap_append]

/-- No imported value is left out, and each stands at its own place. -/
theorem sources_occurrences (e : Expr) (around : List String) :
    sources (e.occurrences around) = e.subterms.filterMap Module.importOf? := by
  induction e using induction_children generalizing around with
  | step e ih =>
    rw [subterms_eq]
    have row := sources_flatMap e.children
    by_cases plain : e.isPlain
    · rw [occurrences_plain plain, row _ ih]
      cases e with
      | imported => cases plain
      | _ => rfl
    · cases e with
      | literal note value =>
          rw [occurrences, sources, List.filterMap_replicate_of_none rfl]
          rfl
      | ident | imported => rfl
      | raw note template args =>
          rw [occurrences, occurrencesAll_eq]
          exact row around ih
      | lambda note params body =>
          rw [occurrences, ih body List.mem_cons_self]
          simp [children, Module.importOf?, List.filterMap_cons]
      | bind note binding value body =>
          have first := ih value (by simp [children])
          have second := ih body (by simp [children])
          rw [occurrences, sources_append, first, second, ← List.filterMap_append]
          simp [children, Module.importOf?, List.filterMap_cons]
      | sequence note exprs =>
          cases exprs with
          | nil => rfl
          | cons e rest => exact absurd rfl plain
      | _ => exact absurd rfl plain

section
variable (imports : Imports) (home : Scope) (count : Nat)

/-- Whether the name of an imported value refers to what it does at home if nothing around it
binds that name, and else to a binder of its own. -/
def Finds (occurrence : Option Occurrence) (read : Option Nat) : Prop :=
  ∀ o ∈ occurrence,
    (imports.nameOf o.source ∉ o.around → read = home (imports.nameOf o.source)) ∧
      (imports.nameOf o.source ∈ o.around → ∃ binder, read = some binder ∧ count ≤ binder)

/-- What is shown of an expression, and of the lines of the block that it ends: the scope that
they stand in is all that decides on the names of imported values. -/
structure Tracks (e : Expr) : Prop where
  operand : ∀ around s next, count ≤ next → Scope.Within home count around s →
    List.Forall₂ (Finds imports home count) (e.occurrences around)
      ((e.tree imports).uses s next)
  lines : ∀ around s next last, count ≤ next → count ≤ last → Scope.Within home count around s →
    (∀ x ∈ e.chained, x ∈ around) →
    List.Forall₂ (Finds imports home count) (e.occurrences around)
      (Tree.usesConstants s next (e.reading imports .rest).constants ++
        (e.reading imports .rest).tree.uses s last)

variable {imports home count}

theorem tracks_of_operand {e : Expr} (noBind : e.isBind = false)
    (operand : ∀ around s next, count ≤ next → Scope.Within home count around s →
      List.Forall₂ (Finds imports home count) (e.occurrences around)
        ((e.tree imports).uses s next)) :
    Tracks imports home count e where
  operand := operand
  lines around s next last _ later within _ := by
    obtain ⟨nothing, rest⟩ := @reading_rest imports e noBind
    rw [nothing, rest]
    exact operand around s last later within

theorem tracks_all {exprs : List Expr} (each : ∀ e ∈ exprs, Tracks imports home count e)
    {around : List String} {s : Scope} {next : Nat} (later : count ≤ next)
    (within : Scope.Within home count around s) :
    List.Forall₂ (Finds imports home count) (exprs.flatMap (occurrences around))
      (Tree.usesAll s next (exprs.map (tree imports))) := by
  induction exprs generalizing next with
  | nil => exact .nil
  | cons e rest ih =>
      have head := (each e List.mem_cons_self).operand around s next later within
      have tail := ih (fun other member => each other (List.mem_cons_of_mem _ member))
        (Nat.le_trans later (Nat.le_add_right next (e.tree imports).binders))
      rw [List.flatMap_cons, List.map_cons, Tree.usesAll]
      exact List.rel_append head tail

theorem finds_none (row : List (Option Nat)) :
    List.Forall₂ (Finds imports home count) (List.replicate row.length none) row := by
  induction row with
  | nil => exact .nil
  | cons read rest ih => exact .cons (by simp [Finds]) ih

-- Names that stand for no imported value say nothing.
theorem tracks_closed {e : Expr} {names : Nat} (noBind : e.isBind = false)
    (closed : Closed (e.tree imports) names)
    (occurrences : ∀ around, e.occurrences around = List.replicate names none) :
    Tracks imports home count e := by
  apply tracks_of_operand noBind
  intro around s next _ _
  rw [occurrences, ← closed.length s next]
  exact finds_none _

theorem tracks_imported (note : Note) (source : ImportRef) :
    Tracks imports home count (imported note source) := by
  apply tracks_of_operand rfl
  intro around s next _ within
  refine .cons ?_ .nil
  rintro o ⟨⟩
  exact within (imports.nameOf source)

theorem tracks_lambda (note : Note) (params : List Binding) {body : Expr}
    (tracks : Tracks imports home count body) :
    Tracks imports home count (lambda note params body) := by
  apply tracks_of_operand rfl
  intro around s next later within
  have inner := within.bindAll later (params.map Binding.name)
  exact tracks.operand _ _ _ (Nat.le_trans later (Nat.le_add_right _ _)) inner

-- The lines of a block stand in the scope of the whole block.
theorem finds_lines (note : Note) (binding : Binding) {value body : Expr}
    (first : Tracks imports home count value) (rest : Tracks imports home count body)
    {around : List String} {s : Scope} {next last : Nat} (later : count ≤ next)
    (laterToo : count ≤ last)
    (block : Scope.Within home count (binding.name :: body.chained ++ around) s) :
    List.Forall₂ (Finds imports home count) ((bind note binding value body).occurrences around)
      (Tree.usesConstants s next ((bind note binding value body).reading imports .rest).constants ++
        ((bind note binding value body).reading imports .rest).tree.uses s last) := by
  have chained : ∀ x ∈ body.chained, x ∈ binding.name :: body.chained ++ around := by
    intro x member
    exact List.mem_append_left _ (List.mem_cons_of_mem _ member)
  have head := first.operand _ s (next + 1) (Nat.le_succ_of_le later) block
  have tail := rest.lines _ s (next + 1 + (value.tree imports).binders) last
    (by omega) laterToo block chained
  rw [constants_bind, result_bind, Tree.usesConstants, occurrences, List.append_assoc]
  exact List.rel_append head tail

theorem tracks_bind {note : Note} {binding : Binding} {value body : Expr}
    (first : Tracks imports home count value) (rest : Tracks imports home count body) :
    Tracks imports home count (bind note binding value body) where
  operand around s next later within := by
    rw [tree_block, uses_block]
    apply finds_lines note binding first rest later (Nat.le_trans later (Nat.le_add_right _ _))
    rw [← chained, ← names_rest]
    exact within.inner later (fun _ other => Tree.declare_of_not_mem other)
      fun _ member => Tree.declare_of_mem member
  lines around s next last later laterToo within inside := by
    apply finds_lines note binding first rest later laterToo
    apply within.congr
    intro x
    rw [List.mem_append]
    exact or_iff_right_of_imp (inside x)

theorem tracks_plain {e : Expr} (plain : e.isPlain)
    (each : ∀ c ∈ e.children, Tracks imports home count c) : Tracks imports home count e := by
  apply tracks_of_operand
  · cases e with
    | bind => cases plain
    | _ => rfl
  · intro around s next later within
    have see := see_plain imports (Tree.transparent_usesAll s next) plain
    have row := tracks_all each later within
    rw [← see, ← occurrences_plain plain] at row
    simpa [Tree.usesAll] using row

theorem tracks (e : Expr) (noRaw : e.NoRaw) : Tracks imports home count e := by
  refine induction_noRaw ?plain ?literal ?ident ?imported ?lambda ?bind ?nothing e noRaw
  case plain => exact fun e plain inner => tracks_plain plain inner
  case literal => exact fun note value => tracks_closed rfl (closed_literal value) fun _ => rfl
  case ident =>
    exact fun note binding => tracks_closed rfl (closed_name binding.name) fun _ => rfl
  case imported => exact fun note source => tracks_imported note source
  case lambda => exact fun note params body inner => tracks_lambda note params inner
  case bind => exact fun note binding value body first rest => tracks_bind first rest
  case nothing => exact fun note => tracks_closed rfl (closed_name "undefined") fun _ => rfl

end
end Expr

namespace Module

open JavaScript CallReplacement.Expr
open Statement (Row)

/-- The names that the text of a module binds: those of its header, and then its declarations. -/
def boundNames (m : Module) : List String := m.importBindings.bound.map Prod.snd ++ m.names

/-- The scope in which the values of the declarations stand. -/
def scope (m : Module) : Scope := Scope.empty.bindAll 0 m.boundNames

/-- Whether a name refers to the import of this value in the header of the module. -/
def RefersToImport (m : Module) (source : ImportRef) (read : Option Nat) : Prop :=
  ∃ binder, read = some binder ∧
    m.importBindings.bound[binder]? = some (source, m.importBindings.nameOf source)

/-- At the top of the module the name of an imported value is that of its import. -/
theorem refersToImport_scope (m : Module) {source : ImportRef} (used : m.Uses source) :
    m.RefersToImport source (m.scope (m.importBindings.nameOf source)) := by
  have member := m.mem_bound_of_uses source used
  have declared := m.importName_not_mem_names (List.mem_map_of_mem (f := Prod.snd) member)
  have distinct := m.nodup_importNames
  obtain ⟨before, after, split⟩ := List.append_of_mem member
  rw [split, List.map_append, List.map_cons, List.nodup_append, List.nodup_cons] at distinct
  have last : m.importBindings.nameOf source ∉ after.map Prod.snd ++ m.names :=
    List.not_mem_append distinct.2.1.1 declared
  refine ⟨before.length, ?_, by simp [split]⟩
  rw [scope, boundNames, split, List.map_append, List.map_cons, List.append_assoc, List.cons_append,
    Scope.bindAll_of_last last, List.length_map, Nat.zero_add]

theorem refersToImport_iff (m : Module) {o : Occurrence} {read : Option Nat} (used : m.Uses o.source)
    (finds : Finds m.importBindings m.scope m.boundNames.length (some o) read) :
    m.RefersToImport o.source read ↔ m.importBindings.nameOf o.source ∉ o.around := by
  obtain ⟨outside, inside⟩ := finds o rfl
  constructor
  · rintro ⟨binder, same, atBinder⟩ around
    obtain ⟨own, found, later⟩ := inside around
    have bounded := (List.getElem?_eq_some_iff.mp atBinder).1
    rw [same, Option.some.injEq] at found
    rw [boundNames, List.length_append, List.length_map] at later
    omega
  · intro free
    rw [outside free]
    exact m.refersToImport_scope used

theorem uses_of_occurrence (m : Module) {d : Declaration} (declared : d ∈ m.declarations)
    {around : List String} {o : Occurrence} (member : some o ∈ d.body.occurrences around) :
    m.Uses o.source := by
  have source : o.source ∈ d.body.subterms.filterMap importOf? := by
    rw [← d.body.sources_occurrences around]
    exact List.mem_filterMap.mpr ⟨some o, member, rfl⟩
  rw [← mem_imports]
  exact List.mem_eraseDups.mpr (List.mem_flatMap_of_mem declared source)

/-- The value of a declaration has one reading, the tree of its body. -/
theorem initializer_reads {A : Alphabet} (indent : Indent) {imports : Imports} (d : Declaration)
    (readable : d.body.Readable A imports) :
    ∃ ts, lex A (initializer indent imports d).toList = some ts ∧
      ∀ t, Reads .assign ts t ↔ t = d.body.tree imports := by
  have back : ReadsBack A indent imports d.body := readsBack d.body readable
  obtain ⟨ts, written, reads⟩ := (back.operand 0).atLeast (p := .assign) (by decide)
  refine ⟨ts, written.spells.lex (.inl rfl), fun t => ?_⟩
  constructor
  · intro other
    exact other.unique reads
  · rintro rfl
    exact reads

/-- The text of a module spells its imports and the value of each declaration. -/
theorem text_spells_initializer (m : Module) {d : Declaration} (declared : d ∈ m.declarations)
    (format : ModuleFormat) (indent : Indent) :
    ∃ statements, Row format statements (m.text format indent) ∧
      Statement.imported statements = m.importBindings.bound ∧
      (d.name, initializer indent m.importBindings d) ∈ Statement.constants statements := by
  refine ⟨_, row_text format indent m, imported_statements format indent m, ?_⟩
  rw [constants_statements]
  exact List.mem_map_of_mem declared

/-- Where a value is imported, its name refers to the header of the module if and only if no
function and no block around the place binds that name; the text of the module spells the header
and the value of the declaration, and this has no other reading. -/
theorem import_refers_to_header_iff (m : Module) (d : Declaration) (declared : d ∈ m.declarations)
    (noRaw : d.body.NoRaw) :
    sources (d.body.occurrences []) = d.body.subterms.filterMap importOf? ∧
      (∀ next, m.boundNames.length ≤ next →
        List.Forall₂
          (fun occurrence read => ∀ o ∈ occurrence,
            (m.RefersToImport o.source read ↔ m.importBindings.nameOf o.source ∉ o.around))
          (d.body.occurrences []) ((d.body.tree m.importBindings).uses m.scope next)) ∧
      (∀ A indent, d.body.Readable A m.importBindings →
        ∃ ts, lex A (initializer indent m.importBindings d).toList = some ts ∧
          ∀ t, Reads .assign ts t ↔ t = d.body.tree m.importBindings) ∧
      ∀ format indent, ∃ statements, Row format statements (m.text format indent) ∧
        Statement.imported statements = m.importBindings.bound ∧
        (d.name, initializer indent m.importBindings d) ∈ Statement.constants statements := by
  refine ⟨d.body.sources_occurrences [], ?_, fun A indent => initializer_reads indent d,
    m.text_spells_initializer declared⟩
  intro next later
  have tracks : Tracks m.importBindings m.scope m.boundNames.length d.body := d.body.tracks noRaw
  have tracked := tracks.operand [] m.scope next later (Scope.within_home _ _)
  have used : ∀ occurrence ∈ d.body.occurrences [], ∀ o ∈ occurrence, m.Uses o.source := by
    rintro _ member o ⟨⟩
    exact m.uses_of_occurrence declared member
  refine List.Forall₂.imp ?_ ((List.forall₂_and_left _ _).mpr ⟨used, tracked⟩)
  rintro occurrence read ⟨used, finds⟩ o rfl
  exact m.refersToImport_iff (used o rfl) finds

/-- `fun randomNext -> import randomNext(randomNext)`. -/
def roll : Declaration :=
  let note := Note.typed .any
  ⟨"roll", .lambda note [⟨"randomNext", .any⟩]
    (.call note .direct (.imported note ⟨"randomNext", "./runtime/random.js"⟩)
      [.ident note ⟨"randomNext", .any⟩]), true, none⟩

def dice : Module := ⟨"Dice.fs", [roll]⟩

-- The imported function and the parameter have one name, so the parameter is called.
theorem import_captured_in_roll :
    roll ∈ dice.declarations ∧ roll.body.NoRaw ∧
      sources (roll.body.occurrences []) = [⟨"randomNext", "./runtime/random.js"⟩] ∧
      (roll.body.tree dice.importBindings).uses dice.scope 2 = [some 2, some 2] ∧
      ¬ dice.RefersToImport ⟨"randomNext", "./runtime/random.js"⟩ (some 2) ∧
      dice.text .esm .standard = "import \x7b randomNext \x7d from \"./runtime/random.js\";\n\n" ++
        "export const roll = (randomNext) => randomNext(randomNext);\n" ∧
      ∃ ts, lex .ascii (initializer .standard dice.importBindings roll).toList = some ts ∧
        ∀ t, Reads .assign ts t ↔
          t = .arrow ["randomNext"] (.call (.name "randomNext") [.name "randomNext"]) := by
  have declared : roll ∈ dice.declarations := List.mem_singleton_self roll
  have noRaw : roll.body.NoRaw := by
    simp [NoRaw, roll, subterms, subtermsAll, isRaw]
  have name : dice.importBindings.nameOf ⟨"randomNext", "./runtime/random.js"⟩ = "randomNext" := by
    decide
  have isName : Alphabet.ascii.IsName "randomNext" :=
    Alphabet.isName_of_letters _ (by decide) (by decide) (by decide)
  have readable : roll.body.Readable .ascii dice.importBindings := by
    simp [Readable, roll, subterms, subtermsAll, ReadableNode, name, isName]
  obtain ⟨listed, refers, reads, _⟩ := import_refers_to_header_iff dice roll declared noRaw
  obtain ⟨first, _⟩ := List.forall₂_cons.mp (refers 2 (Nat.le_refl 2))
  refine ⟨declared, noRaw, listed, rfl, ?_, by decide +kernel, reads .ascii .standard readable⟩
  intro refersToHeader
  exact (first _ rfl).mp refersToHeader (name ▸ List.mem_singleton_self _)

end Module
end CallReplacement
