import CallReplacement.Json.Shapes
import CallReplacement.Proofs.Json.Mirror
import Mathlib.Tactic.Tauto

/-!
The format of source files. The role of a value is what it is read as inside of a file; it says which
fields a record has, and which roles they play in turn. The interpretation of a record goes by its
fields: it does not look at anything else, and it fails where one of them does.
-/

namespace CallReplacement

open Json (Shape)

/-- Values that have no fields. -/
inductive Scalar
  | text
  | truth
  | whole
  | numberKind
  | memberKind
  | binaryOp
  | logicalOp
  | unaryOp
  | alternative
  | tag (names : List String)
  | literalValue (kind : String)

namespace Scalar

def Result : Scalar → Type
  | .text | .alternative | .tag _ => String
  | .truth => Bool
  | .whole => UInt32
  | .numberKind => NumberKind
  | .memberKind => MemberKind
  | .binaryOp => BinaryOp
  | .logicalOp => LogicalOp
  | .unaryOp => UnaryOp
  | .literalValue _ => Literal

def read? : (s : Scalar) → Json → Option s.Result
  | .text => Json.text?
  | .truth => Json.truth?
  | .whole => Json.uint32?
  | .numberKind => Json.named? NumberKind.all NumberKind.key
  | .memberKind => Json.named? MemberKind.all MemberKind.name
  | .binaryOp => Json.named? BinaryOp.all BinaryOp.name
  | .logicalOp => Json.named? LogicalOp.all LogicalOp.name
  | .unaryOp => Json.named? UnaryOp.all UnaryOp.name
  | .alternative => Json.choice?
  | .tag names => Json.tag? names
  | .literalValue kind => Literal.ofValue? kind

theorem read?_array (s : Scalar) (items : List Json) : s.read? (.array items) = none := by
  cases s with
  | literalValue kind =>
      simp only [read?, Literal.ofValue?]
      split <;> rfl
  | _ => rfl

/-- Of objects, the names of alternatives are all that is read. -/
theorem read?_object (s : Scalar) {members others : List (String × Json)}
    (same : (Json.object members).choice? = (Json.object others).choice?) :
    s.read? (.object members) = s.read? (.object others) := by
  cases s with
  | literalValue kind =>
      simp only [read?, Literal.ofValue?]
      split <;> rfl
  | alternative => exact same
  | numberKind | memberKind | binaryOp | logicalOp | unaryOp => simp only [read?, Json.named?, same]
  | _ => rfl

end Scalar

/-- What a value in a source file is read as. A body is an expression that stands in a declaration,
where its tag has to be a text. -/
inductive Role
  | scalar (s : Scalar)
  | literal
  | type
  | position
  | range
  | attr
  | member
  | param
  | entry
  | expr
  | body
  | declaration
  | file
  | list (item : Role)
  | orNull (inner : Role)

namespace Role

def Result : Role → Type
  | .scalar s => s.Result
  | .literal => Literal
  | .type => ValueType
  | .position => Position
  | .range => SourceRange
  | .attr => Attribute
  | .member => MemberRef
  | .param => Param
  | .entry => String × SourceExpr
  | .expr | .body => SourceExpr
  | .declaration => SourceDeclaration
  | .file => SourceFile
  | .list item => List item.Result
  | .orNull inner => Option inner.Result

def decodeBody? (j : Json) : Option SourceExpr :=
  (Shape.tagText? "kind" j).bind fun _ => SourceExpr.ofJson? j

def decodeDeclaration? (j : Json) : Option SourceDeclaration :=
  if !j.fits SourceDeclaration.fields false then none
  else do
    let name ← j.required SourceDeclaration.fields "name" fun v _ => v.text?
    let isPublic ← j.optional SourceDeclaration.fields "is_public" true fun v _ => v.truth?
    let body ← j.required SourceDeclaration.fields "body" fun v _ => decodeBody? v
    some ⟨name, isPublic, body, ← j.range? SourceDeclaration.fields⟩

def decodeFile? (j : Json) : Option SourceFile :=
  if !j.fits SourceFile.fields false then none
  else do
    let path ← j.required SourceFile.fields "path" fun v _ => v.text?
    let declarations ← j.optional SourceFile.fields "declarations" [] fun v _ =>
      v.items? fun item _ => decodeDeclaration? item
    some ⟨path, declarations⟩

def decodeEntry? (j : Json) : Option (String × SourceExpr) :=
  if !j.fits SourceExpr.recordField false then none
  else do
    let name ← j.required SourceExpr.recordField "name" fun v _ => v.text?
    let value ← j.required SourceExpr.recordField "value" fun v _ => SourceExpr.ofJson? v
    some (name, value)

def decode? : (p : Role) → Json → Option p.Result
  | .scalar s, j => s.read? j
  | .literal, j => Literal.ofJson? j
  | .type, j => ValueType.ofJson? j
  | .position, j => Position.ofJson? j
  | .range, j => SourceRange.ofJson? j
  | .attr, j => Attribute.ofJson? j
  | .member, j => MemberRef.ofJson? j
  | .param, j => Param.ofJson? j
  | .entry, j => decodeEntry? j
  | .expr, j => SourceExpr.ofJson? j
  | .body, j => decodeBody? j
  | .declaration, j => decodeDeclaration? j
  | .file, j => decodeFile? j
  | .list item, j => j.items? fun v _ => item.decode? v
  | .orNull inner, j => j.nullable fun v _ => inner.decode? v

/-! ## Fields -/

/-- The fields of an alternative of types, beside its tag. -/
def typeFields (tag : String) : List (String × Role) :=
  match tag with
  | "number" => [("kind", .scalar .numberKind)]
  | "array" => [("element", .type)]
  | "option" => [("inner", .type)]
  | "tuple" => [("elements", .list .type)]
  | "lambda" => [("args", .list .type), ("ret", .type)]
  | "generic_param" => [("name", .scalar .text)]
  | "declared" => [("full_name", .scalar .text), ("generic_args", .list .type)]
  | _ => []

/-- The fields of an alternative of expressions, beside its tag. -/
def exprFields (tag : String) : List (String × Role) :=
  let range := ("range", .orNull .range)
  match tag with
  | "const" => [("value", .literal), ("ty", .type), range]
  | "ident" => [("name", .scalar .text), ("ty", .type), range]
  | "call" => [("member", .member), ("receiver", .orNull .expr), ("args", .list .expr),
      ("generic_args", .list .type), range]
  | "apply" => [("callee", .expr), ("args", .list .expr), ("ty", .type), range]
  | "get" => [("expr", .expr), ("field", .scalar .text), ("ty", .type), range]
  | "lambda" => [("params", .list .param), ("body", .expr), range]
  | "let" => [("name", .scalar .text), ("ty", .type), ("value", .expr), ("body", .expr), range]
  | "if" => [("guard", .expr), ("then", .expr), ("otherwise", .expr), range]
  | "sequential" => [("exprs", .list .expr), range]
  | "record" => [("fields", .list .entry), ("ty", .type), range]
  | "binary" => [("op", .scalar .binaryOp), ("left", .expr), ("right", .expr), ("ty", .type), range]
  | "logical" => [("op", .scalar .logicalOp), ("left", .expr), ("right", .expr), range]
  | "unary" => [("op", .scalar .unaryOp), ("operand", .expr), ("ty", .type), range]
  | "coerce" => [("expr", .expr), ("ty", .type), range]
  | _ => []

/-- The fields of a record, as what they are read, and beside its tag. -/
def fields : Role → (tag : String) → List (String × Role)
  | .type, tag => typeFields tag
  | .position, _ => [("line", .scalar .whole), ("column", .scalar .whole)]
  | .range, _ => [("file", .orNull (.scalar .text)), ("start", .position), ("end", .position)]
  | .attr, _ => [("full_name", .scalar .text), ("args", .list .literal)]
  | .member, _ => [("entity", .scalar .text), ("name", .scalar .text), ("kind", .scalar .memberKind),
      ("is_instance", .scalar .truth), ("attributes", .list .attr),
      ("generic_args", .list .type), ("signature_arg_types", .list .type), ("return_type", .type)]
  | .param, _ => [("name", .scalar .text), ("ty", .type)]
  | .entry, _ => [("name", .scalar .text), ("value", .expr)]
  | .expr, tag | .body, tag => exprFields tag
  | .declaration, _ => [("name", .scalar .text), ("is_public", .scalar .truth), ("body", .body),
      ("range", .orNull .range)]
  | .file, _ => [("path", .scalar .text), ("declarations", .list .declaration)]
  | _, _ => []

/-- The names of all fields, in the order of a record that is written as an array. -/
def names : Role → (tag : String) → List String
  | .literal, _ => ["type", "value"]
  | .type, tag => ValueType.fields tag
  | .position, _ => Position.fields
  | .range, _ => SourceRange.fields
  | .attr, _ => Attribute.fields
  | .member, _ => MemberRef.fields
  | .param, _ => Param.fields
  | .entry, _ => SourceExpr.recordField
  | .expr, tag | .body, tag => SourceExpr.fields tag
  | .declaration, _ => SourceDeclaration.fields
  | .file, _ => SourceFile.fields
  | _, _ => []

/-- Member references have no members beside their fields. -/
def closed : Role → Bool
  | .member => true
  | _ => false

/-- The tag that says which fields a record has. Where there is only one alternative it is empty. -/
def tag? : Role → Json → Option String
  | .type, j => j.required ["type"] "type" fun v _ => v.tag? ValueType.tags
  | .expr, j => j.required ["kind"] "kind" fun v _ => v.tag? SourceExpr.tags
  | .body, j => (Shape.tagText? "kind" j).bind fun _ =>
      j.required ["kind"] "kind" fun v _ => v.tag? SourceExpr.tags
  | .scalar _, _ | .list _, _ | .orNull _, _ => none
  | _, _ => some ""

/-- An interpretation that goes by the fields of a record. -/
structure Reads {α : Type} (names : List String) (fields : List (String × Role))
    (read : Json → Option α) : Prop where
  same : ∀ j j' : Json, (∀ field ∈ fields, (j.slot? names field.1).map field.2.decode? =
    (j'.slot? names field.1).map field.2.decode?) → read j = read j'
  fails : ∀ j, ∀ field ∈ fields, ∀ value, j.slot? names field.1 = some value →
    field.2.decode? value = none → read j = none

section
variable {α β : Type} {names : List String} {fields : List (String × Role)}

theorem Reads.reorder {others : List (String × Role)} {read : Json → Option α}
    (reads : Reads names fields read) (same : ∀ field, field ∈ others ↔ field ∈ fields) :
    Reads names others read :=
  ⟨fun j j' each => reads.same j j' fun field member => each field ((same field).mpr member),
    fun j field member => reads.fails j field ((same field).mp member)⟩

theorem Reads.nothing : Reads names fields fun _ => (none : Option α) :=
  ⟨fun _ _ _ => rfl, fun _ _ _ _ _ _ => rfl⟩

theorem Reads.pure (result : Option α) : Reads names [] fun _ => result :=
  ⟨fun _ _ _ => rfl, by simp⟩

theorem Reads.behind {name : String} {p : Role} {next : p.Result → Json → Option β}
    (make : Option (Option p.Result) → Option p.Result) (faulty : make (some none) = none)
    (rest : ∀ a, Reads names fields (next a)) :
    Reads names ((name, p) :: fields) fun j =>
      (make ((j.slot? names name).map p.decode?)).bind fun a => next a j := by
  constructor
  · intro j j' each
    obtain ⟨head, tail⟩ := List.forall_mem_cons.mp each
    have follow : (fun a => next a j) = fun a => next a j' := by
      funext a
      exact (rest a).same j j' tail
    rw [head, follow]
  · intro j field member value found refused
    rcases List.mem_cons.mp member with rfl | later
    · rw [found, Option.map_some, refused, faulty, Option.bind_none]
    · rw [Option.bind_eq_none_iff]
      intro a _
      exact (rest a).fails j field later value found refused

theorem Reads.need {name : String} {p : Role} {next : p.Result → Json → Option β}
    (rest : ∀ a, Reads names fields (next a)) :
    Reads names ((name, p) :: fields) fun j =>
      (j.required names name fun v _ => p.decode? v).bind fun a => next a j := by
  simp only [Json.required_eq_join]
  exact .behind Option.join rfl rest

theorem Reads.want {name : String} {p : Role} {missing : p.Result}
    {next : p.Result → Json → Option β} (rest : ∀ a, Reads names fields (next a)) :
    Reads names ((name, p) :: fields) fun j =>
      (j.optional names name missing fun v _ => p.decode? v).bind fun a => next a j := by
  simp only [Json.optional_eq_getD]
  exact .behind (Option.getD · (some missing)) rfl rest

end

/-- The interpretation of a record: of a value that can be one, its fields are read. -/
structure Described (p : Role) : Prop where
  untagged : ∀ j, p.tag? j = none → p.decode? j = none
  tagged : ∀ tag, ∃ read : Json → Option p.Result, Reads (p.names tag) (p.fields tag) read ∧
    ∀ j, p.tag? j = some tag →
      p.decode? j = if !j.fits (p.names tag) p.closed then none else read j

theorem position_described : Described .position :=
  ⟨nofun, fun _ => ⟨_, .need fun line => .need fun column => .pure (some ⟨line, column⟩),
    fun _ _ => rfl⟩⟩

theorem range_described : Described .range :=
  ⟨nofun, fun _ => ⟨_, .want fun file => .need fun start => .need fun stop =>
    .pure (some ⟨file, start, stop⟩), fun _ _ => rfl⟩⟩

theorem attr_described : Described .attr :=
  ⟨nofun, fun _ => ⟨_, .need fun fullName => .want fun args => .pure (some ⟨fullName, args⟩),
    fun _ _ => rfl⟩⟩

theorem member_described : Described .member := by
  refine ⟨nofun, fun _ => ⟨_, ?_, fun _ _ => rfl⟩⟩
  exact .need fun entity => .need fun name => .need fun kind => .want fun isInstance =>
    .want fun attributes => .want fun generics => .want fun signature => .want fun returnType =>
      .pure _

theorem param_described : Described .param :=
  ⟨nofun, fun _ => ⟨_, .need fun name => .want fun type => .pure (some ⟨name, type⟩),
    fun _ _ => rfl⟩⟩

theorem entry_described : Described .entry :=
  ⟨nofun, fun _ => ⟨_, .need fun name => .need fun value => .pure (some (name, value)),
    fun _ _ => rfl⟩⟩

theorem declaration_described : Described .declaration :=
  ⟨nofun, fun _ => ⟨_, .need fun name => .want fun isPublic => .need fun body =>
    .want fun range => .pure (some ⟨name, isPublic, body, range⟩), fun _ _ => rfl⟩⟩

theorem file_described : Described .file :=
  ⟨nofun, fun _ => ⟨_, .need fun path => .want fun declarations => .pure (some ⟨path, declarations⟩),
    fun _ _ => rfl⟩⟩

theorem mem_of_tag? {names : List String} {j : Json} {tag : String}
    (tagged : j.tag? names = some tag) : tag ∈ names := by
  cases j <;> try cases tagged
  · next place =>
    rw [Json.tag?] at tagged
    split at tagged
    · exact List.mem_of_getElem? tagged
    · cases tagged
  · next name =>
    rw [Json.tag?] at tagged
    split at tagged <;> cases tagged
    next known => simpa using known

theorem mem_of_required_tag? {names : List String} {key tag : String} {j : Json}
    (tagged : (j.required [key] key fun v _ => v.tag? names) = some tag) : tag ∈ names := by
  rw [Json.required_eq] at tagged
  obtain ⟨value, -, found⟩ := Option.bind_eq_some_iff.mp tagged
  exact mem_of_tag? found

theorem type_described : Described .type := by
  constructor
  · intro j untagged
    simp only [tag?] at untagged
    rw [decode?, ValueType.ofJson?, untagged]
    rfl
  · intro tag
    simp only [decode?, tag?]
    by_cases known : tag ∈ ValueType.tags
    · simp only [ValueType.tags, List.mem_cons, List.not_mem_nil, or_false] at known
      rcases known with rfl | rfl | rfl | rfl | rfl | rfl | rfl | rfl | rfl | rfl | rfl | rfl <;>
        refine ⟨_, ?_, fun j tagged => by rw [ValueType.ofJson?, tagged]; rfl⟩
      · exact .pure _
      · exact .pure _
      · exact .pure _
      · exact .pure _
      · exact .pure _
      · exact .need fun kind => .pure _
      · exact .need fun element => .pure _
      · exact .need fun inner => .pure _
      · exact .need fun elements => .pure _
      · exact .need fun params => .need fun result => .pure _
      · exact .need fun name => .pure _
      · exact .need fun fullName => .want fun generics => .pure _
    · exact ⟨_, .nothing, fun j tagged => absurd (mem_of_required_tag? tagged) known⟩

theorem expr_described : Described .expr := by
  constructor
  · intro j untagged
    simp only [tag?] at untagged
    rw [decode?, SourceExpr.ofJson?, untagged]
    rfl
  · intro tag
    simp only [decode?, tag?]
    by_cases known : tag ∈ SourceExpr.tags
    · simp only [SourceExpr.tags, List.mem_cons, List.not_mem_nil, or_false] at known
      rcases known with rfl | rfl | rfl | rfl | rfl | rfl | rfl | rfl | rfl | rfl | rfl | rfl |
          rfl | rfl <;>
        refine ⟨_, ?_, fun j tagged => by rw [SourceExpr.ofJson?, tagged]; rfl⟩
      · exact .need fun value => .want fun type => .want fun range => .pure _
      · exact .need fun name => .want fun type => .want fun range => .pure _
      · exact .need fun member => .want fun receiver => .want fun args => .want fun generics =>
          .want fun range => .pure _
      · exact .need fun callee => .want fun args => .want fun type => .want fun range => .pure _
      · exact .need fun target => .need fun field => .want fun type => .want fun range => .pure _
      · exact .need fun params => .need fun body => .want fun range => .pure _
      · -- A name's type is looked at last, though it is written before the value.
        refine Reads.reorder (show Reads _ [("name", .scalar .text), ("value", .expr), ("body", .expr),
          ("ty", .type), ("range", .orNull .range)] _ from .need fun name => .need fun value =>
            .need fun body => .want fun type => .want fun range => .pure _) fun field => ?_
        simp only [fields, exprFields, List.mem_cons, List.not_mem_nil, or_false]
        tauto
      · exact .need fun guard => .need fun yes => .need fun no => .want fun range => .pure _
      · exact .need fun exprs => .want fun range => .pure _
      · exact .need fun entries => .want fun type => .want fun range => .pure _
      · exact .need fun op => .need fun left => .need fun right => .want fun type =>
          .want fun range => .pure _
      · exact .need fun op => .need fun left => .need fun right => .want fun range => .pure _
      · exact .need fun op => .need fun operand => .want fun type => .want fun range => .pure _
      · exact .need fun operand => .need fun type => .want fun range => .pure _
    · exact ⟨_, .nothing, fun j tagged => absurd (mem_of_required_tag? tagged) known⟩

theorem body_described : Described .body := by
  constructor
  · intro j untagged
    simp only [tag?] at untagged
    rw [decode?, decodeBody?]
    cases isText : Shape.tagText? "kind" j with
    | none => rfl
    | some text =>
        rw [isText] at untagged
        exact expr_described.untagged j untagged
  · intro tag
    obtain ⟨read, reads, same⟩ := expr_described.tagged tag
    refine ⟨read, reads, fun j tagged => ?_⟩
    simp only [tag?] at tagged
    rw [decode?, decodeBody?]
    cases isText : Shape.tagText? "kind" j with
    | none =>
        rw [isText] at tagged
        cases tagged
    | some text =>
        rw [isText] at tagged
        exact same j tagged

/-- Records are what has fields. -/
def IsRecord : Role → Prop
  | .scalar _ | .literal | .list _ | .orNull _ => False
  | _ => True

theorem IsRecord.described {p : Role} (isRecord : p.IsRecord) : p.Described := by
  cases p with
  | type => exact type_described
  | position => exact position_described
  | range => exact range_described
  | attr => exact attr_described
  | member => exact member_described
  | param => exact param_described
  | entry => exact entry_described
  | expr => exact expr_described
  | body => exact body_described
  | declaration => exact declaration_described
  | file => exact file_described
  | scalar | literal | list | orNull => cases isRecord

/-- The key of a record's tag. -/
def tagKeys : Role → List String
  | .type => ["type"]
  | .expr | .body => ["kind"]
  | _ => []

theorem names_eq {p : Role} (isRecord : p.IsRecord) (tag : String) :
    p.names tag = p.tagKeys ++ (p.fields tag).map Prod.fst := by
  cases p with
  | type =>
      simp only [names, fields, ValueType.fields, typeFields]
      split
      case h_8 => simp [tagKeys, *]
      all_goals rfl
  | expr | body =>
      simp only [names, fields, SourceExpr.fields, exprFields]
      split
      case h_15 => simp [tagKeys, *]
      all_goals rfl
  | scalar | literal | list | orNull => cases isRecord
  | _ => rfl

theorem mem_names_of_tagKey {p : Role} {key : String} (isRecord : p.IsRecord) (tag : String)
    (isTag : key ∈ p.tagKeys) : key ∈ p.names tag := by
  rw [names_eq isRecord]
  exact List.mem_append_left _ isTag

theorem tag_present {p : Role} (isRecord : p.IsRecord) {value : Json}
    (result : p.decode? value ≠ none) : ∃ tag, p.tag? value = some tag := by
  cases tagged : p.tag? value with
  | none => exact absurd (isRecord.described.untagged value tagged) result
  | some tag => exact ⟨tag, rfl⟩

theorem tag_once {p : Role} (isRecord : p.IsRecord) {values : List (String × Json)}
    (result : p.decode? (.object values) ≠ none) {key : String} (isTag : key ∈ p.tagKeys) :
    Json.occurrences key values ≤ 1 := by
  obtain ⟨tag, tagged⟩ := tag_present isRecord result
  obtain ⟨read, -, same⟩ := isRecord.described.tagged tag
  rw [same _ tagged] at result
  have fits : (Json.object values).fits (p.names tag) p.closed = true := by
    by_contra unfit
    rw [Bool.not_eq_true] at unfit
    exact result (by rw [unfit]; rfl)
  exact ((Json.fits_object_iff ..).mp fits).1 key (mem_names_of_tagKey isRecord tag isTag)

end Role
end CallReplacement
