import CallReplacement.Proofs.Json.Shapes

/-!
Types, ranges and literals are read as what they were written from, inside of other values and as
documents of their own. A type without arguments, a range without a file and a literal without a
value are written without the field, which is restored. Floats are left out: the number that is
written may be another one.
-/

namespace CallReplacement

open Json (Draft Shape)

attribute [local simp] Json.required_eq Json.optional_eq Json.slot? Json.lookup Json.fits
  Json.noRepeats Json.tag? Json.text?

namespace ValueType

attribute [local simp] tags fields

theorem named?_key (kind : NumberKind) :
    (Json.string kind.key).named? NumberKind.all NumberKind.key = some kind := by
  cases kind <;> decide

mutual

theorem ofJson?_toJson (t : ValueType) : ofJson? t.toJson = some t := by
  match t with
  | .any | .unit | .boolean | .char | .string =>
      rw [toJson, ofJson?]
      rfl
  | .number kind =>
      rw [toJson, ofJson?]
      simp [named?_key]
  | .array element =>
      rw [toJson, ofJson?]
      simp [ofJson?_toJson element]
  | .option inner =>
      rw [toJson, ofJson?]
      simp [ofJson?_toJson inner]
  | .tuple elements =>
      rw [toJson, ofJson?]
      simp [Json.items?_eq, collect_allToJson elements]
  | .lambda params result =>
      rw [toJson, ofJson?]
      simp [Json.items?_eq, collect_allToJson params, ofJson?_toJson result]
  | .parameter name =>
      rw [toJson, ofJson?]
      simp
  | .declared name [] =>
      rw [toJson, allToJson, ofJson?]
      simp
  | .declared name (first :: rest) =>
      have generics := collect_allToJson (first :: rest)
      rw [allToJson, List.map_cons] at generics
      rw [toJson, allToJson, ofJson?]
      simp [Json.items?_eq, generics]

theorem collect_allToJson (ts : List ValueType) :
    Json.collect ((allToJson ts).map ofJson?) = some ts := by
  match ts with
  | [] => rfl
  | t :: rest =>
      rw [allToJson, List.map_cons, ofJson?_toJson t, Json.collect, collect_allToJson rest]
      rfl

end

theorem tagText?_toJson (t : ValueType) : (Shape.tagText? "type" t.toJson).isSome := by
  cases t <;> rfl

end ValueType

namespace Position

theorem uint32?_toNat (n : UInt32) : (Json.int n.toNat).uint32? = some n := by
  have bound : (n.toNat : Int) < 0x100000000 := by
    have := n.toNat_lt
    omega
  simp [Json.uint32?, bound]

theorem ofJson?_of_fields {first second : Json} {line column : UInt32}
    (hasLine : first.uint32? = some line) (hasColumn : second.uint32? = some column) :
    ofJson? (.object [("line", first), ("column", second)]) = some ⟨line, column⟩ := by
  rw [ofJson?]
  simp [fields, hasLine, hasColumn]

theorem ofJson?_toJson (p : Position) : ofJson? p.toJson = some p :=
  ofJson?_of_fields (uint32?_toNat p.line) (uint32?_toNat p.column)

end Position

namespace SourceRange

theorem ofJson?_of_fields {first second : Json} {start stop : Position} (file : Option String)
    (hasStart : Position.ofJson? first = some start) (hasStop : Position.ofJson? second = some stop) :
    ofJson? (.object ((match file with
      | some file => [("file", .string file)]
      | none => []) ++ [("start", first), ("end", second)])) = some ⟨file, start, stop⟩ := by
  rw [ofJson?]
  cases file with
  | none => simp [fields, hasStart, hasStop]
  | some name => simp [fields, hasStart, hasStop, Json.nullable]

theorem ofJson?_toJson (r : SourceRange) : ofJson? r.toJson = some r :=
  ofJson?_of_fields r.file (Position.ofJson?_toJson r.start) (Position.ofJson?_toJson r.stop)

end SourceRange

namespace Literal

theorem int64?_toInt (n : Int64) : (Json.int n.toInt).int64? = some n := by
  have low := n.le_toInt
  have high := n.toInt_lt
  rw [Json.int64?, if_pos ⟨by omega, by omega⟩, Int64.ofInt_toInt]

theorem ofJson?_toJson (l : Literal) (notFloat : ∀ value, l ≠ .float value) :
    ofJson? l.toJson = some l := by
  cases l with
  | float value => exact absurd rfl (notFloat value)
  | int value => simp [toJson, ofJson?, Json.choice?, ofValue?, int64?_toInt]
  | char value => simp [toJson, ofJson?, Json.choice?, ofValue?, Json.char?]
  | null | unit | bool | string => simp [toJson, ofJson?, Json.choice?, ofValue?, bare?, Json.truth?]

end Literal

/-! ## Literals as documents -/

namespace Json.Shape

section
variable {tag value name : String} {shapes : List (String × Shape)} {accepts : Json → Bool}

theorem scalar_of_admits {shape : Shape} {content : Json} (admitted : shape.admits content = true) :
    shape.scalar content = .ok content := by
  unfold scalar
  rw [if_pos admitted]

theorem read_choice_of_listed {shape : Shape} (listed : List.lookup name shapes = some shape) :
    (Shape.choice (shapes.map Prod.fst)).read (.value (.string name)) = .ok (.string name) := by
  have known : (shapes.map Prod.fst).contains name = true := by
    obtain ⟨before, after, rfl, -⟩ := List.lookup_eq_some_iff.mp listed
    simp
  exact @scalar_of_admits (.choice (shapes.map Prod.fst)) _ known

theorem read_adjacent_bare {shape : Shape} (listed : List.lookup name shapes = some shape)
    (accepted : accepts (.object [(tag, .string name)]) = true) :
    (Shape.adjacent tag value shapes accepts).read
        (.object [(.ok tag, .value (.string name))] none) = .ok (.object [(tag, .string name)]) := by
  rw [Shape.read, readAdjacent.eq_def]
  simp only [if_true, read_choice_of_listed listed, Option.isSome_none, Bool.false_eq_true,
    if_false, bind, Except.bind]
  rw [readAdjacent.eq_def]
  simp [pure, Except.pure, Shape.accepted, accepted]

/-- A tag and the value behind it are read as they stand, if the value has the shape for the tag. -/
theorem read_adjacent_pair {content : Json} {shape : Shape} (apart : value ≠ tag)
    (listed : List.lookup name shapes = some shape)
    (reads : shape.read (.value content) = .ok content)
    (accepted : accepts (.object [(tag, .string name), (value, content)]) = true) :
    (Shape.adjacent tag value shapes accepts).read
        (.object [(.ok tag, .value (.string name)), (.ok value, .value content)] none) =
      .ok (.object [(tag, .string name), (value, content)]) := by
  have chosen : shapeOf? shapes (some (.string name)) = some shape := listed
  rw [Shape.read, readAdjacent.eq_def]
  simp only [if_true, read_choice_of_listed listed, Option.isSome_none, Bool.false_eq_true,
    if_false, bind, Except.bind]
  rw [readAdjacent.eq_def]
  simp only [if_neg apart, if_true, chosen, reads, Option.isSome_none, Bool.false_eq_true, if_false,
    bind, Except.bind]
  rw [readAdjacent.eq_def]
  simp [pure, Except.pure, Shape.accepted, accepted]

end

end Json.Shape

theorem holds_scalars {d : Draft} {members : List (String × Json)}
    (holds : d.Holds (.object members)) (scalars : ∀ member ∈ members, member.2.isScalar) :
    d = .object (members.map fun member => (.ok member.1, .value member.2)) none := by
  obtain ⟨drafts, rfl, each⟩ := holds.object
  have same : drafts = members.map fun member => (.ok member.1, .value member.2) := by
    clear holds
    induction each with
    | nil => rfl
    | @cons draft member drafts members head tail ih =>
        obtain ⟨scalar, others⟩ := List.forall_mem_cons.mp scalars
        obtain ⟨key, part⟩ := draft
        obtain ⟨rfl, holds⟩ := head
        rw [List.map_cons, ← ih others]
        rw [show part = .value member.2 from holds.scalar scalar]
  rw [same]

namespace Literal

theorem read_bare {d : Draft} {l : Literal} {name : String} {needed : Shape}
    (written : l.toJson = .object [("type", .string name)])
    (listed : List.lookup name valueShapes = some needed)
    (nested : ofJson? l.toJson = some l) (holds : d.Holds l.toJson) :
    (shape.read d).toOption.bind ofJson? = some l := by
  rw [written] at holds nested
  rw [holds_scalars holds (by simp [Json.isScalar])]
  have read : shape.read (.object [(.ok "type", .value (.string name))] none) =
      .ok (.object [("type", .string name)]) :=
    Shape.read_adjacent_bare listed (by rw [nested]; rfl)
  rw [List.map_singleton, read]
  exact nested

theorem read_valued {d : Draft} {l : Literal} {name : String} {content : Json} {needed : Shape}
    (written : l.toJson = .object [("type", .string name), ("value", content)])
    (listed : List.lookup name valueShapes = some needed) (scalar : content.isScalar)
    (reads : needed.read (.value content) = .ok content)
    (nested : ofJson? l.toJson = some l) (holds : d.Holds l.toJson) :
    (shape.read d).toOption.bind ofJson? = some l := by
  rw [written] at holds nested
  rw [holds_scalars holds (List.forall_mem_cons.mpr ⟨rfl, by simpa using scalar⟩)]
  have read : shape.read
      (.object [(.ok "type", .value (.string name)), (.ok "value", .value content)] none) =
      .ok (.object [("type", .string name), ("value", content)]) :=
    Shape.read_adjacent_pair (by decide) listed reads (by rw [nested]; rfl)
  rw [List.map_cons, List.map_singleton, read]
  exact nested

theorem read_of_holds {d : Draft} {l : Literal} (notFloat : ∀ value, l ≠ .float value)
    (holds : d.Holds l.toJson) : (shape.read d).toOption.bind ofJson? = some l := by
  have nested := ofJson?_toJson l notFloat
  cases l with
  | float value => exact absurd rfl (notFloat value)
  | null => exact read_bare rfl rfl nested holds
  | unit => exact read_bare rfl rfl nested holds
  | bool value => exact read_valued rfl rfl rfl rfl nested holds
  | string value => exact read_valued rfl rfl rfl rfl nested holds
  | char value =>
      have admitted : Shape.char.admits (.string (String.singleton value)) = true := by
        simp [Shape.admits, Json.char?]
      exact read_valued rfl rfl rfl (Shape.scalar_of_admits admitted) nested holds
  | int value =>
      have low := value.le_toInt
      have high := value.toInt_lt
      have admitted : (Shape.integer (-0x8000000000000000) 0x7FFFFFFFFFFFFFFF).admits
          (.int value.toInt) = true := by
        simp only [Shape.admits, Bool.and_eq_true, decide_eq_true_iff]
        omega
      exact read_valued rfl rfl rfl (Shape.scalar_of_admits admitted) nested holds

end Literal

/-- What is written of a value is read as that value, inside of others and as a document. -/
structure RoundTrips {α : Type} (shape : Shape) (interpret : Json → Option α) (written : Json)
    (value : α) : Prop where
  nested : interpret written = some value
  alone : shape.DecodesTo interpret written (some value)

/-- Types, ranges and literals other than floats are restored from what is written of them, and a
field is left out exactly where there is nothing to write into it. -/
theorem written_round_trips :
    (∀ t : ValueType, RoundTrips ValueType.shape ValueType.ofJson? t.toJson t) ∧
    (∀ r : SourceRange, RoundTrips SourceRange.shape SourceRange.ofJson? r.toJson r) ∧
    (∀ l : Literal, (∀ value, l ≠ .float value) →
      RoundTrips Literal.shape Literal.ofJson? l.toJson l) ∧
    (∀ name generics, (ValueType.declared name generics).toJson.slot?
      (ValueType.fields "declared") "generic_args" = none ↔ generics = []) ∧
    (∀ r : SourceRange, r.toJson.slot? SourceRange.fields "file" = none ↔ r.file = none) ∧
    ∀ l : Literal, l.toJson.slot? ["type", "value"] "value" = none ↔ l = .null ∨ l = .unit := by
  refine ⟨fun t => ⟨t.ofJson?_toJson, ?_⟩, fun r => ⟨r.ofJson?_toJson, ?_⟩,
    fun l notFloat => ⟨l.ofJson?_toJson notFloat, ?_⟩, fun name generics => ?_, fun r => ?_, fun l => ?_⟩
  · have decodes := ValueType.shape_mirrors.decodesTo t.toJson
    obtain ⟨text, isText⟩ := Option.isSome_iff_exists.mp t.tagText?_toJson
    simp only [isText, Option.bind_some, t.ofJson?_toJson] at decodes
    exact decodes
  · have decodes := SourceRange.shape_mirrors.decodesTo r.toJson
    rwa [r.ofJson?_toJson] at decodes
  · exact Shape.decodesTo_of_holds fun d holds => Literal.read_of_holds notFloat holds
  · cases generics <;> simp [ValueType.toJson, ValueType.allToJson]
  · cases file : r.file <;> simp [SourceRange.toJson, file]
  · cases l <;> simp [Literal.toJson]

theorem written_round_trips_least : (∀ value, Literal.int Int64.minValue ≠ .float value) ∧
    RoundTrips Literal.shape Literal.ofJson? (Literal.int Int64.minValue).toJson
      (.int Int64.minValue) :=
  ⟨nofun, written_round_trips.2.2.1 (.int Int64.minValue) nofun⟩

end CallReplacement
