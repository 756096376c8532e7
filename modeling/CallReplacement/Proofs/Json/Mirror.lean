import CallReplacement.Proofs.Json.Record

/-!
Reading by a shape and interpreting what was read comes to interpreting the value of the document.
A shape mirrors two interpretations if, of every document without a fault, the first one makes of
what is read what the second makes of the value: where the reader refuses the document, the value has
no interpretation. For records this is put together from their fields, in the order of their shape.
-/

namespace CallReplacement.Json.Shape

section
variable {α β : Type}

/-- What is made of a document that was read is what is made of its value. -/
def Mirrors (shape : Shape) (after direct : Json → Option α) : Prop :=
  ∀ d value, d.Holds value → (shape.read d).toOption.bind after = direct value

def FieldMirrors (field : Field) (after direct : Json → Option α) : Prop :=
  ∀ d value, d.Holds value → (readField? field d).bind after = direct value

theorem Mirrors.field {shape : Shape} {after direct : Json → Option α}
    (mirrors : shape.Mirrors after direct) (name : String) (needed : Bool) :
    FieldMirrors (name, shape, needed, false) after direct :=
  mirrors

/-- A field that may be `null`, if nothing else is read as `null`. -/
theorem Mirrors.orNull {shape : Shape} {after direct : Json → Option α}
    (mirrors : shape.Mirrors after direct)
    (proper : ∀ d read, shape.read d = .ok read → read ≠ .null) (name : String) (needed : Bool) :
    FieldMirrors (name, shape, needed, true) (fun v => v.nullable fun inner _ => after inner)
      (fun v => v.nullable fun inner _ => direct inner) := by
  intro d value holds
  have whole := mirrors d value holds
  by_cases isNull : value = .null
  · subst isNull
    rw [holds.scalar rfl]
    rfl
  · have other : d ≠ .value .null := by
      rintro rfl
      cases holds.settled
      exact isNull rfl
    rw [readField?_of_ne _ other]
    simp only [nullable_of_ne direct isNull, ← whole]
    cases read : shape.read d with
    | error fault => rfl
    | ok found => exact nullable_of_ne after (proper d found read)

/-- Two interpretations that look at the fields of a record alone. -/
structure Mirrored (names : List String) (fields : List Field) (after direct : Json → Option α) :
    Prop where
  read : ∀ value found, (∀ field ∈ fields,
    FieldRead field (value.slot? names field.1) (found.slot? names field.1)) →
      after found = direct value
  fails : ∀ value, ∀ field ∈ fields, FieldFails field (value.slot? names field.1) →
    direct value = none

theorem Mirrored.pure (names : List String) (result : Option α) :
    Mirrored names [] (fun _ => result) fun _ => result :=
  ⟨fun _ _ _ => rfl, by simp⟩

-- A field that must be there and one that may be missing differ in what is made of no value.
theorem Mirrored.behind {names : List String} {name : String} {shape : Shape}
    {needed nullable : Bool} {fields : List Field} {after direct : Json → Option α}
    {next nextDirect : α → Json → Option β} (make : Option (Option α) → Option α)
    (faulty : make (some none) = none) (missing : needed = true → make none = none)
    (first : FieldMirrors (name, shape, needed, nullable) after direct)
    (rest : ∀ a, Mirrored names fields (next a) (nextDirect a)) :
    Mirrored names ((name, shape, needed, nullable) :: fields)
      (fun v => (make ((v.slot? names name).map after)).bind fun a => next a v)
      (fun v => (make ((v.slot? names name).map direct)).bind fun a => nextDirect a v) := by
  constructor
  · intro value found each
    obtain ⟨head, tail⟩ := List.forall_mem_cons.mp each
    have same : (found.slot? names name).map after = (value.slot? names name).map direct := by
      generalize value.slot? names name = before, found.slot? names name = picked at head
      cases head with
      | absent => rfl
      | present holds read =>
          have whole := first _ _ holds
          rw [read, Option.bind_some] at whole
          rw [Option.map_some, Option.map_some, whole]
    rw [same]
    congr 1
    funext a
    exact (rest a).read value found tail
  · intro value field member fails
    rcases List.mem_cons.mp member with rfl | later
    · generalize value.slot? names name = before at fails
      cases fails with
      | missing isNeeded => rw [Option.map_none, missing isNeeded, Option.bind_none]
      | present holds read =>
          have whole := first _ _ holds
          rw [read, Option.bind_none] at whole
          rw [Option.map_some, ← whole, faulty, Option.bind_none]
    · rw [Option.bind_eq_none_iff]
      intro a _
      exact (rest a).fails value field later fails

theorem Mirrored.need {names : List String} {name : String} {shape : Shape} {nullable : Bool}
    {fields : List Field} {after direct : Json → Option α} {next nextDirect : α → Json → Option β}
    (first : FieldMirrors (name, shape, true, nullable) after direct)
    (rest : ∀ a, Mirrored names fields (next a) (nextDirect a)) :
    Mirrored names ((name, shape, true, nullable) :: fields)
      (fun v => (v.required names name fun inner _ => after inner).bind fun a => next a v)
      (fun v => (v.required names name fun inner _ => direct inner).bind fun a => nextDirect a v) := by
  simp only [required_eq_join]
  exact .behind Option.join rfl (fun _ => rfl) first rest

theorem Mirrored.want {names : List String} {name : String} {shape : Shape} {nullable : Bool}
    {missing : α} {fields : List Field} {after direct : Json → Option α}
    {next nextDirect : α → Json → Option β}
    (first : FieldMirrors (name, shape, false, nullable) after direct)
    (rest : ∀ a, Mirrored names fields (next a) (nextDirect a)) :
    Mirrored names ((name, shape, false, nullable) :: fields)
      (fun v => (v.optional names name missing fun inner _ => after inner).bind fun a => next a v)
      (fun v => (v.optional names name missing fun inner _ => direct inner).bind
        fun a => nextDirect a v) := by
  simp only [optional_eq_getD]
  exact .behind (Option.getD · (some missing)) rfl nofun first rest

theorem Mirrored.record {fields : List Field} {closed : Bool} {after direct : Json → Option α}
    (distinct : (fields.map Prod.fst).Nodup)
    (mirrored : Mirrored (fields.map Prod.fst) fields after direct) :
    (Shape.record fields closed).Mirrors
      (fun v => if !v.fits (fields.map Prod.fst) closed then none else after v)
      (fun v => if !v.fits (fields.map Prod.fst) closed then none else direct v) := by
  intro d value holds
  have spec := @read_record_spec fields closed d value distinct holds
  cases read : ((Shape.record fields closed).read d).toOption with
  | none =>
      rw [read] at spec
      cases spec with
      | unfit refused => simp [refused]
      | field member fails => simp [mirrored.fails value _ member fails]
  | some found =>
      rw [read] at spec
      simp [spec.fits, spec.readFits, mirrored.read value found spec.fields]

/-! ## Scalars, lists and alternatives -/

/-- Shapes of scalars that are read one way only. -/
def IsScalar : Shape → Prop
  | .text | .truth | .integer .. => True
  | _ => False

theorem IsScalar.read {shape : Shape} (simple : shape.IsScalar) (value : Json) :
    (shape.read (.value value)).toOption = if shape.admits value then some value else none := by
  have spelled : shape.read (.value value) =
      if shape.admits value then .ok value else .error .misfit := by
    cases shape <;> first | contradiction | rfl
  rw [spelled]
  split <;> rfl

theorem IsScalar.refuses {shape : Shape} (simple : shape.IsScalar) :
    (∀ items tail, (shape.read (.array items tail)).toOption = none) ∧
      ∀ members tail, (shape.read (.object members tail)).toOption = none := by
  cases shape <;> first | contradiction | exact ⟨fun _ _ => rfl, fun _ _ => rfl⟩

theorem Mirrors.scalar {shape : Shape} (simple : shape.IsScalar) {interpret : Json → Option α}
    (refuses : ∀ value, shape.admits value = false → interpret value = none) :
    shape.Mirrors interpret interpret := by
  have container (value : Json) (large : value.isScalar = false) :
      shape.admits value = false := by
    cases shape <;> cases value <;> first | contradiction | rfl
  intro d value holds
  match value with
  | .array values =>
      obtain ⟨items, rfl, -⟩ := holds.array
      rw [simple.refuses.1, refuses _ (container _ rfl), Option.bind_none]
  | .object values =>
      obtain ⟨members, rfl, -⟩ := holds.object
      rw [simple.refuses.2, refuses _ (container _ rfl), Option.bind_none]
  | .null | .bool _ | .int _ | .float _ | .string _ =>
      rw [holds.scalar rfl, simple.read]
      split
      · rfl
      · next other => rw [refuses _ (by simpa using other), Option.bind_none]

theorem readList_cons (item : Shape) (place : Nat) (d : Draft) (rest : List (Nat × Draft)) :
    (readList item ((place, d) :: rest) none).toOption =
      (item.read d).toOption.bind fun value => (readList item rest none).toOption.map (value :: ·) := by
  rw [readList, toOption_bind]
  congr 1
  funext value
  cases readList item rest none <;> rfl

theorem readList_mirrors {item : Shape} {after direct : Json → Option α}
    (mirrors : item.Mirrors after direct) {items : List (Nat × Draft)} {values : List Json}
    (holds : ItemsHold items values) :
    (readList item items none).toOption.bind (fun read => collect (read.map after)) =
      collect (values.map direct) := by
  induction holds with
  | nil => rfl
  | @cons first value rest values head tail ih =>
      obtain ⟨place, d⟩ := first
      rw [readList_cons, List.map_cons, collect_cons, ← mirrors d value head, ← ih]
      cases (item.read d).toOption with
      | none => rfl
      | some read =>
          cases (readList item rest none).toOption with
          | none => simp
          | some others => simp [collect_cons]

theorem Mirrors.list {item : Shape} {after direct : Json → Option α}
    (mirrors : item.Mirrors after direct) :
    (Shape.list item).Mirrors (fun v => v.items? fun inner _ => after inner)
      (fun v => v.items? fun inner _ => direct inner) := by
  intro d value holds
  match value with
  | .array values =>
      obtain ⟨items, rfl, each⟩ := holds.array
      have run := readList_mirrors mirrors each
      simp only [items?_eq]
      rw [← run, Shape.read, toOption_bind]
      cases readList item items none with
      | error fault => rfl
      | ok read => exact items?_eq read after
  | .object values =>
      obtain ⟨members, rfl, -⟩ := holds.object
      rfl
  | .null | .bool _ | .int _ | .float _ | .string _ =>
      rw [holds.scalar rfl]
      rfl

/-! The tag of alternatives is a text when it is read before anything else is known. -/

def tagText? (tag : String) (value : Json) : Option String :=
  (value.slot? [tag] tag).bind text?

theorem readTag_toOption (names : List String) {d : Draft} {value : Json} (holds : d.Holds value) :
    (readTag names d).toOption =
      if value.text?.any names.contains then some value else none := by
  match value with
  | .array values =>
      obtain ⟨items, rfl, -⟩ := holds.array
      rfl
  | .object values =>
      obtain ⟨members, rfl, -⟩ := holds.object
      rfl
  | .string name =>
      rw [holds.scalar rfl, readTag]
      by_cases known : names.contains name = true
      · rw [if_pos known, text?, Option.any_some, if_pos known]
        rfl
      · rw [if_neg known, text?, Option.any_some, if_neg known]
        rfl
  | .null | .bool _ | .int _ | .float _ =>
      rw [holds.scalar rfl]
      rfl

/-- Whether a tag that is a text stands among the members once, given whether it was seen. -/
def TaggedOnce (tag : String) (names : List String) (seen : Bool)
    (values : List (String × Json)) : Prop :=
  occurrences tag values + (if seen then 1 else 0) = 1 ∧
    ∀ value, (tag, value) ∈ values → value.text?.any names.contains

section
variable {tag : String} {names : List String} {key : String} {value : Json}
  {values : List (String × Json)}

theorem not_taggedOnce_of_seen : ¬ TaggedOnce tag names true ((tag, value) :: values) := by
  rintro ⟨count, -⟩
  rw [occurrences_cons, if_pos rfl, if_pos rfl] at count
  omega

theorem taggedOnce_tag_iff : TaggedOnce tag names false ((tag, value) :: values) ↔
    value.text?.any names.contains = true ∧ TaggedOnce tag names true values := by
  simp only [TaggedOnce, occurrences_cons, if_true, Bool.false_eq_true, if_false, Nat.add_zero]
  constructor
  · rintro ⟨count, named⟩
    exact ⟨named value (.head _), count, fun found member => named found (.tail _ member)⟩
  · rintro ⟨first, count, named⟩
    refine ⟨count, fun found member => ?_⟩
    rcases List.mem_cons.mp member with same | later
    · cases same
      exact first
    · exact named found later

theorem taggedOnce_other_iff {seen : Bool} (other : ¬ key = tag) :
    TaggedOnce tag names seen ((key, value) :: values) ↔ TaggedOnce tag names seen values := by
  simp only [TaggedOnce, occurrences_cons, if_neg other, Nat.add_zero]
  refine and_congr_right fun _ => forall_congr' fun found => ?_
  rw [List.mem_cons, Prod.mk.injEq]
  constructor
  · exact fun named member => named (.inr member)
  · rintro named (same | member)
    · exact absurd same.1.symm other
    · exact named member

end

theorem readTagged_tag {tag : String} {names : List String} {seen : Bool} {d : Draft}
    {value : Json} (holds : d.Holds value) (rest : List (Except ReadFault String × Draft)) :
    (readTagged tag names seen ((.ok tag, d) :: rest) none).toOption =
      if seen = false ∧ value.text?.any names.contains then
        (readTagged tag names true rest none).toOption.map ((tag, value) :: ·)
      else none := by
  rw [readTagged.eq_def]
  cases seen with
  | true =>
      rw [if_neg fun both => Bool.noConfusion both.1]
      simp only [if_true]
      rfl
  | false =>
      simp only [if_true, Bool.false_eq_true, if_false, toOption_bind, readTag_toOption names holds,
        true_and]
      split
      · cases readTagged tag names true rest none <;> rfl
      · rfl

theorem readTagged_other {tag key : String} {names : List String} {seen : Bool} {d : Draft}
    {value : Json} (other : ¬ key = tag) (holds : d.Holds value)
    (rest : List (Except ReadFault String × Draft)) :
    (readTagged tag names seen ((.ok key, d) :: rest) none).toOption =
      (readTagged tag names seen rest none).toOption.map ((key, value) :: ·) := by
  rw [readTagged.eq_def]
  simp only [if_neg other, holds.settled]
  cases readTagged tag names seen rest none <;> rfl

/-- Alternatives are read whole, if their tag stands there once and is a text among the names. -/
theorem readTagged_toOption {tag : String} {names : List String} {seen : Bool}
    {members : List (Except ReadFault String × Draft)} {values : List (String × Json)}
    (holds : MembersHold members values) :
    (TaggedOnce tag names seen values →
      (readTagged tag names seen members none).toOption = some values) ∧
    (¬ TaggedOnce tag names seen values →
      (readTagged tag names seen members none).toOption = none) := by
  induction holds generalizing seen with
  | nil => cases seen <;> simp [TaggedOnce, readTagged, Except.toOption]
  | @cons member value rest values head tail ih =>
      obtain ⟨name, draft⟩ := member
      obtain ⟨key, found⟩ := value
      obtain ⟨rfl, holds⟩ := head
      by_cases isTag : key = tag
      · subst isTag
        rw [readTagged_tag holds]
        cases seen with
        | true => exact ⟨fun once => absurd once not_taggedOnce_of_seen, fun _ => rfl⟩
        | false =>
            rw [taggedOnce_tag_iff]
            by_cases named : found.text?.any names.contains = true
            · rw [if_pos ⟨rfl, named⟩]
              constructor
              · rintro ⟨-, once⟩
                rw [ih.1 once, Option.map_some]
              · intro notBoth
                rw [ih.2 fun once => notBoth ⟨named, once⟩, Option.map_none]
            · rw [if_neg fun both => named both.2]
              exact ⟨fun both => absurd both.1 named, fun _ => rfl⟩
      · rw [readTagged_other isTag holds, taggedOnce_other_iff isTag]
        constructor
        · intro once
          rw [ih.1 once, Option.map_some]
        · intro notOnce
          rw [ih.2 notOnce, Option.map_none]

theorem settledItems_of_hold {items : List (Nat × Draft)} {values : List Json}
    (holds : ItemsHold items values) : settledItems items none = .ok values := by
  induction holds with
  | nil => rfl
  | cons head _ ih => rw [settledItems, head.settled, ih]

theorem taggedOnce_iff {tag : String} {names : List String} {values : List (String × Json)} :
    TaggedOnce tag names false values ↔ occurrences tag values ≤ 1 ∧
      ((lookup tag values).bind text?).any names.contains = true := by
  rw [TaggedOnce, if_neg Bool.false_ne_true, Nat.add_zero]
  constructor
  · rintro ⟨count, named⟩
    have present : (lookup tag values).isSome := by
      rw [lookup_isSome_iff]
      by_contra absent
      have none := (occurrences_eq_zero_iff tag values).mpr fun member isMember same =>
        absent ⟨member, isMember, same⟩
      omega
    obtain ⟨value, found⟩ := Option.isSome_iff_exists.mp present
    rw [found]
    exact ⟨Nat.le_of_eq count, named value (mem_of_lookup found)⟩
  · rintro ⟨atMost, named⟩
    cases found : lookup tag values with
    | none =>
        rw [found] at named
        cases named
    | some value =>
        rw [found, Option.bind_some] at named
        have present : occurrences tag values ≠ 0 := by
          intro none
          exact (occurrences_eq_zero_iff tag values).mp none _ (mem_of_lookup found) rfl
        refine ⟨by omega, fun other member => ?_⟩
        have same := lookup_eq_some_of_mem member atMost
        rw [found] at same
        cases same
        exact named

theorem any_of_tag? {names : List String} {value : Json} {name : String}
    (tagged : value.tag? names = some name) (isText : value.text?.isSome) :
    value.text?.any names.contains = true := by
  cases value <;> try cases isText
  next text =>
    rw [tag?] at tagged
    split at tagged
    · assumption
    · cases tagged

/-- Whether the tag of alternatives is a text among the names and, in an object, stands there
once. -/
structure Tagged (tag : String) (names : List String) (value : Json) : Prop where
  named : (tagText? tag value).any names.contains = true
  once : ∀ values, value = .object values → occurrences tag values ≤ 1

theorem readTaggedItems_toOption (names : List String) {place : Nat} {d : Draft} {first : Json}
    {rest : List (Nat × Draft)} {others : List Json} (head : d.Holds first)
    (tail : ItemsHold rest others) :
    (readTaggedItems names ((place, d) :: rest) none).toOption =
      if first.text?.any names.contains then some (first :: others) else none := by
  rw [readTaggedItems, toOption_bind, readTag_toOption names head, settledItems_of_hold tail]
  split <;> rfl

-- The reader takes alternatives whole or refuses them, as their tag is.
theorem read_tagged {tag : String} {names : List String} {d : Draft} {value : Json}
    (holds : d.Holds value) (accepts : Json → Bool) :
    (Tagged tag names value →
      ((Shape.tagged tag names accepts).read d).toOption = (accepted accepts value).toOption) ∧
    (¬ Tagged tag names value → ((Shape.tagged tag names accepts).read d).toOption = none) := by
  cases holds.heldAs with
  | scalar scalar =>
      have untagged : tagText? tag value = none := by
        cases value <;> first | rfl | cases scalar
      have refused : ((Shape.tagged tag names accepts).read (.value value)).toOption = none := rfl
      refine ⟨fun tagged => ?_, fun _ => refused⟩
      have named := tagged.named
      rw [untagged] at named
      cases named
  | array each =>
      cases each with
      | nil =>
          refine ⟨fun tagged => ?_, fun _ => rfl⟩
          cases tagged.named
      | @cons item first rest others head tail =>
          obtain ⟨place, d⟩ := item
          have text : tagText? tag (.array (first :: others)) = first.text? := by
            simp [tagText?, slot?]
          rw [Shape.read, toOption_bind, readTaggedItems_toOption names head tail]
          constructor
          · intro tagged
            rw [if_pos (text ▸ tagged.named), Option.bind_some]
          · intro untagged
            have notNamed : ¬ first.text?.any names.contains = true := by
              intro named
              refine untagged ⟨text ▸ named, fun _ same => ?_⟩
              cases same
            rw [if_neg notNamed, Option.bind_none]
  | @object members values each =>
      obtain ⟨reads, refuses⟩ := @readTagged_toOption tag names false members values each
      rw [Shape.read, toOption_bind]
      constructor
      · intro tagged
        have single := taggedOnce_iff.mpr ⟨tagged.once values rfl, tagged.named⟩
        rw [reads single, Option.bind_some]
      · intro untagged
        rw [refuses, Option.bind_none]
        intro single
        obtain ⟨once, named⟩ := taggedOnce_iff.mp single
        refine untagged ⟨named, fun _ same => ?_⟩
        cases same
        exact once

theorem accepted_bind (interpret : Json → Option α) (value : Json) :
    (accepted (fun v => (interpret v).isSome) value).toOption.bind interpret =
      interpret value := by
  rw [accepted]
  cases result : interpret value with
  | none => rfl
  | some a => exact result

/-- Alternatives are interpreted as they stand, if their tag is a text. -/
theorem Mirrors.tagged {tag : String} {names : List String} {interpret : Json → Option α}
    (known : ∀ value : Json, interpret value ≠ none →
      ∃ name, (value.slot? [tag] tag).bind (tag? names) = some name)
    (once : ∀ values : List (String × Json), interpret (.object values) ≠ none →
      occurrences tag values ≤ 1) :
    (Shape.tagged tag names fun value => (interpret value).isSome).Mirrors interpret
      fun value => (tagText? tag value).bind fun _ => interpret value := by
  intro d value holds
  obtain ⟨reads, refuses⟩ := @read_tagged tag names d value holds fun v => (interpret v).isSome
  by_cases tagged : Tagged tag names value
  · obtain ⟨text, isText, -⟩ := (Option.any_eq_true _ _).mp tagged.named
    rw [reads tagged, accepted_bind]
    simp only [isText, Option.bind_some]
  · rw [refuses tagged, Option.bind_none]
    cases isText : tagText? tag value with
    | none => simp only [isText, Option.bind_none]
    | some text =>
        simp only [isText, Option.bind_some]
        by_contra noResult
        have result : interpret value ≠ none := Ne.symm noResult
        obtain ⟨name, found⟩ := known value result
        obtain ⟨inner, atTag, found⟩ := Option.bind_eq_some_iff.mp found
        have named : (tagText? tag value).any names.contains = true := by
          rw [tagText?, atTag, Option.bind_some] at isText ⊢
          exact any_of_tag? found (Option.isSome_of_eq_some isText)
        exact tagged ⟨named, fun values same => once values (same ▸ result)⟩

/-! ## Documents -/

/-- What is made of a value, as a document of its own and from every text that holds it. -/
structure DecodesTo (shape : Shape) (interpret : Json → Option α) (value : Json)
    (result : Option α) : Prop where
  draft : (shape.read value.draft).toOption.bind interpret = result
  text : ∀ text, (Document.ofText text).draft.settled = .ok value →
    (Document.ofText text).behind = none → (shape.parseAs interpret text).toOption = result

theorem decodesTo_of_holds {shape : Shape} {interpret : Json → Option α} {value : Json}
    {result : Option α}
    (each : ∀ d : Draft, d.Holds value → (shape.read d).toOption.bind interpret = result) :
    shape.DecodesTo interpret value result := by
  refine ⟨each _ (draft_holds value), fun text settled whole => ?_⟩
  rw [← each _ ⟨Document.ofText_plain text, settled⟩, parseAs, parse]
  cases shape.read (Document.ofText text).draft with
  | error fault => rfl
  | ok read =>
      simp only [whole]
      show _ = interpret read
      cases interpret read <;> rfl

theorem Mirrors.decodesTo {shape : Shape} {after direct : Json → Option α}
    (mirrors : shape.Mirrors after direct) (value : Json) :
    shape.DecodesTo after value (direct value) :=
  decodesTo_of_holds fun d holds => mirrors d value holds

end

end CallReplacement.Json.Shape
