import CallReplacement.Proofs.Json.Role
import Mathlib.Logic.Relation

/-!
Changes of a value that its interpretation does not see. The members of an object may come in any
order, and an object that is read as a record may have members that are not fields of it; where a
record is closed, such a member is the end of the interpretation.
-/

namespace CallReplacement

open Json (Shape)

/-- The members of one object, at any depth, are put into another order. -/
inductive Json.Reorders : Json → Json → Prop
  | members {members others : List (String × Json)} :
      members.Perm others → (members.map Prod.fst).Nodup →
      Reorders (.object members) (.object others)
  | member {before after : List (String × Json)} {key : String} {value value' : Json} :
      Reorders value value' →
      Reorders (.object (before ++ (key, value) :: after))
        (.object (before ++ (key, value') :: after))
  | item {before after : List Json} {value value' : Json} :
      Reorders value value' →
      Reorders (.array (before ++ value :: after)) (.array (before ++ value' :: after))

/-- A member that is not a field is added to one object, at any depth, in a role of the given
kind. -/
inductive Role.Extended (site : Role → Prop) : Role → Json → Json → Prop
  | stranger {p : Role} {before after : List (String × Json)} {tag key : String} {value : Json} :
      site p → p.tag? (.object (before ++ after)) = some tag → key ∉ p.names tag →
      Extended site p (.object (before ++ after)) (.object (before ++ (key, value) :: after))
  | member {p q : Role} {before after : List (String × Json)} {tag key : String}
      {value value' : Json} :
      p.tag? (.object (before ++ (key, value) :: after)) = some tag → (key, q) ∈ p.fields tag →
      Extended site q value value' →
      Extended site p (.object (before ++ (key, value) :: after))
        (.object (before ++ (key, value') :: after))
  | place {p q : Role} {before after : List Json} {tag key : String} {value value' : Json} :
      p.tag? (.array (before ++ value :: after)) = some tag → (key, q) ∈ p.fields tag →
      before.length = (p.names tag).idxOf key → Extended site q value value' →
      Extended site p (.array (before ++ value :: after)) (.array (before ++ value' :: after))
  | item {q : Role} {before after : List Json} {value value' : Json} :
      Extended site q value value' →
      Extended site (.list q) (.array (before ++ value :: after)) (.array (before ++ value' :: after))
  | orNull {q : Role} {value value' : Json} :
      Extended site q value value' → Extended site (.orNull q) value value'

namespace Json

theorem choice?_perm {members others : List (String × Json)} (perm : members.Perm others) :
    (Json.object members).choice? = (Json.object others).choice? := by
  match members, others with
  | [], others => rw [List.nil_perm.mp perm]
  | [only], others => rw [List.singleton_perm.mp perm]
  | first :: second :: members, [] => cases perm.length_eq
  | first :: second :: members, [only] => cases perm.length_eq
  | first :: second :: members, first' :: second' :: others => rfl

theorem saysNothing_reorders {value value' : Json} (reorders : value.Reorders value') :
    value.saysNothing = value'.saysNothing := by
  have filled {before after : List (String × Json)} {member : String × Json} :
      (Json.object (before ++ member :: after)).saysNothing = false := by
    cases before <;> rfl
  cases reorders with
  | @members members others perm distinct =>
      match members, others with
      | [], others => rw [List.nil_perm.mp perm]
      | first :: members, [] => cases perm.length_eq
      | first :: members, other :: others => rfl
  | member inner => rw [filled, filled]
  | item inner => rfl

theorem choice?_change {before after : List (String × Json)} {key : String} {value value' : Json}
    (same : value.saysNothing = value'.saysNothing) :
    (Json.object (before ++ (key, value) :: after)).choice? =
      (Json.object (before ++ (key, value') :: after)).choice? := by
  match before, after with
  | [], [] => simp only [List.nil_append, choice?, same]
  | [], next :: after => rfl
  | [first], after => rfl
  | first :: second :: before, after => rfl

end Json

namespace Literal

theorem ofJson?_object_congr {members others : List (String × Json)}
    (fits : (Json.object members).fits ["type", "value"] false =
      (Json.object others).fits ["type", "value"] false)
    (slots : ∀ name ∈ ["type", "value"], ∀ s : Scalar,
      (Json.lookup name members).map s.read? = (Json.lookup name others).map s.read?) :
    Literal.ofJson? (.object members) = Literal.ofJson? (.object others) := by
  have spelled (members : List (String × Json)) : Literal.ofJson? (.object members) =
      if !(Json.object members).fits ["type", "value"] false then none
      else ((Json.lookup "type" members).map (Scalar.alternative.read?)).join.bind fun tag =>
        ((Json.lookup "value" members).map (Scalar.literalValue tag).read?).getD (Literal.bare? tag) := by
    rw [Literal.ofJson?, Json.fits, Bool.not_false, Bool.true_or, Bool.and_true]
    congr 1
    cases Json.lookup "type" members with
    | none => rfl
    | some type =>
        show (type.choice?.bind fun tag => _) = type.choice?.bind _
        congr 1
        funext tag
        cases Json.lookup "value" members <;> rfl
  rw [spelled, spelled, fits, slots "type" (by simp) .alternative]
  simp only [slots "value" (by simp)]

theorem ofJson?_array_congr {before after : List Json} {value value' : Json}
    (same : ∀ s : Scalar, s.read? value = s.read? value') :
    Literal.ofJson? (.array (before ++ value :: after)) =
      Literal.ofJson? (.array (before ++ value' :: after)) := by
  have tag : value.tag? Literal.tags = value'.tag? Literal.tags := same (.tag Literal.tags)
  match before, after with
  | [], [content] => simp only [List.nil_append, Literal.ofJson?, tag]
  | [kind], [] =>
      have content (name : String) : Literal.ofValue? name value = Literal.ofValue? name value' :=
        same (.literalValue name)
      simp only [List.singleton_append, Literal.ofJson?, content]
  | [], [] => rfl
  | [], first :: second :: after => rfl
  | [kind], first :: after => rfl
  | [first, second], after => rfl
  | first :: second :: third :: before, after => rfl

end Literal

namespace Role

/-! ## What an interpretation goes by -/

theorem names_nodup {p : Role} (isRecord : p.IsRecord) (tag : String) : (p.names tag).Nodup := by
  cases p with
  | type =>
      simp only [names, ValueType.fields]
      split <;> decide
  | expr | body =>
      simp only [names, SourceExpr.fields]
      split <;> decide
  | scalar | literal | list | orNull => cases isRecord
  | _ => simp only [names]; decide

theorem mem_names {p : Role} (isRecord : p.IsRecord) {tag key : String} {q : Role}
    (field : (key, q) ∈ p.fields tag) : key ∈ p.names tag := by
  rw [names_eq isRecord]
  exact List.mem_append_right _ (List.mem_map_of_mem field)

theorem not_mem_tagKeys {p : Role} (isRecord : p.IsRecord) {tag key : String} {q : Role}
    (field : (key, q) ∈ p.fields tag) : key ∉ p.tagKeys := by
  have distinct := names_nodup isRecord tag
  rw [names_eq isRecord] at distinct
  intro isTag
  exact (List.nodup_append'.mp distinct).2.2 isTag (List.mem_map_of_mem field)

/-- A field is read in one way. -/
theorem field_unique {p : Role} (isRecord : p.IsRecord) {tag key : String} {q r : Role}
    (field : (key, q) ∈ p.fields tag) (other : (key, r) ∈ p.fields tag) : q = r := by
  have distinct := names_nodup isRecord tag
  rw [names_eq isRecord] at distinct
  have same := List.inj_on_of_nodup_map (List.nodup_append'.mp distinct).2.1 field other rfl
  exact congrArg Prod.snd same

theorem isRecord_or_literal {p : Role} {j : Json} {tag : String} (tagged : p.tag? j = some tag) :
    p.IsRecord ∨ p = .literal := by
  cases p <;> first | cases tagged; done | exact .inl trivial | exact .inr rfl

theorem isRecord_of_field {p q : Role} {tag key : String} (field : (key, q) ∈ p.fields tag) :
    p.IsRecord := by
  cases p <;> first | exact trivial | cases field

theorem tag?_congr {p : Role} {j j' : Json}
    (same : ∀ key ∈ p.tagKeys, ∀ s : Scalar,
      (j.slot? [key] key).map s.read? = (j'.slot? [key] key).map s.read?) :
    p.tag? j = p.tag? j' := by
  have join {key : String} (s : Scalar) (member : key ∈ p.tagKeys) :
      (j.slot? [key] key).bind s.read? = (j'.slot? [key] key).bind s.read? := by
    have spelled (j : Json) : (j.slot? [key] key).bind s.read? =
        ((j.slot? [key] key).map s.read?).join := by
      cases j.slot? [key] key <;> rfl
    rw [spelled, spelled, same key member s]
  cases p with
  | type =>
      simp only [tag?, Json.required_eq]
      exact join (.tag ValueType.tags) (.head _)
  | expr =>
      simp only [tag?, Json.required_eq]
      exact join (.tag SourceExpr.tags) (.head _)
  | body =>
      have text : Shape.tagText? "kind" j = Shape.tagText? "kind" j' := join .text (.head _)
      have tag : (j.slot? ["kind"] "kind").bind (Json.tag? SourceExpr.tags) =
        (j'.slot? ["kind"] "kind").bind (Json.tag? SourceExpr.tags) :=
          join (.tag SourceExpr.tags) (.head _)
      simp only [tag?, Json.required_eq, text, tag]
  | _ => rfl

/-- Records are read alike if their tags and fields are. -/
theorem decode?_congr {p : Role} (isRecord : p.IsRecord) {j j' : Json}
    (tags : p.tag? j = p.tag? j')
    (fits : ∀ tag, p.tag? j = some tag →
      j.fits (p.names tag) p.closed = j'.fits (p.names tag) p.closed)
    (slots : ∀ tag, p.tag? j = some tag → ∀ field ∈ p.fields tag,
      (j.slot? (p.names tag) field.1).map field.2.decode? =
        (j'.slot? (p.names tag) field.1).map field.2.decode?) :
    p.decode? j = p.decode? j' := by
  cases tagged : p.tag? j with
  | none => rw [isRecord.described.untagged j tagged, isRecord.described.untagged j' (tags ▸ tagged)]
  | some tag =>
      obtain ⟨read, reads, same⟩ := isRecord.described.tagged tag
      rw [same j tagged, same j' (tags ▸ tagged), fits tag tagged,
        reads.same j j' (slots tag tagged)]

/-- A record cannot be read if one of its fields cannot. -/
theorem decode?_eq_none {p : Role} (isRecord : p.IsRecord) {j : Json} {tag : String}
    (tagged : p.tag? j = some tag)
    (faulty : j.fits (p.names tag) p.closed = true → ∃ field ∈ p.fields tag, ∃ value,
      j.slot? (p.names tag) field.1 = some value ∧ field.2.decode? value = none) :
    p.decode? j = none := by
  obtain ⟨read, reads, same⟩ := isRecord.described.tagged tag
  rw [same j tagged]
  cases fits : j.fits (p.names tag) p.closed with
  | false => rfl
  | true =>
      obtain ⟨field, member, value, found, refused⟩ := faulty fits
      exact reads.fails j field member value found refused

/-! ## Another order -/

/-- Two values that no role tells apart. -/
structure Alike (j j' : Json) : Prop where
  scalar : ∀ s : Scalar, s.read? j = s.read? j'
  literal : Literal.ofJson? j = Literal.ofJson? j'
  fits : ∀ names closed, j.fits names closed = j'.fits names closed
  slot : ∀ names name, ∀ p : Role,
    (j.slot? names name).map p.decode? = (j'.slot? names name).map p.decode?
  list : ∀ p : Role, (Role.list p).decode? j = (Role.list p).decode? j'
  notNull : j ≠ .null ∧ j' ≠ .null

theorem Alike.decode? {j j' : Json} (alike : Alike j j') (p : Role) : p.decode? j = p.decode? j' := by
  have record {p : Role} (isRecord : p.IsRecord) : p.decode? j = p.decode? j' := by
    have tags : p.tag? j = p.tag? j' :=
      tag?_congr fun key _ s => alike.slot [key] key (.scalar s)
    exact decode?_congr isRecord tags (fun tag _ => alike.fits _ _)
      fun tag _ field _ => alike.slot _ _ field.2
  induction p with
  | scalar s => exact alike.scalar s
  | literal => exact alike.literal
  | list item => exact alike.list item
  | orNull inner ih =>
      rw [Role.decode?, Role.decode?, Json.nullable_of_ne _ alike.notNull.1,
        Json.nullable_of_ne _ alike.notNull.2, ih]
  | _ => exact record trivial

theorem alike_of_reorders {j j' : Json} (reorders : j.Reorders j') : Alike j j' := by
  induction reorders with
  | @members members others perm distinct =>
      have found := Json.lookup_perm perm distinct
      have fits := Json.fits_object_congr (perm.map Prod.fst)
      exact {
        scalar := fun s => s.read?_object (Json.choice?_perm perm)
        literal := Literal.ofJson?_object_congr (fits _ _) fun name _ s => by rw [found]
        fits := fits
        slot := fun _ name p => by rw [Json.slot?, Json.slot?, found]
        list := fun _ => rfl
        notNull := ⟨by simp, by simp⟩ }
  | @member before after key value value' inner alike =>
      have slot (name : String) (p : Role) :
          (Json.lookup name (before ++ (key, value) :: after)).map p.decode? =
            (Json.lookup name (before ++ (key, value') :: after)).map p.decode? := by
        rcases Json.lookup_change name with same | ⟨-, found, found'⟩
        · rw [same]
        · rw [found, found', Option.map_some, Option.map_some, alike.decode?]
      exact {
        scalar := fun s => s.read?_object (Json.choice?_change (Json.saysNothing_reorders inner))
        literal := Literal.ofJson?_object_congr (Json.fits_change _ _)
          fun name _ s => slot name (.scalar s)
        fits := Json.fits_change
        slot := fun _ => slot
        list := fun _ => rfl
        notNull := ⟨by simp, by simp⟩ }
  | @item before after value value' inner alike =>
      exact {
        scalar := fun s => by rw [s.read?_array, s.read?_array]
        literal := Literal.ofJson?_array_congr alike.scalar
        fits := fun names closed => by simp [Json.fits]
        slot := fun names name p => by
          simp only [Json.slot?]
          rcases Json.getElem?_change (names.idxOf name) with same | ⟨-, found, found'⟩
          · rw [same]
          · rw [found, found', Option.map_some, Option.map_some, alike.decode?]
        list := fun p => by
          simp only [Role.decode?, Json.items?_eq, List.map_append, List.map_cons, alike.decode? p]
          rfl
        notNull := ⟨by simp, by simp⟩ }

/-- The order of members does not count, at any depth. -/
theorem decode?_of_reorders {j j' : Json} (reorders : Relation.ReflTransGen Json.Reorders j j')
    (p : Role) : p.decode? j = p.decode? j' := by
  induction reorders with
  | refl => rfl
  | tail _ last ih => rw [ih, (alike_of_reorders last).decode?]

/-! ## Other members -/

section
variable {site : Role → Prop} {p : Role} {j j' : Json}

theorem Extended.ne_null (extended : Extended site p j j') : j ≠ .null ∧ j' ≠ .null := by
  induction extended with
  | orNull _ ih => exact ih
  | _ => exact ⟨by simp, by simp⟩

theorem Extended.tag? (extended : Extended site p j j') : p.tag? j = p.tag? j' := by
  cases extended with
  | @stranger p before after tag key value _ tagged unknown =>
      rcases isRecord_or_literal tagged with isRecord | rfl
      · refine tag?_congr fun name isTag s => ?_
        have other : key ≠ name := by
          rintro rfl
          exact unknown (mem_names_of_tagKey isRecord tag isTag)
        rw [Json.slot?, Json.slot?, Json.lookup_insert other]
      · rfl
  | @member p q before after tag key value value' tagged field _ =>
      have isRecord := isRecord_of_field field
      refine tag?_congr fun name isTag s => ?_
      rcases @Json.lookup_change before after key value value' name with same | ⟨rfl, -, -⟩
      · rw [Json.slot?, Json.slot?, same]
      · exact absurd isTag (not_mem_tagKeys isRecord field)
  | @place p q before after tag key value value' tagged field place _ =>
      have isRecord := isRecord_of_field field
      refine tag?_congr fun name isTag s => ?_
      simp only [Json.slot?]
      rcases Json.getElem?_change ([name].idxOf name) with same | ⟨first, -, -⟩
      · rw [same]
      · -- The tag comes first in an array, and a field behind it.
        have keys : p.tagKeys = [name] := by
          cases p <;> simp_all [tagKeys]
        have other : name ≠ key := by
          rintro rfl
          exact not_mem_tagKeys isRecord field isTag
        rw [names_eq isRecord, keys, List.singleton_append, List.idxOf_cons_ne _ other, ← first,
          List.idxOf_cons_self] at place
        cases place
  | item _ => rfl
  | orNull _ => rfl

theorem closed_eq_false (isRecord : p.IsRecord) (other : p ≠ .member) : p.closed = false := by
  cases p <;> first | rfl | contradiction

/-- Members that are not fields are passed over, where a record may have them. -/
theorem decode?_of_extended (extended : Extended (· ≠ .member) p j j') :
    p.decode? j = p.decode? j' := by
  have tags := extended.tag?
  induction extended with
  | @stranger p before after tag key value lenient tagged unknown =>
      rcases isRecord_or_literal tagged with isRecord | rfl
      · refine decode?_congr isRecord tags (fun tag' tagged' => ?_) fun tag' tagged' field member => ?_
        · rw [tagged] at tagged'
          cases tagged'
          rw [closed_eq_false isRecord lenient, Json.fits_insert unknown]
        · rw [tagged] at tagged'
          cases tagged'
          have other : key ≠ field.1 := by
            rintro rfl
            exact unknown (mem_names isRecord member)
          rw [Json.slot?, Json.slot?, Json.lookup_insert other]
      · refine Literal.ofJson?_object_congr (Json.fits_insert unknown).symm fun name isName s => ?_
        have other : key ≠ name := by
          rintro rfl
          exact unknown isName
        rw [Json.lookup_insert other]
  | @member p q before after tag key value value' tagged field inner ih =>
      have isRecord := isRecord_of_field field
      refine decode?_congr isRecord tags (fun _ _ => Json.fits_change _ _)
        fun tag' tagged' other member => ?_
      rw [tagged] at tagged'
      cases tagged'
      rw [Json.slot?, Json.slot?]
      rcases @Json.lookup_change before after key value value' other.1 with same | ⟨same, found, found'⟩
      · rw [same]
      · obtain ⟨name, r⟩ := other
        cases same
        cases field_unique isRecord field member
        rw [found, found', Option.map_some, Option.map_some, ih inner.tag?]
  | @place p q before after tag key value value' tagged field place inner ih =>
      have isRecord := isRecord_of_field field
      refine decode?_congr isRecord tags (fun _ _ => by simp [Json.fits])
        fun tag' tagged' other member => ?_
      rw [tagged] at tagged'
      cases tagged'
      simp only [Json.slot?]
      rcases @Json.getElem?_change before after value value' ((p.names tag).idxOf other.1) with
        same | ⟨same, found, found'⟩
      · rw [same]
      · obtain ⟨name, r⟩ := other
        have sameName : name = key := by
          rw [place] at same
          exact (List.idxOf_inj (mem_names isRecord member)).mp same
        cases sameName
        cases field_unique isRecord field member
        rw [found, found', Option.map_some, Option.map_some, ih inner.tag?]
  | @item q before after value value' inner ih =>
      simp only [Role.decode?, Json.items?_eq, List.map_append, List.map_cons, ih inner.tag?]
      rfl
  | @orNull q value value' inner ih =>
      obtain ⟨full, full'⟩ := inner.ne_null
      rw [Role.decode?, Role.decode?, Json.nullable_of_ne _ full, Json.nullable_of_ne _ full',
        ih inner.tag?]

/-- A member reference with a member that is not a field cannot be read, and nothing around it. -/
theorem decode?_eq_none_of_extended (extended : Extended (· = .member) p j j') :
    p.decode? j' = none := by
  have tags := extended.tag?
  induction extended with
  | @stranger p before after tag key value isMember tagged unknown =>
      subst isMember
      have isRecord : Role.member.IsRecord := trivial
      refine decode?_eq_none isRecord (tags ▸ tagged) fun fits => ?_
      rw [closed, Json.not_fits_insert unknown] at fits
      cases fits
  | @member p q before after tag key value value' tagged field inner ih =>
      have isRecord := isRecord_of_field field
      refine decode?_eq_none isRecord (tags ▸ tagged) fun fits =>
        ⟨(key, q), field, value', ?_, ih inner.tag?⟩
      have once := ((Json.fits_object_iff ..).mp fits).1 key (mem_names isRecord field)
      rw [Json.slot?]
      exact Json.lookup_eq_some_of_mem (by simp) once
  | @place p q before after tag key value value' tagged field place inner ih =>
      have isRecord := isRecord_of_field field
      refine decode?_eq_none isRecord (tags ▸ tagged) fun _ =>
        ⟨(key, q), field, value', ?_, ih inner.tag?⟩
      simp [Json.slot?, ← place]
  | @item q before after value value' inner ih =>
      simp only [Role.decode?, Json.items?_eq, List.map_append, List.map_cons, ih inner.tag?]
      exact Json.collect_eq_none
  | @orNull q value value' inner ih =>
      rw [Role.decode?, Json.nullable_of_ne _ inner.ne_null.2, ih inner.tag?]
      rfl

end

end Role
end CallReplacement
