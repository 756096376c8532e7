import CallReplacement.Json.Shapes
import CallReplacement.Proofs.Json.Held
import CallReplacement.Proofs.Json.Members

/-!
What is read of a record. A document without a fault is read as a record exactly if its value can be
one, every field that has to be there is, and each field that is there can be read; then each field
is found in what was read where it is found in the value.
-/

namespace CallReplacement.Json

theorem toOption_bind {ε α β : Type} (x : Except ε α) (f : α → Except ε β) :
    (x >>= f).toOption = x.toOption.bind fun a => (f a).toOption := by
  cases x <;> rfl

namespace Shape

/-- A field of a record: its name, its shape, whether it must be there, and whether it may be
`null`. -/
abbrev Field := String × Shape × Bool × Bool

/-- The value of a field, if it can be read. -/
def readField? (field : Field) (d : Draft) : Option Json :=
  if field.2.2.2 && d matches .value .null then some .null else (field.2.1.read d).toOption

theorem readField?_of_ne (field : Field) {d : Draft} (other : d ≠ .value .null) :
    readField? field d = (field.2.1.read d).toOption := by
  unfold readField?
  split
  · contradiction
  · rw [Bool.and_false, if_neg Bool.false_ne_true]

/-- Reading a field and going on with its value. -/
theorem readField?_bind {β : Type} (name : String) (shape : Shape) (needed nullable : Bool)
    (d : Draft) (next : Json → Except ReadFault β) :
    (if nullable && d matches .value .null then pure .null >>= next
      else shape.read d >>= next).toOption =
      (readField? (name, shape, needed, nullable) d).bind fun value => (next value).toOption := by
  simp only [readField?]
  by_cases isNull : (nullable && d matches .value .null) = true
  · rw [if_pos isNull, if_pos isNull]
    rfl
  · rw [if_neg isNull, if_neg isNull, toOption_bind]

/-- The members that are fields, as they are read. -/
def pick (fields : List Field) : List (Except ReadFault String × Draft) →
    Option (List (String × Json))
  | [] => some []
  | (.error _, _) :: _ => none
  | (.ok key, member) :: rest =>
      match List.lookup key fields with
      | none => pick fields rest
      | some field => (readField? (key, field) member).bind fun value =>
          (pick fields rest).map ((key, value) :: ·)

/-- Whether members of the given keys can be those of a record, behind the fields that were seen. -/
structure Admissible (fields : List Field) (closed : Bool) (seen keys : List String) : Prop where
  once : ∀ name ∈ fields.map Prod.fst, (seen ++ keys).count name ≤ 1
  known : closed = true → ∀ key ∈ keys, key ∈ fields.map Prod.fst
  complete : ∀ field ∈ fields, field.2.2.1 = true → field.1 ∈ seen ++ keys

section
variable {fields : List Field} {closed : Bool} {seen keys : List String} {key : String}

theorem admissible_nil_iff (once : ∀ name ∈ fields.map Prod.fst, seen.count name ≤ 1) :
    Admissible fields closed seen [] ↔
      ∀ field ∈ fields, field.2.2.1 = true → field.1 ∈ seen := by
  constructor
  · intro admissible field member needed
    simpa using admissible.complete field member needed
  · intro complete
    exact ⟨by simpa using once, by simp, by simpa using complete⟩

theorem Admissible.not_seen (admissible : Admissible fields closed seen (key :: keys))
    (known : key ∈ fields.map Prod.fst) : key ∉ seen := by
  intro isSeen
  have once := admissible.once key known
  have before := List.one_le_count_iff.mpr isSeen
  rw [List.count_append, List.count_cons_self] at once
  omega

-- What stands ahead and what was seen are counted together.
theorem admissible_field_iff (known : key ∈ fields.map Prod.fst) :
    Admissible fields closed seen (key :: keys) ↔ Admissible fields closed (key :: seen) keys := by
  have perm : (seen ++ key :: keys).Perm (key :: seen ++ keys) := List.perm_middle
  constructor
  · rintro ⟨once, all, complete⟩
    exact ⟨fun name isField => perm.count_eq name ▸ once name isField,
      fun isClosed => (List.forall_mem_cons.mp (all isClosed)).2,
      fun field isField needed => perm.mem_iff.mp (complete field isField needed)⟩
  · rintro ⟨once, all, complete⟩
    exact ⟨fun name isField => (perm.count_eq name).symm ▸ once name isField,
      fun isClosed => List.forall_mem_cons.mpr ⟨known, all isClosed⟩,
      fun field isField needed => perm.mem_iff.mpr (complete field isField needed)⟩

theorem admissible_stranger_iff (unknown : key ∉ fields.map Prod.fst) :
    Admissible fields closed seen (key :: keys) ↔
      closed = false ∧ Admissible fields closed seen keys := by
  have other {name : String} (isField : name ∈ fields.map Prod.fst) : key ≠ name := by
    rintro rfl
    exact unknown isField
  have count (name : String) (isField : name ∈ fields.map Prod.fst) :
      (seen ++ key :: keys).count name = (seen ++ keys).count name := by
    rw [List.count_append, List.count_append, List.count_cons_of_ne (other isField)]
  have present (field : Field) (isField : field ∈ fields) :
      field.1 ∈ seen ++ key :: keys ↔ field.1 ∈ seen ++ keys := by
    have apart := other (List.mem_map_of_mem isField)
    simp [Ne.symm apart]
  constructor
  · rintro ⟨once, all, complete⟩
    have isOpen : closed = false := by
      cases closed with
      | false => rfl
      | true => exact absurd (all rfl key (.head _)) unknown
    exact ⟨isOpen, fun name isField => count name isField ▸ once name isField,
      fun isClosed => (List.forall_mem_cons.mp (all isClosed)).2,
      fun field isField needed => (present field isField).mp (complete field isField needed)⟩
  · rintro ⟨rfl, once, -, complete⟩
    exact ⟨fun name isField => (count name isField).symm ▸ once name isField, nofun,
      fun field isField needed => (present field isField).mpr (complete field isField needed)⟩

end

theorem lookup_eq_none_iff_not_mem {fields : List Field} {key : String} :
    List.lookup key fields = none ↔ key ∉ fields.map Prod.fst := by
  rw [List.lookup_eq_none_iff, List.mem_map]
  constructor
  · rintro other ⟨field, member, rfl⟩
    simpa using other field member
  · intro unknown field member
    rw [bne_iff_ne]
    rintro rfl
    exact unknown ⟨field, member, rfl⟩

theorem mem_of_listed {fields : List Field} {name : String} {field : Shape × Bool × Bool}
    (listed : List.lookup name fields = some field) : (name, field) ∈ fields := by
  obtain ⟨before, after, rfl, -⟩ := List.lookup_eq_some_iff.mp listed
  simp

theorem known_of_listed {fields : List Field} {name : String} {field : Shape × Bool × Bool}
    (listed : List.lookup name fields = some field) : name ∈ fields.map Prod.fst :=
  List.mem_map_of_mem (mem_of_listed listed)

theorem readMembers_field {fields : List Field} {closed : Bool} {seen : List String} {key : String}
    {shape : Shape} {needed nullable : Bool}
    (listed : List.lookup key fields = some (shape, needed, nullable)) (fresh : key ∉ seen)
    (member : Draft) (rest : List (Except ReadFault String × Draft)) :
    (readMembers fields closed seen ((.ok key, member) :: rest) none).toOption =
      (readField? (key, shape, needed, nullable) member).bind fun value =>
        (readMembers fields closed (key :: seen) rest none).toOption.map ((key, value) :: ·) := by
  have known : (fields.map Prod.fst).contains key = true := by
    simpa using known_of_listed listed
  have allowed : mayRead (fields.map Prod.fst) seen closed key = true := by
    rw [mayRead, if_pos known]
    simpa using fresh
  rw [readMembers.eq_def]
  simp only [allowed, listed, Bool.not_true, Bool.false_eq_true, if_false]
  refine (readField?_bind key shape needed nullable member fun value => do
    return (key, value) :: (← readMembers fields closed (key :: seen) rest none)).trans ?_
  congr 1
  funext value
  cases readMembers fields closed (key :: seen) rest none <;> rfl

theorem readMembers_repeated {fields : List Field} {closed : Bool} {seen : List String}
    {key : String} (known : key ∈ fields.map Prod.fst) (isSeen : key ∈ seen) (member : Draft)
    (rest : List (Except ReadFault String × Draft)) :
    (readMembers fields closed seen ((.ok key, member) :: rest) none).toOption = none := by
  have refused : mayRead (fields.map Prod.fst) seen closed key = false := by
    rw [mayRead, if_pos (by simpa using known)]
    simpa using isSeen
  rw [readMembers.eq_def]
  simp only [refused]
  rfl

theorem readMembers_stranger {fields : List Field} {closed : Bool} {seen : List String}
    {key : String} (unlisted : List.lookup key fields = none) {member : Draft} {value : Json}
    (holds : member.Holds value) (rest : List (Except ReadFault String × Draft)) :
    (readMembers fields closed seen ((.ok key, member) :: rest) none).toOption =
      if closed then none else (readMembers fields closed seen rest none).toOption := by
  have absent : (fields.map Prod.fst).contains key = false := by
    simpa using lookup_eq_none_iff_not_mem.mp unlisted
  rw [readMembers.eq_def]
  simp only [mayRead, absent, unlisted, holds.passed]
  cases closed <;> rfl

/-- A record's members are read if they can be those of a record, and the fields among them can be
read. -/
theorem readMembers_toOption {fields : List Field} {closed : Bool} {seen : List String}
    {members : List (Except ReadFault String × Draft)} {values : List (String × Json)}
    (holds : MembersHold members values) (distinct : seen.Nodup) :
    (Admissible fields closed seen (values.map Prod.fst) →
      (readMembers fields closed seen members none).toOption = pick fields members) ∧
    (¬ Admissible fields closed seen (values.map Prod.fst) →
      (readMembers fields closed seen members none).toOption = none) := by
  induction holds generalizing seen with
  | nil =>
      rw [List.map_nil, readMembers,
        admissible_nil_iff fun name _ => List.nodup_iff_count_le_one.mp distinct name]
      constructor
      · intro complete
        rw [if_pos]
        · rfl
        · simpa [or_iff_not_imp_left] using complete
      · intro missing
        rw [if_neg]
        · rfl
        · simpa [or_iff_not_imp_left] using missing
  | @cons member value rest values head tail ih =>
      obtain ⟨name, draft⟩ := member
      obtain ⟨key, found⟩ := value
      obtain ⟨rfl, holds⟩ := head
      rw [List.map_cons]
      cases listed : List.lookup key fields with
      | none =>
          have unknown := lookup_eq_none_iff_not_mem.mp listed
          rw [admissible_stranger_iff unknown, pick, listed, readMembers_stranger listed holds]
          cases closed with
          | true => exact ⟨fun both => absurd both.1 (by simp), fun _ => rfl⟩
          | false => simpa using ih distinct
      | some field =>
          have known := known_of_listed listed
          obtain ⟨shape, needed, nullable⟩ := field
          by_cases isSeen : key ∈ seen
          · rw [readMembers_repeated known isSeen]
            exact ⟨fun admissible => absurd isSeen (admissible.not_seen known), fun _ => rfl⟩
          · obtain ⟨reads, refuses⟩ := ih (List.nodup_cons.mpr ⟨isSeen, distinct⟩)
            rw [admissible_field_iff known, pick, listed, readMembers_field listed isSeen]
            constructor
            · intro admissible
              rw [reads admissible]
            · intro notAdmissible
              rw [refuses notAdmissible]
              simp

/-- What is found of a field in a record and in what was read of it. -/
inductive FieldRead (field : Field) : Option Json → Option Json → Prop
  | absent : FieldRead field none none
  | present {d value read} : d.Holds value → readField? field d = some read →
      FieldRead field (some value) (some read)

inductive FieldFails (field : Field) : Option Json → Prop
  | missing : field.2.2.1 = true → FieldFails field none
  | present {d value} : d.Holds value → readField? field d = none → FieldFails field (some value)

section
variable {fields : List Field} {members : List (Except ReadFault String × Draft)}
  {values picked : List (String × Json)}

theorem pick_occurrences (holds : MembersHold members values)
    (read : pick fields members = some picked) (name : String) :
    occurrences name picked = if name ∈ fields.map Prod.fst then occurrences name values else 0 := by
  induction holds generalizing picked with
  | nil =>
      cases read
      simp
  | @cons member value rest values head tail ih =>
      obtain ⟨_, draft⟩ := member
      obtain ⟨key, found⟩ := value
      obtain ⟨rfl, -⟩ := head
      rw [pick] at read
      split at read
      · next unlisted =>
        rw [ih read, occurrences_cons]
        by_cases same : key = name
        · subst same
          rw [if_neg (lookup_eq_none_iff_not_mem.mp unlisted),
            if_neg (lookup_eq_none_iff_not_mem.mp unlisted)]
        · rw [if_neg same, Nat.add_zero]
      · next field listed =>
        obtain ⟨first, -, later⟩ := Option.bind_eq_some_iff.mp read
        obtain ⟨others, found, rfl⟩ := Option.map_eq_some_iff.mp later
        rw [occurrences_cons, occurrences_cons, ih found]
        by_cases same : key = name
        · subst same
          have known := known_of_listed listed
          rw [if_pos known, if_pos known]
        · simp only [if_neg same, Nat.add_zero]

theorem pick_lookup (holds : MembersHold members values)
    (read : pick fields members = some picked) {name : String} {field : Shape × Bool × Bool}
    (listed : List.lookup name fields = some field) :
    FieldRead (name, field) (lookup name values) (lookup name picked) := by
  induction holds generalizing picked with
  | nil =>
      cases read
      exact .absent
  | @cons member value rest values head tail ih =>
      obtain ⟨_, draft⟩ := member
      obtain ⟨key, found⟩ := value
      obtain ⟨rfl, holds⟩ := head
      rw [pick] at read
      split at read
      · next unlisted =>
        have other : ¬ key = name := by
          rintro rfl
          rw [listed] at unlisted
          cases unlisted
        rw [lookup, if_neg other]
        exact ih read
      · next known =>
        obtain ⟨first, readFirst, later⟩ := Option.bind_eq_some_iff.mp read
        obtain ⟨others, found, rfl⟩ := Option.map_eq_some_iff.mp later
        by_cases same : key = name
        · subst same
          rw [listed] at known
          cases known
          rw [lookup, if_pos rfl, lookup, if_pos rfl]
          exact .present holds readFirst
        · rw [lookup, if_neg same, lookup, if_neg same]
          exact ih found

theorem pick_eq_none (holds : MembersHold members values) (fails : pick fields members = none) :
    ∃ name field d value, List.lookup name fields = some field ∧ (name, value) ∈ values ∧
      d.Holds value ∧ readField? (name, field) d = none := by
  induction holds with
  | nil => cases fails
  | @cons member value rest values head tail ih =>
      obtain ⟨_, draft⟩ := member
      obtain ⟨key, found⟩ := value
      obtain ⟨rfl, holds⟩ := head
      rw [pick] at fails
      split at fails
      · obtain ⟨name, field, d, value, listed, member, rest⟩ := ih fails
        exact ⟨name, field, d, value, listed, .tail _ member, rest⟩
      · next field listed =>
        cases first : readField? (key, field) draft with
        | none => exact ⟨key, field, draft, found, listed, .head _, holds, first⟩
        | some read =>
            rw [first, Option.bind_some, Option.map_eq_none_iff] at fails
            obtain ⟨name, field, d, value, listed, member, rest⟩ := ih fails
            exact ⟨name, field, d, value, listed, .tail _ member, rest⟩

theorem lookup_of_mem (distinct : (fields.map Prod.fst).Nodup) {field : Field}
    (member : field ∈ fields) : List.lookup field.1 fields = some field.2 := by
  induction fields with
  | nil => cases member
  | cons first rest ih =>
      obtain ⟨name, described⟩ := first
      obtain ⟨unseen, distinct⟩ := List.nodup_cons.mp distinct
      rcases List.mem_cons.mp member with rfl | later
      · exact List.lookup_cons_self
      · have other : (field.1 == name) = false := by
          rw [beq_eq_false_iff_ne]
          intro same
          exact unseen (List.mem_map.mpr ⟨field, later, same⟩)
        rw [List.lookup_cons, other]
        exact ih distinct later

end

/-- What is found of the fields of a record that was read, and that it is one. -/
structure RecordRead (fields : List Field) (closed : Bool) (value read : Json) : Prop where
  fits : value.fits (fields.map Prod.fst) closed = true
  readFits : read.fits (fields.map Prod.fst) closed = true
  fields : ∀ field ∈ fields, FieldRead field (value.slot? (fields.map Prod.fst) field.1)
    (read.slot? (fields.map Prod.fst) field.1)

/-- Why a value cannot be read as a record. -/
inductive RecordFails (fields : List Field) (closed : Bool) (value : Json) : Prop
  | unfit : value.fits (fields.map Prod.fst) closed = false → RecordFails fields closed value
  | field {field} : field ∈ fields → FieldFails field (value.slot? (fields.map Prod.fst) field.1) →
      RecordFails fields closed value

theorem admissible_iff {fields : List Field} {closed : Bool} {values : List (String × Json)} :
    Admissible fields closed [] (values.map Prod.fst) ↔
      (Json.object values).fits (fields.map Prod.fst) closed ∧
        ∀ field ∈ fields, field.2.2.1 = true → (lookup field.1 values).isSome := by
  have present (name : String) : (lookup name values).isSome ↔ name ∈ values.map Prod.fst := by
    rw [lookup_isSome_iff, List.mem_map]
  simp only [fits_object_iff, present, occurrences_eq_count]
  constructor
  · rintro ⟨once, known, complete⟩
    exact ⟨⟨once, fun isClosed => List.forall_mem_map.mp (known isClosed)⟩, complete⟩
  · rintro ⟨⟨once, known⟩, complete⟩
    exact ⟨once, fun isClosed => List.forall_mem_map.mpr (known isClosed), complete⟩

-- What was picked is a record again: fields that stand there once, and nothing else.
theorem recordRead_of_pick {fields : List Field} {closed : Bool}
    {members : List (Except ReadFault String × Draft)} {values picked : List (String × Json)}
    (distinct : (fields.map Prod.fst).Nodup) (holds : MembersHold members values)
    (fits : (Json.object values).fits (fields.map Prod.fst) closed)
    (read : pick fields members = some picked) :
    RecordRead fields closed (.object values) (.object picked) := by
  obtain ⟨once, -⟩ := (fits_object_iff ..).mp fits
  have counts := pick_occurrences holds read
  refine ⟨fits, (fits_object_iff ..).mpr ⟨fun name isField => ?_, fun _ member isMember => ?_⟩,
    fun field isField => pick_lookup holds read (lookup_of_mem distinct isField)⟩
  · rw [counts, if_pos isField]
    exact once name isField
  · by_contra unknown
    have none := counts member.1
    rw [if_neg unknown] at none
    exact (occurrences_eq_zero_iff ..).mp none member isMember rfl

theorem recordFails_of_pick {fields : List Field} {closed : Bool}
    {members : List (Except ReadFault String × Draft)} {values : List (String × Json)}
    (holds : MembersHold members values)
    (fits : (Json.object values).fits (fields.map Prod.fst) closed)
    (fails : pick fields members = none) : RecordFails fields closed (.object values) := by
  obtain ⟨once, -⟩ := (fits_object_iff ..).mp fits
  obtain ⟨name, field, d, value, listed, member, holdsValue, fails⟩ := pick_eq_none holds fails
  have found := lookup_eq_some_of_mem member (once name (known_of_listed listed))
  refine .field (mem_of_listed listed) ?_
  rw [slot?, found]
  exact .present holdsValue fails

theorem recordFails_of_not_admissible {fields : List Field} {closed : Bool}
    {values : List (String × Json)}
    (unfit : ¬ Admissible fields closed [] (values.map Prod.fst)) :
    RecordFails fields closed (.object values) := by
  cases fits : (Json.object values).fits (fields.map Prod.fst) closed with
  | false => exact .unfit fits
  | true =>
      have missing : ∃ field ∈ fields, field.2.2.1 = true ∧ lookup field.1 values = none := by
        by_contra all
        push Not at all
        exact unfit (admissible_iff.mpr ⟨fits, fun field isField needed =>
          Option.isSome_iff_ne_none.mpr (all field isField needed)⟩)
      obtain ⟨field, isField, needed, absent⟩ := missing
      refine .field isField ?_
      rw [slot?, absent]
      exact .missing needed

theorem readMembers_spec {fields : List Field} {closed : Bool}
    {members : List (Except ReadFault String × Draft)} {values : List (String × Json)}
    (distinct : (fields.map Prod.fst).Nodup) (holds : MembersHold members values) :
    match (readMembers fields closed [] members none).toOption with
    | some picked => RecordRead fields closed (.object values) (.object picked)
    | none => RecordFails fields closed (.object values) := by
  obtain ⟨reads, refuses⟩ := @readMembers_toOption fields closed [] members values holds .nil
  by_cases admissible : Admissible fields closed [] (values.map Prod.fst)
  · obtain ⟨fits, -⟩ := admissible_iff.mp admissible
    rw [reads admissible]
    cases read : pick fields members with
    | none => exact recordFails_of_pick holds fits read
    | some picked => exact recordRead_of_pick distinct holds fits read
  · rw [refuses admissible]
    exact recordFails_of_not_admissible admissible

theorem readFields_cons (field : Field) (fields : List Field) (place : Nat) (d : Draft)
    (rest : List (Nat × Draft)) :
    (readFields (field :: fields) ((place, d) :: rest) none).toOption =
      (readField? field d).bind fun value =>
        (readFields fields rest none).toOption.map ((field.1, value) :: ·) := by
  obtain ⟨name, shape, needed, nullable⟩ := field
  rw [readFields.eq_def]
  simp only
  refine (readField?_bind name shape needed nullable d fun value => do
    return (name, value) :: (← readFields fields rest none)).trans ?_
  congr 1
  funext value
  cases readFields fields rest none <;> rfl

/-- The fields of an array are read at their places; none is missing that has to be there. -/
theorem readFields_some {fields : List Field} {items : List (Nat × Draft)} {values : List Json}
    {picked : List (String × Json)} (distinct : (fields.map Prod.fst).Nodup)
    (holds : ItemsHold items values) (read : (readFields fields items none).toOption = some picked) :
    values.length ≤ fields.length ∧ (∃ others, fields.map Prod.fst = picked.map Prod.fst ++ others) ∧
      ∀ (i : Nat) (field : Field), fields[i]? = some field → FieldRead field values[i]? (lookup field.1 picked) := by
  induction holds generalizing fields picked with
  | nil =>
      rw [readFields] at read
      split at read <;> cases read
      exact ⟨by simp, ⟨_, rfl⟩, fun i field _ => .absent⟩
  | @cons item value rest values head tail ih =>
      obtain ⟨place, d⟩ := item
      cases fields with
      | nil => cases read
      | cons first fields =>
          obtain ⟨unseen, distinct⟩ := List.nodup_cons.mp distinct
          rw [readFields_cons] at read
          obtain ⟨found, readFirst, later⟩ := Option.bind_eq_some_iff.mp read
          obtain ⟨others, readRest, rfl⟩ := Option.map_eq_some_iff.mp later
          obtain ⟨short, ⟨left, keys⟩, each⟩ := ih distinct readRest
          refine ⟨by simpa using short, ⟨left, by simp [keys]⟩, fun i field at' => ?_⟩
          cases i with
          | zero =>
              cases at'
              rw [lookup, if_pos rfl]
              exact .present head readFirst
          | succ i =>
              have member : field ∈ fields := List.mem_of_getElem? at'
              have other : ¬ first.1 = field.1 := by
                intro same
                exact unseen (same ▸ List.mem_map_of_mem member)
              rw [lookup, if_neg other]
              exact each i field at'

theorem readFields_none {fields : List Field} {items : List (Nat × Draft)} {values : List Json}
    (holds : ItemsHold items values) (fails : (readFields fields items none).toOption = none) :
    fields.length < values.length ∨
      ∃ (i : Nat) (field : Field), fields[i]? = some field ∧ FieldFails field values[i]? := by
  induction holds generalizing fields with
  | nil =>
      rw [readFields] at fails
      split at fails
      · cases fails
      · next incomplete =>
        rw [Bool.not_eq_true, List.all_eq_false] at incomplete
        obtain ⟨field, member, needed⟩ := incomplete
        obtain ⟨i, bound, rfl⟩ := List.getElem_of_mem member
        exact .inr ⟨i, _, List.getElem?_eq_getElem bound, .missing (by simpa using needed)⟩
  | @cons item value rest values head tail ih =>
      obtain ⟨place, d⟩ := item
      cases fields with
      | nil => exact .inl (by simp)
      | cons first fields =>
          rw [readFields_cons] at fails
          cases readFirst : readField? first d with
          | none => exact .inr ⟨0, first, rfl, .present head readFirst⟩
          | some read =>
              rw [readFirst, Option.bind_some, Option.map_eq_none_iff] at fails
              rcases ih fails with long | ⟨i, field, at', fails⟩
              · exact .inl (by simpa using long)
              · exact .inr ⟨i + 1, field, at', fails⟩

theorem slot?_array {fields : List Field} (distinct : (fields.map Prod.fst).Nodup)
    (values : List Json) {i : Nat} {field : Field} (at' : fields[i]? = some field) :
    (Json.array values).slot? (fields.map Prod.fst) field.1 = values[i]? := by
  obtain ⟨bound, rfl⟩ := List.getElem?_eq_some_iff.mp at'
  have place : (fields.map Prod.fst).idxOf fields[i].1 = i := by
    have within : i < (fields.map Prod.fst).length := by simpa using bound
    have named : (fields.map Prod.fst)[i] = fields[i].1 := by simp
    rw [← named]
    exact distinct.idxOf_getElem i _
  rw [slot?, place]

theorem readFields_spec {fields : List Field} {closed : Bool} {items : List (Nat × Draft)}
    {values : List Json} (distinct : (fields.map Prod.fst).Nodup)
    (holds : ItemsHold items values) :
    match (readFields fields items none).toOption with
    | some picked => RecordRead fields closed (.array values) (.object picked)
    | none => RecordFails fields closed (.array values) := by
  cases read : (readFields fields items none).toOption with
  | none =>
      rcases readFields_none holds read with long | ⟨i, field, at', fails⟩
      · exact .unfit (by simpa [fits] using long)
      · refine .field (List.mem_of_getElem? at') ?_
        rwa [slot?_array distinct values at']
  | some picked =>
      obtain ⟨short, ⟨others, keys⟩, each⟩ := readFields_some distinct holds read
      refine ⟨by simpa [fits] using short, (fits_object_iff ..).mpr ⟨fun name _ => ?_,
        fun _ member isMember => ?_⟩, fun field isField => ?_⟩
      · rw [keys] at distinct
        exact occurrences_le_one distinct.of_append_left name
      · rw [keys]
        exact List.mem_append_left _ (List.mem_map_of_mem isMember)
      · obtain ⟨i, bound, rfl⟩ := List.getElem_of_mem isField
        have at' := List.getElem?_eq_getElem bound
        rw [slot?_array distinct values at']
        exact each i _ at'

/-- A value without a fault is read as a record exactly if it is one and its fields can be read. -/
theorem read_record_spec {fields : List Field} {closed : Bool} {d : Draft} {value : Json}
    (distinct : (fields.map Prod.fst).Nodup) (holds : d.Holds value) :
    match ((Shape.record fields closed).read d).toOption with
    | some read => RecordRead fields closed value read
    | none => RecordFails fields closed value := by
  cases value with
  | object values =>
      obtain ⟨members, rfl, each⟩ := holds.object
      have spec := @readMembers_spec fields closed members values distinct each
      rw [Shape.read, toOption_bind]
      generalize (readMembers fields closed [] members none).toOption = read at spec ⊢
      cases read <;> exact spec
  | array values =>
      obtain ⟨items, rfl, each⟩ := holds.array
      have spec := @readFields_spec fields closed items values distinct each
      rw [Shape.read, toOption_bind]
      generalize (readFields fields items none).toOption = read at spec ⊢
      cases read <;> exact spec
  | null | bool _ | int _ | float _ | string _ =>
      rw [holds.scalar rfl, Shape.read]
      exact .unfit rfl

end Shape
end CallReplacement.Json
