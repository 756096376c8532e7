import CallReplacement.Json.Draft
import Mathlib.Data.List.Forall2
import Mathlib.Tactic.SplitIfs

/-!
Drafts without a fault. A draft holds a value if it settles to it and its parts are drafts in turn,
as those of a text are; then nothing in it stops a reader, and one who passes over it meets no fault
either.
-/

namespace CallReplacement.Json

def isScalar : Json → Bool
  | .array _ | .object _ => false
  | _ => true

namespace Draft

/-- Whether arrays and objects are there as drafts of their parts, as far as a draft can be read. -/
inductive Plain : Draft → Prop
  | value {value} : value.isScalar → Plain (.value value)
  | array {items tail} : (∀ item ∈ items, Plain item.2) → Plain (.array items tail)
  | object {members tail} : (∀ member ∈ members, Plain member.2) → Plain (.object members tail)
  | stopped {d fault} : d.settled = .error fault → Plain d

structure Holds (d : Draft) (j : Json) : Prop where
  plain : d.Plain
  settled : d.settled = .ok j

end Draft

def ItemsHold (items : List (Nat × Draft)) (values : List Json) : Prop :=
  List.Forall₂ (fun item value => item.2.Holds value) items values

def MembersHold (members : List (Except ReadFault String × Draft))
    (values : List (String × Json)) : Prop :=
  List.Forall₂ (fun member value => member.1 = .ok value.1 ∧ member.2.Holds value.2) members values

/-! A part that settles can be taken off the front. -/

theorem settledItems_cons_eq_ok {item : Nat × Draft} {rest : List (Nat × Draft)}
    {tail : Option ReadFault} {values : List Json}
    (settled : settledItems (item :: rest) tail = .ok values) :
    ∃ value others, item.2.settled = .ok value ∧ settledItems rest tail = .ok others ∧
      values = value :: others := by
  rw [settledItems] at settled
  split at settled
  · cases settled
  · next value first =>
    split at settled
    · next others found =>
      cases settled
      exact ⟨value, others, first, found, rfl⟩
    · cases settled

theorem settledMembers_cons_eq_ok {member : Except ReadFault String × Draft}
    {rest : List (Except ReadFault String × Draft)} {tail : Option ReadFault}
    {values : List (String × Json)} (settled : settledMembers (member :: rest) tail = .ok values) :
    ∃ key value others, member.1 = .ok key ∧ member.2.settled = .ok value ∧
      settledMembers rest tail = .ok others ∧ values = (key, value) :: others := by
  obtain ⟨_ | key, draft⟩ := member
  · cases settled
  · rw [settledMembers] at settled
    split at settled
    · cases settled
    · next value first =>
      split at settled
      · next others found =>
        cases settled
        exact ⟨key, value, others, rfl, first, found, rfl⟩
      · cases settled

theorem settledItems_eq_ok {items : List (Nat × Draft)} {tail : Option ReadFault}
    {values : List Json} (settled : settledItems items tail = .ok values) :
    tail = none ∧
      List.Forall₂ (fun item value => item.2.settled = .ok value) items values := by
  induction items generalizing values with
  | nil =>
      cases tail with
      | none =>
          cases settled
          exact ⟨rfl, .nil⟩
      | some fault => cases settled
  | cons item rest ih =>
      obtain ⟨value, others, first, found, rfl⟩ := settledItems_cons_eq_ok settled
      obtain ⟨ends, each⟩ := ih found
      exact ⟨ends, .cons first each⟩

theorem settledMembers_eq_ok {members : List (Except ReadFault String × Draft)}
    {tail : Option ReadFault} {values : List (String × Json)}
    (settled : settledMembers members tail = .ok values) :
    tail = none ∧ List.Forall₂
      (fun member value => member.1 = .ok value.1 ∧ member.2.settled = .ok value.2)
      members values := by
  induction members generalizing values with
  | nil =>
      cases tail with
      | none =>
          cases settled
          exact ⟨rfl, .nil⟩
      | some fault => cases settled
  | cons member rest ih =>
      obtain ⟨key, value, others, named, first, found, rfl⟩ := settledMembers_cons_eq_ok settled
      obtain ⟨ends, each⟩ := ih found
      exact ⟨ends, .cons ⟨named, first⟩ each⟩

namespace Draft

/-- What a draft that holds a value looks like. -/
inductive HeldAs : Draft → Json → Prop
  | scalar {value} : value.isScalar → HeldAs (.value value) value
  | array {items values} : ItemsHold items values → HeldAs (.array items none) (.array values)
  | object {members values} :
      MembersHold members values → HeldAs (.object members none) (.object values)

theorem Holds.heldAs {d : Draft} {j : Json} (holds : d.Holds j) : d.HeldAs j := by
  obtain ⟨plain, settled⟩ := holds
  cases plain with
  | value scalar =>
      cases settled
      exact .scalar scalar
  | stopped stops =>
      rw [stops] at settled
      cases settled
  | array parts =>
      rw [Draft.settled] at settled
      split at settled <;> cases settled
      next found =>
      obtain ⟨rfl, each⟩ := settledItems_eq_ok found
      have both := (List.forall₂_and_left _ _).mpr ⟨parts, each⟩
      exact .array (both.imp fun _ _ part => ⟨part.1, part.2⟩)
  | object parts =>
      rw [Draft.settled] at settled
      split at settled <;> cases settled
      next found =>
      obtain ⟨rfl, each⟩ := settledMembers_eq_ok found
      have both := (List.forall₂_and_left _ _).mpr ⟨parts, each⟩
      exact .object (both.imp fun _ _ part => ⟨part.2.1, part.1, part.2.2⟩)

theorem Holds.scalar {d : Draft} {j : Json} (holds : d.Holds j) (scalar : j.isScalar) :
    d = .value j := by
  cases holds.heldAs with
  | scalar => rfl
  | array | object => cases scalar

theorem Holds.array {d : Draft} {values : List Json} (holds : d.Holds (.array values)) :
    ∃ items, d = .array items none ∧ ItemsHold items values := by
  cases holds.heldAs with
  | scalar scalar => cases scalar
  | array each => exact ⟨_, rfl, each⟩

theorem Holds.object {d : Draft} {values : List (String × Json)}
    (holds : d.Holds (.object values)) :
    ∃ members, d = .object members none ∧ MembersHold members values := by
  cases holds.heldAs with
  | scalar scalar => cases scalar
  | object each => exact ⟨_, rfl, each⟩

end Draft

mutual

theorem passed_of_settled {d : Draft} {j : Json} (settled : d.settled = .ok j) :
    d.passed = none := by
  match d with
  | .value _ => rfl
  | .array items tail =>
      rw [Draft.settled] at settled
      split at settled <;> cases settled
      next found =>
      rw [Draft.passed]
      exact passedItems_of_settled found
  | .object members tail =>
      rw [Draft.settled] at settled
      split at settled <;> cases settled
      next found =>
      rw [Draft.passed]
      exact passedMembers_of_settled found
  | .flawed _ | .broken .. | .snapped .. | .misplaced .. | .deep .. => cases settled

theorem passedItems_of_settled {items : List (Nat × Draft)} {tail : Option ReadFault}
    {values : List Json} (settled : settledItems items tail = .ok values) :
    passedItems items tail = none := by
  match items with
  | [] =>
      cases tail with
      | none => rfl
      | some fault => cases settled
  | (_, item) :: rest =>
      obtain ⟨value, others, first, found, -⟩ := settledItems_cons_eq_ok settled
      rw [passedItems, passed_of_settled first, passedItems_of_settled found]
      rfl

theorem passedMembers_of_settled {members : List (Except ReadFault String × Draft)}
    {tail : Option ReadFault} {values : List (String × Json)}
    (settled : settledMembers members tail = .ok values) :
    passedMembers members tail = none := by
  match members with
  | [] =>
      cases tail with
      | none => rfl
      | some fault => cases settled
  | (.error _, _) :: _ => cases settled
  | (.ok key, member) :: rest =>
      obtain ⟨_, value, others, -, first, found, -⟩ := settledMembers_cons_eq_ok settled
      rw [passedMembers, passed_of_settled first, passedMembers_of_settled found]
      rfl

end

theorem Draft.Holds.passed {d : Draft} {j : Json} (holds : d.Holds j) : d.passed = none :=
  passed_of_settled holds.settled

/-! ## Values as drafts -/

mutual

def draft : Json → Draft
  | .array items => .array (draftsOf items) none
  | .object members => .object (memberDrafts members) none
  | value => .value value

def draftsOf : List Json → List (Nat × Draft)
  | [] => []
  | item :: rest => (0, item.draft) :: draftsOf rest

def memberDrafts : List (String × Json) → List (Except ReadFault String × Draft)
  | [] => []
  | (key, value) :: rest => (.ok key, value.draft) :: memberDrafts rest

end

mutual

theorem draft_holds (j : Json) : j.draft.Holds j := by
  match j with
  | .array items =>
      obtain ⟨plain, settled⟩ := draftsOf_hold items
      rw [draft]
      exact ⟨.array plain, by rw [Draft.settled, settled]⟩
  | .object members =>
      obtain ⟨plain, settled⟩ := memberDrafts_hold members
      rw [draft]
      exact ⟨.object plain, by rw [Draft.settled, settled]⟩
  | .null | .bool _ | .int _ | .float _ | .string _ => exact ⟨.value rfl, rfl⟩

theorem draftsOf_hold (items : List Json) :
    (∀ item ∈ draftsOf items, item.2.Plain) ∧ settledItems (draftsOf items) none = .ok items := by
  match items with
  | [] => exact ⟨by simp [draftsOf], rfl⟩
  | item :: rest =>
      obtain ⟨plain, settled⟩ := draft_holds item
      obtain ⟨others, follow⟩ := draftsOf_hold rest
      rw [draftsOf]
      exact ⟨List.forall_mem_cons.mpr ⟨plain, others⟩, by rw [settledItems, settled, follow]⟩

theorem memberDrafts_hold (members : List (String × Json)) :
    (∀ member ∈ memberDrafts members, member.2.Plain) ∧
      settledMembers (memberDrafts members) none = .ok members := by
  match members with
  | [] => exact ⟨by simp [memberDrafts], rfl⟩
  | (key, value) :: rest =>
      obtain ⟨plain, settled⟩ := draft_holds value
      obtain ⟨others, follow⟩ := memberDrafts_hold rest
      rw [memberDrafts]
      exact ⟨List.forall_mem_cons.mpr ⟨plain, others⟩, by rw [settledMembers, settled, follow]⟩

end

/-! ## Drafts of texts -/

/-- Whether a lexeme that stands for a value stands for a scalar. -/
def Lexeme.Plain : Lexeme → Prop
  | .constant value => value.isScalar
  | .number (.ok value) => value.isScalar
  | _ => True

theorem wholeNumber_isScalar (negative : Bool) (significand : Nat) :
    (wholeNumber negative significand).isScalar := by
  unfold wholeNumber
  split
  · rfl
  · split <;> rfl

theorem number_plain (p : NumberParts) : (Lexeme.number p.value).Plain := by
  unfold NumberParts.value
  simp only
  split
  · split
    · exact wholeNumber_isScalar ..
    · split <;> trivial
  · split
    · split <;> trivial
    · split_ifs <;> trivial

theorem brokenNumber_plain (place : Nat) (cs : List Char) : (brokenNumber place cs).lexeme.Plain := by
  cases cs <;> trivial

theorem endNumber_plain (p : NumberParts) (cs : List Char) : (endNumber p cs).lexeme.Plain := by
  have exponent (rest : List Char) : (scanExponent p rest).lexeme.Plain := by
    unfold scanExponent
    simp only
    split_ifs
    · exact brokenNumber_plain ..
    · exact number_plain _
  unfold endNumber
  split
  · exact exponent _
  · exact exponent _
  · exact number_plain p

theorem scanNumber_plain (negative : Bool) (place : Nat) (cs : List Char) :
    (scanNumber negative place cs).lexeme.Plain := by
  unfold scanNumber
  simp only
  split
  · exact brokenNumber_plain ..
  · trivial
  · unfold scanFraction
    split
    · simp only
      split
      · exact brokenNumber_plain ..
      · exact endNumber_plain ..
    · exact endNumber_plain ..

theorem scanWord_plain {value : Json} (scalar : value.isScalar) (place : Nat)
    (word cs : List Char) : (scanWord value place word cs).lexeme.Plain := by
  fun_induction scanWord value place word cs with
  | case1 => exact scalar
  | case3 _ _ _ _ ih => exact ih
  | _ => trivial

theorem scanText_plain (s : TextState) (place : Nat) (cs : List Char) :
    (scanText s place cs).lexeme.Plain := by
  fun_induction scanText s place cs <;> first | assumption | trivial

theorem scan_plain (place : Nat) (c : Char) (rest : List Char) :
    (scan place c rest).lexeme.Plain := by
  unfold scan
  split
  · exact scanText_plain ..
  split
  · exact scanNumber_plain ..
  split
  · exact scanNumber_plain ..
  split
  · exact scanWord_plain rfl ..
  split
  · exact scanWord_plain rfl ..
  split
  · exact scanWord_plain rfl ..
  split <;> trivial

def LexemesPlain (lexemes : List (Nat × Lexeme)) : Prop := ∀ found ∈ lexemes, found.2.Plain

theorem lexemes_plain (place steps : Nat) (cs : List Char) :
    LexemesPlain (lexemes place steps cs) := by
  fun_induction lexemes place steps cs with
  | case3 place steps c rest _ ih => exact ih
  | case4 place steps c rest _ scanned ih =>
      exact List.forall_mem_cons.mpr ⟨scan_plain place c rest, ih⟩
  | _ => simp [LexemesPlain]

/-- A plain draft with plain lexemes behind it. -/
structure Drafted.Plain (d : Drafted) : Prop where
  draft : d.draft.Plain
  rest : LexemesPlain d.rest

theorem LexemesPlain.tail {found : Nat × Lexeme} {lexemes : List (Nat × Lexeme)}
    (plain : LexemesPlain (found :: lexemes)) : LexemesPlain lexemes :=
  (List.forall_mem_cons.mp plain).2

theorem LexemesPlain.nil : LexemesPlain [] := by simp [LexemesPlain]

theorem nestedAt_plain (place depth : Nat) {d : Drafted} (plain : d.Plain) :
    (nestedAt place depth d).Plain := by
  unfold nestedAt
  split
  · exact plain
  · exact ⟨.stopped rfl, plain.rest⟩

theorem missing_plain (fault : ReadFault) : (missing fault).Plain := ⟨.stopped rfl, .nil⟩

section
variable (length : Nat)

theorem draftValue_plain_succ {depth steps : Nat}
    (items : ∀ lexemes, LexemesPlain lexemes →
      (draftItems length (depth + 1) steps [] lexemes).Plain)
    (members : ∀ lexemes, LexemesPlain lexemes →
      (draftMembers length (depth + 1) steps [] lexemes).Plain)
    {lexemes : List (Nat × Lexeme)} (plain : LexemesPlain lexemes) :
    (draftValue length depth (steps + 1) lexemes).Plain := by
  match lexemes with
  | [] => exact missing_plain _
  | (place, lexeme) :: rest =>
      obtain ⟨first, others⟩ := List.forall_mem_cons.mp plain
      match lexeme with
      | .constant value => exact ⟨.value first, others⟩
      | .text (.ok value) => exact ⟨.value rfl, others⟩
      | .number (.ok value) => exact ⟨.value first, others⟩
      | .text (.error fault) | .number (.error fault) => exact ⟨.stopped rfl, others⟩
      | .brokenText .. | .broken .. => exact ⟨.stopped rfl, .nil⟩
      | .stray => exact missing_plain _
      | .mark c =>
          simp only [draftValue]
          split
          · apply nestedAt_plain
            split
            · exact ⟨.array (by simp), LexemesPlain.tail others⟩
            · exact ⟨.array (by simp), .nil⟩
            · exact items rest others
          · split
            · apply nestedAt_plain
              split
              · exact ⟨.object (by simp), LexemesPlain.tail others⟩
              · exact members rest others
            · exact missing_plain _

theorem draftItems_plain_succ {depth steps : Nat}
    (value : ∀ lexemes, LexemesPlain lexemes → (draftValue length depth steps lexemes).Plain)
    (items : ∀ before lexemes, (∀ item ∈ before, item.2.Plain) → LexemesPlain lexemes →
      (draftItems length depth steps before lexemes).Plain)
    {before : List (Nat × Draft)} {lexemes : List (Nat × Lexeme)}
    (read : ∀ item ∈ before, item.2.Plain) (plain : LexemesPlain lexemes) :
    (draftItems length depth (steps + 1) before lexemes).Plain := by
  have found := value lexemes plain
  unfold draftItems
  generalize draftValue length depth steps lexemes = d at found
  obtain ⟨first, rest, ended⟩ := d
  have all (place : Nat) : ∀ item ∈ (place, first) :: before, item.2.Plain :=
    List.forall_mem_cons.mpr ⟨found.draft, read⟩
  have whole (place : Nat) (tail : Option ReadFault) :
      (Draft.array ((place, first) :: before).reverse tail).Plain :=
    .array fun item member => all place item (List.mem_reverse.mp member)
  simp only
  split
  · exact ⟨whole _ _, .nil⟩
  · split
    · exact items _ _ (all _) (LexemesPlain.tail found.rest)
    · exact ⟨whole _ _, LexemesPlain.tail found.rest⟩
    · exact ⟨whole _ _, .nil⟩
    · exact ⟨whole _ _, .nil⟩

theorem draftMembers_plain_succ {depth steps : Nat}
    (value : ∀ lexemes, LexemesPlain lexemes → (draftValue length depth steps lexemes).Plain)
    (members : ∀ before lexemes, (∀ member ∈ before, member.2.Plain) → LexemesPlain lexemes →
      (draftMembers length depth steps before lexemes).Plain)
    {before : List (Except ReadFault String × Draft)} {lexemes : List (Nat × Lexeme)}
    (read : ∀ member ∈ before, member.2.Plain) (plain : LexemesPlain lexemes) :
    (draftMembers length depth (steps + 1) before lexemes).Plain := by
  have all {d : Draft} (key : Except ReadFault String) (last : d.Plain) :
      ∀ member ∈ (key, d) :: before, member.2.Plain :=
    List.forall_mem_cons.mpr ⟨last, read⟩
  have whole {d : Draft} (key : Except ReadFault String) (tail : Option ReadFault)
      (last : d.Plain) : (Draft.object ((key, d) :: before).reverse tail).Plain :=
    .object fun member isMember => all key last member (List.mem_reverse.mp isMember)
  match lexemes with
  | [] => exact ⟨whole _ _ (.stopped rfl), .nil⟩
  | (place, lexeme) :: rest =>
      unfold draftMembers
      simp only
      split
      · next key =>
        split
        · next after =>
            have found := value _ (LexemesPlain.tail (LexemesPlain.tail plain))
            generalize draftValue length depth steps after = d at found
            obtain ⟨last, behind, ended⟩ := d
            simp only
            split
            · exact ⟨whole _ _ found.draft, .nil⟩
            · split
              · exact members _ _ (all _ found.draft) (LexemesPlain.tail found.rest)
              · exact ⟨whole _ _ found.draft, LexemesPlain.tail found.rest⟩
              · exact ⟨whole _ _ found.draft, .nil⟩
              · exact ⟨whole _ _ found.draft, .nil⟩
        · exact ⟨whole _ _ (.stopped rfl), .nil⟩
        · exact ⟨whole _ _ (.stopped rfl), .nil⟩
      · exact ⟨whole _ _ (.stopped rfl), .nil⟩
      · exact ⟨whole _ _ (.stopped rfl), .nil⟩

-- The three readers call one another with a step less, so they are taken together.
theorem drafted_plain (steps depth : Nat) :
    (∀ lexemes, LexemesPlain lexemes → (draftValue length depth steps lexemes).Plain) ∧
    (∀ before lexemes, (∀ item ∈ before, item.2.Plain) → LexemesPlain lexemes →
      (draftItems length depth steps before lexemes).Plain) ∧
    (∀ before lexemes, (∀ member ∈ before, member.2.Plain) → LexemesPlain lexemes →
      (draftMembers length depth steps before lexemes).Plain) := by
  induction steps generalizing depth with
  | zero =>
      refine ⟨fun lexemes _ => ?_, fun before lexemes read _ => ?_,
        fun before lexemes read _ => ?_⟩
      · rw [draftValue]
        exact missing_plain _
      · rw [draftItems]
        exact ⟨.array (by simpa using read), .nil⟩
      · rw [draftMembers]
        exact ⟨.object (by simpa using read), .nil⟩
  | succ steps ih =>
      obtain ⟨value, items, members⟩ := ih depth
      obtain ⟨-, inner, innerMembers⟩ := ih (depth + 1)
      exact ⟨fun lexemes => draftValue_plain_succ length
          (fun rest => inner [] rest (by simp)) (fun rest => innerMembers [] rest (by simp)),
        fun before lexemes => draftItems_plain_succ length value items,
        fun before lexemes => draftMembers_plain_succ length value members⟩

end

theorem Document.ofText_plain (text : String) : (Document.ofText text).draft.Plain :=
  ((drafted_plain _ _ 0).1 _ (lexemes_plain 0 _ text.toList)).draft

end CallReplacement.Json
