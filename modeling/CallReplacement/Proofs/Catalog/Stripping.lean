import CallReplacement.Catalog.StripAsserts
import CallReplacement.Proofs.Source.Rebuild

/-!
What is left of a source file without its assertions. One pass from the leaves up makes one of three
things of a node, and this decides everything else: no assertion is left and every other call
outside of assertions is, sequences are in the form in which a second pass finds nothing to do.
-/

namespace CallReplacement

/-- Whether a member is the assertion of debugging code. -/
def MemberRef.IsAssertion (m : MemberRef) : Prop :=
  m.entity = "System.Diagnostics.Debug" ∧ m.name = "Assert"

namespace SourceExpr

def member? : SourceExpr → Option MemberRef
  | .call member _ _ _ _ => some member
  | _ => none

/-- Whether an expression is a call of the assertion. -/
def IsAssertion (e : SourceExpr) : Prop := ∃ member, e.member? = some member ∧ member.IsAssertion

theorem isAssert_iff (e : SourceExpr) :
    Catalog.StripAsserts.isAssert e = true ↔ e.IsAssertion := by
  cases e <;>
    simp [Catalog.StripAsserts.isAssert, IsAssertion, member?, MemberRef.IsAssertion]

theorem not_isAssertion_of_member? {e : SourceExpr} (noCall : e.member? = none) :
    ¬ e.IsAssertion := by
  rintro ⟨member, called, _⟩
  rw [noCall] at called
  cases called

instance (e : SourceExpr) : Decidable e.IsAssertion := decidable_of_iff _ e.isAssert_iff

theorem SameFields.member? {e e' : SourceExpr} (same : SameFields e e') :
    e.member? = e'.member? := by
  cases same <;> rfl

theorem SameFields.isAssertion_iff {e e' : SourceExpr} (same : SameFields e e') :
    e.IsAssertion ↔ e'.IsAssertion := by
  unfold IsAssertion
  rw [same.member?]

/-- The members called in a tree, parents first. -/
def members (e : SourceExpr) : List MemberRef := e.subterms.filterMap member?

theorem members_eq (e : SourceExpr) :
    e.members = e.member?.toList ++ e.children.flatMap members := by
  unfold members
  rw [subterms_eq, List.filterMap_cons, List.filterMap_flatMap]
  cases e.member? <;> rfl

/-- The expressions of a tree outside of its assertions, parents first. -/
def outside (e : SourceExpr) : List SourceExpr :=
  if e.IsAssertion then []
  else e :: e.children.attach.flatMap fun ⟨c, _⟩ => outside c
termination_by sizeOf e
decreasing_by exact sizeOf_lt_of_mem_children ‹_›

/-- The members called in a tree outside of its assertions, parents first. -/
def membersOutside (e : SourceExpr) : List MemberRef := e.outside.filterMap member?

theorem membersOutside_of_isAssertion {e : SourceExpr} (isAssertion : e.IsAssertion) :
    e.membersOutside = [] := by
  rw [membersOutside, outside, if_pos isAssertion]
  rfl

theorem membersOutside_of_other {e : SourceExpr} (other : ¬ e.IsAssertion) :
    e.membersOutside = e.member?.toList ++ e.children.flatMap membersOutside := by
  have parts : (e.children.attach.flatMap fun ⟨c, _⟩ => outside c) = e.children.flatMap outside := by
    simp [List.flatMap_def]
  unfold membersOutside
  rw [outside, if_neg other, parts, List.filterMap_cons, List.filterMap_flatMap]
  cases e.member? <;> rfl

end SourceExpr

namespace Catalog.StripAsserts

open SourceExpr

/-! Statements without a value. -/

section
variable {exprs : List SourceExpr}

-- The units are dropped from the front on, but which expression is the last shows at the end.
theorem dropUnits_concat (init : List SourceExpr) (last : SourceExpr) :
    dropUnits (init ++ [last]) = init.filter (fun e => !isUnit e) ++ [last] := by
  induction init with
  | nil => rfl
  | cons e rest ih =>
      obtain ⟨next, others, more⟩ :=
        List.exists_cons_of_ne_nil (List.append_ne_nil_of_right_ne_nil rest (List.cons_ne_nil last []))
      rw [List.cons_append, more, dropUnits, ← more, ih, List.filter_cons]
      cases isUnit e <;> rfl

theorem dropUnits_cases (exprs : List SourceExpr) :
    (exprs = [] ∧ dropUnits exprs = []) ∨
      ∃ init last, exprs = init ++ [last] ∧
        dropUnits exprs = init.filter (fun e => !isUnit e) ++ [last] := by
  rcases List.eq_nil_or_concat exprs with rfl | ⟨init, last, rfl⟩
  · exact .inl ⟨rfl, rfl⟩
  · rw [List.concat_eq_append]
    exact .inr ⟨init, last, rfl, dropUnits_concat init last⟩

theorem mem_of_mem_dropUnits {e : SourceExpr} (member : e ∈ dropUnits exprs) : e ∈ exprs := by
  rcases dropUnits_cases exprs with ⟨rfl, _⟩ | ⟨init, last, rfl, kept⟩
  · exact member
  · rw [kept, List.mem_append] at member
    exact List.mem_append.mpr (member.imp_left List.mem_of_mem_filter)

theorem getLast?_dropUnits (exprs : List SourceExpr) :
    (dropUnits exprs).getLast? = exprs.getLast? := by
  rcases dropUnits_cases exprs with ⟨rfl, _⟩ | ⟨init, last, rfl, kept⟩
  · rfl
  · rw [kept, List.getLast?_concat, List.getLast?_concat]

theorem not_isUnit_of_mem_dropLast {e : SourceExpr}
    (member : e ∈ (dropUnits exprs).dropLast) : ¬ isUnit e := by
  rcases dropUnits_cases exprs with ⟨rfl, _⟩ | ⟨init, last, rfl, kept⟩
  · cases member
  · rw [kept, List.dropLast_concat, List.mem_filter] at member
    simpa using member.2

theorem dropUnits_eq_self (valued : ∀ e ∈ exprs.dropLast, ¬ isUnit e) : dropUnits exprs = exprs := by
  rcases dropUnits_cases exprs with ⟨rfl, _⟩ | ⟨init, last, rfl, kept⟩
  · rfl
  · rw [List.dropLast_concat] at valued
    rw [kept, List.filter_eq_self.mpr (by simpa using valued)]

-- What units have nothing of is not lost with them.
theorem flatMap_filter_units {β : Type} {f : SourceExpr → List β}
    (silent : ∀ e, isUnit e → f e = []) (exprs : List SourceExpr) :
    (exprs.filter fun e => !isUnit e).flatMap f = exprs.flatMap f := by
  induction exprs with
  | nil => rfl
  | cons e rest ih =>
      rw [List.flatMap_cons, List.filter_cons]
      cases unit : isUnit e with
      | true => simp [silent e unit, ih]
      | false => simp [ih]

theorem flatMap_dropUnits {β : Type} {f : SourceExpr → List β}
    (silent : ∀ e, isUnit e → f e = []) : (dropUnits exprs).flatMap f = exprs.flatMap f := by
  rcases dropUnits_cases exprs with ⟨rfl, _⟩ | ⟨init, last, rfl, kept⟩
  · rfl
  · rw [kept, List.flatMap_append, List.flatMap_append, flatMap_filter_units silent]

end

/-- A sequence of these expressions, or the expression itself if there is only one. -/
def collapsed (exprs : List SourceExpr) (range : Option SourceRange) : SourceExpr :=
  match exprs with
  | [single] => single
  | exprs => .sequence exprs range

theorem collapsed_cases (exprs : List SourceExpr) (range : Option SourceRange) :
    (exprs = [collapsed exprs range]) ∨
      (exprs.length ≠ 1 ∧ collapsed exprs range = .sequence exprs range) := by
  rcases exprs with _ | ⟨single, _ | ⟨next, others⟩⟩
  · exact .inr ⟨by simp, rfl⟩
  · exact .inl rfl
  · exact .inr ⟨by simp, rfl⟩

/-- What the pass makes of an expression, in terms of what it makes of the children. -/
inductive Outcome : SourceExpr → SourceExpr → Prop
  | assertion {e} : e.IsAssertion → Outcome e (.const .unit .unit e.range)
  | sequence {exprs range} :
      Outcome (.sequence exprs range) (collapsed (dropUnits (exprs.map strip)) range)
  | other {e result} : ¬ e.IsAssertion → (∀ exprs range, result ≠ .sequence exprs range) →
      result.SameFields e → result.children = e.children.map strip → Outcome e result

theorem stripNode_assertion {e : SourceExpr} (isAssertion : e.IsAssertion) :
    stripNode e = .const .unit .unit e.range := by
  unfold stripNode
  rw [if_pos (e.isAssert_iff.mpr isAssertion)]

theorem stripNode_sequence (exprs : List SourceExpr) (range : Option SourceRange) :
    stripNode (.sequence exprs range) = collapsed (dropUnits exprs) range := rfl

theorem stripNode_other {e : SourceExpr} (other : ¬ e.IsAssertion)
    (single : ∀ exprs range, e ≠ .sequence exprs range) : stripNode e = e := by
  unfold stripNode
  rw [if_neg (mt e.isAssert_iff.mp other)]
  cases e with
  | sequence exprs range => exact absurd rfl (single exprs range)
  | _ => rfl

theorem outcome_strip (e : SourceExpr) : Outcome e (strip e) := by
  have length : e.children.length = (e.children.map strip).length := (List.length_map strip).symm
  have rebuilt : strip e = stripNode (e.withChildren (e.children.map strip)) :=
    rebuild_eq stripNode e
  have fields := SameFields.withChildren length
  have parts := children_withChildren length
  -- What the callback is passed has the fields of `e`, and they decide which of its cases applies.
  generalize e.withChildren (e.children.map strip) = given at rebuilt fields parts
  by_cases isAssertion : e.IsAssertion
  · rw [rebuilt, stripNode_assertion (fields.isAssertion_iff.mpr isAssertion), fields.range]
    exact .assertion isAssertion
  · by_cases isSequence : ∃ exprs range, given = .sequence exprs range
    · obtain ⟨kept, range, rfl⟩ := isSequence
      cases fields
      rw [rebuilt, stripNode_sequence, show kept = _ from parts]
      exact .sequence
    · have single : ∀ exprs range, given ≠ .sequence exprs range := by
        intro exprs range same
        exact isSequence ⟨exprs, range, same⟩
      rw [rebuilt, stripNode_other (mt fields.isAssertion_iff.mp isAssertion) single]
      exact .other isAssertion single fields parts

/-! Calls. -/

theorem members_collapsed (exprs : List SourceExpr) (range : Option SourceRange) :
    (collapsed exprs range).members = exprs.flatMap members := by
  rcases collapsed_cases exprs range with single | ⟨_, whole⟩
  · rw [single]
    simp [collapsed]
  · rw [whole, members_eq]
    rfl

theorem members_of_isUnit {e : SourceExpr} (unit : isUnit e) : e.members = [] := by
  cases e with
  | const => rw [members_eq]; rfl
  | _ => cases unit

/-- The calls outside of assertions are left, and no others. -/
theorem members_strip (e : SourceExpr) : (strip e).members = e.membersOutside := by
  induction e using induction_children with
  | step e ih =>
    have outcome := outcome_strip e
    generalize strip e = result at outcome ⊢
    cases outcome with
    | assertion isAssertion =>
        rw [membersOutside_of_isAssertion isAssertion]
        exact members_of_isUnit rfl
    | @sequence exprs range =>
        rw [members_collapsed, flatMap_dropUnits fun _ => members_of_isUnit,
          membersOutside_of_other (not_isAssertion_of_member? rfl), List.flatMap_map]
        exact List.flatMap_congr ih
    | other isAssertion _ fields parts =>
        rw [members_eq, membersOutside_of_other isAssertion, fields.member?, parts, List.flatMap_map]
        exact congrArg _ (List.flatMap_congr ih)

/-! The form that is left. -/

/-- Whether the pass has nothing to do at a node. -/
structure Settled (e : SourceExpr) : Prop where
  assertion : ¬ e.IsAssertion
  several : ∀ exprs range, e = .sequence exprs range → exprs.length ≠ 1
  valued : ∀ exprs range, e = .sequence exprs range → ∀ x ∈ exprs.dropLast, ¬ isUnit x

theorem Settled.of_other {e : SourceExpr} (assertion : ¬ e.IsAssertion)
    (single : ∀ exprs range, e ≠ .sequence exprs range) : Settled e where
  assertion
  several exprs range same := absurd same (single exprs range)
  valued exprs range same := absurd same (single exprs range)

theorem settled_strip (e : SourceExpr) : ∀ s ∈ (strip e).subterms, Settled s := by
  induction e using induction_children with
  | step e ih =>
    have outcome := outcome_strip e
    generalize strip e = result at outcome ⊢
    cases outcome with
    | assertion =>
        rw [forall_subterms_iff]
        exact ⟨.of_other (not_isAssertion_of_member? rfl) (by simp), List.forall_mem_nil _⟩
    | @sequence exprs range =>
        have below : ∀ c ∈ dropUnits (exprs.map strip), ∀ s ∈ c.subterms, Settled s := by
          intro c member
          obtain ⟨part, inExprs, rfl⟩ := List.mem_map.mp (mem_of_mem_dropUnits member)
          exact ih part inExprs
        rcases collapsed_cases (dropUnits (exprs.map strip)) range with single | ⟨several, whole⟩
        · exact below _ (single ▸ List.mem_singleton_self _)
        · rw [whole, forall_subterms_iff]
          refine ⟨⟨not_isAssertion_of_member? rfl, ?_, ?_⟩, below⟩
          · rintro _ _ ⟨⟩
            exact several
          · rintro _ _ ⟨⟩ x member
            exact not_isUnit_of_mem_dropLast member
    | other isAssertion single fields parts =>
        rw [forall_subterms_iff, parts, List.forall_mem_map]
        exact ⟨.of_other (mt fields.isAssertion_iff.mp isAssertion) single, ih⟩

theorem strip_of_settled (e : SourceExpr) (settled : ∀ s ∈ e.subterms, Settled s) : strip e = e := by
  induction e using induction_children with
  | step e ih =>
    obtain ⟨own, below⟩ := (forall_subterms_iff Settled e).mp settled
    have kept : e.children.map strip = e.children := by
      rw [List.map_congr_left fun c member => ih c member (below c member), List.map_id']
    have outcome := outcome_strip e
    generalize strip e = result at outcome ⊢
    cases outcome with
    | assertion isAssertion => exact absurd isAssertion own.assertion
    | @sequence exprs range =>
        rw [show exprs.map strip = exprs from kept, dropUnits_eq_self (own.valued exprs range rfl)]
        rcases collapsed_cases exprs range with single | ⟨_, whole⟩
        · exact absurd (congrArg List.length single) (own.several exprs range rfl)
        · exact whole
    | other _ _ fields parts => exact fields.eq_of_children (parts.trans kept)

/-! Files. -/

variable {options : Options} (file : SourceFile)

/-- The file with all its bodies stripped. -/
def stripped : SourceFile :=
  { file with declarations := file.declarations.map fun d => { d with body := strip d.body } }

theorem transform_of_debug (debug : options.debug = true) : transform options file = .ok file :=
  if_pos debug

theorem transform_of_release (release : options.debug = false) :
    transform options file = .ok (stripped file) :=
  if_neg (by simp [release])

theorem members_calls : file.calls.filterMap member? = file.declarations.flatMap (·.body.members) := by
  unfold SourceFile.calls
  rw [List.filterMap_flatMap]
  refine List.flatMap_congr fun d _ => ?_
  rw [List.filterMap_filter]
  refine List.filterMap_congr fun e _ => ?_
  cases e <;> rfl

theorem stripped_stripped : stripped (stripped file) = stripped file := by
  have settled : ∀ d : SourceDeclaration, strip (strip d.body) = strip d.body := by
    intro d
    exact strip_of_settled _ (settled_strip d.body)
  simp [stripped, settled]

variable (options)

/-- Without debugging code, a file keeps its path and the names, the visibility and the ranges of its
declarations; no assertion is called in it, and it calls the same members as before in the same
order, but for the assertions and the calls in them. With debugging code it stays as it is. -/
theorem assertions_removed_exactly :
    (options.debug = true → transform options file = .ok file) ∧
    (options.debug = false → ∃ result, transform options file = .ok result ∧
      result.path = file.path ∧
      List.Forall₂ (fun d d' => d'.name = d.name ∧ d'.isPublic = d.isPublic ∧ d'.range = d.range)
        file.declarations result.declarations ∧
      (∀ d ∈ result.declarations, ∀ e ∈ d.body.subterms, ¬ e.IsAssertion) ∧
      result.calls.filterMap member? = file.declarations.flatMap (·.body.membersOutside)) := by
  refine ⟨transform_of_debug file, fun release => ?_⟩
  refine ⟨stripped file, transform_of_release file release, rfl, ?_, ?_, ?_⟩
  · rw [stripped, List.forall₂_map_right_iff, List.forall₂_same]
    exact fun _ _ => ⟨rfl, rfl, rfl⟩
  · rw [stripped, List.forall_mem_map]
    exact fun d _ e inside => (settled_strip d.body e inside).assertion
  · rw [members_calls, stripped, List.flatMap_map]
    exact List.flatMap_congr fun d _ => members_strip d.body

/-- Stripping a stripped file changes nothing. Without debugging code, no sequence of one expression
is left, and a unit constant at most as the value of its sequence. -/
theorem stripping_twice_changes_nothing :
    ∃ result, transform options file = .ok result ∧ transform options result = .ok result ∧
      (options.debug = false → ∀ d ∈ result.declarations, ∀ exprs range,
        .sequence exprs range ∈ d.body.subterms →
          exprs.length ≠ 1 ∧ ∀ e ∈ exprs.dropLast, ∀ type range', e ≠ .const .unit type range') := by
  cases debug : options.debug with
  | true =>
      have same := transform_of_debug file debug
      exact ⟨file, same, same, nofun⟩
  | false =>
      refine ⟨stripped file, transform_of_release file debug, ?_, fun _ => ?_⟩
      · rw [transform_of_release _ debug, stripped_stripped]
      · rw [stripped, List.forall_mem_map]
        intro d _ exprs range inside
        have settled := settled_strip d.body _ inside
        refine ⟨settled.several exprs range rfl, ?_⟩
        rintro _ member type range' rfl
        exact settled.valued exprs range rfl _ member rfl

end Catalog.StripAsserts

end CallReplacement
