import CallReplacement.Proofs.Catalog.Stripping
import CallReplacement.Proofs.Source.Types

/-!
Types without assertions. A sequence keeps its last expression, whatever else is dropped from it, and
the unit that stands for an assertion has the type that the assertion returns. So types are the same
at every depth if assertions return units.
-/

namespace CallReplacement.Catalog.StripAsserts

open SourceExpr

theorem strip_sequence (exprs : List SourceExpr) (range : Option SourceRange) :
    strip (.sequence exprs range) = collapsed (dropUnits (exprs.map strip)) range :=
  rebuild_eq stripNode (.sequence exprs range)

/-- What is left of a sequence is what is left of its last expression, or ends with it. -/
theorem strip_sequence_concat (init : List SourceExpr) (last : SourceExpr)
    (range : Option SourceRange) :
    strip (.sequence (init ++ [last]) range) = strip last ∨
      ∃ kept, strip (.sequence (init ++ [last]) range) = .sequence (kept ++ [strip last]) range := by
  rw [strip_sequence, List.map_append, List.map_singleton, dropUnits_concat]
  rcases collapsed_cases _ range with single | ⟨_, whole⟩
  · have last := congrArg List.getLast? single
    rw [List.getLast?_concat, List.getLast?_singleton, Option.some_inj] at last
    exact .inl last.symm
  · exact .inr ⟨_, whole⟩

theorem type_collapsed (exprs : List SourceExpr) (range : Option SourceRange) :
    (collapsed exprs range).type = lastType exprs := by
  rcases collapsed_cases exprs range with single | ⟨_, whole⟩
  · rw [single]
    rfl
  · rw [whole, SourceExpr.type]

theorem lastType_dropUnits (exprs : List SourceExpr) :
    lastType (dropUnits exprs) = lastType exprs := by
  rw [lastType_eq, lastType_eq, List.getLast?_map, List.getLast?_map, getLast?_dropUnits]

theorem type_of_member? {e : SourceExpr} {member : MemberRef} (called : e.member? = some member) :
    e.type = member.returnType := by
  cases e <;> cases called
  rfl

theorem type_strip (e : SourceExpr)
    (units : ∀ member ∈ e.members, member.IsAssertion → member.returnType = .unit) :
    (strip e).type = e.type := by
  induction e using induction_children with
  | step e ih =>
    rw [members_eq, List.forall_mem_append] at units
    obtain ⟨own, below⟩ := units
    have children : (e.children.map strip).map SourceExpr.type = e.children.map SourceExpr.type := by
      rw [List.map_map]
      refine List.map_congr_left fun c member => ih c member fun m called => ?_
      exact below m (List.mem_flatMap.mpr ⟨c, member, called⟩)
    have outcome := outcome_strip e
    generalize strip e = result at outcome ⊢
    cases outcome with
    | assertion isAssertion =>
        obtain ⟨member, called, isAssertion⟩ := isAssertion
        rw [type_of_member? called, own member (by simp [called]) isAssertion]
        rfl
    | @sequence exprs range =>
        rw [type_collapsed, lastType_dropUnits, lastType_eq, SourceExpr.type, lastType_eq]
        exact congrArg (fun types => types.getLast?.getD .unit) children
    | other _ _ fields parts => exact fields.type (parts ▸ children)

/-- If assertions return units, the bodies of a file keep their types and arities when it is
stripped. A sequence keeps what is left of its last expression as its value. -/
theorem stripping_keeps_types (options : Options) (file : SourceFile)
    (units : ∀ d ∈ file.declarations, ∀ member ∈ d.body.members,
      member.IsAssertion → member.returnType = .unit) :
    (∃ result, transform options file = .ok result ∧
      List.Forall₂ (fun d d' => d'.body = (if options.debug then d.body else strip d.body) ∧
          d'.body.type = d.body.type ∧ d'.body.lambdaArity = d.body.lambdaArity)
        file.declarations result.declarations) ∧
    ∀ init last range, strip (.sequence (init ++ [last]) range) = strip last ∨
      ∃ kept, strip (.sequence (init ++ [last]) range) = .sequence (kept ++ [strip last]) range := by
  refine ⟨?_, strip_sequence_concat⟩
  cases debug : options.debug with
  | true =>
      refine ⟨file, transform_of_debug file debug, ?_⟩
      exact List.forall₂_same.mpr fun _ _ => ⟨rfl, rfl, rfl⟩
  | false =>
      refine ⟨stripped file, transform_of_release file debug, ?_⟩
      rw [stripped, List.forall₂_map_right_iff, List.forall₂_same]
      intro d member
      have types := type_strip d.body (units d member)
      refine ⟨rfl, types, ?_⟩
      rw [lambdaArity_eq, lambdaArity_eq, types]

/-- `let roll = fun x -> (Debug.Assert(ok); (Debug.Assert(ok); x))` and
`let check = Debug.Assert(ok)`. -/
def checkedRoll : SourceFile :=
  let assertion := SourceExpr.call
    ⟨"System.Diagnostics.Debug", "Assert", .method, false, [], [], [], .unit⟩ none
    [.ident "ok" .boolean none] [] none
  let checked (e : SourceExpr) := SourceExpr.sequence [assertion, e] none
  let roll := SourceExpr.lambda [⟨"x", .int32⟩] (checked (checked (.ident "x" .int32 none))) none
  ⟨"Dice.fs", [⟨"roll", true, roll, none⟩, ⟨"check", false, assertion, none⟩]⟩

theorem checkedRoll_keeps_types :
    (∀ d ∈ checkedRoll.declarations, ∀ member ∈ d.body.members,
      member.IsAssertion → member.returnType = .unit) ∧
    ∃ result, transform {} checkedRoll = .ok result ∧
      result.declarations.map SourceDeclaration.body =
        [.lambda [⟨"x", .int32⟩] (.ident "x" .int32 none) none, .const .unit .unit none] ∧
      result.declarations.map (·.body.type) = [.lambda [.int32] .int32, .unit] := by
  have units : ∀ d ∈ checkedRoll.declarations, ∀ member ∈ d.body.members,
      member.IsAssertion → member.returnType = .unit := by
    intro d member
    rcases List.mem_cons.mp member with rfl | last
    · simp [SourceExpr.members, subterms, subtermsAll, subtermsOption, SourceExpr.member?]
    · obtain rfl := List.mem_singleton.mp last
      simp [SourceExpr.members, subterms, subtermsAll, subtermsOption, SourceExpr.member?]
  obtain ⟨⟨result, transformed, kept⟩, _⟩ := stripping_keeps_types {} checkedRoll units
  refine ⟨units, result, transformed, ?_, ?_⟩
  · cases transformed
    rfl
  · exact (map_eq_of_forall₂ (fun _ _ d => d.2.1.symm) kept).symm

end CallReplacement.Catalog.StripAsserts
