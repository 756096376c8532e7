import CallReplacement.Proofs.Resolve.Assembly
import Mathlib.Data.List.DropRight

/-!
Lowering without handlers. Every call is left as written, so that lowering always succeeds and
changes no more than the form of the tree: with parents before children, the target expression
holds the literals and names of the source in their order, and the name of an entity for each call
without a receiver, before the arguments of that call.
-/

namespace CallReplacement

/-- A node without children that is written as it is: a literal or a name. -/
inductive Leaf
  | literal (note : Note) (value : Literal)
  | name (note : Note) (binding : Binding)

/-- The name of an entity, as it stands before the dot or behind `new`: the end of its full name
that is free of dots. -/
def Leaf.entity (fullName : String) : Leaf :=
  .name (.typed (.declared fullName []))
    ⟨String.ofList (fullName.toList.rtakeWhile (· ≠ '.')), .declared fullName []⟩

theorem Text.lastSegment_eq (separator : Char) (text : List Char) :
    lastSegment separator text = text.rtakeWhile (· ≠ separator) := by
  obtain ⟨free, ends⟩ := lastSegment_spec separator text
  have plain : ∀ c ∈ lastSegment separator text, decide (c ≠ separator) = true := by
    intro c member
    simpa using ne_of_mem_of_not_mem member free
  rcases ends with whole | ⟨front, behind⟩
  · rw [← whole] at plain ⊢
    exact (List.rtakeWhile_eq_self_iff.mpr plain).symm
  · have reversed : text.reverse =
        (lastSegment separator text).reverse ++ separator :: front.reverse := by
      conv_lhs => rw [behind]
      simp
    rw [List.rtakeWhile, reversed, List.takeWhile_append_of_pos (by simpa using plain),
      List.takeWhile_cons_of_neg (by simp), List.append_nil, List.reverse_reverse]

theorem Leaf.entity_eq (fullName : String) :
    Leaf.entity fullName =
      .name (.typed (.declared fullName [])) ⟨lastName fullName, .declared fullName []⟩ := by
  rw [entity, lastName, Text.lastSegment_eq]

namespace Expr

def leaf? : Expr → Option Leaf
  | .literal note value => some (.literal note value)
  | .ident note binding => some (.name note binding)
  | _ => none

/-- The literals and names of an expression in the order of `subterms`. -/
def leaves (e : Expr) : List Leaf := e.subterms.filterMap leaf?

theorem leaves_eq (e : Expr) : e.leaves = e.leaf?.toList ++ e.children.flatMap leaves := by
  rw [leaves, subterms_eq, List.filterMap_cons, List.filterMap_flatMap]
  cases e.leaf? <;> rfl

theorem leaves_located (range : Option SourceRange) {e : Expr} (inner : e.leaf? = none) :
    (e.located range).leaves = e.leaves := by
  rw [leaves_eq, leaves_eq]
  cases e with
  | literal | ident => cases inner
  | _ => rfl

end Expr

namespace CallSite

theorem range_asWritten (s : CallSite) : s.asWritten.range = s.range := by
  unfold asWritten
  generalize (if s.isConstructor then _ else _ : Expr) = e
  cases e <;> rfl

/-- A call as written holds the leaves of its target and then those of its arguments. Only
constructors ignore a receiver. -/
theorem leaves_asWritten (s : CallSite) (plain : s.isConstructor → s.receiver = none) :
    s.asWritten.leaves = s.target.leaves ++ s.args.flatMap Expr.leaves := by
  unfold asWritten
  split
  · next constructs =>
    have target : s.target = .named s.ownerName (.declared s.owner []) := by
      rw [CallSite.target, plain constructs, Option.getD_none]
    rw [Expr.leaves_located _ rfl, Expr.leaves_eq, target]
    rfl
  · split
    · next reads =>
      have none : s.args = [] := by simp_all
      rw [Expr.leaves_located _ rfl, Expr.leaves_eq, none]
      simp [Expr.leaf?, Expr.children]
    · rw [Expr.leaves_located _ rfl, Expr.leaves_eq]
      simp [Expr.leaf?, Expr.children, Expr.leaves_eq (.field _ _ _)]

end CallSite

namespace SourceExpr

def leaf? : SourceExpr → Option Leaf
  | .const value type range => some (.literal ⟨(SourceExpr.const value type range).type, range⟩ value)
  | .ident name type range => some (.name ⟨type, range⟩ ⟨name, type⟩)
  | _ => none

/-- The name that a call without a receiver adds to the target expression. -/
def added? : SourceExpr → Option Leaf
  | .call member none _ _ _ => some (.entity member.entity)
  | _ => none

/-- The literals and names of a source tree in the order of `subterms`, and those that calls add. -/
def leaves (e : SourceExpr) : List Leaf := e.subterms.filterMap fun s => s.leaf?.or s.added?

theorem leaves_eq (e : SourceExpr) :
    e.leaves = (e.leaf?.or e.added?).toList ++ e.children.flatMap leaves := by
  rw [leaves, subterms_eq, List.filterMap_cons, List.filterMap_flatMap]
  cases e.leaf?.or e.added? <;> rfl

theorem Fits.leaf?_assemble {e : SourceExpr} {parts : List Expr} (fits : Fits e parts) :
    (e.assemble parts).leaf? = e.leaf?.or e.added? := by
  cases fits <;> rfl

/-- Whether the expression has the place of the source tree and holds its leaves. -/
def KeepsLeaves (e : SourceExpr) (part : Expr) : Prop :=
  part.range = e.range ∧ part.leaves = e.leaves

theorem flatMap_leaves {exprs : List SourceExpr} {parts : List Expr}
    (kept : List.Forall₂ KeepsLeaves exprs parts) :
    parts.flatMap Expr.leaves = exprs.flatMap leaves := by
  induction kept with
  | nil => rfl
  | cons head tail ih => rw [List.flatMap_cons, List.flatMap_cons, head.2, ih]

-- The receiver and the arguments of a call are all of its children.
theorem keepsLeaves_asWritten {e : SourceExpr} {parts : List Expr} {site : CallSite}
    (plain : e.constructorWithReceiver? = none) (kept : List.Forall₂ KeepsLeaves e.children parts)
    (made : e.siteOf? parts = some site) : e.KeepsLeaves site.asWritten := by
  refine ⟨(CallSite.range_asWritten _).trans (range_siteOf? made), ?_⟩
  cases siteOf_of_eq_some made with
  | @bare member args generics range =>
      have added : (call member none args generics range).added? = some (.entity member.entity) :=
        rfl
      rw [CallSite.leaves_asWritten _ fun _ => rfl, leaves_eq, ← flatMap_leaves kept, added,
        Leaf.entity_eq]
      rfl
  | @onReceiver member =>
      have noConstructor : member.isConstructor = false := by
        simpa [constructorWithReceiver?] using plain
      rw [CallSite.leaves_asWritten, leaves_eq, ← flatMap_leaves kept]
      · rfl
      · intro constructs
        exact absurd (noConstructor.symm.trans constructs) Bool.false_ne_true

theorem finish_without_handlers (options : Options) {e : SourceExpr} {parts : List Expr}
    (plain : e.constructorWithReceiver? = none)
    (kept : List.Forall₂ KeepsLeaves e.children parts) :
    ∃ lowered log, e.finish ⟨.empty, .empty, options⟩ parts = .ok (lowered, log) ∧
      e.KeepsLeaves lowered := by
  unfold finish
  cases made : e.siteOf? parts with
  | some site =>
      have stays := keepsLeaves_asWritten plain kept made
      exact ⟨site.asWritten, _, rfl, stays⟩
  | none =>
      have fits := fits_of_siteOf?_eq_none made kept.length_eq
      refine ⟨e.assemble parts, Log.empty, rfl, fits.range_assemble, ?_⟩
      rw [Expr.leaves_eq, leaves_eq, fits.leaf?_assemble, fits.children_assemble,
        flatMap_leaves kept]

/-- Without handlers a tree is always lowered, keeps its place, and keeps its literals and names
in their order; each call without a receiver adds the name of its entity before its arguments. -/
theorem pass_through_keeps_leaves (options : Options) (e : SourceExpr)
    (plain : ∀ s ∈ e.subterms, s.constructorWithReceiver? = none) :
    ∃ lowered log, e.lower ⟨.empty, .empty, options⟩ = .ok (lowered, log) ∧
      lowered.range = e.range ∧ lowered.leaves = e.leaves := by
  induction e using induction_children with
  | step e ih =>
    rw [subterms_eq, List.forall_mem_cons] at plain
    obtain ⟨here, below⟩ := plain
    have each : ∀ c ∈ e.children, ∃ part log,
        c.lower ⟨.empty, .empty, options⟩ = .ok (part, log) ∧ c.KeepsLeaves part :=
      fun c member => ih c member fun s inside => below s (List.mem_flatMap_of_mem member inside)
    obtain ⟨parts, before, row, kept⟩ := lowerAll_of_forall _ each
    obtain ⟨lowered, after, finished, keeps⟩ := finish_without_handlers options here kept
    refine ⟨lowered, before ++ after, ?_, keeps⟩
    rw [lower_eq]
    exact (Logged.bind_eq_ok_iff _ _ _ _).mpr ⟨parts, before, after, row, finished, rfl⟩

/-- `new App.Door(1).open(Keys.Default, name)`: an instance call on a new object, whose arguments
are a static property and a name. -/
def openNewDoor : SourceExpr :=
  let member (owner name : String) (kind : MemberKind) : MemberRef :=
    ⟨owner, name, kind, false, [], [], [], .any⟩
  .call (member "App.Door" "open" .method)
    (some (.call (member "App.Door" ".ctor" .constructor) none [.const (.int 1) .any none] [] none))
    [.call (member "Keys" "Default" .property) none [] [] none, .ident "name" .string none] []
    (some ⟨some "App.fs", ⟨1, 0⟩, ⟨1, 9⟩⟩)

theorem pass_through_keeps_leaves_openNewDoor :
    (∀ s ∈ openNewDoor.subterms, s.constructorWithReceiver? = none) ∧
      ∃ lowered log, openNewDoor.lower ⟨.empty, .empty, {}⟩ = .ok (lowered, log) ∧
        lowered.range = some ⟨some "App.fs", ⟨1, 0⟩, ⟨1, 9⟩⟩ ∧
        lowered.leaves =
          [.name (.typed (.declared "App.Door" [])) ⟨"Door", .declared "App.Door" []⟩,
            .literal (.typed .int32) (.int 1),
            .name (.typed (.declared "Keys" [])) ⟨"Keys", .declared "Keys" []⟩,
            .name (.typed .string) ⟨"name", .string⟩] := by
  have plain : ∀ s ∈ openNewDoor.subterms, s.constructorWithReceiver? = none := by
    simp [openNewDoor, subterms, subtermsOption, subtermsAll, constructorWithReceiver?,
      MemberRef.isConstructor]
  obtain ⟨lowered, log, succeeded, range, leaves⟩ := pass_through_keeps_leaves {} openNewDoor plain
  exact ⟨plain, lowered, log, succeeded, range, leaves⟩

end SourceExpr
end CallReplacement
