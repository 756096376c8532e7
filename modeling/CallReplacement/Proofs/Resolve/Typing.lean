import CallReplacement.Catalog
import CallReplacement.Proofs.Resolve.CallOrder
import CallReplacement.Proofs.Source.Types
import CallReplacement.Resolve.Standard

/-!
Types through lowering. The type of a source tree is read off its nodes; that of a target
expression is made when the node is made. If handlers answer with the type that the called member
returns, the two agree in every tree that is lowered, and a call site gives its function arguments
the arities that their target types show.
-/

namespace CallReplacement

/-- Whether each answer of the replacer has the type that the called member returns. -/
def Replacer.Typed (options : Options) (replace : Replacer) : Prop :=
  ∀ site e, replace options site = .ok (some e) → e.type = site.returnType

/-- Whether all handlers answer with the type that the called member returns. -/
structure Resolver.Typed (r : Resolver) : Prop where
  plugins : ∀ extension ∈ r.registry.callReplacers, Replacer.Typed r.options extension.2
  builtins : Replacer.Typed r.options r.builtins.replace

theorem Expr.type_withNote (note : Note) (e : Expr) : (e.withNote note).type = note.type := by
  cases e <;> rfl

theorem Expr.type_located (range : Option SourceRange) (e : Expr) :
    (e.located range).type = e.type :=
  type_withNote _ e

theorem CallSite.type_place (s : CallSite) (e : Expr) : (s.place e).type = e.type := by
  unfold place
  split
  · rfl
  · exact e.type_located s.range

theorem CallSite.type_asWritten (s : CallSite) : s.asWritten.type = s.returnType := by
  rw [asWritten, Expr.type_located]
  split
  · rfl
  · split <;> rfl

namespace Resolver

variable {r : Resolver} {s : CallSite}

theorem Typed.of_decides (typed : r.Typed) {handler : Handler} {name : String} {e : Expr}
    (decides : r.Decides s handler name (.ok (some e))) : e.type = s.returnType := by
  generalize given : Except.ok (some e) = answer at decides
  cases decides with
  | plugin extensions decline answers =>
      rename_i replace
      have member : (name, replace) ∈ r.registry.callReplacers := by simp [extensions]
      exact typed.plugins _ member s e given.symm
  | builtin decline => exact typed.builtins s e given.symm

-- An answer has the type by assumption, and a call that is left as written has it anyway.
theorem Typed.type_resolve (typed : r.Typed) {resolution : Resolution}
    (resolved : r.resolve s = .ok resolution) : resolution.expr.type = s.returnType := by
  obtain ⟨handler, name, answer, decides, outcome⟩ := (r.resolve_eq_ok_iff s resolution).mp resolved
  cases answer with
  | error cause => cases outcome
  | ok result =>
      cases result with
      | none =>
          cases outcome
          exact s.type_asWritten
      | some e =>
          cases outcome
          rw [s.type_place e]
          exact typed.of_decides decides

end Resolver

/-! Handlers that answer with the right type. -/

theorem Builtins.typed_forward (options : Options) (object member : String) (allowed : List Nat) :
    Replacer.Typed options (forward object member allowed) := by
  intro site e answered
  unfold forward at answered
  split at answered <;> cases answered
  rfl

/-- A table answers with the right types if each of its entries does. -/
theorem Builtins.typed_replace (options : Options) (t : Builtins)
    (each : ∀ entry ∈ t.entries, Replacer.Typed options entry.replace) :
    Replacer.Typed options t.replace := by
  intro site e answered
  unfold replace at answered
  split at answered
  · next replace found =>
    obtain ⟨entry, first, rfl⟩ := Option.map_eq_some_iff.mp found
    exact each entry (List.mem_of_find?_eq_some first) site e answered
  · cases answered

theorem Catalog.SeededRandom.typed_replace (options : Options) :
    Replacer.Typed options replace := by
  intro site e answered
  unfold replace at answered
  split at answered
  · split at answered <;> cases answered
    rfl
  · cases answered

namespace SourceExpr

/-- Whether the expression takes the place of the source tree with the same type. -/
def SameType (e : SourceExpr) (part : Expr) : Prop := part.type = e.type

theorem lastType_of_forall₂ {exprs : List SourceExpr} {parts : List Expr}
    (same : List.Forall₂ SameType exprs parts) :
    (parts.getLast?.map Expr.type).getD .unit = lastType exprs := by
  have types : exprs.map type = parts.map Expr.type :=
    map_eq_of_forall₂ (fun _ _ agree => agree.symm) same
  rw [lastType_eq, types, List.getLast?_map]

theorem arities_of_forall₂ {exprs : List SourceExpr} {parts : List Expr}
    (same : List.Forall₂ SameType exprs parts) :
    exprs.map lambdaArity = parts.map fun part => part.type.lambdaArity := by
  refine map_eq_of_forall₂ (fun e part agree => ?_) same
  rw [lambdaArity_eq, agree]

-- Put together from parts of the same types, a node has the type that the source gives it.
theorem Fits.type_assemble {e : SourceExpr} {parts : List Expr} (fits : Fits e parts)
    (same : List.Forall₂ SameType e.children parts) : (e.assemble parts).type = e.type := by
  cases fits with
  | lambda =>
      simp only [children, List.forall₂_cons, SameType] at same
      rw [assemble, Expr.type_located, type, ← same.1]
      simp [Expr.function, Expr.type, Expr.note, Note.typed, Function.comp_def]
  | bind =>
      simp only [children, List.forall₂_cons, SameType] at same
      rw [assemble, Expr.type_located, SourceExpr.type, ← same.2.1]
      rfl
  | conditional =>
      simp only [children, List.forall₂_cons, SameType] at same
      rw [assemble, Expr.type_located, type, ← same.2.1]
      rfl
  | sequence length =>
      rename_i exprs range
      have last : (parts.getLast?.map Expr.type).getD .unit = lastType exprs :=
        lastType_of_forall₂ same
      rw [assemble, Expr.type_located, type, ← last]
      rfl
  | _ => rfl

section
variable {r : Resolver}

theorem siteOf?_returnType {e : SourceExpr} {parts : List Expr} {site : CallSite}
    (made : e.siteOf? parts = some site) : site.returnType = e.type := by
  cases siteOf_of_eq_some made <;> rfl

theorem sameType_finish (typed : r.Typed) {e : SourceExpr} {parts : List Expr} {lowered : Expr}
    {log : Log} (same : List.Forall₂ SameType e.children parts)
    (finished : e.finish r parts = .ok (lowered, log)) : e.SameType lowered := by
  unfold finish at finished
  cases made : e.siteOf? parts with
  | some site =>
      simp only [made, Resolver.lowerCall] at finished
      split at finished
      · next resolution resolved =>
        cases finished
        exact (typed.type_resolve resolved).trans (siteOf?_returnType made)
      · cases finished
  | none =>
      simp only [made] at finished
      obtain ⟨rfl, _⟩ := (Logged.pure_eq_ok_iff _ _ _).mp finished
      exact (fits_of_siteOf?_eq_none made same.length_eq).type_assemble same

/-- What is lowered keeps its type. -/
theorem sameType_lower (typed : r.Typed) (e : SourceExpr) :
    ∀ lowered log, e.lower r = .ok (lowered, log) → e.SameType lowered := by
  induction e using induction_children with
  | step e ih =>
    intro lowered log succeeded
    rw [lower_eq] at succeeded
    obtain ⟨parts, _, _, row, finished, _⟩ := (Logged.bind_eq_ok_iff _ _ _ _).mp succeeded
    exact sameType_finish typed (forall₂_of_lowerAll r row ih) finished

theorem sameType_lowerAll (typed : r.Typed) {exprs : List SourceExpr} {parts : List Expr}
    {log : Log} (lowered : lowerAll r exprs = .ok (parts, log)) :
    List.Forall₂ SameType exprs parts :=
  forall₂_of_lowerAll r lowered fun e _ => e.sameType_lower typed

/-- The arities that the source gives a call site are those that its arguments show. -/
theorem arities_ofCall (typed : r.Typed) (member : MemberRef) (target : Option Expr)
    (generics : List ValueType) (range : Option SourceRange) {args : List SourceExpr}
    {lowered : List Expr} {log : Log} (row : lowerAll r args = .ok (lowered, log)) :
    (CallSite.ofCall member target lowered args generics range).lambdaArities =
      (CallSite.ofMember member target lowered).lambdaArities :=
  arities_of_forall₂ (sameType_lowerAll typed row)

theorem arities_of_site? (typed : r.Typed) {e : SourceExpr} {site : CallSite}
    (found : e.site? r = some site) :
    site.lambdaArities = site.args.map fun arg => arg.type.lambdaArity := by
  obtain ⟨parts, log, row, made⟩ := site?_eq_some_iff.mp found
  have same := sameType_lowerAll typed row
  cases siteOf_of_eq_some made with
  | bare => exact arities_of_forall₂ same
  | onReceiver => exact arities_of_forall₂ (List.forall₂_cons.mp same).2

theorem arities_of_entered (typed : r.Typed) {calls : List SourceExpr}
    {entries : List ResolvedCall} (entered : List.Forall₂ (EnteredAs r) calls entries) :
    ∀ entry ∈ entries,
      entry.site.lambdaArities = entry.site.args.map fun arg => arg.type.lambdaArity := by
  induction entered with
  | nil => simp
  | cons head tail ih => exact List.forall_mem_cons.mpr ⟨arities_of_site? typed head.1, ih⟩

end

/-- If handlers answer with the type that the called member returns, what is lowered has the type
of its source. Then the source knows no more about function arguments than their target types
show, neither at the call sites that are logged nor at those of a lowering that fails later. -/
theorem lowering_keeps_types (r : Resolver) (typed : r.Typed) (e : SourceExpr) :
    (∀ lowered log, e.lower r = .ok (lowered, log) →
      lowered.type = e.type ∧
        ∀ call ∈ log.calls,
          call.site.lambdaArities = call.site.args.map fun arg => arg.type.lambdaArity) ∧
    ∀ member receiver args generics range,
      .call member receiver args generics range ∈ e.subterms →
      ∀ target before parts after, lowerOption r receiver = .ok (target, before) →
        lowerAll r args = .ok (parts, after) →
        (CallSite.ofCall member target parts args generics range).lambdaArities =
          (CallSite.ofMember member target parts).lambdaArities := by
  constructor
  · intro lowered log succeeded
    have entered := (e.lower_resolves r).enters lowered log succeeded
    exact ⟨sameType_lower typed e lowered log succeeded, arities_of_entered typed entered⟩
  · intro member receiver args generics range _ target _ parts _ _ row
    exact arities_ofCall typed member target generics range row

/-- `let pick = fun x -> x in Math.Max(System.Random().Next(), List.fold(pick, fun x -> x))`. -/
def foldedDraw : SourceExpr :=
  let member (owner name : String) (kind : MemberKind) (returned : ValueType) : MemberRef :=
    ⟨owner, name, kind, false, [], [], [], returned⟩
  let identity := SourceExpr.lambda [⟨"x", .int32⟩] (.ident "x" .int32 none) none
  let fresh := SourceExpr.call (member "System.Random" ".ctor" .constructor .any) none [] [] none
  let draw := SourceExpr.call (member "System.Random" "Next" .method .int32) (some fresh) [] [] none
  let fold := SourceExpr.call (member "List" "fold" .method .int32) none
    [.ident "pick" (.lambda [.int32] .int32) none, identity] [] none
  .bind "pick" .any identity
    (.call (member "System.Math" "Max" .method .int32) none [draw, fold] [] none) none

def drawResolver : Resolver where
  registry := ⟨[Catalog.SeededRandom.extension]⟩
  builtins := ⟨[⟨Standard.mathOwner, "Max", Builtins.forward "Math" "max" [2]⟩]⟩
  options := {}

theorem typed_drawResolver : drawResolver.Typed where
  plugins extension member := by
    obtain rfl := List.mem_singleton.mp member
    exact Catalog.SeededRandom.typed_replace _
  builtins := Builtins.typed_replace _ _ fun entry member => by
    obtain rfl := List.mem_singleton.mp member
    exact Builtins.typed_forward _ _ _ _

theorem lowering_keeps_types_foldedDraw :
    drawResolver.Typed ∧ ∃ lowered log, foldedDraw.lower drawResolver = .ok (lowered, log) ∧
      lowered.type = .int32 ∧
      log.calls.map (fun call => call.site.lambdaArities) =
        [[], [], [some 1, some 1], [none, none]] ∧
      ∀ call ∈ log.calls,
        call.site.lambdaArities = call.site.args.map fun arg => arg.type.lambdaArity := by
  have kept := (lowering_keeps_types drawResolver typed_drawResolver foldedDraw).1 _ _ rfl
  exact ⟨typed_drawResolver, _, _, rfl, kept.1, rfl, kept.2⟩

end SourceExpr
end CallReplacement
