import CallReplacement.Proofs.Catalog.Annotations
import CallReplacement.Proofs.Pipeline.FirstFailure
import CallReplacement.Proofs.Resolve.CallLog
import CallReplacement.Proofs.Resolve.Refusals

/-!
`seeded-random` beside the built-in draw. Each of the two states the bounds of a draw by itself, but
for any number of arguments they state the same ones or refuse the call in the same words. So a file
is compiled with the extension if and only if it is compiled without it, and the draws, nested or
not, are between the same bounds.
-/

namespace CallReplacement

/-- Whether this is a call of `System.Random.Next`. -/
def CallSite.IsDraw (s : CallSite) : Prop := s.owner = "System.Random" ∧ s.member = "Next"

theorem CallSite.Like.isDraw_iff {R : Expr → Expr → Prop} {s t : CallSite} (like : s.Like R t) :
    s.IsDraw ↔ t.IsDraw := by
  unfold CallSite.IsDraw
  rw [like.owner, like.member]

namespace Catalog.SeededRandom

open Standard.Random (bounds? nextTemplate)

/-- The handlers of a run without extensions. -/
abbrev plain (options : Options) : Resolver := ⟨.empty, .standard, options⟩

/-- The handlers of a run with this extension. -/
abbrev seeded (options : Options) : Resolver := ⟨⟨[extension]⟩, .standard, options⟩

/-- A draw as the built-in template. -/
def inTemplate (note : Note) (bounds : List Expr) : Expr := .raw note nextTemplate bounds

/-- A draw as a call of the helper. -/
def inHelper (note : Note) (bounds : List Expr) : Expr := .call note .direct helper bounds

/-- What the call site of a draw is resolved to, in the form of its handler. -/
def resolveDraw (handler : Handler) (form : Note → List Expr → Expr) (s : CallSite) :
    Except Failure Resolution :=
  match bounds? s.args with
  | some (min, max) => .ok ⟨handler, s.place (form (.typed s.returnType) [min, max])⟩
  | none => .error s.unsupportedShape

/-! ## One call site -/

-- The two statements of the bounds agree on every number of arguments.
theorem helperArgs?_eq (args : List Expr) :
    helperArgs? args = (bounds? args).map fun bounds => [bounds.1, bounds.2] := by
  rcases args with _ | ⟨first, _ | ⟨second, _ | ⟨third, others⟩⟩⟩ <;> rfl

section
variable {options : Options} {s : CallSite}

theorem replace_of_draw (draw : s.IsDraw) :
    replace options s = match bounds? s.args with
      | some (min, max) => .ok (some (.call (.typed s.returnType) .direct helper [min, max]))
      | none => .error s.unsupportedShape := by
  unfold replace
  rw [if_pos (by simp [draw.1, draw.2]), helperArgs?_eq]
  cases bounds? s.args <;> rfl

theorem replace_of_other (other : ¬ s.IsDraw) : replace options s = .ok none :=
  if_neg (by simpa [CallSite.IsDraw] using other)

theorem standard_of_draw (draw : s.IsDraw) :
    Builtins.standard.replace options s = match bounds? s.args with
      | some (min, max) => .ok (some (.raw (.typed s.returnType) nextTemplate [min, max]))
      | none => .error s.unsupportedShape := by
  have entry : Builtins.standard.find? "System.Random" "Next" = some Standard.Random.next := rfl
  simp only [Builtins.replace, draw.1, draw.2, entry]
  rfl

/-- Without the extension a draw is made of the built-in template. -/
theorem plain_of_draw (draw : s.IsDraw) :
    (plain options).resolve s = resolveDraw .builtin inTemplate s := by
  have decides : (plain options).Decides s .builtin "builtin" _ := .builtin (List.forall_mem_nil _)
  rw [decides.resolve, standard_of_draw draw, resolveDraw]
  cases bounds? s.args <;> rfl

/-- With the extension a draw is a call of the helper. -/
theorem seeded_of_draw (draw : s.IsDraw) :
    (seeded options).resolve s = resolveDraw (.plugin name) inHelper s := by
  have answers : ¬ (seeded options).Declines s (name, replace) := by
    change ¬ replace options s = .ok none
    rw [replace_of_draw draw]
    cases bounds? s.args <;> exact nofun
  have extensions : (seeded options).registry.callReplacers = [] ++ (name, replace) :: [] := rfl
  have decides := Resolver.Decides.plugin extensions (List.forall_mem_nil _) answers
  rw [decides.resolve]
  change Resolver.settled s _ name (replace options s) = _
  rw [replace_of_draw draw, resolveDraw]
  cases bounds? s.args <;> rfl

-- The extension does not disturb the decision on any other call.
theorem seeded_of_other (other : ¬ s.IsDraw) :
    (seeded options).resolve s = (plain options).resolve s := by
  have declined : replace options s = .ok none := replace_of_other other
  have declines : (seeded options).Declines s (name, replace) := declined
  have beside : (seeded options).Decides s .builtin "builtin" _ :=
    .builtin (List.forall_mem_singleton.mpr declines)
  have alone : (plain options).Decides s .builtin "builtin" _ := .builtin (List.forall_mem_nil _)
  rw [beside.resolve, alone.resolve]

end

/-! ## Two runs -/

/-- Whether the second expression is the first one with calls of the helper in the place of draws
from the built-in template. -/
inductive Reseeded : Expr → Expr → Prop
  | node {e f : Expr} : Expr.Layer Reseeded e f → Reseeded e f
  | draw {note note' : Note} {min min' max max' : Expr} : Reseeded min min' → Reseeded max max' →
      Reseeded (.raw note nextTemplate [min, max]) (.call note' .direct helper [min', max'])

theorem congruent_reseeded : Expr.Congruent Reseeded where
  node := .node
  noted n n' related := by
    cases related with
    | node layer => exact .node (layer.withNote n n')
    | draw min max => exact .draw min max

-- A draw may not be written twice, in whichever form.
theorem Reseeded.emptyTest {e f : Expr} (related : Reseeded e f) :
    Reseeded (Standard.Strings.emptyTest e) (Standard.Strings.emptyTest f) := by
  have repeatable : Standard.Strings.isRepeatable e = Standard.Strings.isRepeatable f := by
    cases related with
    | node layer => cases layer <;> rfl
    | draw => rfl
  unfold Standard.Strings.emptyTest
  rw [repeatable]
  exact .node (.raw (.cons related .nil))

theorem parametric_standard (options : Options) :
    Replacer.Parametric Reseeded options Builtins.standard.replace :=
  Builtins.parametric_standard congruent_reseeded fun _ _ => Reseeded.emptyTest

theorem bounds?_related {args args' : List Expr} (related : List.Forall₂ Reseeded args args') :
    Option.Rel (fun b b' => Reseeded b.1 b'.1 ∧ Reseeded b.2 b'.2) (bounds? args) (bounds? args') := by
  have constant (value : Literal) : Reseeded (.ofLiteral value) (.ofLiteral value) :=
    congruent_reseeded.ofLiteral value
  rcases related with _ | ⟨first, _ | ⟨second, _ | ⟨third, others⟩⟩⟩
  · exact .some ⟨constant _, constant _⟩
  · exact .some ⟨constant _, first⟩
  · exact .some ⟨first, second⟩
  · exact .none

/-- Whether two entries are of one call, which passes from the table to the extension if it is a
draw and keeps its handler if not. -/
structure HandedOver (c d : ResolvedCall) : Prop where
  draw : c.site.IsDraw → c.handler = .builtin ∧ d.handler = .plugin name
  other : ¬ c.site.IsDraw → c.handler = d.handler

theorem seeded_follows (options : Options) :
    Resolver.Follows Reseeded HandedOver (plain options) (seeded options) := by
  intro s t like x resolved
  by_cases draw : s.IsDraw
  · have bounds := bounds?_related like.args
    rw [plain_of_draw draw, resolveDraw] at resolved
    rw [seeded_of_draw (like.isDraw_iff.mp draw), resolveDraw]
    generalize bounds? s.args = given at bounds resolved
    generalize bounds? t.args = given' at bounds ⊢
    cases bounds with
    | none => cases resolved
    | some related =>
        cases resolved
        have drawn : Reseeded (inTemplate (.typed s.returnType) [_, _])
            (inHelper (.typed t.returnType) [_, _]) := .draw related.1 related.2
        exact ⟨_, rfl, CallSite.place_related congruent_reseeded s t drawn, fun _ => ⟨rfl, rfl⟩,
          fun other => absurd draw other⟩
  · have alone : (plain options).Follows Reseeded ResolvedCall.Alike (plain options) :=
      Resolver.follows_of_parametric congruent_reseeded (List.forall_mem_nil _)
        (parametric_standard options)
    obtain ⟨y, resolved', related, alike⟩ := alone s t like x resolved
    rw [seeded_of_other (like.isDraw_iff.not.mp draw)]
    exact ⟨y, resolved', related, fun own => absurd own draw, fun _ => alike.handler⟩

theorem seeded_refusesAlike (options : Options) :
    Resolver.RefusesAlike Reseeded (plain options) (seeded options) := by
  intro s t like range failure failed
  by_cases draw : s.IsDraw
  · have bounds := bounds?_related like.args
    rw [plain_of_draw draw, resolveDraw] at failed
    rw [seeded_of_draw (like.isDraw_iff.mp draw), resolveDraw, ← like.unsupportedShape range]
    generalize bounds? s.args = given at bounds failed
    generalize bounds? t.args = given' at bounds ⊢
    cases bounds with
    | none => exact failed
    | some related => cases failed
  · have alone : (plain options).RefusesAlike Reseeded (plain options) :=
      Resolver.refusesAlike_of_shapes (List.forall_mem_nil _) (parametric_standard options)
        Builtins.refusesShapes_standard
    rw [seeded_of_other (like.isDraw_iff.not.mp draw)]
    exact alone s t like range failure failed

/-! ## Each draw -/

/-- A bound of a draw: a constant, or an argument of the call. -/
inductive Bound
  | constant (value : Int64)
  | argument (e : SourceExpr)

namespace Bound

/-- The bounds that a call with these arguments draws between. -/
def ofArgs? : List SourceExpr → Option (Bound × Bound)
  | [] => some (constant 0, constant 2147483647)
  | [max] => some (constant 0, argument max)
  | [min, max] => some (argument min, argument max)
  | _ => none

/-- Whether the bound becomes this expression: a constant becomes a literal, and an argument what it
is lowered to. -/
inductive Becomes (r : Resolver) : Bound → Expr → Prop
  | constant {value : Int64} : Becomes r (constant value) (.ofLiteral (.int value))
  | argument {e : SourceExpr} {part : Expr} {log : Log} :
      e.lower r = .ok (part, log) → Becomes r (argument e) part

theorem becomes_bounds? {r : Resolver} {args : List SourceExpr} {parts : List Expr}
    (lowered : List.Forall₂ (fun e part => ∃ log, e.lower r = .ok (part, log)) args parts)
    {min max : Expr} (bounds : bounds? parts = some (min, max)) :
    ∃ lower upper, ofArgs? args = some (lower, upper) ∧ lower.Becomes r min ∧ upper.Becomes r max := by
  rcases lowered with _ | ⟨⟨_, first⟩, _ | ⟨⟨_, second⟩, _ | ⟨third, others⟩⟩⟩
  · cases bounds
    exact ⟨_, _, rfl, .constant, .constant⟩
  · cases bounds
    exact ⟨_, _, rfl, .constant, .argument first⟩
  · cases bounds
    exact ⟨_, _, rfl, .argument first, .argument second⟩
  · cases bounds

end Bound

/-- Whether the expression is a call of `System.Random.Next` with these arguments. -/
inductive Draws : SourceExpr → List SourceExpr → Prop
  | call {member : MemberRef} {receiver : Option SourceExpr} {args : List SourceExpr}
      {generics : List ValueType} {range : Option SourceRange} :
      member.entity = "System.Random" → member.memberName = "Next" →
      Draws (.call member receiver args generics range) args

/-- Whether the call becomes a draw in this form, between what the two bounds become. -/
def BecomesDraw (r : Resolver) (form : Note → List Expr → Expr) (call : SourceExpr)
    (lower upper : Bound) : Prop :=
  ∃ note min max log, call.lower r = .ok (form note [min, max], log) ∧
    lower.Becomes r min ∧ upper.Becomes r max

/-- The call site of a draw has the arguments of the call, lowered one by one. -/
theorem Draws.site {r : Resolver} {call : SourceExpr} {args : List SourceExpr}
    (draws : Draws call args) {s : CallSite} (found : call.site? r = some s) :
    s.IsDraw ∧ List.Forall₂ (fun e part => ∃ log, e.lower r = .ok (part, log)) args s.args := by
  obtain ⟨parts, log, lowered, made⟩ := SourceExpr.site?_eq_some_iff.mp found
  have row : List.Forall₂ (fun e part => ∃ log, e.lower r = .ok (part, log)) call.children parts :=
    SourceExpr.forall₂_of_lowerAll r lowered fun e _ part log done => ⟨log, done⟩
  cases draws with
  | @call member receiver args generics range entity memberName =>
      cases receiver with
      | none =>
          cases made
          exact ⟨⟨entity, memberName⟩, row⟩
      | some target =>
          rcases row with _ | ⟨_, row⟩
          cases made
          exact ⟨⟨entity, memberName⟩, row⟩

theorem Draws.becomes {r : Resolver} {handler : Handler} {form : Note → List Expr → Expr}
    (resolves : ∀ s : CallSite, s.IsDraw → r.resolve s = resolveDraw handler form s)
    (noted : ∀ note note' bounds, (form note bounds).withNote note' = form note' bounds)
    {call : SourceExpr} {args : List SourceExpr} (draws : Draws call args)
    (answered : call.Answered r) :
    ∃ lower upper, Bound.ofArgs? args = some (lower, upper) ∧
      BecomesDraw r form call lower upper := by
  obtain ⟨s, x, found, resolved⟩ := answered
  obtain ⟨draw, row⟩ := draws.site found
  obtain ⟨log, lowered⟩ := SourceExpr.lower_of_site? found resolved
  rw [resolves s draw, resolveDraw] at resolved
  split at resolved
  · next min max bounds =>
    cases resolved
    obtain ⟨lower, upper, stated, first, second⟩ := Bound.becomes_bounds? row bounds
    obtain ⟨note, placed⟩ := s.place_eq_withNote (form (.typed s.returnType) [min, max])
    rw [placed, noted] at lowered
    exact ⟨lower, upper, stated, note, min, max, log, lowered, first, second⟩
  · cases resolved

/-- Whether two lowered forms of a file, the second with the extension, agree on each draw in it. -/
def DrawsAlike (file : SourceFile) (options : Options) : Prop :=
  ∀ call ∈ file.calls, ∀ args, Draws call args → ∃ lower upper,
    Bound.ofArgs? args = some (lower, upper) ∧
      BecomesDraw (plain options) inTemplate call lower upper ∧
      BecomesDraw (seeded options) inHelper call lower upper

theorem drawsAlike_of_lowered {file : SourceFile} {options : Options} {m m' : Module}
    {log log' : Log} (without : file.lower (plain options) = .ok (m, log))
    (beside : file.lower (seeded options) = .ok (m', log')) : DrawsAlike file options := by
  intro call member args draws
  have listed : call ∈ file.callsPostorder := file.callsPostorder_perm.mem_iff.mpr member
  have answered := SourceExpr.answered_of_forall₂
    ((file.lower_resolves (plain options)).enters m log without) call listed
  have answered' := SourceExpr.answered_of_forall₂
    ((file.lower_resolves (seeded options)).enters m' log' beside) call listed
  obtain ⟨lower, upper, stated, becomes⟩ := draws.becomes (fun _ => plain_of_draw) (fun _ _ _ => rfl) answered
  obtain ⟨_, _, stated', becomes'⟩ := draws.becomes (fun _ => seeded_of_draw) (fun _ _ _ => rfl) answered'
  cases stated.symm.trans stated'
  exact ⟨lower, upper, stated, becomes, becomes'⟩

end Catalog.SeededRandom

namespace Pipeline

open Catalog.SeededRandom

/-- Whether two runs on a file, the second with the extension, differ in the form of draws alone:
the draws are between the same bounds, the calls are the same ones, with the same handlers but for the
draws, and so are the modules. -/
structure AgreeOnDraws (file : SourceFile) (options : Options) (without beside : Context) : Prop where
  draws : DrawsAlike file options
  keys : without.calls.map ResolvedCall.key = beside.calls.map ResolvedCall.key
  handlers : List.Forall₂ HandedOver without.calls beside.calls
  target : ∃ m m', without.target = some m ∧ beside.target = some m' ∧ m.Like Reseeded m'

/-- A file that is compiled with the standard table is compiled with `seeded-random` beside it, and
the draws keep their bounds; and a file that is refused without it is refused with it, with the same
failure. -/
theorem seeded_random_compiles_alike (file : SourceFile) (options : Options) :
    (∀ failure, run ⟨.empty, .standard, []⟩ file options = .error failure ↔
      run ⟨⟨[extension]⟩, .standard, []⟩ file options = .error failure) ∧
    ∀ without beside, run ⟨.empty, .standard, []⟩ file options = .ok without →
      run ⟨⟨[extension]⟩, .standard, []⟩ file options = .ok beside →
      AgreeOnDraws file options without beside := by
  have node : ∀ e f, Expr.Layer Reseeded e f → Reseeded e f := fun _ _ => .node
  have follows := seeded_follows options
  cases lowered : file.lower (plain options) with
  | error cause =>
      have refused := file.lower_refuses node follows (seeded_refusesAlike options) lowered
      have ran := run_of_refused rfl lowered
      have ran' := run_of_refused rfl refused
      refine ⟨fun failure => by rw [ran, ran'], fun without beside done => ?_⟩
      cases ran.symm.trans done
  | ok answer =>
      obtain ⟨m, log⟩ := answer
      obtain ⟨m', log', lowered', like, handlers⟩ :=
        SourceFile.lower_follows node follows (.refl file) m log lowered
      have ran := run_of_lowered rfl lowered
      have ran' := run_of_lowered rfl lowered'
      refine ⟨fun failure => ?_, fun without beside done done' => ?_⟩
      · rw [ran, ran']
        constructor <;> (intro failed; cases failed)
      · cases ran.symm.trans done
        cases ran'.symm.trans done'
        have keys : log.keys = log'.keys :=
          (file.lower_records _ m log lowered).trans (file.lower_records _ m' log' lowered').symm
        exact ⟨drawsAlike_of_lowered lowered lowered', keys, handlers, m, m', rfl, rfl, like⟩

/-- A call of `dice.Next`. -/
def diceDraw (args : List SourceExpr) : SourceExpr :=
  .call ⟨"System.Random", "Next", .method, true, [], [], [], .number .int32⟩
    (some (.ident "dice" .any none)) args [] none

/-- `dice.Next(dice.Next(), dice.Next(6))`. -/
def nestedDraws : SourceFile :=
  ⟨"Dice.fs", [⟨"roll", true,
    diceDraw [diceDraw [], diceDraw [.const (.int 6) (.number .int32) none]], none⟩]⟩

/-- `dice.Next(dice.Next(), 1, 6)`, which no draw accepts. -/
def crowdedDraw : SourceFile :=
  let number (n : Int64) := SourceExpr.const (.int n) (.number .int32) none
  ⟨"Dice.fs", [⟨"roll", true, diceDraw [diceDraw [], number 1, number 6], none⟩]⟩

theorem nested_draws_compile_alike :
    (∃ without beside, run ⟨.empty, .standard, []⟩ nestedDraws {} = .ok without ∧
      run ⟨⟨[extension]⟩, .standard, []⟩ nestedDraws {} = .ok beside ∧
      without.calls.map ResolvedCall.handler = [.builtin, .builtin, .builtin] ∧
      beside.calls.map ResolvedCall.handler = [.plugin name, .plugin name, .plugin name] ∧
      AgreeOnDraws nestedDraws {} without beside) ∧
    ∃ failure, run ⟨.empty, .standard, []⟩ crowdedDraw {} = .error failure ∧
      run ⟨⟨[extension]⟩, .standard, []⟩ crowdedDraw {} = .error failure := by
  constructor
  · refine ⟨_, _, rfl, rfl, rfl, rfl, ?_⟩
    exact (seeded_random_compiles_alike nestedDraws {}).2 _ _ rfl rfl
  · let failure := Failure.callShape "System.Random" "Next" 3 none
    exact ⟨failure, rfl, ((seeded_random_compiles_alike crowdedDraw {}).1 failure).mp rfl⟩

end Pipeline
end CallReplacement
