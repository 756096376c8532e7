import CallReplacement.Proofs.Resolve.Decision
import CallReplacement.Resolve.Standard

/-!
A call site has one owner. It is the first extension that does not decline, and what comes of the
call is then its answer alone: neither the extensions behind it nor the table of built-in
replacements have a say. If all extensions decline, the owner is the replacement that the table has
for the member, and a call that nobody claims is left as written.
-/

namespace CallReplacement

/-- Whether an expression is the given one, at the call site unless it has a place of its own. -/
structure CallSite.Places (s : CallSite) (given placed : Expr) : Prop where
  unchanged : placed.located given.range = given
  range : placed.range = given.range.or s.range

theorem CallSite.places_place (s : CallSite) (e : Expr) : s.Places e (s.place e) := by
  unfold place
  split
  · next own =>
    obtain ⟨range, own⟩ := Option.isSome_iff_exists.mp own
    exact ⟨by cases e <;> rfl, by rw [own]; rfl⟩
  · next without =>
    have without : e.range = none := Option.not_isSome_iff_eq_none.mp without
    constructor
    · calc (e.located s.range).located e.range
          = e.located e.range := by cases e <;> rfl
        _ = e := by cases e <;> rfl
    · rw [without]
      cases e <;> rfl

namespace Resolver

/-- What comes of a call site for the one handler that owns it, by its answer. A failure says which
handler failed where, unless it is one of the compiler's own. -/
inductive Owned (s : CallSite) (handler : Handler) (name : String) :
    Except Failure (Option Expr) → Except Failure Resolution → Prop
  | claimed {given placed : Expr} : s.Places given placed →
      Owned s handler name (.ok (some given)) (.ok ⟨handler, placed⟩)
  | blamed {failure : Failure} : failure.compileFault? = none →
      Owned s handler name (.error failure)
        (.error (.handler name s.owner s.member s.range failure))
  | kept {failure : Failure} : failure.compileFault?.isSome →
      Owned s handler name (.error failure) (.error failure)

theorem owned_settled (s : CallSite) (handler : Handler) (name : String)
    {answer : Except Failure (Option Expr)} (answers : answer ≠ .ok none) :
    Owned s handler name answer (settled s handler name answer) := by
  cases answer with
  | error failure =>
      rw [settled, CallSite.blame]
      split
      · next own => exact .kept own
      · next other => exact .blamed (Option.not_isSome_iff_eq_none.mp other)
  | ok result =>
      cases result with
      | none => exact absurd rfl answers
      | some e => exact .claimed (s.places_place e)

/-- Whether all extensions that replace calls decline the call site. -/
def AllDecline (options : Options) (s : CallSite) (extensions : List Extension) : Prop :=
  ∀ name replace, .replaceCall name replace ∈ extensions → replace options s = .ok none

section
variable {registry : Registry} {builtins : Builtins} {options : Options} {s : CallSite}

theorem AllDecline.declines {extensions : List Extension}
    (decline : AllDecline options s extensions) :
    ∀ extension ∈ extensions.filterMap Extension.replacer?,
      Declines ⟨registry, builtins, options⟩ s extension := by
  intro extension member
  obtain ⟨given, inList, replaces⟩ := List.mem_filterMap.mp member
  cases given with
  | transformAst name transform => cases replaces
  | replaceCall name replace =>
      cases replaces
      exact decline name replace inList

/-- All extensions decline, or there is a first one that does not. -/
theorem allDecline_or_first (options : Options) (s : CallSite) (extensions : List Extension) :
    AllDecline options s extensions ∨
      ∃ before name replace after, extensions = before ++ .replaceCall name replace :: after ∧
        AllDecline options s before ∧ replace options s ≠ .ok none := by
  rcases forall_or_first (fun extension => ∀ name replace, extension = .replaceCall name replace →
      replace options s = .ok none) extensions with all | ⟨before, x, after, split, decline, answers⟩
  · exact .inl fun name replace member => all _ member name replace rfl
  · simp only [not_forall] at answers
    obtain ⟨name, replace, rfl, answers⟩ := answers
    exact .inr ⟨before, name, replace, after, split,
      fun other replace' member => decline _ member other replace' rfl, answers⟩

theorem decides_first {before : List Extension} {name : String} {replace : Replacer}
    (decline : AllDecline options s before) (answers : replace options s ≠ .ok none)
    (after : List Extension) (builtins : Builtins) :
    Decides ⟨⟨before ++ .replaceCall name replace :: after⟩, builtins, options⟩ s (.plugin name)
      name (replace options s) := by
  have replacers : Registry.callReplacers ⟨before ++ .replaceCall name replace :: after⟩ =
      before.filterMap Extension.replacer? ++
        (name, replace) :: after.filterMap Extension.replacer? := by
    simp [Registry.callReplacers, Extension.replacer?]
  exact .plugin replacers decline.declines answers

theorem decides_builtin {extensions : List Extension} (decline : AllDecline options s extensions)
    (builtins : Builtins) :
    Decides ⟨⟨extensions⟩, builtins, options⟩ s .builtin "builtin" (builtins.replace options s) :=
  .builtin decline.declines

end

/-- The first extension that does not decline settles a call site alone, whatever is registered
behind it and whatever the table holds. If there is none, the replacement of the table for the
member does, or the call is left as written. -/
theorem first_answer_owns_call (options : Options) (s : CallSite) :
    (∀ before name replace, AllDecline options s before → replace options s ≠ .ok none →
      ∃ outcome, Owned s (.plugin name) name (replace options s) outcome ∧
        ∀ after builtins, resolve
          ⟨⟨before ++ .replaceCall name replace :: after⟩, builtins, options⟩ s = outcome) ∧
    (∀ extensions builtins, AllDecline options s extensions →
      (∀ replace, builtins.find? s.owner s.member = some replace → replace options s ≠ .ok none →
        Owned s .builtin "builtin" (replace options s)
          (resolve ⟨⟨extensions⟩, builtins, options⟩ s)) ∧
      ((∀ replace, builtins.find? s.owner s.member = some replace → replace options s = .ok none) →
        resolve ⟨⟨extensions⟩, builtins, options⟩ s = .ok ⟨.passThrough, s.asWritten⟩)) ∧
    ∀ extensions, AllDecline options s extensions ∨
      ∃ before name replace after, extensions = before ++ .replaceCall name replace :: after ∧
        AllDecline options s before ∧ replace options s ≠ .ok none := by
  refine ⟨?_, ?_, allDecline_or_first options s⟩
  · intro before name replace decline answers
    refine ⟨settled s (.plugin name) name (replace options s), owned_settled s _ _ answers, ?_⟩
    intro after builtins
    exact (decides_first decline answers after builtins).resolve
  · intro extensions builtins decline
    have settles := (decides_builtin decline builtins).resolve
    constructor
    · intro replace entry answers
      have asked : builtins.replace options s = replace options s := by
        simp only [Builtins.replace, entry]
      rw [settles, asked]
      exact owned_settled s _ _ answers
    · intro declines
      have asked : builtins.replace options s = .ok none := by
        unfold Builtins.replace
        cases entry : builtins.find? s.owner s.member with
        | none => rfl
        | some replace => exact declines replace entry
      rw [settles, asked]
      rfl

/-- A draw of a number below ten. -/
def drawBelowTen : CallSite :=
  { CallSite.ofMember ⟨"System.Random", "Next", .method, true, [], [.int32], [], .int32⟩
      (some (.named "random" .any)) [.ofLiteral (.int 10)] with
    range := some ⟨none, ⟨3, 4⟩, ⟨3, 19⟩⟩ }

def moving : Extension := .transformAst "move" fun _ file => .ok { file with path := "Moved.fs" }

/-- Answers the calls of members of one owner. -/
def answering (owner : String) (answer : Except Failure (Option Expr)) : Replacer :=
  fun _ site => if site.owner = owner then answer else .ok none

-- The number has no place of its own, so it gets the one of the draw.
theorem dice_own_draw :
    let before := [moving, .replaceCall "trace" (answering "System.Trace" (.error (.message "off")))]
    let four := Expr.ofLiteral (.int 4)
    let dice := answering "System.Random" (.ok (some four))
    AllDecline {} drawBelowTen before ∧ dice {} drawBelowTen ≠ .ok none ∧
      (∀ after builtins, resolve
        ⟨⟨before ++ .replaceCall "dice" dice :: after⟩, builtins, {}⟩ drawBelowTen =
          .ok ⟨.plugin "dice", four.located drawBelowTen.range⟩) ∧
      Builtins.standard.find? drawBelowTen.owner drawBelowTen.member = some Standard.Random.next ∧
      Owned drawBelowTen .builtin "builtin" (Standard.Random.next {} drawBelowTen)
        (resolve ⟨⟨before⟩, .standard, {}⟩ drawBelowTen) ∧
      Builtins.empty.find? drawBelowTen.owner drawBelowTen.member = none ∧
      resolve ⟨⟨before⟩, .empty, {}⟩ drawBelowTen = .ok ⟨.passThrough, drawBelowTen.asWritten⟩ := by
  intro before four dice
  have decline : AllDecline {} drawBelowTen before := by
    intro name replace member
    simp only [before, moving, List.mem_cons, Extension.replaceCall.injEq, List.not_mem_nil,
      reduceCtorEq, false_or, or_false] at member
    obtain ⟨_, rfl⟩ := member
    rfl
  have answers : dice {} drawBelowTen ≠ .ok none := by
    intro declined
    cases declined
  have found : Builtins.standard.find? drawBelowTen.owner drawBelowTen.member =
      some Standard.Random.next := rfl
  have absent : Builtins.empty.find? drawBelowTen.owner drawBelowTen.member = none := rfl
  obtain ⟨first, others, _⟩ := first_answer_owns_call {} drawBelowTen
  obtain ⟨outcome, _, alone⟩ := first before "dice" dice decline answers
  have claimed : outcome = .ok ⟨.plugin "dice", four.located drawBelowTen.range⟩ :=
    (alone [] .empty).symm.trans rfl
  refine ⟨decline, answers, ?_, found, ?_, absent, ?_⟩
  · intro after builtins
    exact (alone after builtins).trans claimed
  · refine (others before .standard decline).1 _ found ?_
    intro declined
    cases declined
  · refine (others before .empty decline).2 fun replace entry => ?_
    cases absent.symm.trans entry

end Resolver
end CallReplacement
