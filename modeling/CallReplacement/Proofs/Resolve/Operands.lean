import CallReplacement.Proofs.Resolve.Parametric
import CallReplacement.Proofs.Resolve.Patterns

/-!
The operands that the built-in replacements show. Each of them is shown once at most, with one
exception: the lower bound of a draw between two bounds is shown twice, whatever it is. The test of
a text for being empty shows its argument twice as well, but only if that is a name or a literal.
-/

namespace CallReplacement

section
variable {options : Options} {s t : CallSite} {indent : Indent} {imports : Imports} {depth : Nat}

/-! ## Members of objects of the target -/

namespace Builtins

theorem text_globalCall (object member : String) (args : List Expr) (type : ValueType) :
    ((globalCall object member args type).render indent imports depth).text =
      (Rendered.field object member).text ++
        Rendered.parenthesized (Rendered.list (args.map (Expr.render indent imports depth))) := by
  simp only [globalCall, Expr.render, Expr.renderAt, Expr.close, Rendered.call, Expr.renderAll_eq]
  rfl

/-- All arguments, in their order. -/
def argumentList (count : Nat) : List Fragment :=
  (List.range count).map fun index => .operand (.arg index) .assign

theorem map_text_argumentList (render : Expr → Rendered) :
    (argumentList s.args.length).map (Fragment.text s render) =
      (s.args.map render).map (·.atLeast .assign) := by
  apply List.ext_getElem
  · simp [argumentList]
  · intro index bound bound'
    simp only [List.length_map, argumentList, List.length_range] at bound
    simp [argumentList, Fragment.text, CallSite.operand?, bound]

theorem operands_argumentList (count : Nat) :
    Fragment.operands (argumentList count) = (List.range count).map .arg := by
  simp [argumentList, Fragment.operands, List.filterMap_map, Function.comp_def, Fragment.operand?]

theorem forward_showsOnce (object member : String) (allowed : List Nat) :
    (forward object member allowed).ShowsOnce := by
  intro options s e replaced
  unfold forward at replaced
  split at replaced
  · next allows =>
    refine ⟨.fixed (Rendered.field object member).text :: .fixed "(" ::
      (Fragment.commas (argumentList s.args.length) ++ [.fixed ")"]), ?_, ?_⟩
    · intro t like
      rw [like.args.length_eq] at allows ⊢
      refine ⟨_, if_pos allows, fun indent imports depth => ?_⟩
      simp only [text_globalCall, Fragment.filled_cons, Fragment.filled_append,
        Fragment.filled_commas, map_text_argumentList, Fragment.filled_nil]
      simp [Fragment.text, Rendered.parenthesized, Rendered.list, String.append_assoc]
    · intro o x _ _
      apply count_operands_le_one
      rw [Fragment.operands_fixed, Fragment.operands_fixed, Fragment.operands_append,
        Fragment.operands_commas, operands_argumentList]
      simpa using List.nodup_range.map (fun _ _ => Operand.arg.inj)
  · cases replaced

end Builtins

-- A text without operands.
theorem Replacer.showsOnce_of_fixed {replace : Replacer}
    (fixed : ∀ options s e, replace options s = .ok (some e) → ∃ text, ∀ t : CallSite,
      s.Like Expr.Exchangeable t → ∃ f, replace options t = .ok (some f) ∧
        ∀ indent imports depth, (f.render indent imports depth).text = text) :
    replace.ShowsOnce := by
  intro options s e replaced
  obtain ⟨text, shown⟩ := fixed options s e replaced
  refine ⟨[.fixed text], fun t like => ?_, fun o _ _ _ => Nat.zero_le 1⟩
  obtain ⟨f, replaced', rendered⟩ := shown t like
  refine ⟨f, replaced', fun indent imports depth => ?_⟩
  simpa [Fragment.text] using rendered indent imports depth

namespace Standard

theorem pi_showsOnce : Replacer.ShowsOnce pi := by
  apply Replacer.showsOnce_of_fixed
  intro options s e replaced
  refine ⟨"Math.PI", fun t like => ?_⟩
  unfold pi at replaced ⊢
  have args := like.args
  generalize s.args = given at args replaced
  generalize t.args = given' at args ⊢
  cases args with
  | nil => exact ⟨_, rfl, fun _ _ _ => rfl⟩
  | cons => cases replaced

namespace Random

theorem construct_showsOnce : Replacer.ShowsOnce construct := by
  apply Replacer.showsOnce_of_fixed
  intro options s e replaced
  refine ⟨"\x7b\x7d", fun t like => ?_⟩
  unfold construct at replaced ⊢
  have args := like.args
  generalize s.args = given at args replaced
  generalize t.args = given' at args ⊢
  rcases args with _ | ⟨first, _ | ⟨second, others⟩⟩
  · exact ⟨_, rfl, fun _ _ _ => rfl⟩
  · exact ⟨_, rfl, fun _ _ _ => rfl⟩
  · cases replaced

theorem nextDouble_showsOnce : Replacer.ShowsOnce nextDouble := by
  apply Replacer.showsOnce_of_fixed
  intro options s e replaced
  refine ⟨"Math.random()", fun t like => ?_⟩
  unfold nextDouble at replaced ⊢
  have args := like.args
  generalize s.args = given at args replaced
  generalize t.args = given' at args ⊢
  cases args with
  | nil => exact ⟨_, rfl, fun _ _ _ => rfl⟩
  | cons => cases replaced

-- What the template of a draw becomes.
theorem substitute_nextTemplate (min max : Rendered) :
    Template.substitute nextTemplate [min, max] =
      "Math.floor(Math.random() * (" ++ max.atLeast .call ++ " - " ++ min.atLeast .call ++ ")) + "
        ++ min.atLeast .call := by
  have cut : Text.segments '$' nextTemplate.toList =
      ("Math.floor(Math.random() * (".toList,
        ["1 - ".toList, "0)) + ".toList, "0".toList]) := by decide
  simp [Template.substitute, cut, Template.piece, Template.Piece.text, Template.index, String.join,
    String.append_assoc]

/-- The bounds of a draw. -/
def bounds : Nat → Option (Fragment × Fragment)
  | 0 => some (.fixed "0", .fixed "2147483647")
  | 1 => some (.fixed "0", .operand (.arg 0) .call)
  | 2 => some (.operand (.arg 0) .call, .operand (.arg 1) .call)
  | _ => none

def draw (min max : Fragment) : List Fragment :=
  [.fixed "Math.floor(Math.random() * (", max, .fixed " - ", min, .fixed ")) + ", min]

theorem text_draw {note : Note} {min max : Expr} {lower upper : Fragment}
    (first : (min.render indent imports depth).atLeast .call =
      lower.text t (Expr.render indent imports depth))
    (second : (max.render indent imports depth).atLeast .call =
      upper.text t (Expr.render indent imports depth)) :
    ((Expr.raw note nextTemplate [min, max]).render indent imports depth).text =
      Fragment.filled t (Expr.render indent imports depth) (draw lower upper) := by
  have substituted := substitute_nextTemplate (min.render indent imports depth)
    (max.render indent imports depth)
  rw [first, second] at substituted
  simp only [Expr.render, Expr.renderAt, Expr.close, Expr.renderAll] at substituted ⊢
  rw [substituted]
  simp [draw, Fragment.text, String.append_assoc]

theorem next_showsAs {e : Expr} (replaced : next options s = .ok (some e)) :
    ∃ min max, bounds s.args.length = some (min, max) ∧
      Replacer.ShowsAs next options s (draw min max) := by
  have atArgument {t : CallSite} {index : Nat} {x : Expr} (found : t.args[index]? = some x)
      (render : Expr → Rendered) :
      (render x).atLeast .call = (Fragment.operand (.arg index) .call).text t render := by
    simp [Fragment.text, CallSite.operand?, found]
  obtain ⟨min, max, found⟩ : ∃ min max, bounds s.args.length = some (min, max) := by
    unfold next at replaced
    rcases given : s.args with _ | ⟨first, _ | ⟨second, _ | ⟨third, others⟩⟩⟩
    · exact ⟨_, _, rfl⟩
    · exact ⟨_, _, rfl⟩
    · exact ⟨_, _, rfl⟩
    · rw [given] at replaced
      cases replaced
  refine ⟨min, max, found, fun t like => ?_⟩
  have args := like.args
  unfold next
  generalize s.args = given at args found
  generalize given' : t.args = args' at args ⊢
  rcases args with _ | ⟨_, _ | ⟨_, _ | ⟨_, _⟩⟩⟩
  · cases found
    exact ⟨_, rfl, fun indent imports depth => text_draw rfl rfl⟩
  · cases found
    exact ⟨_, rfl, fun indent imports depth => text_draw rfl (atArgument (by rw [given']; rfl) _)⟩
  · cases found
    exact ⟨_, rfl, fun indent imports depth =>
      text_draw (atArgument (by rw [given']; rfl) _) (atArgument (by rw [given']; rfl) _)⟩
  · cases found

-- Only between two bounds is the lower one an argument, and it has two places.
theorem count_draw {count : Nat} {min max : Fragment} (found : bounds count = some (min, max))
    (o : Operand) :
    (count = 2 ∧ o = .arg 0 → (Fragment.operands (draw min max)).count o = 2) ∧
      (¬ (count = 2 ∧ o = .arg 0) → (Fragment.operands (draw min max)).count o ≤ 1) := by
  match count, found with
  | 0, rfl => exact ⟨nofun, fun _ => count_operands_le_one (by decide) o⟩
  | 1, rfl => exact ⟨nofun, fun _ => count_operands_le_one (by decide) o⟩
  | 2, rfl =>
      refine ⟨?_, fun apart => ?_⟩
      · rintro ⟨_, rfl⟩
        decide
      · have other : Operand.arg 0 ≠ o := fun same => apart ⟨rfl, same.symm⟩
        change List.count o [.arg 1, .arg 0, .arg 0] ≤ 1
        rw [List.count_cons, List.count_cons_of_ne other, List.count_cons_of_ne other]
        split <;> simp

end Random

namespace Strings

theorem substitute_inlineTest (arg : Rendered) :
    Template.substitute inlineTest [arg] =
      arg.atLeast .call ++ " == null || " ++ arg.atLeast .call ++ ".length === 0" := by
  have cut : Text.segments '$' inlineTest.toList =
      ([], ["0 == null || ".toList, "0.length === 0".toList]) := by decide
  simp [Template.substitute, cut, Template.piece, Template.Piece.text, Template.index, String.join,
    String.append_assoc]

theorem substitute_boundTest (arg : Rendered) :
    Template.substitute boundTest [arg] =
      "((s) => s == null || s.length === 0)(" ++ arg.atLeast .call ++ ")" := by
  have cut : Text.segments '$' boundTest.toList =
      ("((s) => s == null || s.length === 0)(".toList, ["0)".toList]) := by decide
  simp [Template.substitute, cut, Template.piece, Template.Piece.text, Template.index, String.join,
    String.append_assoc]

/-- The test of the first argument for being empty. -/
def emptyPattern (repeatable : Bool) : List Fragment :=
  if repeatable then
    [.operand (.arg 0) .call, .fixed " == null || ", .operand (.arg 0) .call,
      .fixed ".length === 0"]
  else
    [.fixed "((s) => s == null || s.length === 0)(", .operand (.arg 0) .call, .fixed ")"]

theorem text_emptyTest {arg : Expr} (given : t.args = [arg]) :
    ((emptyTest arg).render indent imports depth).text =
      Fragment.filled t (Expr.render indent imports depth) (emptyPattern (isRepeatable arg)) := by
  have first := substitute_inlineTest (arg.render indent imports depth)
  have second := substitute_boundTest (arg.render indent imports depth)
  simp only [emptyTest, Expr.render, Expr.renderAt, Expr.close, Expr.renderAll] at first second ⊢
  cases isRepeatable arg
  · simp [second, emptyPattern, Fragment.text, CallSite.operand?, given, Expr.render,
      String.append_assoc]
  · simp [first, emptyPattern, Fragment.text, CallSite.operand?, given, Expr.render,
      String.append_assoc]

-- The argument is shown twice only where it is a name or a literal.
theorem isNullOrEmpty_showsOnce : Replacer.ShowsOnce isNullOrEmpty := by
  intro options s e replaced
  obtain ⟨arg, given⟩ : ∃ arg, s.args = [arg] := by
    unfold isNullOrEmpty at replaced
    generalize s.args = given at replaced ⊢
    rcases given with _ | ⟨arg, _ | ⟨_, _⟩⟩
    · cases replaced
    · exact ⟨arg, rfl⟩
    · cases replaced
  refine ⟨emptyPattern (isRepeatable arg), fun t like => ?_, fun o x found other => ?_⟩
  · have args := like.args
    rw [given] at args
    obtain ⟨arg', _, exchangeable, ⟨⟩, given'⟩ := List.forall₂_cons_left_iff.mp args
    rw [exchangeable.iff fun e => (Expr.isRepeatable_iff e).mp]
    refine ⟨emptyTest arg', ?_, fun indent imports depth => text_emptyTest given'⟩
    unfold isNullOrEmpty
    rw [given']
    rfl
  · cases repeatable : isRepeatable arg with
    | false => exact count_operands_le_one (by decide) o
    | true =>
        have apart : o ≠ .arg 0 := by
          rintro rfl
          rw [CallSite.operand?, given] at found
          cases found
          exact other ((Expr.isRepeatable_iff _).mp repeatable)
        simp [emptyPattern, apart.symm]

/-- The receiver in front of the name of a member. -/
def receiverPattern (isNumber : Bool) (name : String) : List Fragment :=
  if isNumber then
    [.fixed "(", .operand .receiver .sequence, .fixed ")", .fixed (Rendered.field "" name).text]
  else [.operand .receiver .call, .fixed (Rendered.field "" name).text]

theorem text_field {note : Note} {receiver : Expr} {name : String}
    (given : t.receiver = some receiver) :
    ((Expr.field note receiver name).render indent imports depth).text =
      Fragment.filled t (Expr.render indent imports depth)
        (receiverPattern receiver.isNumber name) := by
  have suffix (target : String) :
      (Rendered.field target name).text = target ++ (Rendered.field "" name).text := by
    unfold Rendered.field
    split <;> simp [String.append_assoc]
  simp only [Expr.render, Expr.renderAt, Expr.close, suffix (Expr.asTarget _ _)]
  unfold Expr.asTarget
  cases receiver.isNumber
  · simp [receiverPattern, Fragment.text, CallSite.operand?, given, Expr.render]
  · simp [receiverPattern, Fragment.text, CallSite.operand?, given, Expr.render,
      Rendered.parenthesized, Rendered.atLeast, Precedence.level, String.append_assoc]

-- A member of the receiver, for a call without arguments.
theorem showsOnce_of_member {replace : Replacer} (name suffix : String)
    (asks : ∀ options s e, replace options s = .ok (some e) → s.receiver.isSome ∧ s.args = [])
    (answers : ∀ options s receiver, s.receiver = some receiver → s.args = [] →
      ∃ e note, replace options s = .ok (some e) ∧ ∀ indent imports depth,
        (e.render indent imports depth).text =
          ((Expr.field note receiver name).render indent imports depth).text ++ suffix) :
    replace.ShowsOnce := by
  intro options s e replaced
  obtain ⟨present, none⟩ := asks options s e replaced
  obtain ⟨receiver, given⟩ := Option.isSome_iff_exists.mp present
  refine ⟨receiverPattern receiver.isNumber name ++ [.fixed suffix], fun t like => ?_,
    fun o _ _ _ => ?_⟩
  · have related := like.receiver
    have args := like.args
    rw [given] at related
    rw [none, List.forall₂_nil_left_iff] at args
    generalize given' : t.receiver = receiver' at related
    obtain ⟨exchangeable⟩ := related
    obtain ⟨e', note, replaced', rendered⟩ := answers options t _ given' args
    refine ⟨e', replaced', fun indent imports depth => ?_⟩
    rw [rendered, text_field given', exchangeable.iff fun _ => Expr.isAtom_of_isNumber]
    simp [Fragment.text]
  · apply count_operands_le_one
    cases receiver.isNumber <;> simp [receiverPattern]

theorem length_showsOnce : Replacer.ShowsOnce length := by
  apply showsOnce_of_member "length" ""
  · intro options s e replaced
    unfold length at replaced
    generalize s.args = args at replaced ⊢
    generalize s.receiver = receiver at replaced ⊢
    rcases receiver with _ | receiver
    · cases replaced
    · cases args with
      | nil => exact ⟨rfl, rfl⟩
      | cons => cases replaced
  · intro options s receiver given none
    refine ⟨.field (.typed s.returnType) receiver "length", .typed s.returnType, ?_, ?_⟩
    · unfold length
      rw [given, none]
    · simp

theorem method_showsOnce (name : String) : Replacer.ShowsOnce (method name) := by
  apply showsOnce_of_member name "()"
  · intro options s e replaced
    unfold method at replaced
    generalize s.args = args at replaced ⊢
    generalize s.receiver = receiver at replaced ⊢
    rcases receiver with _ | receiver
    · cases replaced
    · rcases args with _ | ⟨_, _ | ⟨_, _⟩⟩
      · exact ⟨rfl, rfl⟩
      all_goals cases replaced
  · intro options s receiver given none
    refine ⟨.call (.typed .string) .direct (.field (.typed .any) receiver name) [], .typed .any,
      ?_, ?_⟩
    · unfold method
      rw [given, none]
    · intro indent imports depth
      rfl

end Strings
end Standard

/-! ## The table -/

/-- Whether an entry is the one that draws an integer. -/
def Builtin.IsDraw (entry : Builtin) : Prop :=
  entry.owner = Standard.Random.owner ∧ entry.member = "Next"

instance (entry : Builtin) : Decidable entry.IsDraw :=
  inferInstanceAs (Decidable (_ ∧ _))

/-- Whether an entry draws an integer, or shows each operand once at most. -/
def Builtin.DrawsOrShowsOnce (entry : Builtin) : Prop :=
  (entry.IsDraw ∧ entry.replace = Standard.Random.next) ∨
    (¬ entry.IsDraw ∧ entry.replace.ShowsOnce)

/-- Whether an entry draws between two bounds, and the operand is the lower one. -/
def Builtin.Repeats (entry : Builtin) (s : CallSite) (o : Operand) : Prop :=
  entry.IsDraw ∧ s.args.length = 2 ∧ o = .arg 0

namespace Builtins

theorem standard_drawsOrShowsOnce {entry : Builtin} (inTable : entry ∈ standard.entries) :
    entry.DrawsOrShowsOnce := by
  cases standardEntry_of_mem inTable with
  | forward other => exact .inr ⟨fun draw => other draw.1, forward_showsOnce _ _ _⟩
  | pi => exact .inr ⟨by decide, Standard.pi_showsOnce⟩
  | construct => exact .inr ⟨by decide, Standard.Random.construct_showsOnce⟩
  | next => exact .inl ⟨by decide, rfl⟩
  | nextDouble => exact .inr ⟨by decide, Standard.Random.nextDouble_showsOnce⟩
  | isNullOrEmpty => exact .inr ⟨by decide, Standard.Strings.isNullOrEmpty_showsOnce⟩
  | length => exact .inr ⟨by decide, Standard.Strings.length_showsOnce⟩
  | method =>
      have apart : Standard.Strings.owner ≠ Standard.Random.owner := by decide
      exact .inr ⟨fun draw => apart draw.1, Standard.Strings.method_showsOnce _⟩

/-- The built-in replacements show each operand of the call that is neither a name nor a literal
once at most, but the lower bound of a draw between two bounds twice. -/
theorem standard_shows_operands {entry : Builtin} (inTable : entry ∈ standard.entries)
    {e : Expr} (replaced : entry.replace options s = .ok (some e)) :
    (∃ pattern, entry.replace.ShowsAs options s pattern) ∧
      ∀ pattern, entry.replace.ShowsAs options s pattern →
        ∀ o x, s.operand? o = some x → ¬ x.IsAtom →
          (entry.Repeats s o → (Fragment.operands pattern).count o = 2) ∧
          (¬ entry.Repeats s o → (Fragment.operands pattern).count o ≤ 1) := by
  rcases standard_drawsOrShowsOnce inTable with ⟨isDraw, draws⟩ | ⟨other, once⟩
  · rw [draws] at replaced ⊢
    obtain ⟨min, max, found, shown⟩ := Standard.Random.next_showsAs replaced
    refine ⟨⟨_, shown⟩, fun pattern shown' o x here noAtom => ?_⟩
    rw [shown.count_eq shown' here noAtom]
    obtain ⟨twice, once⟩ := Standard.Random.count_draw found o
    exact ⟨fun repeats => twice repeats.2, fun other => once fun lower => other ⟨isDraw, lower⟩⟩
  · obtain ⟨pattern, shown, counts⟩ := once options s e replaced
    refine ⟨⟨pattern, shown⟩, fun others shown' o x here noAtom => ?_⟩
    rw [shown.count_eq shown' here noAtom]
    exact ⟨fun repeats => absurd repeats.1 other, fun _ => counts o x here noAtom⟩

/-- A draw whose lower bound is the result of another call. -/
def drawFromRoll : CallSite :=
  .ofMember
    { entity := Standard.Random.owner, name := "Next", kind := .method, isInstance := true,
      attributes := [], generics := [], signature := [], returnType := .number .int32 }
    (some (.named "dice" .any))
    [.call (.typed .any) .direct (.named "roll" .any) [], .ofLiteral (.int 10)]

theorem drawFromRoll_rolls_twice :
    ∃ pattern, Standard.Random.next.ShowsAs {} drawFromRoll pattern ∧
      (Fragment.operands pattern).count (.arg 0) = 2 := by
  let entry : Builtin := ⟨Standard.Random.owner, "Next", Standard.Random.next⟩
  have inTable : entry ∈ standard.entries := List.mem_of_getElem? (i := 1) rfl
  obtain ⟨e, replaced⟩ : ∃ e, entry.replace {} drawFromRoll = .ok (some e) := ⟨_, rfl⟩
  obtain ⟨⟨pattern, shown⟩, counts⟩ := standard_shows_operands inTable replaced
  have lower := counts pattern shown (.arg 0) _ rfl nofun
  exact ⟨pattern, shown, lower.1 ⟨by decide, rfl, rfl⟩⟩

end Builtins
end

end CallReplacement
