import CallReplacement.Proofs.Script.Filling
import CallReplacement.Resolve.Standard.Random

/-!
Expressions as templates. An expression whose names with a dollar sign are all placeholders may be
written down as a template; filled with arguments, the text is read as the expression with the trees
of the arguments in the places of the placeholders. Whether an argument needs parentheses is decided
without a look at the template, and yet it binds tightly enough wherever a placeholder may stand.
-/

namespace CallReplacement

open JavaScript
open Template (IsDigits Fills)

/-- The number of the argument that a name stands for in a template. -/
def placeholder? (name : String) : Option Nat :=
  match name.toList with
  | '$' :: digits =>
      if digits ≠ [] ∧ digits.all Char.isDigit then some (Nat.ofDigitChars 10 digits 0) else none
  | _ => none

theorem placeholder?_eq_some_iff {name : String} {index : Nat} :
    placeholder? name = some index ↔
      ∃ digits, name.toList = '$' :: digits ∧ IsDigits digits ∧ Template.index digits = index := by
  unfold placeholder?
  constructor
  · intro found
    split at found
    · next digits chars =>
      split at found
      · next run =>
        cases found
        exact ⟨digits, chars, ⟨run.1, List.all_eq_true.mp run.2⟩, rfl⟩
      · cases found
    · cases found
  · rintro ⟨digits, chars, ⟨nonempty, all⟩, rfl⟩
    rw [chars]
    exact if_pos ⟨nonempty, List.all_eq_true.mpr all⟩

theorem Text.dollar_not_mem_quoted {text : String} (noDollar : '$' ∉ text.toList) :
    '$' ∉ (quoted text).toList :=
  not_mem_quoted (by decide) fun inside => absurd inside noDollar

namespace Expr

section
variable (args : List Expr)

mutual

/-- The expression with arguments in the places of the placeholders that stand for one. -/
def filled : Expr → Expr
  | .ident note binding =>
      ((placeholder? binding.name).bind (args[·]?)).getD (.ident note binding)
  | .field note target name => .field note (filled target) name
  | .index note target key => .index note (filled target) (filled key)
  | .call note style callee parts => .call note style (filled callee) (filledAll parts)
  | .cast note operand => .cast note (filled operand)
  | .unary note op operand => .unary note op (filled operand)
  | .binary note op left right => .binary note op (filled left) (filled right)
  | .logical note op left right => .logical note op (filled left) (filled right)
  | .conditional note guard yes no => .conditional note (filled guard) (filled yes) (filled no)
  | .sequence note exprs => .sequence note (filledAll exprs)
  | e => e

def filledAll : List Expr → List Expr
  | [] => []
  | e :: rest => filled e :: filledAll rest

end

end

/-- Whether dollar signs of the node itself begin placeholders. Members are those of other names. -/
def DollarsNode : Expr → Prop
  | .ident _ binding => '$' ∈ binding.name.toList → (placeholder? binding.name).isSome
  | .field _ (.ident _ binding) name => '$' ∉ binding.name.toList ∧ '$' ∉ name.toList
  | _ => True

/-- Whether an expression may be written down as a template: it is built from operations, plain
calls, accesses and the like, and each dollar sign in it begins a placeholder. -/
def IsTemplate (A : Alphabet) (e : Expr) : Prop :=
  ∀ s ∈ e.subterms, s.OperatorNode A ∧ s.DollarsNode

end Expr

namespace JavaScript

-- What is read at the level of calls begins with no sign.
theorem Reads.head_ne_minus {level : Level} {ts : List Token} {t : Tree} (reads : Reads level ts t)
    (tight : Level.call.rank ≤ level.rank) : ts.head? ≠ some (.mark .minus) := by
  have more {ts us : List Token} {level : Level} {t : Tree} (reads : Reads level ts t)
      (first : ts.head? ≠ some (.mark .minus)) : (ts ++ us).head? ≠ some (.mark .minus) := by
    obtain ⟨token, rest, rfl, _⟩ := reads.begins
    exact first
  induction reads with
  | name | number | string | constant | parenthesized | object | construct => simp
  | field _ reads _ ih | index _ reads _ ih | call _ reads _ ih => exact more reads (ih tight)
  | unary | conditional | arrow | routine | sequence => exact absurd tight (by decide)
  | @binary op level _ _ _ _ _ isLevel =>
      have loose : level.rank < Level.call.rank := by
        cases op <;> cases isLevel <;> decide
      exact absurd tight (Nat.not_le.mpr loose)
  | loosen _ looser ih => exact ih (Nat.le_trans tight looser)

end JavaScript

section
variable {A : Alphabet} {r : Rendered} {s : Spine}

theorem means_argument (means : Means A r s) : Means A (.primary (r.atLeast .call)) s := by
  obtain ⟨ts, written, reads⟩ := means.callable
  exact ⟨ts, written.mono And.right, .chain (Nat.le_succ _) reads⟩

theorem argument_first (means : Means A r s) :
    ∃ c rest, (r.atLeast .call).toList = c :: rest ∧ c ≠ '-' := by
  obtain ⟨ts, written, reads⟩ := means.callable
  have atEnd : Behind (s.tree.isNumber = false) none := .inl rfl
  obtain ⟨first, rest, follow, rfl, sameHead, ends⟩ := written.spells.head written.starts atEnd
  obtain ⟨c, others, chars⟩ := List.exists_cons_of_ne_nil ends.text_ne_nil
  rw [chars, List.head?_cons] at sameHead
  obtain ⟨tail, same⟩ := List.head?_eq_some_iff.mp sameHead
  refine ⟨c, tail, same, ?_⟩
  rintro rfl
  have isHead : first.text.head? = some '-' := by rw [chars, List.head?_cons]
  obtain ⟨m, rfl⟩ := Token.mark_of_head ends isHead (by decide) (by decide)
  have noMinus := reads.call.head_ne_minus (Nat.le_refl _)
  cases m <;> simp_all [Token.text, Mark.text]

end

namespace Expr

theorem isTemplate_iff {A : Alphabet} (e : Expr) :
    e.IsTemplate A ↔
      (e.OperatorNode A ∧ e.DollarsNode) ∧ ∀ c ∈ e.children, c.IsTemplate A :=
  forall_subterms_iff (fun s => s.OperatorNode A ∧ s.DollarsNode) e

/-- Whether the text of an expression becomes one that is read as the expression with arguments in
the places of placeholders. -/
def ReadsFilled (A : Alphabet) (indent : Indent) (depth : Nat) (args : List Expr) (e : Expr) : Prop :=
  ∃ r, Rendered.Turns (args.map (render indent {} depth)) (e.render indent {} depth) r ∧
    Means A r ((e.filled args).spine {})

section
variable {A : Alphabet} {indent : Indent} {depth : Nat} {args : List Expr}

theorem readsFilled_ident {note : Note} {binding : Binding} (isName : A.IsName binding.name)
    (dollars : (ident note binding).DollarsNode)
    (arguments : ∀ arg ∈ args, Means A (arg.render indent {} depth) (arg.spine {})) :
    ReadsFilled A indent depth args (.ident note binding) := by
  have itself : Means A (.primary binding.name) (.ofTree (.name binding.name)) :=
    means_primary ((written_name isName).mono fun _ => trivial) (.name _)
  cases mark : placeholder? binding.name with
  | none =>
      have nonempty : binding.name.toList ≠ [] := by
        obtain ⟨⟨⟨c, isHead, _⟩, _⟩, _⟩ := isName
        exact List.ne_nil_of_mem (List.mem_of_mem_head? isHead)
      have noDollar : '$' ∉ binding.name.toList := by
        intro dollar
        simpa [mark] using dollars dollar
      refine ⟨.primary binding.name, .primary (Template.fills_plain nonempty noDollar), ?_⟩
      rw [filled, mark]
      exact itself
  | some index =>
      obtain ⟨digits, chars, run, rfl⟩ := placeholder?_eq_some_iff.mp mark
      have turns : Template.Turns (args.map (render indent {} depth)) _ _ _ :=
        Template.turns_argument run
      cases found : args[Template.index digits]? with
      | none =>
          refine ⟨.primary binding.name, .primary ⟨?_, ?_⟩, ?_⟩
          · rw [chars]
            simpa [Template.Piece.text, found] using turns
          · exact Template.beginAlike_self (by simp [chars])
          · rw [filled, mark, Option.bind_some, found]
            exact itself
      | some arg =>
          have means := arguments arg (List.mem_of_getElem? found)
          obtain ⟨c, rest, first, noMinus⟩ := argument_first means
          refine ⟨.primary ((arg.render indent {} depth).atLeast .call), .primary ⟨?_, ?_⟩, ?_⟩
          · rw [chars]
            simpa [Template.Piece.text, found] using turns
          · rw [chars, first]
            exact ⟨_, _, _, _, rfl, rfl, iff_of_false (by decide) noMinus⟩
          · rw [filled, mark, Option.bind_some, found]
            exact means_argument means

theorem filled_ident {note : Note} {binding : Binding} (noDollar : '$' ∉ binding.name.toList) :
    filled args (.ident note binding) = .ident note binding := by
  cases mark : placeholder? binding.name with
  | none => rw [filled, mark]; rfl
  | some index =>
      obtain ⟨digits, chars, _⟩ := placeholder?_eq_some_iff.mp mark
      rw [chars] at noDollar
      exact absurd List.mem_cons_self noDollar

theorem readsFilled_int (note : Note) (value : Int64) :
    ReadsFilled A indent depth args (.literal note (.int value)) := by
  obtain ⟨nonempty, digits, _⟩ := isWhole_toString value.toInt.natAbs
  have noDollar : '$' ∉ (toString value.toInt.natAbs).toList := fun dollar =>
    absurd (digits '$' dollar) (by decide)
  refine ⟨_, .plain ?_ ?_, means_literal (.int value)⟩
  · change (toString value.toInt).toList ≠ []
    rw [toString_toInt]
    split
    · simp
    · exact nonempty
  · change '$' ∉ (toString value.toInt).toList
    rw [toString_toInt]
    split
    · simpa using noDollar
    · exact noDollar

-- A member of a name is not touched.
theorem readsFilled_member {note inner : Note} {binding : Binding} {name : String}
    (isName : A.IsName binding.name) (noDollar : '$' ∉ binding.name.toList)
    (noDollar' : '$' ∉ name.toList) :
    ReadsFilled A indent depth args (.field note (.ident inner binding) name) := by
  have quoted := Text.dollar_not_mem_quoted noDollar'
  refine ⟨_, .plain ?_ ?_, ?_⟩
  · change (Rendered.field binding.name name).text.toList ≠ []
    unfold Rendered.field
    split <;> simp
  · change '$' ∉ (Rendered.field binding.name name).text.toList
    unfold Rendered.field
    split <;> simp [noDollar, noDollar', quoted]
  · rw [filled, filled_ident noDollar]
    exact means_field (written_name isName) (reads_ofTree (.name _)) fun _ => trivial

theorem readsFilled_all {exprs : List Expr}
    (each : ∀ e ∈ exprs, ReadsFilled A indent depth args e) :
    ∃ rs, List.Forall₂ (Rendered.Turns (args.map (render indent {} depth)))
        (renderAll indent {} depth exprs) rs ∧
      List.Forall₂ (Means A) rs (readings {} (filledAll args exprs)) := by
  induction exprs with
  | nil => exact ⟨[], .nil, .nil⟩
  | cons e rest ih =>
      obtain ⟨r, turns, means⟩ := each e List.mem_cons_self
      obtain ⟨rs, others, more⟩ := ih fun e member => each e (List.mem_cons_of_mem _ member)
      exact ⟨r :: rs, .cons turns others, .cons means more⟩

-- By induction on the expression, with the same function of the parts that become others.
theorem readsFilled (e : Expr) (template : e.IsTemplate A)
    (arguments : ∀ arg ∈ args, Means A (arg.render indent {} depth) (arg.spine {})) :
    ReadsFilled A indent depth args e := by
  induction e using induction_children with
  | step e ih =>
    obtain ⟨⟨node, dollars⟩, parts⟩ := (isTemplate_iff e).mp template
    have part : ∀ c ∈ e.children, ReadsFilled A indent depth args c := by
      intro c member
      exact ih c member (parts c member)
    cases e with
    | literal note value =>
        cases value with
        | int value => exact readsFilled_int note value
        | _ => exact node.elim
    | ident note binding => exact readsFilled_ident node dollars arguments
    | field note target name =>
        cases target with
        | ident inner binding =>
            obtain ⟨⟨isName, _⟩, _⟩ := (isTemplate_iff _).mp (parts _ List.mem_cons_self)
            exact readsFilled_member isName dollars.1 dollars.2
        | _ => exact node.elim
    | index note target key =>
        obtain ⟨r, turns, means⟩ := part target (by simp [children])
        obtain ⟨k, turnsKey, meansKey⟩ := part key (by simp [children])
        have literal (isNumber : target.isNumber) : ∃ t, (target.filled args).spine {} = .ofTree t := by
          cases target <;> first | exact ⟨_, rfl⟩ | cases isNumber
        obtain ⟨ts, written, reads⟩ := means.target literal
        exact ⟨_, .index (turns.target target) turnsKey, means_index written reads meansKey⟩
    | call note style callee exprs =>
        cases style with
        | construct => exact node.elim
        | direct =>
            obtain ⟨r, turns, means⟩ := part callee (by simp [children])
            obtain ⟨rs, turnsAll, meansAll⟩ := readsFilled_all fun e member =>
              part e (List.mem_cons_of_mem _ member)
            obtain ⟨ts, written, reads⟩ := means.callable
            exact ⟨_, .call (turns.atLeast .call) turnsAll, means_call written reads meansAll⟩
    | cast note operand => exact part operand (by simp [children])
    | unary note op operand =>
        obtain ⟨r, turns, means⟩ := part operand (by simp [children])
        exact ⟨_, turns.unary, means_unary means⟩
    | binary note op left right =>
        obtain ⟨l, turnsLeft, meansLeft⟩ := part left (by simp [children])
        obtain ⟨r, turnsRight, meansRight⟩ := part right (by simp [children])
        exact ⟨_, turnsLeft.infixed turnsRight (by cases op <;> decide),
          means_infixed (by cases op <;> decide) op.text_mark op.level_mark meansLeft meansRight⟩
    | logical note op left right =>
        obtain ⟨l, turnsLeft, meansLeft⟩ := part left (by simp [children])
        obtain ⟨r, turnsRight, meansRight⟩ := part right (by simp [children])
        exact ⟨_, turnsLeft.infixed turnsRight (by cases op <;> decide),
          means_infixed (by cases op <;> decide) op.text_mark op.level_mark meansLeft meansRight⟩
    | conditional note guard yes no =>
        obtain ⟨g, turnsGuard, meansGuard⟩ := part guard (by simp [children])
        obtain ⟨y, turnsYes, meansYes⟩ := part yes (by simp [children])
        obtain ⟨n, turnsNo, meansNo⟩ := part no (by simp [children])
        exact ⟨_, .conditional turnsGuard turnsYes turnsNo,
          means_conditional meansGuard meansYes meansNo⟩
    | sequence note exprs =>
        obtain ⟨rs, turnsAll, meansAll⟩ := readsFilled_all part
        exact ⟨_, .sequence turnsAll, means_sequence meansAll⟩
    | imported | object | raw | lambda | bind => exact node.elim

theorem OperatorsOnly.means {e : Expr} (operators : e.OperatorsOnly A) :
    Means A (e.render indent {} depth) (e.spine {}) := by
  have readable : e.Readable A {} := fun s member => (operators s member).readable
  exact (readsBack e readable).operand depth

-- The whole text of a template is filled.
theorem filled_reads (indent : Indent) (note : Note) {e : Expr} (template : e.IsTemplate A)
    (operators : ∀ arg ∈ args, arg.OperatorsOnly A) :
    ∃ ts, lex A ((raw note (e.text indent) args).text indent).toList = some ts ∧
      ∀ t, Reads .comma ts t ↔ t = (e.filled args).operatorTree := by
  have arguments : ∀ arg ∈ args, Means A (arg.render indent {} 0) (arg.spine {}) :=
    fun arg member => (operators arg member).means
  obtain ⟨r, turns, means⟩ := readsFilled e template arguments
  have text : ((raw note (e.text indent) args).text indent).toList = r.text.toList := by
    have whole := turns.text.turns [] rfl
    rw [List.append_nil, Template.expand_nil, List.append_nil] at whole
    change (Template.substitute (e.text indent) (renderAll indent {} 0 args)).toList = _
    rw [← whole, ← Template.toList_substitute, renderAll_eq]
    rfl
  rw [text, operatorTree_eq]
  exact means_uniquely means

end

/-! ## The draw of an integer -/

section
variable {A : Alphabet}

/-- The template of the draw as an expression. -/
def drawTemplate : Expr :=
  let note := Note.typed .any
  let math (member : String) (args : List Expr) : Expr :=
    .call note .direct (.field note (.named "Math" .any) member) args
  .binary note .add
    (math "floor"
      [.binary note .multiply (math "random" [])
        (.binary note .subtract (.named "$1" .any) (.named "$0" .any))])
    (.named "$0" .any)

theorem text_drawTemplate (indent : Indent) :
    drawTemplate.text indent = Standard.Random.nextTemplate := by
  simp only [drawTemplate, text, render, renderAt, renderAll, close, asTarget, asCallee, named,
    isNumber, isCall]
  decide +kernel

theorem isTemplate_drawTemplate : drawTemplate.IsTemplate A := by
  have math : A.IsName "Math" := A.isName_of_letters (by decide) (by decide) (by decide)
  have lower : A.IsName "$0" := ⟨isWord_of_isIdentifier (by decide), by decide⟩
  have upper : A.IsName "$1" := ⟨isWord_of_isIdentifier (by decide), by decide⟩
  have first : (placeholder? "$0").isSome := by decide
  have second : (placeholder? "$1").isSome := by decide
  simp [IsTemplate, drawTemplate, named, subterms, subtermsAll, OperatorNode, DollarsNode, math,
    lower, upper, first, second]

/-- The tree of `Math.floor(Math.random() * (max - min)) + min`. -/
def drawTree (min max : Tree) : Tree :=
  .binary .plus
    (.call (.field (.name "Math") "floor")
      [.binary .star (.call (.field (.name "Math") "random") []) (.binary .minus max min)])
    min

theorem filled_drawTemplate (min max : Expr) :
    (drawTemplate.filled [min, max]).operatorTree = drawTree min.operatorTree max.operatorTree := by
  have math : placeholder? "Math" = none := by decide
  have lower : placeholder? "$0" = some 0 := by decide
  have upper : placeholder? "$1" = some 1 := by decide
  have floor : isIdentifier "floor" = true := by decide
  have random : isIdentifier "random" = true := by decide
  simp [drawTemplate, named, filled, filledAll, operatorTree, operatorTrees, drawTree, math, lower,
    upper, floor, random, BinaryOp.mark]

theorem operatorsOnly_int (value : Int64) : (ofLiteral (.int value)).OperatorsOnly A := by
  simp [OperatorsOnly, ofLiteral, subterms, OperatorNode]

theorem operatorsOnly_bounds {args : List Expr} {min max : Expr}
    (bounds : Standard.Random.bounds? args = some (min, max))
    (operators : ∀ arg ∈ args, arg.OperatorsOnly A) :
    ∀ bound ∈ [min, max], bound.OperatorsOnly A := by
  rcases args with _ | ⟨first, _ | ⟨second, _ | ⟨third, others⟩⟩⟩ <;> cases bounds
  · simp [operatorsOnly_int]
  · simpa [operatorsOnly_int] using operators
  · exact operators

end

/-- A template that is filled with arguments is read as the expression with their trees in the
places of its placeholders, and as nothing else. In particular the draw of an integer between any
bounds is. -/
theorem templates_read_filled (A : Alphabet) (indent : Indent) :
    (∀ (note : Note) (e : Expr) (args : List Expr), e.IsTemplate A →
      (∀ arg ∈ args, arg.OperatorsOnly A) →
      ∃ ts, lex A ((raw note (e.text indent) args).text indent).toList = some ts ∧
        ∀ t, Reads .comma ts t ↔ t = (e.filled args).operatorTree) ∧
    (∀ (options : Options) (site : CallSite) (min max : Expr),
      Standard.Random.bounds? site.args = some (min, max) →
      (∀ arg ∈ site.args, arg.OperatorsOnly A) →
      ∃ e ts, Standard.Random.next options site = .ok (some e) ∧
        lex A (e.text indent).toList = some ts ∧
        ∀ t, Reads .comma ts t ↔ t = drawTree min.operatorTree max.operatorTree) := by
  refine ⟨fun note e args => filled_reads indent note,
    fun options site min max bounds operators => ?_⟩
  have both := operatorsOnly_bounds bounds operators
  have drawn := filled_reads indent (.typed site.returnType) isTemplate_drawTemplate both
  rw [text_drawTemplate, filled_drawTemplate] at drawn
  obtain ⟨ts, lexed, reads⟩ := drawn
  refine ⟨_, ts, ?_, lexed, reads⟩
  unfold Standard.Random.next
  rw [bounds]

/-- The template `-$0 * $1($2)`. -/
def signedProduct : Expr :=
  let note := Note.typed .any
  .binary note .multiply (.unary note .negate (.named "$0" .any))
    (.call note .direct (.named "$1" .any) [.named "$2" .any])

/-- A negative number and a choice of two functions. -/
def looseArgs : List Expr :=
  [.ofLiteral (.int (-1)),
    .conditional (.typed .any) (.named "p" .any) (.named "f" .any) (.named "g" .any)]

/-- A draw between them. -/
def looseDraw : CallSite :=
  .ofMember ⟨"System.Random", "Next", .method, true, [], [.int32, .int32], [], .int32⟩
    (some (.named "random" .any)) looseArgs

-- Each argument is read as a whole, and the name without an argument stays.
theorem signedProduct_reads_filled :
    let sign := Tree.unary .minus (.number "1")
    let choice := Tree.conditional (.name "p") (.name "f") (.name "g")
    signedProduct.IsTemplate .ascii ∧ (∀ arg ∈ looseArgs, arg.OperatorsOnly .ascii) ∧
      (∃ ts, lex .ascii
          ((raw (.typed .any) (signedProduct.text .standard) looseArgs).text .standard).toList =
            some ts ∧
        ∀ t, Reads .comma ts t ↔
          t = .binary .star (.unary .minus sign) (.call choice [.name "$2"])) ∧
      ∃ e ts, Standard.Random.next {} looseDraw = .ok (some e) ∧
        lex .ascii (e.text .standard).toList = some ts ∧
        ∀ t, Reads .comma ts t ↔ t = drawTree sign choice := by
  intro sign choice
  have names : ∀ text ∈ ["$0", "$1", "$2", "p", "f", "g"], Alphabet.ascii.IsName text := by
    have all : ∀ text ∈ ["$0", "$1", "$2", "p", "f", "g"],
        isIdentifier text ∧ text ∉ reserved := by decide
    intro text member
    obtain ⟨isIdent, free⟩ := all text member
    exact ⟨isWord_of_isIdentifier isIdent, free⟩
  have marks : ∀ text ∈ ["$0", "$1", "$2"], (placeholder? text).isSome := by decide
  have template : signedProduct.IsTemplate .ascii := by
    simp [IsTemplate, signedProduct, named, subterms, subtermsAll, OperatorNode, DollarsNode,
      names, marks]
  have operators : ∀ arg ∈ looseArgs, arg.OperatorsOnly .ascii := by
    simp [looseArgs, OperatorsOnly, ofLiteral, named, subterms, OperatorNode, names]
  obtain ⟨filled, drawn⟩ := templates_read_filled .ascii .standard
  exact ⟨template, operators, filled _ signedProduct looseArgs template operators,
    drawn {} looseDraw _ _ rfl operators⟩

end Expr
end CallReplacement
