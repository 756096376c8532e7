import CallReplacement.Proofs.Script.Scoping

/-!
Members of numbers. A dot behind digits is their decimal point, so a number whose member is taken by
name has to stand in parentheses. It does if the number is the target itself, or if its digits come
from raw text; under a type or in a sequence of one it does not, although neither leaves a trace in
the text. The text is then no row of tokens at all.
-/

namespace CallReplacement

open JavaScript

theorem Precedence.primary_not_loose : ¬ Precedence.primary.level < Precedence.call.level := by
  decide

theorem Rendered.ne_parenthesized (text more : String) :
    text ++ more ≠ parenthesized text ++ more := by
  intro same
  have longer := congrArg String.length same
  have opening : "(".length = 1 := rfl
  simp only [parenthesized, String.length_append] at longer
  omega

/-- Whether a text shows more than a number. -/
def Rendered.ShowsOther (r : Rendered) : Prop := ∃ c ∈ r.text.toList, c.isDigit = false

theorem Rendered.number_showsOther {text : String} (minus : text.toList.head? = some '-') :
    (Rendered.number true text).ShowsOther :=
  ⟨'-', List.mem_of_mem_head? minus, rfl⟩

-- A literal below the tightest level is a negative number, and its sign is written.
theorem Rendered.ofLiteral_showsOther {value : Literal}
    (loose : (ofLiteral value).precedence.level < Precedence.call.level) :
    (ofLiteral value).ShowsOther := by
  have signed {isNegative : Bool} {text : String}
      (below : (number isNegative text).precedence.level < Precedence.call.level) :
      isNegative = true := by
    cases isNegative with
    | true => rfl
    | false => exact absurd below Precedence.primary_not_loose
  cases value with
  | null | unit | string | char => exact absurd loose Precedence.primary_not_loose
  | bool value => cases value <;> exact absurd loose Precedence.primary_not_loose
  | int value =>
      have negative : decide (value < 0) = true := signed loose
      rw [ofLiteral, negative, toString_toInt, if_pos (of_decide_eq_true negative)]
      exact number_showsOther (by simp)
  | float value =>
      rw [ofLiteral, ofFloat] at *
      split_ifs at * with isNaN isInf positive
      · exact absurd loose Precedence.primary_not_loose
      · exact absurd loose Precedence.primary_not_loose
      · exact number_showsOther (by simp)
      · have negative : Decimal.isNegative value = true := signed loose
        rw [negative, Decimal.ofFinite_magnitude, if_pos negative]
        exact number_showsOther (by simp)

namespace Expr

/-- Whether the node leaves a trace in the text. -/
def isBare : Expr → Bool
  | .cast .. | .sequence _ [_] => false
  | _ => true

mutual

/-- The expression without the casts and the sequences of one around it. -/
def bare : Expr → Expr
  | .cast _ operand => bare operand
  | .sequence note exprs => bareAlone note exprs
  | e => e

def bareAlone (note : Note) : List Expr → Expr
  | [single] => bare single
  | exprs => .sequence note exprs

end

theorem render_bare (indent : Indent) (imports : Imports) (depth : Nat) (e : Expr) :
    e.bare.isBare ∧ e.bare.render indent imports depth = e.render indent imports depth := by
  induction e using induction_children with
  | step e ih =>
    cases e with
    | cast note operand => exact ih operand (by simp [children])
    | sequence note exprs =>
        rcases exprs with _ | ⟨first, _ | ⟨second, others⟩⟩
        · exact ⟨rfl, rfl⟩
        · exact ih first (by simp [children])
        · exact ⟨rfl, rfl⟩
    | literal | ident | imported | field | index | call | object | raw | unary | binary | logical
    | lambda | bind | conditional => exact ⟨rfl, rfl⟩

section
variable {indent : Indent} {imports : Imports} {depth : Nat}

-- What binds looser than a member access shows its operator, unless it is raw text.
theorem showsOther_of_loose {e : Expr} (own : e.isBare) (noRaw : e.isRaw = false)
    (loose : (e.render indent imports depth).precedence.level < Precedence.call.level) :
    (e.render indent imports depth).ShowsOther := by
  have infixed (symbol : String) (p : Precedence) (left right : Rendered) :
      (Rendered.infixed symbol p left right).ShowsOther := ⟨' ', by simp [Rendered.infixed], rfl⟩
  cases e with
  | cast => cases own
  | raw => cases noRaw
  | literal note value => exact Rendered.ofLiteral_showsOther loose
  | ident | imported | object => exact absurd loose Precedence.primary_not_loose
  | field | index | call | bind => exact absurd loose (Nat.lt_irrefl Precedence.call.level)
  | unary note op operand =>
      cases op with
      | not => exact ⟨'!', by simp [render, renderAt, close, Rendered.unary], rfl⟩
      | negate =>
          refine ⟨'-', ?_, rfl⟩
          simp only [render, renderAt, close, Rendered.unary]
          split <;> simp
  | binary note op left right => exact infixed _ _ _ _
  | logical note op left right => exact infixed _ _ _ _
  | lambda note params body =>
      exact ⟨'(', by simp [render, renderAt, close, Rendered.lambda, Rendered.parenthesized], rfl⟩
  | conditional note guard yes no =>
      exact ⟨' ', by simp [render, renderAt, close, Rendered.conditional], rfl⟩
  | sequence note exprs =>
      rcases exprs with _ | ⟨first, _ | ⟨second, others⟩⟩
      · exact absurd loose Precedence.primary_not_loose
      · cases own
      · refine ⟨',', ?_, rfl⟩
        simp [render, renderAt, close, renderAll, Rendered.sequence, Rendered.list, Text.joined]

theorem loose_iff_isRaw_bare {e : Expr}
    (digits : ∀ c ∈ (e.render indent imports depth).text.toList, c.isDigit) :
    (e.render indent imports depth).precedence.level < Precedence.call.level ↔ e.bare.isRaw := by
  obtain ⟨own, same⟩ := render_bare indent imports depth e
  rw [← same] at digits ⊢
  generalize e.bare = inner at *
  constructor
  · intro loose
    by_contra noRaw
    obtain ⟨c, inside, noDigit⟩ := showsOther_of_loose own (by simpa using noRaw) loose
    have digit := digits c inside
    rw [noDigit] at digit
    cases digit
  · intro isRaw
    cases inner with
    | raw => exact (by decide : Precedence.assign.level < Precedence.call.level)
    | _ => cases isRaw

end

-- Behind the decimal point of a number only digits can follow.
theorem lex_member_of_number {A : Alphabet} {number name : String} (whole : IsWhole number.toList)
    (isIdent : isIdentifier name) : lex A (number ++ "." ++ name).toList = none := by
  obtain ⟨⟨c, isHead, start⟩, _⟩ := isWord_of_isIdentifier (A := A) isIdent
  obtain ⟨d, rest, chars, digit⟩ := (IsNumeral.whole whole).digit_first
  obtain ⟨others, member⟩ : ∃ others, name.toList = c :: others := List.head?_eq_some_iff.mp isHead
  have noDigit : c.isDigit = false := by
    by_contra digit
    simp [A.isStart_of_isDigit (by simpa using digit)] at start
  have stop : ('.' :: name.toList).head?.all fun c => !c.isDigit := rfl
  obtain ⟨taken, dropped⟩ := takeWhile_append_stop whole.2.1 stop
  have unread : A.readNumber (number.toList ++ '.' :: name.toList) = none := by
    rw [Alphabet.readNumber, taken, dropped]
    simp [member, noDigit, Alphabet.partsFrom, A.isPart_of_isStart start]
  have noBlank : ¬ isBlank d := by
    intro blank
    have which : ((d = ' ' ∨ d = '\n') ∨ d = '\t') ∨ d = '\r' := by simpa [isBlank] using blank
    rcases which with ((rfl | rfl) | rfl) | rfl <;> cases digit
  have spelled : (number ++ "." ++ name).toList = d :: (rest ++ '.' :: name.toList) := by
    simp [chars]
  rw [chars, List.cons_append] at unread
  rw [spelled, lex, if_neg noBlank, Alphabet.readToken, A.isStart_of_isDigit digit]
  simp [digit, unread]

theorem text_member (indent : Indent) (imports : Imports) (depth : Nat) (note : Note) (t : Expr)
    {name : String} (isIdent : isIdentifier name) :
    ((field note t name).render indent imports depth).text =
      t.asTarget (t.render indent imports depth) ++ "." ++ name := by
  change (Rendered.field _ name).text = _
  rw [Rendered.field, if_pos isIdent]
  rfl

/-- A number whose member is taken by name stands in parentheses exactly if it is the target itself
or the text of a raw node. In all other cases its digits and the name meet at the dot, and the text
cannot be read. -/
theorem number_target_iff (indent : Indent) (imports : Imports) (depth : Nat) (note : Note)
    {t : Expr} {name : String}
    (whole : IsWhole (t.render indent imports depth).text.toList) (isIdent : isIdentifier name) :
    let number := (t.render indent imports depth).text
    let accessed := ((field note t name).render indent imports depth).text
    (accessed = Rendered.parenthesized number ++ "." ++ name ↔ t.isNumber ∨ t.bare.isRaw) ∧
      (¬ (t.isNumber ∨ t.bare.isRaw) → accessed = number ++ "." ++ name ∧
        ∀ A : Alphabet, lex A accessed.toList = none) := by
  intro number accessed
  have loose := loose_iff_isRaw_bare whole.2.1
  have text := text_member indent imports depth note t isIdent
  by_cases wrapped : t.isNumber ∨ t.bare.isRaw
  · have target : t.asTarget (t.render indent imports depth) = Rendered.parenthesized number := by
      rw [asTarget]
      split
      · rfl
      · next noNumber => exact if_pos (loose.mpr (wrapped.resolve_left noNumber))
    exact ⟨iff_of_true (text.trans (by rw [target])) wrapped, absurd wrapped⟩
  · obtain ⟨noNumber, noRaw⟩ := not_or.mp wrapped
    have target : t.asTarget (t.render indent imports depth) = number := by
      rw [asTarget, if_neg noNumber]
      exact if_neg (mt loose.mp noRaw)
    have bare : accessed = number ++ "." ++ name := by rw [← target]; exact text
    refine ⟨iff_of_false ?_ wrapped, fun _ => ⟨bare, fun A => ?_⟩⟩
    · rw [bare, String.append_assoc, String.append_assoc]
      exact Rendered.ne_parenthesized number _
    · rw [bare]
      exact lex_member_of_number whole isIdent

/-- The number `1` as a value of another type. -/
def coercedOne : Expr := .cast (.typed .float64) (.ofLiteral (.int 1))

-- The name behind the dot goes on where digits should.
theorem coercedOne_takes_decimal_point :
    let number := (coercedOne.render .standard {} 0).text
    let accessed := ((field (.typed .any) coercedOne "toString").render .standard {} 0).text
    IsWhole number.toList ∧ isIdentifier "toString" ∧ ¬ (coercedOne.isNumber ∨ coercedOne.bare.isRaw) ∧
      accessed ≠ Rendered.parenthesized number ++ "." ++ "toString" ∧
      accessed = "1.toString" ∧ ∀ A : Alphabet, lex A accessed.toList = none := by
  intro number accessed
  have whole : IsWhole number.toList := by decide
  have isIdent : isIdentifier "toString" := by decide
  have hidden : ¬ (coercedOne.isNumber ∨ coercedOne.bare.isRaw) := by decide
  obtain ⟨iff, unread⟩ := number_target_iff .standard {} 0 (.typed .any) whole isIdent
  obtain ⟨same, none⟩ := unread hidden
  exact ⟨whole, isIdent, hidden, mt iff.mp hidden, same, none⟩

end Expr
end CallReplacement
