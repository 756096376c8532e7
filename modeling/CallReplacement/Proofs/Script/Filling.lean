import CallReplacement.Proofs.Script.Placeholders
import CallReplacement.Proofs.Script.ReadBack

/-!
Rendered expressions as parts of a template. What a part becomes when the placeholders of the
template are replaced depends on the character behind it only in that no digit and no dot may stand
there, so the functions that render nodes commute with the replacement: a node becomes what the same
function makes of what its parts become.
-/

namespace CallReplacement

open JavaScript

namespace Template

/-- Whether the text becomes the other one, before characters that may stand behind it. -/
def Turns (args : List Rendered) (before : Option Char → Prop) (text text' : List Char) : Prop :=
  ∀ after, before after.head? → expand args (text ++ after) = text' ++ expand args after

/-- Whether both texts begin, with a minus sign or both with none. -/
def BeginAlike (text text' : List Char) : Prop :=
  ∃ c d rest rest', text = c :: rest ∧ text' = d :: rest' ∧ (c = '-' ↔ d = '-')

section
variable {args : List Rendered} {before behind : Option Char → Prop}
  {text text' more more' : List Char}

theorem turns_plain (noDollar : '$' ∉ text) : Turns args before text text :=
  fun after _ => expand_plain noDollar after

theorem Turns.append (turns : Turns args before text text') (others : Turns args behind more more')
    (meet : ∀ next, behind next → before (more.head?.or next)) :
    Turns args behind (text ++ more) (text' ++ more') := by
  intro after h
  have first := turns (more ++ after) (by rw [List.head?_append]; exact meet _ h)
  rw [List.append_assoc, first, others after h, List.append_assoc]

theorem BeginAlike.append (alike : BeginAlike text text') :
    BeginAlike (text ++ more) (text' ++ more') := by
  obtain ⟨c, d, rest, rest', rfl, rfl, iff⟩ := alike
  exact ⟨c, d, rest ++ more, rest' ++ more', rfl, rfl, iff⟩

theorem BeginAlike.minus_iff (alike : BeginAlike text text') :
    text.head? = some '-' ↔ text'.head? = some '-' := by
  obtain ⟨c, d, rest, rest', rfl, rfl, iff⟩ := alike
  simpa using iff

theorem beginAlike_self (nonempty : text ≠ []) : BeginAlike text text := by
  obtain ⟨c, rest, rfl⟩ := List.exists_cons_of_ne_nil nonempty
  exact ⟨c, c, rest, rest, rfl, rfl, Iff.rfl⟩

-- No placeholder goes on with a character that may stand behind an expression.
theorem Piece.endsBefore_of_isEnder {digits after : List Char} (run : IsDigits digits)
    (ender : isEnder after.head?) : (Piece.argument digits).EndsBefore after := by
  cases after with
  | nil => exact ⟨run, rfl, by simp⟩
  | cons c rest =>
      have others : [' ', ',', ')', ']', ';', '(', '['].all fun c =>
          !(c.isDigit || c == '.') := by decide
      have other := List.all_eq_true.mp others c (by simpa [isEnder] using ender)
      obtain ⟨noDigit, noDot⟩ : c.isDigit = false ∧ c ≠ '.' := by simpa using other
      refine ⟨run, by simp [noneBegins, noDigit], fun dots => ?_⟩
      rw [List.cons_prefix_cons] at dots
      exact noDot dots.1.symm

theorem turns_argument {digits : List Char} (run : IsDigits digits) :
    Turns args (fun next => isEnder next) ('$' :: digits)
      ((Piece.argument digits).text args).toList := by
  intro after ender
  have step : expand args ('$' :: ((Piece.argument digits).behind ++ after)) = _ :=
    expand_piece (Piece.endsBefore_of_isEnder run ender)
  rwa [Piece.behind] at step

end

/-- Whether a text that stands for an expression becomes the other one. -/
structure Fills (args : List Rendered) (text text' : String) : Prop where
  turns : Turns args (fun next => isEnder next) text.toList text'.toList
  alike : BeginAlike text.toList text'.toList

section
variable {args : List Rendered} {text text' more more' : String}

theorem isEnder_or {first next : Option Char} (ender : isEnder first) (behind : isEnder next) :
    isEnder (first.or next) := by
  cases first with
  | none => exact behind
  | some c => exact ender

theorem fills_plain (nonempty : text.toList ≠ []) (noDollar : '$' ∉ text.toList) :
    Fills args text text where
  turns := turns_plain noDollar
  alike := beginAlike_self nonempty

-- An expression with more behind it that begins like the end of one.
theorem Fills.append (fills : Fills args text text')
    (others : Turns args (fun next => isEnder next) more.toList more'.toList)
    (ender : isEnder more.toList.head?) : Fills args (text ++ more) (text' ++ more') where
  turns := by
    rw [String.toList_append, String.toList_append]
    exact fills.turns.append others fun _ behind => isEnder_or ender behind
  alike := by
    rw [String.toList_append, String.toList_append]
    exact fills.alike.append

-- Plain text before an expression.
theorem Fills.behind (front : String) (fills : Fills args text text')
    (nonempty : front.toList ≠ []) (noDollar : '$' ∉ front.toList) :
    Fills args (front ++ text) (front ++ text') where
  turns := by
    rw [String.toList_append, String.toList_append]
    have plain : Turns args (fun _ => True) front.toList front.toList := turns_plain noDollar
    exact plain.append fills.turns fun _ _ => trivial
  alike := by
    rw [String.toList_append, String.toList_append]
    exact (beginAlike_self nonempty).append

theorem Fills.parenthesized (fills : Fills args text text') :
    Fills args (Rendered.parenthesized text) (Rendered.parenthesized text') := by
  have closed : Fills args (text ++ ")") (text' ++ ")") :=
    fills.append (turns_plain (by decide)) rfl
  simpa [Rendered.parenthesized, String.append_assoc] using
    closed.behind "(" (by decide) (by decide)

theorem Fills.wrapped (fills : Fills args text text') (loose : Prop) [Decidable loose] :
    Fills args (if loose then Rendered.parenthesized text else text)
      (if loose then Rendered.parenthesized text' else text') := by
  split
  · exact fills.parenthesized
  · exact fills

-- Two expressions with plain text between them that begins like the end of one.
theorem Fills.between (gap : String) (fills : Fills args text text') (next : Fills args more more')
    (nonempty : gap.toList ≠ []) (ender : isEnder gap.toList.head?) (noDollar : '$' ∉ gap.toList) :
    Fills args (text ++ (gap ++ more)) (text' ++ (gap ++ more')) := by
  refine fills.append (next.behind gap nonempty noDollar).turns ?_
  obtain ⟨c, rest, chars⟩ := List.exists_cons_of_ne_nil nonempty
  rw [chars] at ender
  rw [String.toList_append, chars]
  exact ender

theorem fills_joined {texts texts' : List String} (nonempty : texts ≠ [])
    (each : List.Forall₂ (Fills args) texts texts') :
    Fills args (Text.joined ", " texts) (Text.joined ", " texts') := by
  induction each with
  | nil => exact absurd rfl nonempty
  | @cons text text' others others' head rest ih =>
      cases rest with
      | nil => exact head
      | cons second rest =>
          have tail := ih (List.cons_ne_nil _ _)
          have both := head.between ", " tail (by decide) rfl (by decide)
          simpa [Text.joined, String.append_assoc] using both

end
end Template

/-! ## The functions that render nodes -/

open Template (Turns Fills)

/-- Whether a rendered expression becomes the other one. -/
structure Rendered.Turns (args : List Rendered) (r r' : Rendered) : Prop where
  precedence : r'.precedence = r.precedence
  text : Fills args r.text r'.text

section
variable {args : List Rendered} {r r' l l' : Rendered}

namespace Rendered.Turns

theorem plain (nonempty : r.text.toList ≠ []) (noDollar : '$' ∉ r.text.toList) : Turns args r r :=
  ⟨rfl, Template.fills_plain nonempty noDollar⟩

theorem primary {text text' : String} (fills : Fills args text text') :
    Turns args (.primary text) (.primary text') := ⟨rfl, fills⟩

theorem atLeast (turns : Turns args r r') (p : Precedence) :
    Fills args (r.atLeast p) (r'.atLeast p) := by
  unfold Rendered.atLeast
  rw [turns.precedence]
  exact turns.text.wrapped _

theorem above (turns : Turns args r r') (p : Precedence) :
    Fills args (r.above p) (r'.above p) := by
  unfold Rendered.above
  rw [turns.precedence]
  exact turns.text.wrapped _

theorem infixed {symbol : String} {p : Precedence} (left : Turns args l l')
    (right : Turns args r r') (noDollar : '$' ∉ symbol.toList) :
    Turns args (.infixed symbol p l r) (.infixed symbol p l' r') where
  precedence := rfl
  text := by
    have gap : '$' ∉ (" " ++ symbol ++ " ").toList := by simpa using noDollar
    have both := (left.atLeast p).between (" " ++ symbol ++ " ") (right.above p) (by simp) (by simp; rfl) gap
    simpa [Rendered.infixed, String.append_assoc] using both

-- The sign of an operand shows in what it becomes.
theorem unary {op : UnaryOp} (operand : Turns args r r') :
    Turns args (.unary op r) (.unary op r') where
  precedence := rfl
  text := by
    have inner := operand.atLeast .unary
    cases op with
    | not => exact inner.behind "!" (by decide) (by decide)
    | negate =>
        simp only [Rendered.unary, inner.alike.minus_iff]
        split
        · exact inner.parenthesized.behind "-" (by decide) (by decide)
        · exact inner.behind "-" (by decide) (by decide)

theorem conditional {g g' y y' n n' : Rendered} (guard : Turns args g g') (yes : Turns args y y')
    (no : Turns args n n') : Turns args (.conditional g y n) (.conditional g' y' n') where
  precedence := rfl
  text := by
    have branches := (yes.atLeast .assign).between " : " (no.atLeast .assign)
      (by decide) rfl (by decide)
    have whole := (guard.atLeast .or).between " ? " branches (by decide) rfl (by decide)
    simpa [Rendered.conditional, String.append_assoc] using whole

theorem target (turns : Turns args r r') (e : Expr) : Fills args (e.asTarget r) (e.asTarget r') := by
  unfold Expr.asTarget
  split
  · exact turns.text.parenthesized
  · exact turns.atLeast .call

theorem index {target target' : String} (head : Fills args target target')
    (key : Turns args r r') : Turns args (.index target r) (.index target' r') where
  precedence := rfl
  text := by
    have closed : Fills args (r.text ++ "]") (r'.text ++ "]") :=
      key.text.append (Template.turns_plain (by decide)) rfl
    have whole := head.between "[" closed (by decide) rfl (by decide)
    simpa [Rendered.index, String.append_assoc] using whole

theorem items {rs rs' : List Rendered} (each : List.Forall₂ (Turns args) rs rs') :
    List.Forall₂ (Fills args) (rs.map (·.atLeast .assign)) (rs'.map (·.atLeast .assign)) := by
  rw [List.forall₂_map_left_iff, List.forall₂_map_right_iff]
  exact each.imp fun _ _ turns => turns.atLeast .assign

theorem call {callee callee' : String} {rs rs' : List Rendered} (head : Fills args callee callee')
    (each : List.Forall₂ (Turns args) rs rs') :
    Turns args (.call .direct callee rs) (.call .direct callee' rs') where
  precedence := rfl
  text := by
    have listed : Fills args (parenthesized (list rs)) (parenthesized (list rs')) := by
      cases each with
      | nil => exact Template.fills_plain (by decide) (by decide)
      | cons first rest =>
          exact (Template.fills_joined (by simp) (items (.cons first rest))).parenthesized
    exact head.append listed.turns (by simp [parenthesized]; rfl)

theorem sequence {rs rs' : List Rendered} (each : List.Forall₂ (Turns args) rs rs') :
    Turns args (.sequence rs) (.sequence rs') := by
  cases each with
  | nil => exact .primary (Template.fills_plain (by decide) (by decide))
  | cons first rest =>
      cases rest with
      | nil => exact first
      | cons second others =>
          have row := Template.fills_joined (by simp) (items (.cons first (.cons second others)))
          exact ⟨rfl, row⟩

end Rendered.Turns
end
end CallReplacement
