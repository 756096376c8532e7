import CallReplacement.Proofs.JavaScript.Token
import CallReplacement.Script.Template

/-!
Templates read from left to right. A template is a row of parts: plain text, dollar signs that no
digit follows, and placeholders with as many digits as there are. It is such a row in one way only,
and the row depends on the template alone; replacing the placeholders is writing the parts one
after another, each as what it stands for. The text of an argument is a value in that row, so a
dollar sign in it begins nothing.
-/

namespace CallReplacement.Template

/-- A run of digits. -/
def IsDigits (digits : List Char) : Prop := digits ≠ [] ∧ ∀ c ∈ digits, c.isDigit

/-- Whether no character of the class begins the text. -/
def noneBegins (p : Char → Bool) (text : List Char) : Prop := text.head?.all fun c => !p c

theorem noneBegins_dropWhile (p : Char → Bool) (text : List Char) :
    noneBegins p (text.dropWhile p) := by
  have first := List.head?_dropWhile_not p text
  unfold noneBegins
  cases isHead : (text.dropWhile p).head? <;> simp_all

/-- What stands behind the dollar sign of a piece. -/
def Piece.behind : Piece → List Char
  | .dollar => []
  | .argument digits => digits
  | .spread digits => digits ++ ['.', '.', '.']

/-- Whether a piece is all that its dollar sign begins, with the text behind it: the digits go as
far as they can, and three dots behind them are part of the placeholder. -/
def Piece.EndsBefore (after : List Char) : Piece → Prop
  | .dollar => noneBegins Char.isDigit after
  | .argument digits =>
      IsDigits digits ∧ noneBegins Char.isDigit after ∧ ¬ ['.', '.', '.'] <+: after
  | .spread digits => IsDigits digits

section
variable {after text more : List Char}

theorem piece_of_digits {digits : List Char} (run : IsDigits digits)
    (stop : noneBegins Char.isDigit after) :
    piece (digits ++ after) =
      if ['.', '.', '.'] <+: after then (.spread digits, after.drop 3)
      else (.argument digits, after) := by
  obtain ⟨taken, dropped⟩ := JavaScript.takeWhile_append_stop run.2 stop
  have nonempty : digits.isEmpty = false := List.isEmpty_eq_false_iff.mpr run.1
  simp only [piece, taken, dropped, nonempty, Bool.false_eq_true, if_false]
  split
  · next tail =>
    have dots : ['.', '.', '.'] <+: '.' :: '.' :: '.' :: tail := List.prefix_append _ tail
    rw [if_pos dots]
    rfl
  · next others =>
    rw [if_neg]
    rintro ⟨tail, rfl⟩
    exact others tail rfl

-- A piece is found wherever it stands in front of a text that does not make it another one.
theorem piece_behind {p : Piece} (ends : p.EndsBefore after) :
    piece (p.behind ++ after) = (p, after) := by
  cases p with
  | dollar =>
      obtain ⟨taken, _⟩ := JavaScript.takeWhile_append_stop (List.forall_mem_nil _) ends
      rw [List.nil_append] at taken
      simp [piece, Piece.behind, taken]
  | argument digits =>
      obtain ⟨run, stop, noDots⟩ := ends
      rw [Piece.behind, piece_of_digits run stop, if_neg noDots]
  | spread digits =>
      have dots : noneBegins Char.isDigit (['.', '.', '.'] ++ after) := rfl
      rw [Piece.behind, List.append_assoc, piece_of_digits ends dots,
        if_pos (List.prefix_append _ after)]
      rfl

-- Each text is a piece without its dollar sign, and what follows.
theorem exists_piece (text : List Char) :
    ∃ p after, text = Piece.behind p ++ after ∧ p.EndsBefore after := by
  have whole : text = text.takeWhile Char.isDigit ++ text.dropWhile Char.isDigit :=
    List.takeWhile_append_dropWhile.symm
  have all : ∀ c ∈ text.takeWhile Char.isDigit, c.isDigit := List.all_eq_true.mp List.all_takeWhile
  have stop : noneBegins Char.isDigit (text.dropWhile Char.isDigit) := noneBegins_dropWhile _ text
  generalize text.takeWhile Char.isDigit = digits at whole all
  generalize text.dropWhile Char.isDigit = rest at whole stop
  by_cases none : digits = []
  · subst none
    exact ⟨.dollar, rest, whole, stop⟩
  · by_cases dots : ['.', '.', '.'] <+: rest
    · obtain ⟨tail, rfl⟩ := dots
      exact ⟨.spread digits, tail, by simpa [Piece.behind] using whole, none, all⟩
    · exact ⟨.argument digits, rest, whole, ⟨none, all⟩, stop, dots⟩

theorem Piece.EndsBefore.dollar_not_mem {p : Piece} (ends : p.EndsBefore after) :
    '$' ∉ p.behind := by
  have digits : ∀ {digits : List Char}, IsDigits digits → '$' ∉ digits := by
    intro digits run dollar
    exact absurd (run.2 '$' dollar) (by decide)
  cases p with
  | dollar => exact List.not_mem_nil
  | argument run => exact digits ends.1
  | spread run => simpa [behind] using digits ends

-- What ends before a text ends before the front of it.
theorem Piece.EndsBefore.front {p : Piece} (ends : p.EndsBefore (text ++ more)) :
    p.EndsBefore text := by
  have first {p : Char → Bool} (none : noneBegins p (text ++ more)) : noneBegins p text := by
    cases text with
    | nil => rfl
    | cons c rest => exact none
  cases p with
  | dollar => exact first ends
  | argument digits =>
      obtain ⟨run, stop, noDots⟩ := ends
      exact ⟨run, first stop, fun dots => noDots (dots.trans (List.prefix_append text more))⟩
  | spread digits => exact ends

end

/-! ## The pass over a template -/

section
variable (args : List Rendered)

/-- The characters of a template with its placeholders replaced. -/
def expand (template : List Char) : List Char :=
  let cut := Text.segments '$' template
  cut.1 ++ cut.2.flatMap fun segment => ((piece segment).1.text args).toList ++ (piece segment).2

theorem toList_substitute (template : String) :
    (substitute template args).toList = expand args template.toList := by
  simp [substitute, expand, String.toList_join, List.flatMap_map]

@[simp]
theorem expand_nil : expand args [] = [] := rfl

variable {args}

-- Text without dollar signs stays as it is.
theorem expand_plain {text : List Char} (noDollar : '$' ∉ text) (after : List Char) :
    expand args (text ++ after) = text ++ expand args after := by
  rw [expand, Text.segments_append noDollar]
  exact List.append_assoc text _ _

-- One step of the pass: a piece gives way to its text, and the pass goes on behind it.
theorem expand_piece {p : Piece} {after : List Char} (ends : p.EndsBefore after) :
    expand args ('$' :: (p.behind ++ after)) = (p.text args).toList ++ expand args after := by
  have whole := Text.segments_rejoin '$' after
  have cut : piece (p.behind ++ (Text.segments '$' after).1) = (p, (Text.segments '$' after).1) := by
    apply piece_behind
    rw [← whole] at ends
    exact ends.front
  rw [expand, Text.segments_separator, Text.segments_append ends.dollar_not_mem]
  simp [expand, cut]

end

/-! ## Rows of parts -/

inductive Part
  | plain (text : List Char)
  | piece (p : Piece)
deriving DecidableEq

/-- Whether a text is the row of parts. Plain text has no dollar sign and goes on to the next
one. -/
inductive IsRow : List Part → List Char → Prop
  | nil : IsRow [] []
  | plain {text parts after} : text ≠ [] → '$' ∉ text → noneBegins (· ≠ '$') after →
      IsRow parts after → IsRow (.plain text :: parts) (text ++ after)
  | piece {p parts after} : Piece.EndsBefore after p → IsRow parts after →
      IsRow (.piece p :: parts) ('$' :: (p.behind ++ after))

/-- The text of an argument, in parentheses if it binds looser than it has to. -/
def operand (least : Precedence) (arg : Rendered) : List Char :=
  if arg.precedence.level < least.level then '(' :: (arg.text.toList ++ [')']) else arg.text.toList

/-- What a part stands for. A placeholder for an argument has it as an operand of a call, a spread
one has all from its number on as items of a list; with no such argument, they stand for
themselves. -/
def Part.value (args : List Rendered) : Part → List Char
  | .plain text => text
  | .piece .dollar => ['$']
  | .piece (.argument digits) =>
      match args[Nat.ofDigitChars 10 digits 0]? with
      | some arg => operand .call arg
      | none => '$' :: digits
  | .piece (.spread digits) =>
      if Nat.ofDigitChars 10 digits 0 ≤ args.length then
        [',', ' '].intercalate ((args.drop (Nat.ofDigitChars 10 digits 0)).map (operand .assign))
      else '$' :: (digits ++ ['.', '.', '.'])

section
variable {args : List Rendered}

theorem toList_atLeast (least : Precedence) (arg : Rendered) :
    (arg.atLeast least).toList = operand least arg := by
  unfold Rendered.atLeast operand Rendered.parenthesized
  split <;> simp

theorem toList_joined (separator : String) (texts : List String) :
    (Text.joined separator texts).toList =
      separator.toList.intercalate (texts.map String.toList) := by
  induction texts with
  | nil => rfl
  | cons text rest ih =>
      cases rest with
      | nil => simp [Text.joined]
      | cons next rest =>
          simp only [Text.joined, String.toList_append, ih]
          simp [List.intercalate, List.append_assoc]

theorem toList_text (p : Piece) : (p.text args).toList = Part.value args (.piece p) := by
  cases p with
  | dollar => simp [Piece.text, Part.value]
  | argument digits =>
      have same : index digits = Nat.ofDigitChars 10 digits 0 := rfl
      rw [Piece.text, Part.value, same]
      cases args[Nat.ofDigitChars 10 digits 0]? <;> simp [toList_atLeast]
  | spread digits =>
      have same : index digits = Nat.ofDigitChars 10 digits 0 := rfl
      rw [Piece.text, Part.value, same]
      split
      · simp [Rendered.list, toList_joined, Function.comp_def, toList_atLeast]
      · simp

-- By induction on the row: each part is one step of the pass.
theorem IsRow.expand {parts : List Part} {text : List Char} (row : IsRow parts text) :
    Template.expand args text = parts.flatMap (Part.value args) := by
  induction row with
  | nil => rfl
  | plain _ noDollar _ _ ih => rw [expand_plain noDollar, ih]; rfl
  | piece ends _ ih => rw [expand_piece ends, ih, toList_text]; rfl

theorem exists_row (text : List Char) : ∃ parts, IsRow parts text := by
  induction length : text.length using Nat.strongRecOn generalizing text with
  | _ n ih =>
    have run : text = text.takeWhile (· ≠ '$') ++ text.dropWhile (· ≠ '$') :=
      List.takeWhile_append_dropWhile.symm
    have noDollar : '$' ∉ text.takeWhile (· ≠ '$') := by
      intro dollar
      have other := List.all_eq_true.mp List.all_takeWhile '$' dollar
      simp at other
    have stop : noneBegins (· ≠ '$') (text.dropWhile (· ≠ '$')) := noneBegins_dropWhile _ text
    generalize text.takeWhile (· ≠ '$') = front at run noDollar
    generalize text.dropWhile (· ≠ '$') = rest at run stop
    by_cases none : front = []
    · subst none
      obtain rfl : text = rest := run
      cases text with
      | nil => exact ⟨[], .nil⟩
      | cons c rest =>
          obtain rfl : c = '$' := by simpa [noneBegins] using stop
          obtain ⟨p, after, rfl, ends⟩ := exists_piece rest
          have shorter : after.length < n := by
            rw [← length, List.length_cons, List.length_append]
            omega
          obtain ⟨parts, row⟩ := ih after.length shorter after rfl
          exact ⟨.piece p :: parts, .piece ends row⟩
    · have shorter : rest.length < n := by
        have some := List.length_pos_iff.mpr none
        rw [← length, run, List.length_append]
        omega
      obtain ⟨parts, row⟩ := ih rest.length shorter rest rfl
      rw [run]
      exact ⟨.plain front :: parts, .plain none noDollar stop row⟩

theorem front_of_plain {text after : List Char} (noDollar : '$' ∉ text)
    (stop : noneBegins (· ≠ '$') after) :
    (text ++ after).takeWhile (· ≠ '$') = text ∧ (text ++ after).dropWhile (· ≠ '$') = after := by
  refine JavaScript.takeWhile_append_stop ?_ stop
  intro c inside
  simpa using ne_of_mem_of_not_mem inside noDollar

theorem plain_ne_dollar {text after rest : List Char} (nonempty : text ≠ [])
    (noDollar : '$' ∉ text) : text ++ after ≠ '$' :: rest := by
  intro same
  obtain ⟨c, others, rfl⟩ := List.exists_cons_of_ne_nil nonempty
  obtain ⟨rfl, _⟩ := List.cons.inj same
  exact noDollar List.mem_cons_self

-- The front of a text tells the part, and where it ends.
theorem IsRow.unique {parts others : List Part} {text : List Char} (row : IsRow parts text)
    (other : IsRow others text) : others = parts := by
  induction row generalizing others with
  | nil =>
      generalize empty : ([] : List Char) = text at other
      cases other with
      | nil => rfl
      | plain nonempty => exact absurd (List.append_eq_nil_iff.mp empty.symm).1 nonempty
      | piece => cases empty
  | @plain text parts after nonempty noDollar stop _ ih =>
      generalize whole : text ++ after = all at other
      cases other with
      | nil => exact absurd (List.append_eq_nil_iff.mp whole).1 nonempty
      | @plain text' _ after' _ noDollar' stop' row' =>
          obtain ⟨taken, dropped⟩ := front_of_plain noDollar stop
          obtain ⟨taken', dropped'⟩ := front_of_plain noDollar' stop'
          rw [whole, taken'] at taken
          rw [whole, dropped'] at dropped
          subst taken dropped
          rw [ih row']
      | piece => exact absurd whole (plain_ne_dollar nonempty noDollar)
  | @piece p parts after ends _ ih =>
      generalize whole : '$' :: (p.behind ++ after) = all at other
      cases other with
      | nil => cases whole
      | plain nonempty noDollar _ _ => exact absurd whole.symm (plain_ne_dollar nonempty noDollar)
      | @piece p' _ after' ends' row' =>
          have same := (piece_behind ends).symm.trans
            ((congrArg Template.piece (List.cons.inj whole).2).trans (piece_behind ends'))
          obtain ⟨rfl, rfl⟩ := Prod.mk.inj same
          rw [ih row']

end

/-- A template is one row of parts, and with any arguments it becomes what its parts stand for, one
after another. -/
theorem substitute_eq_parts (template : String) :
    ∃ parts, IsRow parts template.toList ∧
      (∀ others, IsRow others template.toList → others = parts) ∧
      ∀ args, substitute template args = String.ofList (parts.flatMap (Part.value args)) := by
  obtain ⟨parts, row⟩ := exists_row template.toList
  refine ⟨parts, row, fun others other => row.unique other, fun args => ?_⟩
  rw [← row.expand, ← toList_substitute, String.ofList_toList]

-- The dollar sign of the first argument begins nothing.
example : substitute "$0$1" [⟨"$1", .primary⟩, ⟨"x", .primary⟩] = "$1x" := by decide

end CallReplacement.Template
