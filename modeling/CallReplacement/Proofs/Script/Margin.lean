import CallReplacement.Proofs.Script.Numerals
import CallReplacement.Proofs.Script.Placeholders
import CallReplacement.Script.Lines
import Mathlib.Data.List.Chain

/-!
Texts with a margin: blanks behind each line break, and nothing else. The functions that render
nodes pass a margin on, as they write line breaks only in blocks, whose lines begin with the blanks
of their depth. No line that they write is empty, so a text that is recorded at some depth gets the
margin of that depth.

Both facts pass through the rendering functions in the same way, so they are one relation of texts.
-/

namespace CallReplacement

open JavaScript (IsNumeral IsWhole)

namespace Text

/-! ## Margins -/

/-- The text with a margin behind each line break. -/
def withMargin (margin text : List Char) : List Char :=
  text.flatMap fun c => if c = '\n' then '\n' :: margin else [c]

/-- Whether no line of the text is empty; the empty text has no lines. -/
structure Solid (text : List Char) : Prop where
  first : text.head? ≠ some '\n'
  last : text.getLast? ≠ some '\n'
  between : text.IsChain fun c d => c ≠ '\n' ∨ d ≠ '\n'

section
variable {margin text more : List Char}

theorem withMargin_append :
    withMargin margin (text ++ more) = withMargin margin text ++ withMargin margin more :=
  List.flatMap_append

theorem withMargin_break :
    withMargin margin ('\n' :: text) = '\n' :: margin ++ withMargin margin text := rfl

theorem withMargin_plain (noBreak : '\n' ∉ text) : withMargin margin text = text := by
  have kept : ∀ c ∈ text, (if c = '\n' then '\n' :: margin else [c]) = [c] := fun c inside =>
    if_neg (ne_of_mem_of_not_mem inside noBreak)
  rw [withMargin, List.flatMap_congr kept, List.flatMap_singleton']

theorem head?_withMargin : (withMargin margin text).head? = text.head? := by
  cases text with
  | nil => rfl
  | cons c rest =>
      by_cases isBreak : c = '\n'
      · subst isBreak
        rfl
      · simp [withMargin, isBreak]

theorem break_not_mem_quoted (text : String) : '\n' ∉ (quoted text).toList :=
  not_mem_quoted (by decide) fun _ => by decide

theorem break_not_mem_identifier {name : String} (isIdent : isIdentifier name) :
    '\n' ∉ name.toList := by
  intro inside
  rw [isIdentifier] at isIdent
  cases chars : name.toList with
  | nil => simp [chars] at inside
  | cons c rest =>
      simp only [chars, Bool.and_eq_true, List.all_eq_true] at isIdent
      rw [chars] at inside
      rcases List.mem_cons.mp inside with rfl | inRest
      · exact absurd isIdent.1 (by decide)
      · exact absurd (isIdent.2 '\n' inRest) (by decide)

theorem solid_plain (noBreak : '\n' ∉ text) : Solid text where
  first isHead := noBreak (List.mem_of_head? isHead)
  last isLast := noBreak (List.mem_of_getLast? isLast)
  between := by
    induction text with
    | nil => exact .nil
    | cons c rest ih =>
        obtain ⟨other, tail⟩ := not_or.mp (fun inside => noBreak (List.mem_cons.mpr inside))
        exact List.isChain_cons.mpr ⟨fun _ _ => .inl (Ne.symm other), ih tail⟩

theorem Solid.append (solid : Solid text) (others : Solid more) : Solid (text ++ more) where
  first := by
    have own := solid.first
    rw [List.head?_append]
    cases isHead : text.head? with
    | none => exact others.first
    | some c => rwa [isHead] at own
  last := by
    have own := others.last
    rw [List.getLast?_append]
    cases isLast : more.getLast? with
    | none => exact solid.last
    | some c => rwa [isLast] at own
  between := by
    rw [List.isChain_append]
    refine ⟨solid.between, others.between, fun c isLast _ _ => .inl ?_⟩
    rintro rfl
    exact solid.last isLast

theorem Solid.append_line (solid : Solid text) (nonempty : text ≠ []) (others : Solid more)
    (nonempty' : more ≠ []) : Solid (text ++ '\n' :: more) where
  first := by
    rw [List.head?_append_of_ne_nil _ nonempty]
    exact solid.first
  last := by
    rw [List.getLast?_append_of_ne_nil _ (List.cons_ne_nil _ _),
      List.getLast?_cons_of_ne_nil nonempty']
    exact others.last
  between := by
    rw [List.isChain_append, List.isChain_cons]
    refine ⟨solid.between, ⟨fun d isHead => .inr ?_, others.between⟩, fun c isLast _ _ => .inl ?_⟩
    · rintro rfl
      exact others.first isHead
    · rintro rfl
      exact solid.last isLast

-- A line that has begun may end at once, and no other line is empty.
theorem solid_segments (last : text.getLast? ≠ some '\n')
    (between : text.IsChain fun c d => c ≠ '\n' ∨ d ≠ '\n') :
    ((segments '\n' text).1 = [] → text = [] ∨ text.head? = some '\n') ∧
      ∀ line ∈ (segments '\n' text).2, line ≠ [] := by
  induction text with
  | nil => simp
  | cons c rest ih =>
      rw [List.isChain_cons] at between
      have lastOfRest (nonempty : rest ≠ []) : rest.getLast? ≠ some '\n' := by
        rwa [List.getLast?_cons_of_ne_nil nonempty] at last
      by_cases isBreak : c = '\n'
      · subst isBreak
        have nonempty : rest ≠ [] := by
          rintro rfl
          exact last rfl
        obtain ⟨first, others⟩ := ih (lastOfRest nonempty) between.2
        rw [segments_separator]
        refine ⟨fun _ => .inr rfl, List.forall_mem_cons.mpr ⟨fun empty => ?_, others⟩⟩
        rcases first empty with none | isHead
        · exact nonempty none
        · simpa using between.1 '\n' isHead
      · rw [segments_other rest isBreak]
        refine ⟨fun empty => absurd empty (List.cons_ne_nil _ _), ?_⟩
        cases rest with
        | nil => simp
        | cons d rest => exact (ih (lastOfRest (List.cons_ne_nil _ _)) between.2).2

theorem Solid.segments_ne_nil (solid : Solid text) (nonempty : text ≠ []) :
    ∀ line ∈ (segments '\n' text).1 :: (segments '\n' text).2, line ≠ [] := by
  obtain ⟨first, others⟩ := solid_segments solid.last solid.between
  refine List.forall_mem_cons.mpr ⟨fun empty => ?_, others⟩
  rcases first empty with none | isHead
  · exact nonempty none
  · exact solid.first isHead

theorem withMargin_eq_segments : withMargin margin text =
    (segments '\n' text).1 ++
      (segments '\n' text).2.flatMap fun line => '\n' :: (margin ++ line) := by
  induction text with
  | nil => rfl
  | cons c rest ih =>
      by_cases isBreak : c = '\n'
      · subst isBreak
        rw [withMargin_break, ih, segments_separator]
        simp
      · rw [segments_other rest isBreak, List.cons_append, ← ih]
        simp [withMargin, isBreak]

end

/-- Whether the second text is the first one with a margin, where the first has no empty lines. -/
structure Shifts (margin text text' : List Char) : Prop where
  shifted : text' = withMargin margin text
  solid : Solid text

/-- Whether whole lines are those of another row of lines with a margin, which is also in front of
the first one and not behind the last one. Text without empty lines may follow. -/
structure ShiftsLines (margin lines lines' : List Char) : Prop where
  shifted : lines' ++ margin = margin ++ withMargin margin lines
  solid : ∀ closing, Solid closing → closing ≠ [] → Solid (lines ++ closing)

section
variable {margin text text' more more' lines lines' : List Char}

theorem shifts_plain (noBreak : '\n' ∉ text) : Shifts margin text text :=
  ⟨(withMargin_plain noBreak).symm, solid_plain noBreak⟩

theorem Shifts.append (shifts : Shifts margin text text') (others : Shifts margin more more') :
    Shifts margin (text ++ more) (text' ++ more') :=
  ⟨by rw [withMargin_append, shifts.shifted, others.shifted], shifts.solid.append others.solid⟩

theorem Shifts.head?_eq (shifts : Shifts margin text text') : text'.head? = text.head? := by
  rw [shifts.shifted, head?_withMargin]

theorem Shifts.line (shifts : Shifts margin text text') (nonempty : text ≠ []) :
    ShiftsLines margin (text ++ ['\n']) (margin ++ text' ++ ['\n']) where
  shifted := by
    rw [withMargin_append, shifts.shifted, withMargin_break]
    simp [withMargin]
  solid closing solid nonempty' := by
    rw [List.append_assoc]
    exact shifts.solid.append_line nonempty solid nonempty'

theorem ShiftsLines.append {rest rest' : List Char} (shifts : ShiftsLines margin lines lines')
    (others : ShiftsLines margin rest rest') :
    ShiftsLines margin (lines ++ rest) (lines' ++ rest') where
  shifted := by
    rw [List.append_assoc, others.shifted, ← List.append_assoc, shifts.shifted, withMargin_append,
      List.append_assoc]
  solid closing solid nonempty := by
    rw [List.append_assoc]
    exact shifts.solid _ (others.solid closing solid nonempty)
      (List.append_ne_nil_of_right_ne_nil _ nonempty)

-- Lines between what opens a block and what closes it.
theorem ShiftsLines.between {opening closing : List Char} (shifts : ShiftsLines margin lines lines')
    (noBreak : '\n' ∉ opening) (nonempty : opening ≠ [])
    (noBreak' : '\n' ∉ closing) (nonempty' : closing ≠ []) :
    Shifts margin (opening ++ '\n' :: (lines ++ closing))
      (opening ++ '\n' :: (lines' ++ (margin ++ closing))) where
  shifted := by
    rw [withMargin_append, withMargin_break, withMargin_append, withMargin_plain noBreak,
      withMargin_plain noBreak', ← List.append_assoc lines', shifts.shifted]
    simp
  solid := (solid_plain noBreak).append_line nonempty
    (shifts.solid closing (solid_plain noBreak') nonempty')
    (List.append_ne_nil_of_right_ne_nil _ nonempty')

theorem shifts_joined {separator : String} (noBreak : '\n' ∉ separator.toList)
    {texts texts' : List String}
    (each : List.Forall₂ (fun text text' => Shifts margin text.toList text'.toList) texts texts') :
    Shifts margin (joined separator texts).toList (joined separator texts').toList := by
  induction each with
  | nil => exact shifts_plain List.not_mem_nil
  | cons head rest ih =>
      cases rest with
      | nil => exact head
      | cons second others =>
          simp only [joined, String.toList_append]
          exact (head.append (shifts_plain noBreak)).append ih

end
end Text

/-! ## Lines of a block -/

namespace Lines

-- One line break behind each line, or one in front of each but the first.
theorem flatMap_lines (margin first : List Char) (others : List (List Char)) :
    ((first :: others).flatMap fun line => margin ++ line ++ ['\n']) =
      margin ++ (first ++ others.flatMap fun line => '\n' :: (margin ++ line)) ++ ['\n'] := by
  induction others generalizing first with
  | nil => simp
  | cons next rest ih =>
      rw [List.flatMap_cons, ih]
      simp

theorem toList_text (lines : Lines) :
    lines.text.toList = lines.recorded.flatMap fun line => line.toList ++ ['\n'] := by
  simp [text, String.toList_join, List.flatMap_map]

theorem recorded_line_flat {lines : Lines} (flat : lines.depth = 0) (text : String) :
    (lines.line text).recorded = lines.recorded ++
      ((Text.segments '\n' text.toList).1 :: (Text.segments '\n' text.toList).2).map
        String.ofList := by
  have kept : ∀ cut : List Char, indented lines.indent lines.depth cut = String.ofList cut := by
    intro cut
    cases cut with
    | nil => rfl
    | cons c cut => simp [indented, flat, Indent.text]
  rw [line, List.map_congr_left fun cut _ => kept cut]

/-- A text without empty lines is recorded with a margin in front of each of its lines. -/
theorem text_line (lines : Lines) {text text' : String} (nonempty : text ≠ "")
    (shifts : Text.Shifts (lines.indent.text lines.depth).toList text.toList text'.toList) :
    (lines.line text).text = lines.text ++ (lines.indent.text lines.depth ++ text' ++ "\n") := by
  have cut := shifts.solid.segments_ne_nil (mt String.toList_eq_nil_iff.mp nonempty)
  have indentedAll : ∀ line ∈
      (Text.segments '\n' text.toList).1 :: (Text.segments '\n' text.toList).2,
      (indented lines.indent lines.depth line).toList ++ ['\n'] =
        (lines.indent.text lines.depth).toList ++ line ++ ['\n'] := by
    intro line member
    simp [indented, cut line member]
  rw [← String.toList_inj, toList_text, line]
  simp only [List.flatMap_append, List.flatMap_map, String.toList_append]
  rw [List.flatMap_congr indentedAll, flatMap_lines, ← Text.withMargin_eq_segments,
    ← shifts.shifted, toList_text]
  rfl

end Lines

/-! ## The functions that render nodes -/

open Text (Shifts ShiftsLines shifts_plain shifts_joined)

/-- Whether a rendered expression is another one with a margin. -/
structure Rendered.Shifts (margin : List Char) (r r' : Rendered) : Prop where
  precedence : r'.precedence = r.precedence
  text : Text.Shifts margin r.text.toList r'.text.toList

namespace Rendered

section
variable {margin : List Char} {text text' : String} {r r' : Rendered} {rs rs' : List Rendered}

theorem shifts_parenthesized (shifts : Text.Shifts margin text.toList text'.toList) :
    Text.Shifts margin (parenthesized text).toList (parenthesized text').toList := by
  simp only [parenthesized, String.toList_append]
  exact ((shifts_plain (by decide)).append shifts).append (shifts_plain (by decide))

namespace Shifts

theorem plain {p : Precedence} (noBreak : '\n' ∉ text.toList) :
    Shifts margin ⟨text, p⟩ ⟨text, p⟩ := ⟨rfl, shifts_plain noBreak⟩

theorem wrapped (shifts : Shifts margin r r') (loose : Prop) [Decidable loose] :
    Text.Shifts margin (if loose then parenthesized r.text else r.text).toList
      (if loose then parenthesized r'.text else r'.text).toList := by
  split
  · exact shifts_parenthesized shifts.text
  · exact shifts.text

theorem atLeast (shifts : Shifts margin r r') (p : Precedence) :
    Text.Shifts margin (r.atLeast p).toList (r'.atLeast p).toList := by
  unfold Rendered.atLeast
  rw [shifts.precedence]
  exact shifts.wrapped _

theorem above (shifts : Shifts margin r r') (p : Precedence) :
    Text.Shifts margin (r.above p).toList (r'.above p).toList := by
  unfold Rendered.above
  rw [shifts.precedence]
  exact shifts.wrapped _

theorem list (each : List.Forall₂ (Shifts margin) rs rs') :
    Text.Shifts margin (Rendered.list rs).toList (Rendered.list rs').toList := by
  apply shifts_joined (by decide)
  rw [List.forall₂_map_left_iff, List.forall₂_map_right_iff]
  exact each.imp fun _ _ shifts => shifts.atLeast .assign

theorem target (shifts : Shifts margin r r') (e : Expr) :
    Text.Shifts margin (e.asTarget r).toList (e.asTarget r').toList := by
  unfold Expr.asTarget
  split
  · exact shifts_parenthesized shifts.text
  · exact shifts.atLeast .call

theorem callee (shifts : Shifts margin r r') (style : CallStyle) (e : Expr) :
    Text.Shifts margin (e.asCallee style r).toList (e.asCallee style r').toList := by
  unfold Expr.asCallee
  split
  · exact shifts_parenthesized shifts.text
  · exact shifts.atLeast .call

theorem field (head : Text.Shifts margin text.toList text'.toList) (name : String) :
    Shifts margin (.field text name) (.field text' name) where
  precedence := rfl
  text := by
    simp only [Rendered.field]
    split
    · next isIdent =>
      simp only [String.toList_append]
      exact (head.append (shifts_plain (by decide))).append
        (shifts_plain (Text.break_not_mem_identifier isIdent))
    · simp only [String.toList_append]
      exact ((head.append (shifts_plain (by decide))).append
        (shifts_plain (Text.break_not_mem_quoted name))).append (shifts_plain (by decide))

theorem index (head : Text.Shifts margin text.toList text'.toList) (key : Shifts margin r r') :
    Shifts margin (.index text r) (.index text' r') where
  precedence := rfl
  text := by
    simp only [Rendered.index, String.toList_append]
    exact ((head.append (shifts_plain (by decide))).append key.text).append
      (shifts_plain (by decide))

theorem call (style : CallStyle) (head : Text.Shifts margin text.toList text'.toList)
    (each : List.Forall₂ (Shifts margin) rs rs') :
    Shifts margin (.call style text rs) (.call style text' rs') where
  precedence := rfl
  text := by
    have applied := head.append (shifts_parenthesized (list each))
    cases style with
    | direct => simpa only [Rendered.call, String.toList_append] using applied
    | construct =>
        simp only [Rendered.call, String.toList_append]
        exact (shifts_plain (by decide)).append applied

theorem objectField (name : String) (value : Shifts margin r r') :
    Text.Shifts margin (Rendered.objectField name r).toList
      (Rendered.objectField name r').toList := by
  have key : '\n' ∉ (if isIdentifier name then name else Text.quoted name).toList := by
    split
    · next isIdent => exact Text.break_not_mem_identifier isIdent
    · exact Text.break_not_mem_quoted name
  simp only [Rendered.objectField, String.toList_append]
  exact ((shifts_plain key).append (shifts_plain (by decide))).append (value.atLeast .assign)

theorem object {fields fields' : List String}
    (each : List.Forall₂ (fun text text' => Text.Shifts margin text.toList text'.toList)
      fields fields') : Shifts margin (.object fields) (.object fields') where
  precedence := rfl
  text := by
    cases each with
    | nil => exact shifts_plain (by decide)
    | cons head rest =>
        have row := shifts_joined (show '\n' ∉ ", ".toList by decide) (.cons head rest)
        simp only [Rendered.object, Rendered.primary, List.isEmpty_cons, Bool.false_eq_true,
          if_false, String.toList_append]
        exact ((shifts_plain (by decide)).append row).append (shifts_plain (by decide))

theorem unary (op : UnaryOp) (operand : Shifts margin r r') :
    Shifts margin (.unary op r) (.unary op r') where
  precedence := rfl
  text := by
    have inner := operand.atLeast .unary
    cases op with
    | not =>
        simp only [Rendered.unary, String.toList_append]
        exact (shifts_plain (by decide)).append inner
    | negate =>
        simp only [Rendered.unary, inner.head?_eq]
        split
        · rw [String.toList_append, String.toList_append]
          exact (shifts_plain (by decide)).append (shifts_parenthesized inner)
        · rw [String.toList_append, String.toList_append]
          exact (shifts_plain (by decide)).append inner

theorem infixed {l l' : Rendered} {symbol : String} (p : Precedence)
    (noBreak : '\n' ∉ symbol.toList) (left : Shifts margin l l') (right : Shifts margin r r') :
    Shifts margin (.infixed symbol p l r) (.infixed symbol p l' r') where
  precedence := rfl
  text := by
    simp only [Rendered.infixed, String.toList_append]
    exact ((((left.atLeast p).append (shifts_plain (by decide))).append
      (shifts_plain noBreak)).append (shifts_plain (by decide))).append (right.above p)

-- Whether a body begins with a brace does not depend on its margin.
theorem lambda {params : List String} (noBreak : ∀ name ∈ params, '\n' ∉ name.toList)
    (body : Shifts margin r r') : Shifts margin (.lambda params r) (.lambda params r') where
  precedence := rfl
  text := by
    have names : Text.Shifts margin (Text.joined ", " params).toList
        (Text.joined ", " params).toList :=
      shifts_joined (by decide)
        (List.forall₂_same.mpr fun name member => shifts_plain (noBreak name member))
    have inner : Text.Shifts margin
        (if r.text.toList.head? = some '\x7b' then parenthesized r.text
          else r.atLeast .assign).toList
        (if r'.text.toList.head? = some '\x7b' then parenthesized r'.text
          else r'.atLeast .assign).toList := by
      rw [body.text.head?_eq]
      split
      · exact shifts_parenthesized body.text
      · exact body.atLeast .assign
    simp only [Rendered.lambda, String.toList_append]
    exact ((shifts_parenthesized names).append (shifts_plain (by decide))).append inner

theorem conditional {g g' y y' n n' : Rendered} (guard : Shifts margin g g')
    (yes : Shifts margin y y') (no : Shifts margin n n') :
    Shifts margin (.conditional g y n) (.conditional g' y' n') where
  precedence := rfl
  text := by
    simp only [Rendered.conditional, String.toList_append]
    exact ((((guard.atLeast .or).append (shifts_plain (by decide))).append
      (yes.atLeast .assign)).append (shifts_plain (by decide))).append (no.atLeast .assign)

theorem sequence (each : List.Forall₂ (Shifts margin) rs rs') :
    Shifts margin (.sequence rs) (.sequence rs') := by
  cases each with
  | nil => exact plain (by decide)
  | cons first rest =>
      cases rest with
      | nil => exact first
      | cons second others => exact ⟨rfl, list (.cons first (.cons second others))⟩

theorem piece {p : Template.Piece} (noBreak : '\n' ∉ p.behind)
    (each : List.Forall₂ (Shifts margin) rs rs') :
    Text.Shifts margin (p.text rs).toList (p.text rs').toList := by
  cases p with
  | dollar => exact shifts_plain (show '\n' ∉ "$".toList by decide)
  | argument digits =>
      have tail := List.forall₂_drop (Template.index digits) each
      simp only [Template.Piece.text, ← List.head?_drop]
      generalize rs.drop (Template.index digits) = later at tail
      generalize rs'.drop (Template.index digits) = later' at tail
      cases tail with
      | nil => exact shifts_plain (by simpa [Template.Piece.behind] using noBreak)
      | cons first rest => exact first.atLeast .call
  | spread digits =>
      have noBreak' : '\n' ∉ ("$" ++ String.ofList digits ++ "...").toList := by
        simpa [Template.Piece.behind] using noBreak
      simp only [Template.Piece.text, each.length_eq]
      split
      · exact list (List.forall₂_drop (Template.index digits) each)
      · exact shifts_plain noBreak'

theorem row {parts : List Template.Part} {chars : List Char} (isRow : Template.IsRow parts chars)
    (noBreak : '\n' ∉ chars) (each : List.Forall₂ (Shifts margin) rs rs') :
    Text.Shifts margin (parts.flatMap (Template.Part.value rs))
      (parts.flatMap (Template.Part.value rs')) := by
  induction isRow with
  | nil => exact shifts_plain List.not_mem_nil
  | plain _ _ _ _ ih =>
      rw [List.mem_append, not_or] at noBreak
      exact (shifts_plain noBreak.1).append (ih noBreak.2)
  | piece _ _ ih =>
      rw [List.mem_cons, List.mem_append, not_or, not_or] at noBreak
      have first := piece noBreak.2.1 each
      rw [Template.toList_text, Template.toList_text] at first
      exact first.append (ih noBreak.2.2)

-- Only arguments have line breaks.
theorem substitute {template : String} (noBreak : '\n' ∉ template.toList)
    (each : List.Forall₂ (Shifts margin) rs rs') (p : Precedence) :
    Shifts margin ⟨Template.substitute template rs, p⟩ ⟨Template.substitute template rs', p⟩ where
  precedence := rfl
  text := by
    obtain ⟨parts, isRow⟩ := Template.exists_row template.toList
    simp only [Template.toList_substitute, isRow.expand]
    exact row isRow noBreak each

theorem break_not_mem_signed {text : String} (numeral : IsNumeral text.toList) (isNegative : Prop)
    [Decidable isNegative] : '\n' ∉ (if isNegative then "-" ++ text else text).toList := by
  have digits : ∀ {digits : List Char}, (∀ c ∈ digits, c.isDigit) → '\n' ∉ digits :=
    fun all inside => absurd (all '\n' inside) (by decide)
  have unsigned : '\n' ∉ text.toList := by
    generalize text.toList = chars at numeral
    cases numeral with
    | whole whole => exact digits whole.2.1
    | decimal whole fraction =>
        rw [List.mem_append, List.mem_cons, not_or, not_or]
        exact ⟨digits whole.2.1, by decide, digits fraction⟩
  split
  · simpa using unsigned
  · exact unsigned

theorem literal (value : Literal) : Shifts margin (.ofLiteral value) (.ofLiteral value) := by
  cases value with
  | null | unit => exact plain (by decide)
  | bool value => cases value <;> exact plain (by decide)
  | int value =>
      have numeral := IsNumeral.whole (isWhole_toString value.toInt.natAbs)
      rw [Rendered.ofLiteral, toString_toInt]
      exact plain (break_not_mem_signed numeral _)
  | float value =>
      rw [Rendered.ofLiteral, Rendered.ofFloat]
      split_ifs
      · exact plain (by decide)
      · exact plain (by decide)
      · exact plain (by decide)
      · rw [Decimal.ofFinite_magnitude]
        exact plain (break_not_mem_signed (Decimal.isNumeral_magnitude value) _)
  | string value => exact plain (Text.break_not_mem_quoted value)
  | char value => exact plain (Text.break_not_mem_quoted _)

/-! Lines of a block. The blanks in front of a line are given by its depth, and a margin makes them
more. -/

section
variable {front front' : String} (deeper : front'.toList = margin ++ front.toList)
  (blank : '\n' ∉ front.toList)
include deeper blank

theorem statement (shifts : Text.Shifts margin text.toList text'.toList) :
    ShiftsLines margin (front ++ text ++ ";\n").toList (front' ++ text' ++ ";\n").toList := by
  have ended := ((shifts_plain blank).append shifts).append
    (shifts_plain (show '\n' ∉ [';'] by decide))
  simpa [deeper] using ended.line (by simp)

theorem constant {name : String} (noBreak : '\n' ∉ name.toList) (value : Shifts margin r r') :
    ShiftsLines margin (Rendered.constant front name r).toList
      (Rendered.constant front' name r').toList := by
  have binding : '\n' ∉ ("const " ++ name ++ " = ").toList := by simpa using noBreak
  have whole := (shifts_plain binding).append (value.atLeast .assign)
  rw [← String.toList_append, ← String.toList_append] at whole
  simpa only [Rendered.constant, String.append_assoc] using statement deeper blank whole

theorem result (value : Shifts margin r r') :
    ShiftsLines margin (Rendered.result front r).toList (Rendered.result front' r').toList := by
  have keyword : '\n' ∉ "return ".toList := by decide
  have whole := (shifts_plain keyword).append value.text
  rw [← String.toList_append, ← String.toList_append] at whole
  simpa only [Rendered.result, String.append_assoc] using statement deeper blank whole

theorem block {lines lines' : String} (shifts : ShiftsLines margin lines.toList lines'.toList) :
    Shifts margin (.block front lines) (.block front' lines') where
  precedence := rfl
  text := by
    have opening : '\n' ∉ "(() => \x7b".toList := by decide
    have closing : '\n' ∉ front.toList ++ "\x7d)()".toList := by simpa using blank
    have whole := shifts.between opening (by decide) closing (by simp)
    simpa [Rendered.block, deeper] using whole

end
end Shifts
end
end Rendered

end CallReplacement
