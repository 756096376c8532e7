import CallReplacement.Proofs.Expr.Induction
import CallReplacement.Proofs.Script.ImportHistory
import CallReplacement.Proofs.Script.Margin

/-!
Indentation of rendered expressions. An expression that starts on a deeper line has the same text
with a wider margin, and the same precedence: the depth decides nothing. That text is also what
becomes of the expression when it is recorded as a line of a deeper block.
-/

namespace CallReplacement

open Text (Shifts ShiftsLines)

namespace Indent

theorem toList_text_add (i : Indent) (m n : Nat) :
    (i.text (m + n)).toList = (i.text m).toList ++ (i.text n).toList := by
  simp only [text, String.toList_ofList, List.replicate_add, List.flatten_append]

theorem break_not_mem_text (i : Indent) (depth : Nat) : '\n' ∉ (i.text depth).toList := by
  have blank : '\n' ∉ i.unit := by
    cases i with
    | tab => decide
    | blanks width =>
        intro inside
        exact absurd (List.eq_of_mem_replicate inside) (by decide)
  simp [text, blank]

end Indent

namespace Expr

/-- The texts that a node writes as they are. -/
def verbatim : Expr → List String
  | .ident _ binding => [binding.name]
  | .imported _ source => [source.selector]
  | .raw _ template _ => [template]
  | .lambda _ params _ => params.map Binding.name
  | .bind _ binding _ _ => [binding.name]
  | _ => []

/-- Whether no name and no template in the expression has a line break. -/
def OneLine (e : Expr) : Prop := ∀ s ∈ e.subterms, ∀ text ∈ s.verbatim, '\n' ∉ text.toList

section
variable (indent : Indent) (imports : Imports) (deeper : Nat)

/-- Whether the expression is the same with a margin when it starts on a line that is deeper. -/
structure Indents (e : Expr) : Prop where
  operand : ∀ depth, (renderAt indent imports .operand depth e).Shifts (indent.text deeper).toList
    (renderAt indent imports .operand (deeper + depth) e)
  rest : ∀ depth, ShiftsLines (indent.text deeper).toList
    (renderAt indent imports .rest depth e).text.toList
    (renderAt indent imports .rest (deeper + depth) e).text.toList

variable {indent imports deeper}

theorem renderAll_shifts {exprs : List Expr} (each : ∀ e ∈ exprs, Indents indent imports deeper e)
    (depth : Nat) : List.Forall₂ (Rendered.Shifts (indent.text deeper).toList)
      (renderAll indent imports depth exprs) (renderAll indent imports (deeper + depth) exprs) := by
  induction exprs with
  | nil => exact .nil
  | cons e rest ih =>
      have head := (each e List.mem_cons_self).operand depth
      exact .cons head (ih fun e member => each e (List.mem_cons_of_mem _ member))

theorem renderFields_shifts {fields : List (String × Expr)}
    (each : ∀ e ∈ fields.map Prod.snd, Indents indent imports deeper e) (depth : Nat) :
    List.Forall₂ (fun text text' => Shifts (indent.text deeper).toList text.toList text'.toList)
      (renderFields indent imports depth fields)
      (renderFields indent imports (deeper + depth) fields) := by
  induction fields with
  | nil => exact .nil
  | cons field rest ih =>
      have head := (each field.2 (by simp)).operand depth
      exact .cons (head.objectField field.1) (ih fun e member => each e (by simp_all))

-- A name that a block binds, and the lines behind it.
theorem bind_shifts (note : Note) {binding : Binding} {value body : Expr}
    (noBreak : '\n' ∉ binding.name.toList) (bound : Indents indent imports deeper value)
    (behind : Indents indent imports deeper body) (depth : Nat) :
    ShiftsLines (indent.text deeper).toList
      (renderAt indent imports .rest depth (.bind note binding value body)).text.toList
      (renderAt indent imports .rest (deeper + depth) (.bind note binding value body)).text.toList := by
  have line := (bound.operand depth).constant (indent.toList_text_add deeper depth)
    (indent.break_not_mem_text _) noBreak
  have lines := line.append (behind.rest depth)
  rw [← String.toList_append, ← String.toList_append] at lines
  simpa only [renderAt] using lines

theorem operand_shifts (named : ∀ source : ImportRef, '\n' ∉ source.selector.toList →
      '\n' ∉ (imports.nameOf source).toList) {e : Expr}
    (own : ∀ text ∈ e.verbatim, '\n' ∉ text.toList)
    (ih : ∀ c ∈ e.children, Indents indent imports deeper c) (depth : Nat) :
    (renderAt indent imports .operand depth e).Shifts (indent.text deeper).toList
      (renderAt indent imports .operand (deeper + depth) e) := by
  cases e with
  | literal note value => simpa only [renderAt, close] using Rendered.Shifts.literal value
  | ident note binding =>
      simpa only [renderAt, close] using .plain (own _ List.mem_cons_self)
  | imported note source =>
      simpa only [renderAt, close] using .plain (named source (own _ List.mem_cons_self))
  | field note target name =>
      have part := (ih target (by simp [children])).operand depth
      simpa only [renderAt, close] using .field (part.target target) name
  | index note target key =>
      have first := (ih target (by simp [children])).operand depth
      have second := (ih key (by simp [children])).operand depth
      simpa only [renderAt, close] using .index (first.target target) second
  | call note style callee args =>
      have first := (ih callee (by simp [children])).operand depth
      have parts (e : Expr) (member : e ∈ args) := ih e (by simp [children, member])
      have others := renderAll_shifts parts depth
      simpa only [renderAt, close] using .call style (first.callee style callee) others
  | object note fields =>
      simpa only [renderAt, close] using .object (renderFields_shifts ih depth)
  | cast note operand =>
      simpa only [renderAt, close] using (ih operand (by simp [children])).operand depth
  | raw note template args =>
      simpa only [renderAt, close] using
        .substitute (own _ List.mem_cons_self) (renderAll_shifts ih depth) .assign
  | unary note op operand =>
      simpa only [renderAt, close] using .unary op ((ih operand (by simp [children])).operand depth)
  | binary note op left right =>
      have first := (ih left (by simp [children])).operand depth
      have second := (ih right (by simp [children])).operand depth
      have noBreak : '\n' ∉ op.symbol.toList := by cases op <;> decide
      simpa only [renderAt, close] using .infixed op.precedence noBreak first second
  | logical note op left right =>
      have first := (ih left (by simp [children])).operand depth
      have second := (ih right (by simp [children])).operand depth
      have noBreak : '\n' ∉ op.symbol.toList := by cases op <;> decide
      simpa only [renderAt, close] using .infixed op.precedence noBreak first second
  | lambda note params body =>
      simpa only [renderAt, close] using .lambda own ((ih body (by simp [children])).operand depth)
  | bind note binding value body =>
      have lines := bind_shifts note (own binding.name List.mem_cons_self)
        (ih value (by simp [children])) (ih body (by simp [children])) (depth + 1)
      simp only [renderAt] at lines
      simpa only [renderAt] using
        .block (indent.toList_text_add deeper depth) (indent.break_not_mem_text _) lines
  | conditional note guard yes no =>
      have first := (ih guard (by simp [children])).operand depth
      have second := (ih yes (by simp [children])).operand depth
      have third := (ih no (by simp [children])).operand depth
      simpa only [renderAt, close] using .conditional first second third
  | sequence note exprs =>
      simpa only [renderAt, close] using .sequence (renderAll_shifts ih depth)

-- The rest of a block is the line of one more name, or the line that returns the value.
theorem rest_shifts {e : Expr} (own : ∀ text ∈ e.verbatim, '\n' ∉ text.toList)
    (ih : ∀ c ∈ e.children, Indents indent imports deeper c) (depth : Nat)
    (operand : (renderAt indent imports .operand depth e).Shifts (indent.text deeper).toList
      (renderAt indent imports .operand (deeper + depth) e)) :
    ShiftsLines (indent.text deeper).toList (renderAt indent imports .rest depth e).text.toList
      (renderAt indent imports .rest (deeper + depth) e).text.toList := by
  cases e with
  | bind note binding value body =>
      exact bind_shifts note (own _ List.mem_cons_self) (ih value (by simp [children]))
        (ih body (by simp [children])) depth
  | _ =>
      have line := operand.result (indent.toList_text_add deeper depth)
        (indent.break_not_mem_text _)
      simpa only [renderAt, close] using line

theorem indents (named : ∀ source : ImportRef, '\n' ∉ source.selector.toList →
      '\n' ∉ (imports.nameOf source).toList) {e : Expr} (oneLine : e.OneLine) :
    Indents indent imports deeper e := by
  induction e using induction_children with
  | step e ih =>
    obtain ⟨own, parts⟩ := (forall_subterms_iff _ e).mp oneLine
    have each (c : Expr) (member : c ∈ e.children) := ih c member (parts c member)
    have operand := operand_shifts named own each
    exact ⟨operand, fun depth => rest_shifts own each depth (operand depth)⟩

end

theorem break_not_mem_nameOf (requests : List Imports.Request) (source : ImportRef)
    (noBreak : '\n' ∉ source.selector.toList) :
    '\n' ∉ ((Imports.answerAll requests).nameOf source).toList := by
  rw [Imports.answerAll_eq_after]
  obtain ⟨n, name⟩ := Imports.nameOf_eq_candidate (Imports.history requests) source
  rw [name]
  cases n with
  | zero => exact noBreak
  | succ n =>
      have digits : '\n' ∉ Nat.toDigits 10 (n + 1) := fun inside =>
        absurd (toDigits_isDigit (n + 1) '\n' inside) (by decide)
      simpa [Imports.candidate] using ⟨noBreak, digits⟩

/-- Starting on a deeper line, an expression has the same text with a margin. Its text at the left
edge becomes that text when it is recorded at the depth. -/
theorem indentation_shifts (indent : Indent) (requests : List Imports.Request) (depth : Nat)
    (e : Expr) (oneLine : e.OneLine) :
    (e.render indent (.answerAll requests) depth).precedence =
        (e.render indent (.answerAll requests) 0).precedence ∧
      (e.render indent (.answerAll requests) depth).text.toList =
        Text.withMargin (indent.text depth).toList
          (e.render indent (.answerAll requests) 0).text.toList ∧
      ((e.render indent (.answerAll requests) 0).text ≠ "" →
        ∀ lines : Lines, lines.indent = indent → lines.depth = depth →
          (lines.line (e.render indent (.answerAll requests) 0).text).text =
            lines.text ++ (indent.text depth ++
              (e.render indent (.answerAll requests) depth).text ++ "\n")) := by
  have moved : Indents indent (.answerAll requests) depth e :=
    indents (break_not_mem_nameOf requests) oneLine
  have shifts : (e.render indent (.answerAll requests) 0).Shifts (indent.text depth).toList
      (e.render indent (.answerAll requests) depth) := moved.operand 0
  refine ⟨shifts.precedence, shifts.text.shifted, ?_⟩
  rintro nonempty lines rfl rfl
  exact lines.text_line nonempty shifts.text

/-- A block in a function that a block binds. -/
def nestedBlocks : Expr :=
  letIn ⟨"f", .any⟩
    (function [⟨"n", .int32⟩] (letIn ⟨"m", .int32⟩ (named "n" .int32) (named "m" .int32)))
    (named "f" .any)

theorem nestedBlocks_shift :
    nestedBlocks.OneLine ∧
      (nestedBlocks.render .tab (.answerAll []) 0).text =
        "(() => \x7b\n\tconst f = (n) => (() => \x7b\n\t\tconst m = n;\n" ++
          "\t\treturn m;\n\t\x7d)();\n\treturn f;\n\x7d)()" ∧
      (Lines.line ⟨.tab, 1, []⟩ (nestedBlocks.render .tab (.answerAll []) 0).text).text =
        "\t(() => \x7b\n\t\tconst f = (n) => (() => \x7b\n\t\t\tconst m = n;\n" ++
          "\t\t\treturn m;\n\t\t\x7d)();\n\t\treturn f;\n\t\x7d)()\n" := by
  have oneLine : nestedBlocks.OneLine := by
    unfold OneLine
    decide
  have shifts := indentation_shifts .tab [] 1 nestedBlocks oneLine
  refine ⟨oneLine, by decide +kernel, ?_⟩
  rw [shifts.2.2 (by decide +kernel) ⟨.tab, 1, []⟩ rfl rfl]
  decide +kernel

end Expr
end CallReplacement
