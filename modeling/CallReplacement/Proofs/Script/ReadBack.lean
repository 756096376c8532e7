import CallReplacement.Proofs.Expr.Induction
import CallReplacement.Proofs.JavaScript.Unambiguous
import CallReplacement.Proofs.Script.Numerals

/-!
The text of an expression is read back as the expression's tree and as no other. This holds of
every expression without raw text whose names are identifiers, with one exception: a number that
hides under a type or in a sequence of one, and whose member is taken by name.
-/

namespace CallReplacement.Expr

open JavaScript

section
variable (A : Alphabet) (imports : Imports)

/-- Whether the node itself can be read: its names are identifiers, and the dot of a member
access is no decimal point. -/
def ReadableNode : Expr → Prop
  | .ident _ binding => A.IsName binding.name
  | .imported _ source => A.IsName (imports.nameOf source)
  | .field _ target name =>
      isIdentifier name → target.isNumber ∨ (target.tree imports).isNumber = false
  | .raw .. => False
  | .lambda _ params _ => ∀ p ∈ params, A.IsName p.name
  | .bind _ binding _ _ => A.IsName binding.name
  | _ => True

def Readable (e : Expr) : Prop := ∀ s ∈ e.subterms, s.ReadableNode A imports

variable {A imports}

theorem readable_iff (e : Expr) :
    e.Readable A imports ↔
      e.ReadableNode A imports ∧ ∀ c ∈ e.children, c.Readable A imports :=
  forall_subterms_iff (ReadableNode A imports) e

end

section
variable {A : Alphabet} {indent : Indent} {imports : Imports}

theorem isBlank_indent (indent : Indent) (depth : Nat) : ∀ c ∈ (indent.text depth).toList, isBlank c := by
  intro c member
  rw [Indent.text, String.toList_ofList, List.mem_flatten] at member
  obtain ⟨unit, isUnit, inUnit⟩ := member
  rw [List.eq_of_mem_replicate isUnit] at inUnit
  cases indent with
  | tab =>
      rw [List.mem_singleton.mp inUnit]
      rfl
  | blanks width =>
      rw [List.eq_of_mem_replicate inUnit]
      rfl

theorem renderAll_eq (depth : Nat) (exprs : List Expr) :
    renderAll indent imports depth exprs = exprs.map (renderAt indent imports .operand depth) := by
  induction exprs with
  | nil => rfl
  | cons e rest ih => rw [renderAll, ih, List.map_cons]

theorem renderFields_eq (depth : Nat) (fields : List (String × Expr)) :
    renderFields indent imports depth fields = fields.map fun f =>
      Rendered.objectField f.1 (renderAt indent imports .operand depth f.2) := by
  induction fields with
  | nil => rfl
  | cons field rest ih => rw [renderFields, ih, List.map_cons]

variable (A indent imports)

/-- Whether the text of an expression, and the lines of the block that it ends, are read as
they are meant. -/
structure ReadsBack (e : Expr) : Prop where
  operand : ∀ depth, Means A (renderAt indent imports .operand depth e) (e.spine imports)
  lines : ∀ depth, LinesMean A (renderAt indent imports .rest depth e).text
    (e.reading imports .rest).constants (e.reading imports .rest).tree

variable {A indent imports}

def isBind : Expr → Bool
  | .bind .. => true
  | _ => false

-- What remains of a block when no more names are bound is the line that returns the value.
theorem readsBack_of_operand {e : Expr} (noBind : e.isBind = false)
    (operand : ∀ depth, Means A (renderAt indent imports .operand depth e) (e.spine imports)) :
    ReadsBack A indent imports e where
  operand := operand
  lines depth := by
    have result := linesMean_result (isBlank_indent indent depth) (operand depth)
    cases e <;> first | exact result | cases noBind

theorem readsBack_all {exprs : List Expr} (each : ∀ e ∈ exprs, ReadsBack A indent imports e)
    (depth : Nat) :
    List.Forall₂ (Means A) (renderAll indent imports depth exprs) (readings imports exprs) := by
  rw [renderAll_eq, readings_eq, List.forall₂_map_left_iff, List.forall₂_map_right_iff,
    List.forall₂_same]
  intro e member
  exact (each e member).operand depth

theorem readsBack_fields {fields : List (String × Expr)}
    (each : ∀ e ∈ fields.map Prod.snd, ReadsBack A indent imports e) (depth : Nat) :
    List.Forall₂ (FieldMeans A) (renderFields indent imports depth fields)
      (fieldReadings imports fields) := by
  rw [renderFields_eq, fieldReadings_eq, List.forall₂_map_left_iff, List.forall₂_map_right_iff,
    List.forall₂_same]
  intro field member
  have means := (each field.2 (List.mem_map_of_mem member)).operand depth
  exact ⟨_, _, rfl, rfl, means⟩

-- Where a callee is parenthesized, its phrase is too.
theorem means_callee (style : CallStyle) (callee : Expr) {r : Rendered} {s : Spine}
    (means : Means A r s) :
    ∃ dotted ts, Written A dotted (callee.asCallee style r) ts ∧
      (calleeSpine style callee s).Reads ts := by
  by_cases wrapped : style = .construct ∧ callee.isCall
  · obtain ⟨ts, written, reads⟩ := means.parenthesized
    rw [asCallee, if_pos wrapped, calleeSpine, if_pos wrapped]
    exact ⟨_, ts, written, reads_ofTree reads⟩
  · obtain ⟨ts, written, reads⟩ := means.callable
    rw [asCallee, if_neg wrapped, calleeSpine, if_neg wrapped]
    exact ⟨_, ts, written, reads⟩

theorem spine_of_isNumber {e : Expr} (isNumber : e.isNumber) : ∃ t, e.spine imports = .ofTree t := by
  cases e <;> first | exact ⟨_, rfl⟩ | simp [Expr.isNumber] at isNumber

-- By induction on the expression, with one lemma for each kind of node.
theorem readsBack (e : Expr) (readable : e.Readable A imports) : ReadsBack A indent imports e := by
  induction e using induction_children with
  | step e ih =>
    obtain ⟨node, parts⟩ := (readable_iff e).mp readable
    have part : ∀ c ∈ e.children, ReadsBack A indent imports c := by
      intro c member
      exact ih c member (parts c member)
    cases e with
    | literal note value => exact readsBack_of_operand rfl fun depth => means_literal value
    | ident note binding =>
        exact readsBack_of_operand rfl fun depth =>
          means_primary ((written_name node).mono fun _ => trivial) (.name _)
    | imported note source =>
        exact readsBack_of_operand rfl fun depth =>
          means_primary ((written_name node).mono fun _ => trivial) (.name _)
    | field note target name =>
        apply readsBack_of_operand rfl
        intro depth
        have means := (part target (by simp [children])).operand depth
        obtain ⟨ts, written, reads⟩ := means.target spine_of_isNumber
        exact means_field written reads node
    | index note target key =>
        apply readsBack_of_operand rfl
        intro depth
        have means := (part target (by simp [children])).operand depth
        have meansKey := (part key (by simp [children])).operand depth
        obtain ⟨ts, written, reads⟩ := means.target spine_of_isNumber
        exact means_index written reads meansKey
    | call note style callee args =>
        apply readsBack_of_operand rfl
        intro depth
        have means := (part callee (by simp [children])).operand depth
        have others : ∀ e ∈ args, ReadsBack A indent imports e := by
          intro e member
          exact part e (List.mem_cons_of_mem _ member)
        obtain ⟨dotted, ts, written, reads⟩ := means_callee style callee means
        exact means_call written reads (readsBack_all others depth)
    | object note fields =>
        exact readsBack_of_operand rfl fun depth => means_object (readsBack_fields part depth)
    | cast note operand =>
        exact readsBack_of_operand rfl fun depth =>
          (part operand (by simp [children])).operand depth
    | raw note template args => exact node.elim
    | unary note op operand =>
        exact readsBack_of_operand rfl fun depth =>
          means_unary ((part operand (by simp [children])).operand depth)
    | binary note op left right =>
        apply readsBack_of_operand rfl
        intro depth
        have first := (part left (by simp [children])).operand depth
        have second := (part right (by simp [children])).operand depth
        exact means_infixed (by cases op <;> decide) op.text_mark op.level_mark first second
    | logical note op left right =>
        apply readsBack_of_operand rfl
        intro depth
        have first := (part left (by simp [children])).operand depth
        have second := (part right (by simp [children])).operand depth
        exact means_infixed (by cases op <;> decide) op.text_mark op.level_mark first second
    | lambda note params body =>
        refine readsBack_of_operand rfl fun depth => means_lambda ?_ ?_
        · intro name member
          obtain ⟨p, inParams, rfl⟩ := List.mem_map.mp member
          exact node p inParams
        · exact (part body (by simp [children])).operand depth
    | bind note binding value body =>
        have meansValue := (part value (by simp [children])).operand
        have lines := (part body (by simp [children])).lines
        have both : ∀ depth, LinesMean A
            (Rendered.constant (indent.text depth) binding.name
                (renderAt indent imports .operand depth value) ++
              (renderAt indent imports .rest depth body).text)
            ((binding.name, value.tree imports) :: (body.reading imports .rest).constants)
            (body.reading imports .rest).tree := by
          intro depth
          exact linesMean_constant (isBlank_indent indent depth) node (meansValue depth) (lines depth)
        exact ⟨fun depth => means_block (isBlank_indent indent depth) (both (depth + 1)), both⟩
    | conditional note guard yes no =>
        apply readsBack_of_operand rfl
        intro depth
        have first := (part guard (by simp [children])).operand depth
        have second := (part yes (by simp [children])).operand depth
        have third := (part no (by simp [children])).operand depth
        exact means_conditional first second third
    | sequence note exprs =>
        exact readsBack_of_operand rfl fun depth => means_sequence (readsBack_all part depth)

-- A phrase that is no part of another one has one reading.
theorem means_uniquely {r : Rendered} {s : Spine} (means : Means A r s) :
    ∃ ts, lex A r.text.toList = some ts ∧ ∀ t, Reads .comma ts t ↔ t = s.tree := by
  obtain ⟨ts, written, reads⟩ := means
  have own : Reads .comma ts s.tree := reads.reads (q := .sequence) (Nat.zero_le _) (by decide)
  refine ⟨ts, written.spells.lex (.inl rfl), fun t => ?_⟩
  constructor
  · intro other
    exact other.unique own
  · rintro rfl
    exact own

/-- The text of a readable expression has one reading, its tree. -/
theorem render_reads (indent : Indent) (depth : Nat) (e : Expr) (readable : e.Readable A imports) :
    ∃ ts, lex A (e.render indent imports depth).text.toList = some ts ∧
      ∀ t, Reads .comma ts t ↔ t = e.tree imports := by
  have back : ReadsBack A indent imports e := readsBack e readable
  exact means_uniquely (back.operand depth)

end

/-! ## Operators, conditionals, sequences and plain calls -/

section
variable (A : Alphabet)

/-- Whether the node is an identifier, an integer, an operation, a conditional, a sequence, a
plain call, an index access, a field of an identifier or a cast. -/
def OperatorNode : Expr → Prop
  | .ident _ binding => A.IsName binding.name
  | .literal _ (.int _) => True
  | .field _ (.ident ..) _ => True
  | .call _ .direct _ _ => True
  | .index .. | .cast .. | .unary .. | .binary .. | .logical .. | .conditional ..
  | .sequence .. => True
  | _ => False

/-- Whether an expression is built, to any depth, from such nodes only. -/
def OperatorsOnly (e : Expr) : Prop := ∀ s ∈ e.subterms, s.OperatorNode A

variable {A}

theorem OperatorNode.readable {e : Expr} (node : e.OperatorNode A) : e.ReadableNode A {} := by
  cases e with
  | field note target name =>
      cases target <;> first | exact fun _ => .inr rfl | exact node.elim
  | ident => exact node
  | literal | index | call | cast | unary | binary | logical | conditional | sequence => trivial
  | imported | object | raw | lambda | bind => exact node.elim

-- Parentheses stand exactly where the grammar needs them: the text has no parse but the tree of
-- the expression.
theorem operators_parse_uniquely (indent : Indent) (e : Expr) (operators : e.OperatorsOnly A) :
    ∃ ts, lex A (e.text indent).toList = some ts ∧
      ∀ t, Reads .comma ts t ↔ t = e.operatorTree := by
  have readable : e.Readable A {} := by
    intro s member
    exact (operators s member).readable
  rw [operatorTree_eq]
  exact render_reads indent 0 e readable

/-- The operations `-(-1) - (a - b)` under a cast. -/
def difference : Expr :=
  let note := Note.typed .any
  .binary note .subtract (.unary note .negate (.cast note (.literal note (.int (-1)))))
    (.cast note (.binary note .subtract (.ident note ⟨"a", .any⟩) (.ident note ⟨"b", .any⟩)))

theorem difference_parses_uniquely :
    difference.OperatorsOnly .ascii ∧
      ∃ ts, lex .ascii (difference.text .standard).toList = some ts ∧
        ∀ t, Reads .comma ts t ↔
          t = .binary .minus (.unary .minus (.unary .minus (.number "1")))
            (.binary .minus (.name "a") (.name "b")) := by
  have first : Alphabet.ascii.IsName "a" :=
    Alphabet.isName_of_letters _ (by decide) (by decide) (by decide)
  have second : Alphabet.ascii.IsName "b" :=
    Alphabet.isName_of_letters _ (by decide) (by decide) (by decide)
  have operators : difference.OperatorsOnly .ascii := by
    simp [OperatorsOnly, difference, subterms, OperatorNode, first, second]
  exact ⟨operators, operators_parse_uniquely .standard difference operators⟩

end
end CallReplacement.Expr
